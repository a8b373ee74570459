/-!
# Directions and modes

A slice follows the dependences backward from its criterion or forward from it.  A run works in one of three modes;
the third asks for both slices of a criterion and merges them.
-/
namespace SourceSlice

/-- The way the engine walks the dependences from the criterion. -/
inductive Direction where
  | backward
  | forward
deriving DecidableEq, Repr

def Direction.name : Direction → String
  | .backward => "backward"
  | .forward => "forward"

inductive SliceMode where
  | backward
  | forward
  | bidirectional
deriving DecidableEq, Repr, Inhabited

namespace SliceMode

def name : SliceMode → String
  | .backward => "backward"
  | .forward => "forward"
  | .bidirectional => "bidirectional"

/-- **The mode that two switches choose**: `bidirectional` wins over `forward`. -/
def ofFlags (forward bidirectional : Bool) : SliceMode :=
  if bidirectional then .bidirectional else if forward then .forward else .backward

/-- The character a letter becomes in lower case, as far as the names of modes can tell: the capital letters of ASCII
and the Kelvin sign `U+212A` are the characters with an ASCII letter for their lower case. -/
def lower (c : Char) : Char := if c = '\u212A' then 'k' else c.toLower

/-- The mode of a name; capital letters do not count. -/
def ofName? (s : String) : Option SliceMode :=
  let s := s.toList.map lower
  [backward, forward, bidirectional].find? fun m => m.name.toList == s

theorem ofName?_name (m : SliceMode) : ofName? m.name = some m := by cases m <;> decide

end SliceMode
end SourceSlice
