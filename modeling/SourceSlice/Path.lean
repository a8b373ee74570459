import SourceSlice.Text.Split
/-!
# Path names

A path is kept as the text it was given, for that text is what messages and engine keys show.  Two other readings of
it matter: `steps`, the walk from one directory to the next that finds the file, and `components`, which decide when
two spellings share a cache slot (repeated slashes, inner dots and a closing slash do not count there).
-/
namespace SourceSlice

open Text

structure Path where
  text : String
deriving DecidableEq, Repr

namespace Path

inductive Step where
  | here
  | up
  | name (name : String)
deriving DecidableEq, Repr

def Step.ofPiece (piece : List Char) : Step :=
  if piece = ['.'] then .here else if piece = ['.', '.'] then .up else .name (String.ofList piece)

def pieces (p : Path) : List (List Char) := splitOn '/' p.text.toList

def isAbsolute (p : Path) : Bool := p.text.toList.head? == some '/'

def isClosed (p : Path) : Bool := p.text.toList.getLast? == some '/'

def spelled (p : Path) : List Step := (p.pieces.filter (· ≠ [])).map Step.ofPiece

/-- **The walk a path asks for.**  A slash at the end asks for one more step, which stays where it is and so needs a
directory. -/
def steps (p : Path) : List Step := p.spelled ++ if p.isClosed then [.here] else []

/-- The steps that count when spellings are compared: a leading dot and every `..` stay. -/
def significant : List Step → List Step
  | .here :: rest => .here :: rest.filter (· ≠ .here)
  | steps => steps.filter (· ≠ .here)

/-- What is compared of a path: whether it starts at the root, and its steps. -/
structure Components where
  absolute : Bool
  steps : List Step
deriving DecidableEq, Repr

/-- **The components of a path.**  A dot counts only where it opens a relative path. -/
def components (p : Path) : Components :=
  ⟨p.isAbsolute, if p.isAbsolute then p.steps.filter (· ≠ .here) else significant p.steps⟩

def fileName? (p : Path) : Option String :=
  match p.components.steps.getLast? with
  | some (.name n) => some n
  | _ => none

/-- The text after the last dot of the file name; a name that only starts with a dot has none. -/
def extension? (p : Path) : Option String := do
  let name ← p.fileName?
  let (after, before) ← cutAt '.' name.toList.reverse
  if before.isEmpty then none else some (String.ofList after.reverse)

end Path
end SourceSlice
