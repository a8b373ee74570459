import SourceSlice.LineNumber
import SourceSlice.Mode
import SourceSlice.Path
/-!
# Criteria

A criterion asks for the slice of one variable at one line.  The engine takes it as one text,
`file#function#line#&varname`; `Criterion.key` writes that text and `Criterion.ofKey` reads it.

Two criteria stand for the same question when they share a `slot`: their files are compared by components, all else
as it is written.
-/
namespace SourceSlice

open Text

/-- The function in which a program starts when none is named. -/
def defaultEntryPoint : String := "main"

/-- One slicing question. -/
structure Criterion where
  file : Path
  line : LineNumber
  varname : String
  entryPoint : String
  /-- The function the variable belongs to, when the question names one. -/
  function : Option String := none
  direction : Direction := .backward
deriving DecidableEq, Repr

inductive CriterionError where
  | shape (input : String)
  | emptyFile (input : String)
  | line (input line : String)
  | varname (input : String)
deriving DecidableEq, Repr

def CriterionError.message : CriterionError → String
  | .shape input => s!"criterion `{input}` must have the form file#function#line#&varname"
  | .emptyFile input => s!"criterion `{input}` has an empty file component"
  | .line input text => s!"criterion `{input}` has an invalid line `{text}` (expected a positive integer)"
  | .varname input => s!"criterion `{input}` is missing the `&varname` component"

namespace Criterion

/-- The criterion within a function; an empty name means no function. -/
def within (c : Criterion) (function : Option String) : Criterion :=
  { c with function := function.filter (· ≠ "") }

def towards (c : Criterion) (direction : Direction) : Criterion := { c with direction }

/-- **The engine's text for a criterion**: `file#function#line#&varname`. -/
def key (c : Criterion) : String :=
  c.file.text ++ "#" ++ c.function.getD "" ++ "#" ++ toString c.line ++ "#&" ++ c.varname

/-- The four parts of a composite text: it is cut at its first three `#`. -/
def cut? (s : List Char) : Option (List Char × List Char × List Char × List Char) := do
  let (file, s) ← cutAt '#' s
  let (function, s) ← cutAt '#' s
  let (line, varname) ← cutAt '#' s
  return (file, function, line, varname)

/-- The name after the `&`, which is not empty. -/
def variableName? : List Char → Option (List Char)
  | '&' :: c :: rest => some (c :: rest)
  | _ => none

/-- **The criterion of a composite text.**  Of several faults the first is reported: the shape, the file, the line,
the variable. -/
def ofKey (input entryPoint : String) : Except CriterionError Criterion :=
  match cut? input.toList with
  | none => .error (.shape input)
  | some (file, function, line, varname) =>
    if file = [] then .error (.emptyFile input)
    else match LineNumber.parse? line with
      | none => .error (.line input (String.ofList line))
      | some number => match variableName? varname with
        | none => .error (.varname input)
        | some name => .ok <|
          ({ file := ⟨String.ofList file⟩, line := number, varname := String.ofList name, entryPoint }
            : Criterion).within (some (String.ofList function))

/-- What decides whether two criteria are the same question. -/
structure Slot where
  file : Path.Components
  line : LineNumber
  varname : String
  entryPoint : String
  function : Option String
  direction : Direction
deriving DecidableEq, Repr

def slot (c : Criterion) : Slot :=
  ⟨c.file.components, c.line, c.varname, c.entryPoint, c.function, c.direction⟩

def same (a b : Criterion) : Bool := a.slot == b.slot

end Criterion
end SourceSlice
