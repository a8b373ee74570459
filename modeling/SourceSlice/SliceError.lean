import SourceSlice.Criterion
import SourceSlice.Engine.Answer
import SourceSlice.FileSystem
import SourceSlice.Text.Split
/-!
# Why slicing fails

Each of these ends the whole run.  A row that does not look like a criterion is no failure: it is passed over.
-/
namespace SourceSlice

/-- Why the criteria of a run cannot be told from what was given. -/
inductive InvocationFault where
  | bothInputs
  | noInput
  | criterion (error : CriterionError)
deriving DecidableEq, Repr

def InvocationFault.message : InvocationFault → String
  | bothInputs => "a criteria table and an ad-hoc criterion were both given; use one"
  | noInput => "either a criteria table or an ad-hoc criterion must be provided"
  | criterion error => error.message

/-- A reason for which a run ends without a result. -/
inductive SliceError where
  | engineNotFound (path : Path) (fault : FileFault)
  /-- The engine ended without success; `stderr` is what it said about it. -/
  | engineFailed (key : String) (status : ExitStatus) (stderr : String)
  | malformedReport (fault : Report.Fault)
  /-- A file named in a selection could not be read. -/
  | sourceUnavailable (path : Path) (fault : FileFault)
  | labelCountMismatch (slices labels : Nat)
  | invalidInvocation (fault : InvocationFault)
  | tableUnreadable (path : Path) (fault : FileFault)
  | tableMalformed (path : Path) (detail : String)
deriving DecidableEq, Repr

def SliceError.message : SliceError → String
  | engineNotFound path fault =>
    s!"slicing engine `{path.text}` could not be executed: {fault.message}. " ++
      "Install llvm-src-slicer, put it on PATH, or pass --engine / set VARSLICE_ENGINE"
  | engineFailed key status stderr =>
    s!"slicing engine failed ({status.message}) for criterion {key}: " ++ String.ofList (Text.trimEnd stderr.toList)
  | malformedReport fault =>
    s!"malformed engine output line `{fault.line}`: `{fault.field}` is not a positive line number"
  | sourceUnavailable path fault => s!"source file {path.text} is unavailable: {fault.message}"
  | labelCountMismatch slices labels => s!"number of labels ({labels}) and code slices ({slices}) do not match"
  | invalidInvocation fault => s!"invalid invocation: {fault.message}"
  | tableUnreadable path fault => s!"failed to read criteria table {path.text}: {fault.message}"
  | tableMalformed path detail => s!"failed to parse criteria table {path.text}: {detail}"

end SourceSlice
