import SourceSlice.Criterion
import SourceSlice.FileSystem
import SourceSlice.SliceError
/-!
# Engines

An engine answers one request at a time and may remember what it was asked before: its state is a value of a type of
its own.  A request is one criterion, given as a list of arguments that ends in the artifact.  `Engine.ofProgram` makes
an engine of a program, which takes arguments and leaves a status and two texts; `Engine.spawned` finds the program
among the files first, where a name without a slash is looked for in the directories of programs.
-/
namespace SourceSlice

structure EngineOptions where
  /-- Whether the engine checks the sliced module, which is slow. -/
  verify : Bool
deriving DecidableEq, Repr

structure Request where
  criterion : Criterion
  artifact : Path
  options : EngineOptions
  /-- Whether the answer is to be line numbers, not source text. -/
  lineNumbers : Bool := true
deriving DecidableEq, Repr

/-- **The engine's arguments for a request.** -/
def Request.args (r : Request) : List String :=
  ["-sc", r.criterion.key, "-entry", r.criterion.entryPoint]
    ++ (if r.options.verify then [] else ["--dont-verify"])
    ++ (if r.criterion.direction = .forward then ["--forward"] else [])
    ++ (if r.lineNumbers then ["--linenum"] else [])
    ++ [r.artifact.text]

structure Outcome where
  status : ExitStatus
  stdout : ByteArray
  stderr : ByteArray

/-- A program with a state that outlives its runs. -/
abbrev Program (σ : Type) := List String → σ → Outcome × σ

/-- **An engine**: it answers a request with a text or fails, and its state moves on. -/
abbrev Engine (σ : Type) := Request → σ → Except SliceError String × σ

def Outcome.answer (o : Outcome) (r : Request) : Except SliceError String :=
  if o.status.isSuccess then .ok (Utf8.decodeLoosely o.stdout)
  else .error (.engineFailed r.criterion.key o.status (Utf8.decodeLoosely o.stderr))

def Engine.ofProgram {σ : Type} (program : Program σ) : Engine σ := fun r s =>
  let (outcome, s) := program r.args s
  (outcome.answer r, s)

namespace FileSystem

/-- The length that an argument of a program must stay below, in bytes. -/
def argumentLimit : Nat := 131072

/-- The directories of programs where the environment says nothing of them. -/
def standardSearchPath : String := "/bin:/usr/bin"

/-- The directories that a search path lists, with a colon between two. -/
def directoriesIn (searchPath : Option String) : List String :=
  (Text.splitOn ':' (searchPath.getD standardSearchPath).toList).map String.ofList

/-- **The paths at which a program may stand**: that of a slash in its name, and otherwise one in each directory of
programs.  A directory without a name is the current one. -/
def programPaths (searchPath : Option String) (p : Path) : List Path :=
  if p.text.toList.contains '/' then [p]
  else (directoriesIn searchPath).map fun d => if d = "" then p else ⟨d ++ "/" ++ p.text⟩

/-- Whether what a path names is a program that takes these arguments. -/
def launchNode (args : List String) : Node → Except FileFault Unit
  | .directory => .error .permissionDenied
  | .file _ false => .error .permissionDenied
  | .file content true =>
    if args.any (argumentLimit ≤ ·.utf8ByteSize) then .error .argumentsTooLong
    else if content matches .program _ then .ok () else .error .notAProgram

def launchAt (fs : FileSystem) (args : List String) (p : Path) : Except FileFault Unit :=
  (fs.find p).bind (launchNode args)

/-- Whether a search goes on after a fault, for another directory may still hold the program. -/
def isPassedOver : FileFault → Bool
  | .notFound | .notADirectory | .permissionDenied => true
  | _ => false

/-- Starts the first program that stands at one of some paths.  What went wrong at the last of them is the fault, unless
at any of them there was something that may not be run. -/
def launchFirst (fs : FileSystem) (args : List String) : FileFault → List Path → Except FileFault Unit
  | fault, [] => .error fault
  | fault, p :: rest => match fs.launchAt args p with
    | .ok () => .ok ()
    | .error here =>
      if isPassedOver here then fs.launchFirst args (if fault = .permissionDenied then fault else here) rest
      else .error here

/-- **Whether a name leads to a program** that takes these arguments. -/
def launch (fs : FileSystem) (searchPath : Option String) (p : Path) (args : List String) : Except FileFault Unit :=
  if (p.text :: args).any (·.toList.contains '\x00') then .error .nulInArgument
  else if p.text = "" then .error .notFound
  else fs.launchFirst args .notFound (programPaths searchPath p)

end FileSystem

/-- The engine of a name; it fails when nothing can be started under it. -/
def Engine.spawned {σ : Type} (files : FileSystem) (searchPath : Option String) (path : Path) (program : Program σ) :
    Engine σ := fun r s =>
  match files.launch searchPath path r.args with
  | .error fault => (.error (.engineNotFound path fault), s)
  | .ok () => Engine.ofProgram program r s

end SourceSlice
