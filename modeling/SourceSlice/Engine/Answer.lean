import SourceSlice.LineNumber
import SourceSlice.Selection
import SourceSlice.Text.Split
/-!
# What an engine leaves

A program ends with a status, which the system tells as a number.  Its lowest seven bits are zero when the program left
an exit code, which then stands in the second byte, and else hold the signal that ended it; the bit above them tells
that memory was dumped.  `signalName?` has the names of the signals of Linux.

An engine that succeeds leaves a report, with one line for each source file: the file's name, then the numbers of its
lines, with commas between them.  Reading a report fills a selection from its first line to its last.
-/
namespace SourceSlice

/-- The end of a program's run, as the system tells it. -/
structure ExitStatus where
  status : Nat
deriving DecidableEq, Repr

namespace ExitStatus

def signalNames : List String :=
  ["SIGHUP", "SIGINT", "SIGQUIT", "SIGILL", "SIGTRAP", "SIGABRT", "SIGBUS", "SIGFPE", "SIGKILL", "SIGUSR1", "SIGSEGV",
    "SIGUSR2", "SIGPIPE", "SIGALRM", "SIGTERM", "SIGSTKFLT", "SIGCHLD", "SIGCONT", "SIGSTOP", "SIGTSTP", "SIGTTIN",
    "SIGTTOU", "SIGURG", "SIGXCPU", "SIGXFSZ", "SIGVTALRM", "SIGPROF", "SIGWINCH", "SIGIO", "SIGPWR", "SIGSYS"]

def signalName? (signal : Nat) : Option String := if signal = 0 then none else signalNames[signal - 1]?

/-- The status of a program that left an exit code. -/
def exited (code : Nat) : ExitStatus := ⟨code * 256⟩

def code? (s : ExitStatus) : Option Nat := if s.status % 128 = 0 then some (s.status / 256 % 256) else none

/-- The signal that ended the program; 127 is none. -/
def signal? (s : ExitStatus) : Option Nat :=
  if s.status % 128 = 0 ∨ s.status % 128 = 127 then none else some (s.status % 128)

def coreDumped (s : ExitStatus) : Bool := s.status / 128 % 2 = 1

/-- The signal that stopped the program, which is then not at its end. -/
def stoppedBy? (s : ExitStatus) : Option Nat := if s.status % 256 = 127 then some (s.status / 256 % 256) else none

def isSuccess (s : ExitStatus) : Bool := s.status = 0

def signalText (signal : Nat) : String :=
  match signalName? signal with
  | some name => s!"{signal} ({name})"
  | none => toString signal

/-- **The wording of a status.** -/
def message (s : ExitStatus) : String :=
  match s.code?, s.signal?, s.stoppedBy? with
  | some code, _, _ => s!"exit status: {code}"
  | none, some signal, _ => s!"signal: {signalText signal}" ++ if s.coreDumped then " (core dumped)" else ""
  | none, none, some signal => s!"stopped (not terminated) by signal: {signalText signal}"
  | none, none, none =>
    if s.status = 0xFFFF then "continued (WIFCONTINUED)"
    else s!"unrecognised wait status: {s.status} 0x{String.ofList (Nat.toDigits 16 s.status)}"

end ExitStatus
end SourceSlice

namespace SourceSlice.Report

open Text

/-- A field of a report line that is no line number, and the line it stands in. -/
structure Fault where
  line : String
  field : String
deriving DecidableEq, Repr

def dropReturn (line : List Char) : List Char :=
  if line.getLast? = some '\r' then line.dropLast else line

/-- The carriage returns before line ends do not count; the last piece has no line end after it. -/
def dropReturns : List (List Char) → List (List Char)
  | [] => []
  | [last] => [last]
  | line :: rest => dropReturn line :: dropReturns rest

def lines (report : List Char) : List (List Char) := dropReturns (splitOn '\n' report)

/-- The numbers of the fields after the file's name, up to the first that is none. -/
def numbers (line : List Char) : List (List Char) → Except Fault (List UInt32)
  | [] => .ok []
  | field :: fields =>
    match LineNumber.parseField? field with
    | none => .error ⟨String.ofList line, String.ofList field⟩
    | some n => (numbers line fields).map (n.val :: ·)

/-- The selection with one more line of a report; a line of blanks carries nothing. -/
def addLine (s : Selection) (line : List Char) : Except Fault Selection :=
  if trim line = [] then .ok s
  else match splitOn ',' line with
    | [] => .ok s
    | file :: fields => (numbers line fields).map (s.insertMany (String.ofList file))

def addLines (s : Selection) : List (List Char) → Except Fault Selection
  | [] => .ok s
  | line :: rest => match addLine s line with
    | .ok s => addLines s rest
    | .error fault => .error fault

/-- **The selection that a report describes**, or its first fault. -/
def parse (report : String) : Except Fault Selection := addLines ∅ (lines report.toList)

end SourceSlice.Report
