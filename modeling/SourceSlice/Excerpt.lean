import SourceSlice.FileSystem
import SourceSlice.Selection
import SourceSlice.SliceError
import SourceSlice.Text.Split
/-!
# Excerpts

The text of a selection: the selected lines of each of its files, in the order of the entries and from the top of each
file to its end.  Every file with a name is read, also when no line of it is selected.
-/
namespace SourceSlice

open Text

/-- The number that a line is looked up by; the count stops at the greatest line number. -/
def lineNumberAt (position : Nat) : UInt32 := UInt32.ofNat (min position LineNumber.greatest)

/-- The wanted lines, reading on at a position.  Of the numbers that are wanted, `ahead` holds those that may still
come; `owed` says how many lines are still to be shown, and with the last of them the reading ends. -/
def excerptFrom (ahead : List UInt32) (position owed : Nat) : List SourceLine → List Char
  | [] => []
  | line :: rest =>
    let n := lineNumberAt position
    let ahead := ahead.dropWhile (· < n)
    if ahead.head? = some n then
      line.shown ++ if owed = 1 then [] else excerptFrom ahead (position + 1) (owed - 1) rest
    else excerptFrom ahead (position + 1) owed rest

/-- **The lines of a set among the lines of a file.** -/
def excerptOf (wanted : LineSet) (lines : List SourceLine) : List Char := excerptFrom wanted.toList 1 wanted.size lines

/-- Of ascending numbers, one is found at the front once all smaller ones are gone. -/
theorem head?_dropWhile_lt {n : UInt32} : ∀ {l : List UInt32}, l.Pairwise (· < ·) →
    ((l.dropWhile (· < n)).head? = some n ↔ n ∈ l)
  | [], _ => by simp
  | m :: l, h => by
    obtain ⟨hm, hl⟩ := List.pairwise_cons.1 h
    by_cases hmn : m < n
    · have hne : n ≠ m := fun e => UInt32.lt_irrefl _ (e ▸ hmn)
      rw [List.dropWhile_cons_of_pos (by simpa using hmn), head?_dropWhile_lt hl, List.mem_cons]
      simp [hne]
    · rw [List.dropWhile_cons_of_neg (by simpa using hmn), List.head?_cons, Option.some_inj, List.mem_cons]
      refine ⟨fun e => .inl e.symm, ?_⟩
      rintro (e | e)
      · exact e.symm
      · exact absurd (hm n e) hmn

def FileSystem.readSource (files : FileSystem) (p : Path) : Except SliceError String :=
  match files.read p with
  | .error fault => .error (.sourceUnavailable p fault)
  | .ok bytes => match Utf8.decode bytes with
    | .ok text => .ok text
    | .error fault => .error (.sourceUnavailable p (.notUtf8 fault))

/-- The excerpt of one entry; lines that belong to no file have none. -/
def Entry.excerpt (files : FileSystem) (e : Entry) : Except SliceError (List Char) :=
  if e.file = "" then .ok []
  else match files.readSource ⟨e.file⟩ with
    | .error error => .error error
    | .ok text => .ok (excerptOf e.lines (sourceLines text.toList))

/-- The excerpts of entries, one after the other, unless one of them fails. -/
def excerptEntries (files : FileSystem) : List Entry → Except SliceError (List Char)
  | [] => .ok []
  | e :: rest => match e.excerpt files with
    | .error error => .error error
    | .ok text => match excerptEntries files rest with
      | .error error => .error error
      | .ok texts => .ok (text ++ texts)

/-- **The text of a selection**, or the first file of it that cannot be read. -/
def Selection.excerpt (files : FileSystem) (s : Selection) : Except SliceError String :=
  (excerptEntries files s.entries).map String.ofList

end SourceSlice
