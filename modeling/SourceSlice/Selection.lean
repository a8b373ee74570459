import SourceSlice.LineSet
/-!
# Selections

A selection says which lines of which files make up a slice.  Its entries keep the order in which their files were
first named, and extracted text follows that order.  The empty file name collects lines that belong to no file.

All changes go through `update`, which works on the first entry of a file and makes one when there is none;
`linesOf?_update` is its whole effect on what `linesOf?` sees.
-/
namespace SourceSlice

structure Entry where
  file : String
  lines : LineSet
deriving DecidableEq, Repr

/-- The lines that make up a slice, file by file. -/
structure Selection where
  entries : List Entry
deriving DecidableEq, Repr

namespace Selection

instance : EmptyCollection Selection := ⟨⟨[]⟩⟩
instance : Inhabited Selection := ⟨∅⟩

def lookup (file : String) : List Entry → Option LineSet
  | [] => none
  | e :: rest => if e.file = file then some e.lines else lookup file rest

/-- The entries with the first one of a file changed; a file without one gets a new entry at the end. -/
def updateEntries (file : String) (change : LineSet → LineSet) : List Entry → List Entry
  | [] => [⟨file, change ∅⟩]
  | e :: rest => if e.file = file then ⟨e.file, change e.lines⟩ :: rest else e :: updateEntries file change rest

/-- **The selected lines of a file**, where it has an entry. -/
def linesOf? (s : Selection) (file : String) : Option LineSet := lookup file s.entries

def update (s : Selection) (file : String) (change : LineSet → LineSet) : Selection :=
  ⟨updateEntries file change s.entries⟩

/-- The selection with an entry for a file, empty if it is new. -/
def touch (s : Selection) (file : String) : Selection := s.update file id

def insert (s : Selection) (file : String) (line : UInt32) : Selection := s.update file (·.insert line)

/-- Adds a line, and tells whether it is new in the entry of its file. -/
def insertNew (s : Selection) (file : String) (line : UInt32) : Bool × Selection :=
  (((s.touch file).linesOf? file).any (line ∉ ·), s.insert file line)

def insertMany (s : Selection) (file : String) (lines : List UInt32) : Selection :=
  s.update file (·.insertMany lines)

/-- Takes a line out again; the file keeps its entry. -/
def erase (s : Selection) (file : String) (line : UInt32) : Selection := s.update file (·.erase line)

def contains (s : Selection) (file : String) (line : UInt32) : Bool :=
  match s.linesOf? file with
  | some lines => decide (line ∈ lines)
  | none => false

def files (s : Selection) : List String := s.entries.map (·.file)

/-- How many entries there are, the one without a file included. -/
def size (s : Selection) : Nat := s.entries.length

def isEmpty (s : Selection) : Bool := s.entries.isEmpty

def lineCount (s : Selection) : Nat := s.entries.foldr (fun e n => e.lines.size + n) 0

/-- The selection without the lines that belong to no file. -/
def attributed (s : Selection) : Selection := ⟨s.entries.filter (·.file ≠ "")⟩

/-- **Everything of both**: the entries of `s` first, then those for files that only `t` names. -/
def union (s t : Selection) : Selection := t.entries.foldl (fun s e => s.insertMany e.file e.lines.toList) s

instance : Union Selection := ⟨union⟩

theorem lookup_updateEntries (file g : String) (change : LineSet → LineSet) : ∀ l : List Entry,
    lookup g (updateEntries file change l)
      = if g = file then some (change ((lookup file l).getD ∅)) else lookup g l
  | [] => by
    by_cases h : g = file
    · simp [updateEntries, lookup, h]
    · simp [updateEntries, lookup, h, Ne.symm h]
  | e :: rest => by
    have ih := lookup_updateEntries file g change rest
    by_cases he : e.file = file
    · by_cases hg : g = file
      · simp [updateEntries, lookup, he, hg]
      · simp [updateEntries, lookup, he, hg, Ne.symm hg]
    · by_cases hg : e.file = g
      · have : g ≠ file := fun h => he (hg.trans h)
        simp [updateEntries, lookup, hg, this]
      · simp [updateEntries, lookup, he, hg, ih]

/-- **A change to one file is seen there and nowhere else.** -/
theorem linesOf?_update (s : Selection) (file g : String) (change : LineSet → LineSet) :
    (s.update file change).linesOf? g = if g = file then some (change ((s.linesOf? file).getD ∅)) else s.linesOf? g :=
  lookup_updateEntries file g change s.entries

/-- A change keeps the order of the files; a new one comes last. -/
theorem files_update (s : Selection) (file : String) (change : LineSet → LineSet) :
    (s.update file change).files = if file ∈ s.files then s.files else s.files ++ [file] := by
  suffices h : ∀ l : List Entry, (updateEntries file change l).map (·.file)
      = if file ∈ l.map (·.file) then l.map (·.file) else l.map (·.file) ++ [file] from h s.entries
  intro l
  induction l with
  | nil => simp [updateEntries]
  | cons e rest ih =>
    by_cases he : e.file = file
    · simp [updateEntries, he]
    · rw [updateEntries, if_neg he, List.map_cons, ih]
      simp only [List.map_cons, List.mem_cons, Ne.symm he, false_or]
      split <;> simp

end Selection
end SourceSlice
