/-!
# Blanks, pieces and lines

Which characters count as white space, and cutting them off a text.  The set is the Unicode property `White_Space`;
an engine's report may be indented with any of them.

Composite criteria, engine reports and path names are all texts cut at one character.  `splitOn` gives the pieces
between the separators (always at least one), `joinWith` puts them back: `joinWith_splitOn` says nothing is lost, and
`not_mem_of_mem_splitOn` that no piece holds the separator.

In a source file `\n`, `\r\n` and a lone `\r` all end a line.  `sourceLines` cuts a text there and remembers which lines
had an end; `normalize` writes every line end as one `\n`.  The two agree: `joinLines_sourceLines` says that the lines,
each with a `\n` where it had an end, are the normalized text, so counting lines loses nothing but the spelling of line
ends.
-/
namespace SourceSlice.Text

/-- **The characters with the Unicode property `White_Space`**: 25 of them, in ten ranges. -/
def isBlank (c : Char) : Bool :=
  let n := c.toNat
  (0x09 ≤ n && n ≤ 0x0D) || n == 0x20 || n == 0x85 || n == 0xA0 || n == 0x1680 || (0x2000 ≤ n && n ≤ 0x200A) ||
    n == 0x2028 || n == 0x2029 || n == 0x202F || n == 0x205F || n == 0x3000

def trimEnd (s : List Char) : List Char := (s.reverse.dropWhile isBlank).reverse

def trim (s : List Char) : List Char := trimEnd (s.dropWhile isBlank)

/-- A run of blanks trims to nothing, and only such a run does. -/
theorem dropWhile_isBlank_eq_nil_iff {s : List Char} : s.dropWhile isBlank = [] ↔ ∀ c ∈ s, isBlank c = true := by
  induction s with
  | nil => simp
  | cons d s ih => rw [List.dropWhile_cons]; cases h : isBlank d <;> simp [h, ih]

/-- **A text is nothing but blanks exactly when trimming leaves nothing.** -/
theorem trim_eq_nil_iff {s : List Char} : trim s = [] ↔ ∀ c ∈ s, isBlank c = true := by
  rw [trim, trimEnd, List.reverse_eq_nil_iff, dropWhile_isBlank_eq_nil_iff]
  constructor
  · intro h c hc
    rw [← List.takeWhile_append_dropWhile (p := isBlank) (l := s), List.mem_append] at hc
    rcases hc with hc | hc
    · exact List.all_eq_true.1 List.all_takeWhile c hc
    · exact h c (List.mem_reverse.2 hc)
  · intro h c hc
    exact h c (List.dropWhile_sublist isBlank |>.mem (List.mem_reverse.1 hc))

/-! ## Pieces -/

def consPiece (sep c : Char) (pieces : List (List Char)) : List (List Char) :=
  if c = sep then [] :: pieces
  else match pieces with
    | [] => [[c]]
    | piece :: pieces => (c :: piece) :: pieces

/-- The pieces of a text between its separators, in order; a text without a separator is one piece. -/
def splitOn (sep : Char) (s : List Char) : List (List Char) := s.foldr (consPiece sep) [[]]

@[simp] theorem splitOn_nil (sep : Char) : splitOn sep [] = [[]] := rfl

@[simp] theorem splitOn_cons (sep c : Char) (s : List Char) :
    splitOn sep (c :: s) = consPiece sep c (splitOn sep s) := rfl

def joinWith (sep : Char) : List (List Char) → List Char
  | [] => []
  | [piece] => piece
  | piece :: pieces => piece ++ sep :: joinWith sep pieces

/-- The text before the first separator and the text after it; `none` when there is no separator. -/
def cutAt (sep : Char) : List Char → Option (List Char × List Char)
  | [] => none
  | c :: rest => if c = sep then some ([], rest) else (cutAt sep rest).map fun (a, b) => (c :: a, b)

theorem splitOn_ne_nil (sep : Char) : ∀ s : List Char, splitOn sep s ≠ []
  | [] => by simp
  | c :: rest => by
    rw [splitOn_cons]; unfold consPiece
    split
    · simp
    · split <;> simp

/-- **Joining the pieces gives the text back.** -/
theorem joinWith_splitOn (sep : Char) : ∀ s : List Char, joinWith sep (splitOn sep s) = s
  | [] => rfl
  | c :: rest => by
    have ih := joinWith_splitOn sep rest
    have hne := splitOn_ne_nil sep rest
    rw [splitOn_cons]; unfold consPiece
    split
    next h =>
      subst h
      cases hs : splitOn c rest with
      | nil => exact absurd hs hne
      | cons p ps => rw [hs] at ih; simp [joinWith, ih]
    next h =>
      cases hs : splitOn sep rest with
      | nil => exact absurd hs hne
      | cons p ps =>
        rw [hs] at ih
        cases ps with
        | nil => simpa [joinWith] using ih
        | cons q qs => simpa [joinWith] using ih

/-- No piece holds the separator. -/
theorem not_mem_of_mem_splitOn (sep : Char) :
    ∀ (s piece : List Char), piece ∈ splitOn sep s → sep ∉ piece
  | [], piece, h => by simp at h; simp [h]
  | c :: rest, piece, h => by
    have ih := not_mem_of_mem_splitOn sep rest
    rw [splitOn_cons] at h; unfold consPiece at h
    split at h
    next hc =>
      rcases List.mem_cons.1 h with rfl | h
      · simp
      · exact ih piece h
    next hc =>
      cases hs : splitOn sep rest with
      | nil => exact absurd hs (splitOn_ne_nil sep rest)
      | cons p ps =>
        rw [hs] at h ih
        rcases List.mem_cons.1 h with rfl | h
        · intro hm
          rcases List.mem_cons.1 hm with rfl | hm
          · exact hc rfl
          · exact ih p (by simp) hm
        · exact ih piece (by simp [h])

/-- The pieces of two texts with a separator between them are those of the one, then those of the other. -/
theorem splitOn_append_cons (sep : Char) (t : List Char) : ∀ s : List Char,
    splitOn sep (s ++ sep :: t) = splitOn sep s ++ splitOn sep t
  | [] => by simp [consPiece]
  | c :: rest => by
    rw [List.cons_append, splitOn_cons, splitOn_cons, splitOn_append_cons sep t rest]
    unfold consPiece
    split
    · rfl
    · cases h : splitOn sep rest with
      | nil => exact absurd h (splitOn_ne_nil sep rest)
      | cons p ps => rfl

theorem cutAt_eq_some {sep : Char} {s a b : List Char} (h : cutAt sep s = some (a, b)) :
    s = a ++ sep :: b ∧ sep ∉ a := by
  induction s generalizing a b with
  | nil => simp [cutAt] at h
  | cons c rest ih =>
    unfold cutAt at h
    split at h
    next hc => simp at h; obtain ⟨rfl, rfl⟩ := h; simp [hc]
    next hc =>
      obtain ⟨⟨x, y⟩, hxy, he⟩ := Option.map_eq_some_iff.1 h
      simp only [Prod.mk.injEq] at he
      obtain ⟨rfl, rfl⟩ := he
      obtain ⟨hr, hn⟩ := ih hxy
      refine ⟨by simp [hr], fun hm => ?_⟩
      rcases List.mem_cons.1 hm with rfl | hm
      · exact hc rfl
      · exact hn hm

theorem cutAt_append {sep : Char} {a b : List Char} (h : sep ∉ a) : cutAt sep (a ++ sep :: b) = some (a, b) := by
  induction a with
  | nil => simp [cutAt]
  | cons c a ih =>
    simp only [List.mem_cons, not_or] at h
    simp [cutAt, ih h.2, Ne.symm h.1]

theorem cutAt_eq_none_iff {sep : Char} {s : List Char} : cutAt sep s = none ↔ sep ∉ s := by
  induction s with
  | nil => simp [cutAt]
  | cons c rest ih =>
    unfold cutAt
    split
    next hc => simp [hc]
    next hc => simp [ih, Ne.symm hc]

/-! ## Lines -/

/-- A line without its end, and whether it had one. -/
structure SourceLine where
  text : List Char
  terminated : Bool
deriving DecidableEq, Repr

/-- The line as it is shown: closed by `\n` where it had an end. -/
def SourceLine.shown (l : SourceLine) : List Char := l.text ++ if l.terminated then ['\n'] else []

/-- The lines from the middle of one, whose characters so far stand in `seen`, the last first. -/
def linesFrom (seen : List Char) : List Char → List SourceLine
  | [] => if seen.isEmpty then [] else [⟨seen.reverse, false⟩]
  | '\r' :: '\n' :: rest => ⟨seen.reverse, true⟩ :: linesFrom [] rest
  | c :: rest =>
    if c = '\r' ∨ c = '\n' then ⟨seen.reverse, true⟩ :: linesFrom [] rest else linesFrom (c :: seen) rest

/-- **The lines of a text**, in order.  An empty text has none; a last line without an end is not empty. -/
def sourceLines (text : List Char) : List SourceLine := linesFrom [] text

/-- The text with each line end written `\n`. -/
def normalize : List Char → List Char
  | [] => []
  | '\r' :: '\n' :: rest => '\n' :: normalize rest
  | c :: rest => (if c = '\r' then '\n' else c) :: normalize rest

def joinLines (lines : List SourceLine) : List Char := lines.flatMap SourceLine.shown

theorem joinLines_linesFrom (seen s : List Char) : joinLines (linesFrom seen s) = seen.reverse ++ normalize s := by
  fun_induction linesFrom seen s with
  | case1 seen h => simp at h; simp [h, joinLines, normalize]
  | case2 seen h => simp [joinLines, normalize, SourceLine.shown]
  | case3 seen rest ih =>
    simp only [joinLines, List.flatMap_cons, normalize] at ih ⊢
    rw [ih]; simp [SourceLine.shown]
  | case4 seen c rest hne h ih =>
    rw [normalize.eq_3 _ _ hne]
    simp only [joinLines, List.flatMap_cons] at ih ⊢
    rw [ih]
    rcases h with rfl | rfl <;> simp [SourceLine.shown]
  | case5 seen c rest hne h ih =>
    rw [normalize.eq_3 _ _ hne, ih]
    simp only [not_or] at h
    simp [h.1]

/-- **No line is lost**: the lines put back together are the text with every line end written `\n`. -/
theorem joinLines_sourceLines (s : List Char) : joinLines (sourceLines s) = normalize s :=
  (joinLines_linesFrom [] s).trans (by simp)

end SourceSlice.Text
