import Mathlib.Data.List.TakeWhile
import SourceSlice.Proofs.Excerpt
/-!
# Line ends

`\n`, `\r\n` and a lone `\r` count alike wherever source lines are counted.  `nextLine?` takes the first line off a
text, `Drains` takes lines until none is left, and that gives `sourceLines`.  Of a text the lines keep all but the
spelling of line ends (`sourceLines_eq_iff`), so that excerpts from files that differ in nothing else are the same, and
a file of which every line is selected is shown as its normalized text: `lineEnds_lossless`.
-/
namespace SourceSlice

namespace Text

variable {text text' line rest : List Char} {lines lines' : List SourceLine}

/-! ## Taking lines off a text -/

/-- The first line of a text and what is left behind its end: a `\r` and a `\n` after it are passed together. -/
def nextLine? (rest : List Char) : Option (SourceLine × List Char) :=
  if rest = [] then none
  else
    let line := rest.takeWhile fun c => !(c = '\r' ∨ c = '\n')
    match rest.drop line.length with
    | [] => some (⟨line, false⟩, [])
    | '\r' :: '\n' :: after => some (⟨line, true⟩, after)
    | _ :: after => some (⟨line, true⟩, after)

/-- **Lines are taken off a text until it has none.** -/
inductive Drains : List Char → List SourceLine → Prop
  | done {rest : List Char} : nextLine? rest = none → Drains rest []
  | next {rest after : List Char} {line : SourceLine} {lines : List SourceLine} :
    nextLine? rest = some (line, after) → Drains after lines → Drains rest (line :: lines)

theorem Drains.unique (h : Drains text lines) : ∀ {lines' : List SourceLine}, Drains text lines' → lines = lines' := by
  induction h with
  | done hnone =>
    intro lines' h'
    cases h' with
    | done => rfl
    | next hsome => rw [hnone] at hsome; cases hsome
  | next hsome _ ih =>
    intro lines' h'
    cases h' with
    | done hnone => rw [hnone] at hsome; cases hsome
    | next hsome' hrest =>
      rw [hsome] at hsome'
      cases hsome'
      rw [ih hrest]

theorem takeWhile_unbroken (h : Unbroken line) (hrest : ∀ c ∈ rest.head?, c = '\r' ∨ c = '\n') :
    (line ++ rest).takeWhile (fun c => !(c = '\r' ∨ c = '\n')) = line := by
  rw [List.takeWhile_append_of_pos fun c hc => by simpa using h c hc]
  cases rest with
  | nil => rw [List.takeWhile_nil, List.append_nil]
  | cons c rest =>
    have hc := hrest c rfl
    rw [List.takeWhile_cons_of_neg (by simp [hc]), List.append_nil]

theorem nextLine?_unended (hne : line ≠ []) (h : Unbroken line) : nextLine? line = some (⟨line, false⟩, []) := by
  have htake : line.takeWhile (fun c => !(c = '\r' ∨ c = '\n')) = line := by
    have := takeWhile_unbroken h (nofun : ∀ c ∈ ([] : List Char).head?, c = '\r' ∨ c = '\n')
    rwa [List.append_nil] at this
  simp only [nextLine?, if_neg hne, htake, List.drop_length]

theorem nextLine?_ended {ending : List Char} (h : Unbroken line) (hend : LineEnd ending rest) :
    nextLine? (line ++ ending ++ rest) = some (⟨line, true⟩, rest) := by
  obtain ⟨hne, hhead⟩ : line ++ (ending ++ rest) ≠ [] ∧ ∀ c ∈ (ending ++ rest).head?, c = '\r' ∨ c = '\n' := by
    rcases hend with rfl | rfl | ⟨rfl, -⟩ <;> simp
  simp only [List.append_assoc, nextLine?, if_neg hne, takeWhile_unbroken h hhead, List.drop_left]
  rcases hend with rfl | rfl | ⟨rfl, hrest⟩
  · rfl
  · rfl
  · cases rest with
    | nil => rfl
    | cons c rest =>
      -- A `\n` here would belong to the `\r` before it.
      have hc : c ≠ '\n' := by simpa using hrest
      simp [hc]

theorem InLines.drains (h : InLines text lines) : Drains text lines := by
  induction h with
  | empty => exact .done rfl
  | unended hne hline => exact .next (nextLine?_unended hne hline) (.done rfl)
  | ended hline hend _ ih => exact .next (nextLine?_ended hline hend) ih

theorem drains_iff : Drains text lines ↔ lines = sourceLines text := by
  have h : Drains text (sourceLines text) := (inLines_iff.2 rfl).drains
  constructor
  · exact fun hlines => hlines.unique h
  · rintro rfl
    exact h

/-! ## What the lines of a text are -/

theorem InLines.unbroken (h : InLines text lines) : ∀ l ∈ lines, Unbroken l.text := by
  induction h with
  | empty => exact nofun
  | unended _ hline => exact List.forall_mem_singleton.2 hline
  | ended hline _ _ ih => exact List.forall_mem_cons.2 ⟨hline, ih⟩

theorem InLines.terminated (h : InLines text lines) : ∀ l ∈ lines.dropLast, l.terminated = true := by
  induction h with
  | empty => exact nofun
  | unended => exact nofun
  | @ended _ _ _ lines _ _ _ ih =>
    cases lines with
    | nil => exact nofun
    | cons l lines =>
      rw [List.dropLast_cons_cons]
      exact List.forall_mem_cons.2 ⟨rfl, ih⟩

theorem InLines.ne_nil (h : InLines text lines) : ∀ l ∈ lines, l.terminated = false → l.text ≠ [] := by
  induction h with
  | empty => exact nofun
  | unended hne => exact List.forall_mem_singleton.2 fun _ => hne
  | ended _ _ _ ih => exact List.forall_mem_cons.2 ⟨nofun, ih⟩

theorem InLines.joinLines (h : InLines text lines) : InLines (joinLines lines) lines := by
  induction h with
  | empty => exact .empty
  | @unended line hne hline =>
    have : Text.joinLines [⟨line, false⟩] = line := by simp [Text.joinLines, SourceLine.shown]
    rw [this]
    exact .unended hne hline
  | @ended line _ _ lines hline _ _ ih => exact .ended hline (.inr (.inl rfl)) ih

theorem sourceLines_normalize (text : List Char) : sourceLines (normalize text) = sourceLines text := by
  rw [← joinLines_sourceLines]
  exact inLines_iff.1 (inLines_iff.2 rfl).joinLines

/-- **Two texts have the same lines when they differ in how line ends are spelled**, and only then. -/
theorem sourceLines_eq_iff : sourceLines text = sourceLines text' ↔ normalize text = normalize text' := by
  constructor
  · intro h
    rw [← joinLines_sourceLines, h, joinLines_sourceLines]
  · intro h
    rw [← sourceLines_normalize, h, sourceLines_normalize]

end Text

open Text

/-! ## Files alike but for their line ends -/

/-- What stands at a place, alike but for line ends: nothing or a directory in both, the same file, or two files with
texts that differ in how line ends are spelled. -/
inductive Node.SameText : Option Node → Option Node → Prop
  | refl (n : Option Node) : SameText n n
  | texts {content content' : Content} {executable executable' : Bool} {text text' : String} :
    content.toBytes = text.toUTF8 → content'.toBytes = text'.toUTF8 →
    normalize text.toList = normalize text'.toList →
    SameText (some (.file content executable)) (some (.file content' executable'))

namespace FileSystem

variable {a b : FileSystem} {p : Path}

/-- **Two trees alike but for the line ends in their files.** -/
structure SameTexts (a b : FileSystem) : Prop where
  current : b.current = a.current
  node : ∀ l, Node.SameText (a.node? l) (b.node? l)

theorem step_eq_of_kinds (h : ∀ l, (b.node? l).map Node.isDirectory = (a.node? l).map Node.isDirectory) (l : Location)
    (s : Path.Step) : b.step l s = a.step l s := by
  have hnone (l : Location) : (b.node? l).isNone = (a.node? l).isNone := by
    rw [← Option.isNone_map, h l, Option.isNone_map]
  have hl := h l
  unfold step
  cases ha : a.node? l with
  | none =>
    rw [ha, Option.map_none, Option.map_eq_none_iff] at hl
    rw [hl]
  | some n =>
    rw [ha, Option.map_some, Option.map_eq_some_iff] at hl
    obtain ⟨m, hb, hkind⟩ := hl
    rw [hb]
    cases n with
    | directory => cases m with
      | directory => dsimp only; simp only [hnone]
      | file => cases hkind
    | file => cases m with
      | directory => cases hkind
      | file => rfl

theorem walk_eq_of_kinds (h : ∀ l, (b.node? l).map Node.isDirectory = (a.node? l).map Node.isDirectory) :
    ∀ (steps : List Path.Step) (l : Location), b.walk l steps = a.walk l steps
  | [], _ => rfl
  | s :: steps, l => by
    rw [walk, walk, step_eq_of_kinds h]
    cases a.step l s with
    | error fault => rfl
    | ok k => exact walk_eq_of_kinds h steps k

namespace SameTexts

theorem locate (h : SameTexts a b) (p : Path) : b.locate p = a.locate p := by
  have hkind (l : Location) : (b.node? l).map Node.isDirectory = (a.node? l).map Node.isDirectory := by
    have hl := h.node l
    generalize a.node? l = n, b.node? l = m at hl
    cases hl <;> rfl
  unfold FileSystem.locate
  cases stepsOf p with
  | error fault => rfl
  | ok steps =>
    dsimp only
    rw [walk_eq_of_kinds hkind, origin, origin, h.current]

theorem read (h : SameTexts a b) (p : Path) : b.read p = a.read p ∨ ∃ text text' : String,
    a.read p = .ok text.toUTF8 ∧ b.read p = .ok text'.toUTF8 ∧ normalize text.toList = normalize text'.toList := by
  unfold FileSystem.read find
  rw [h.locate]
  cases a.locate p with
  | error fault => exact .inl rfl
  | ok l =>
    have hl := h.node l
    dsimp only
    generalize a.node? l = n, b.node? l = m at hl
    cases hl with
    | refl => exact .inl rfl
    | texts htext htext' hsame =>
      refine .inr ⟨_, _, ?_, ?_, hsame⟩
      · rw [← htext]
      · rw [← htext']

theorem excerpt (h : SameTexts a b) (e : Entry) : e.excerpt b = e.excerpt a := by
  unfold Entry.excerpt
  split_ifs
  · rfl
  · rcases h.read ⟨e.file⟩ with hread | ⟨text, text', htext, htext', hsame⟩
    · rw [readSource, readSource, hread]
    · rw [readSource_of_read htext, readSource_of_read htext']
      dsimp only
      rw [sourceLines_eq_iff.2 hsame]

end SameTexts
end FileSystem

/-! ## Every line -/

theorem toNat_ofNat_of_le {n : Nat} (h : n ≤ LineNumber.greatest) : (UInt32.ofNat n).toNat = n := by
  have hlt : n < 2 ^ 32 := by simp only [LineNumber.greatest] at h; omega
  exact UInt32.toNat_ofNat_of_lt' hlt

/-- **Every line is shown** when the number of each is ahead and no fewer are owed.  The lines end no later than the
count does, so each is looked up by its own number. -/
theorem excerptFrom_every : ∀ {lines : List SourceLine} {ahead : List UInt32} {position owed : Nat},
    ahead.Pairwise (· < ·) → (∀ n, position ≤ n → n < position + lines.length → UInt32.ofNat n ∈ ahead) →
    position + lines.length ≤ LineNumber.greatest + 1 → lines.length ≤ owed →
    excerptFrom ahead position owed lines = joinLines lines
  | [], _, _, _, _, _, _, _ => rfl
  | line :: rest, ahead, position, owed, hsorted, hahead, hcount, howed => by
    rw [List.length_cons] at hahead hcount howed
    have hnumber : lineNumberAt position = UInt32.ofNat position := by
      rw [lineNumberAt, Nat.min_eq_left (by omega)]
    have hfront : (ahead.dropWhile (· < lineNumberAt position)).head? = some (lineNumberAt position) :=
      (head?_dropWhile_lt hsorted).2 (hnumber ▸ hahead position (Nat.le_refl _) (by omega))
    have hnext : ∀ n, position + 1 ≤ n → n < position + 1 + rest.length →
        UInt32.ofNat n ∈ ahead.dropWhile (· < lineNumberAt position) := fun n hle hlt => by
      have hmem := hahead n (by omega) (by omega)
      rw [← List.takeWhile_append_dropWhile (p := (· < lineNumberAt position)) (l := ahead)] at hmem
      refine (List.mem_append.1 hmem).resolve_left fun hbefore => ?_
      have hsmall := List.mem_takeWhile_imp hbefore
      rw [decide_eq_true_eq, hnumber, UInt32.lt_iff_toNat_lt, toNat_ofNat_of_le (by omega),
        toNat_ofNat_of_le (by omega)] at hsmall
      omega
    have ih : excerptFrom (ahead.dropWhile (· < lineNumberAt position)) (position + 1) (owed - 1) rest
        = joinLines rest :=
      excerptFrom_every (hsorted.sublist (List.dropWhile_sublist _)) hnext (by omega) (by omega)
    simp only [excerptFrom, if_pos hfront, ih]
    split_ifs with howed'
    · -- One is owed, so this is the last line.
      have hrest : rest = [] := List.length_eq_zero_iff.1 (by omega)
      rw [hrest]
      rfl
    · rfl

theorem LineSet.le_size {wanted : LineSet} {count : Nat} (hcount : count ≤ LineNumber.greatest)
    (h : ∀ n, 1 ≤ n → n ≤ count → UInt32.ofNat n ∈ wanted) : count ≤ wanted.size := by
  have hsubset : List.range' 1 count ⊆ wanted.toList.map UInt32.toNat := fun n hn => by
    rw [List.mem_range'_1] at hn
    exact List.mem_map.2 ⟨_, h n (by omega) (by omega), toNat_ofNat_of_le (by omega)⟩
  have hle := (List.nodup_range' 1).length_le_of_subset hsubset
  rw [List.length_range', List.length_map] at hle
  exact hle

theorem Entry.excerpt_every {files : FileSystem} {e : Entry} {text : String} (hname : e.file ≠ "")
    (hread : files.read ⟨e.file⟩ = .ok text.toUTF8) (hcount : (sourceLines text.toList).length ≤ LineNumber.greatest)
    (h : ∀ n, 1 ≤ n → n ≤ (sourceLines text.toList).length → UInt32.ofNat n ∈ e.lines) :
    e.excerpt files = .ok (normalize text.toList) := by
  rw [excerpt, if_neg hname, FileSystem.readSource_of_read hread]
  dsimp only
  rw [excerptOf, excerptFrom_every e.lines.sorted (fun n hle hlt => h n hle (by omega)) (by omega)
    (LineSet.le_size hcount h), joinLines_sourceLines]

/-- **Nothing but the spelling of line ends is lost.**  Taking lines off a text ends with its lines: in them no line end
is left, all have an end but perhaps the last, and they make up the normalized text, whose lines they are too.  So files
alike but for line ends give every selection the same excerpt or the same error, and a file with no more lines than can
be numbered is shown as its normalized text when all of them are selected. -/
theorem lineEnds_lossless :
    (∀ text : List Char,
      (∀ lines, Drains text lines ↔ lines = sourceLines text) ∧
      (∀ l ∈ sourceLines text, Unbroken l.text) ∧
      (∀ l ∈ (sourceLines text).dropLast, l.terminated = true) ∧
      (∀ l ∈ sourceLines text, l.terminated = false → l.text ≠ []) ∧
      joinLines (sourceLines text) = normalize text ∧
      sourceLines (normalize text) = sourceLines text) ∧
    (∀ a b : FileSystem, a.SameTexts b → ∀ s : Selection, s.excerpt a = s.excerpt b) ∧
    ∀ (files : FileSystem) (file text : String) (wanted : LineSet), file ≠ "" →
      files.read ⟨file⟩ = .ok text.toUTF8 → (sourceLines text.toList).length ≤ LineNumber.greatest →
      (∀ n, 1 ≤ n → n ≤ (sourceLines text.toList).length → UInt32.ofNat n ∈ wanted) →
      (⟨[⟨file, wanted⟩]⟩ : Selection).excerpt files = .ok (String.ofList (normalize text.toList)) := by
  refine ⟨fun text => ?_, fun a b h s => ?_, fun files file text wanted hname hread hcount hwanted => ?_⟩
  · have h : InLines text (sourceLines text) := inLines_iff.2 rfl
    exact ⟨fun _ => drains_iff, h.unbroken, h.terminated, h.ne_nil, joinLines_sourceLines text,
      sourceLines_normalize text⟩
  · rw [Selection.excerpt, Selection.excerpt, excerptEntries_congr fun e _ => h.excerpt e]
  · have hentry := Entry.excerpt_every (e := ⟨file, wanted⟩) hname hread hcount hwanted
    simp only [Selection.excerpt, excerptEntries, hentry, List.append_nil]
    rfl

/-- All ways to end a line, also one after the other, and the same lines spelled otherwise in a file that can be run. -/
theorem lineEnds_lossless_mixed :
    let a : FileSystem := ⟨[(["s.c"], .file (.bytes "é\r\r\nx\n\ry\r".toUTF8) false)], []⟩
    let b : FileSystem := ⟨[(["s.c"], .file (.bytes "é\n\nx\r\n\r\ny\n".toUTF8) true)], []⟩
    let s : Selection := ⟨[⟨"s.c", .ofList [5, 3, 1, 2, 4]⟩]⟩
    a.SameTexts b ∧ s.excerpt a = .ok "é\n\nx\n\ny\n" ∧ s.excerpt b = .ok "é\n\nx\n\ny\n" := by
  intro a b s
  have hsame : a.SameTexts b := by
    refine ⟨rfl, fun l => ?_⟩
    by_cases hl : l = ["s.c"]
    · rw [hl]
      exact .texts rfl rfl rfl
    · have hnode (content : Content) (executable : Bool) : FileSystem.node? ⟨[(["s.c"], .file content executable)], []⟩ l
          = if l = [] then some .directory else none := by
        simp [FileSystem.node?, Association.get?, Ne.symm hl]
      rw [hnode, hnode]
      exact .refl _
  have hevery : s.excerpt a = .ok "é\n\nx\n\ny\n" :=
    lineEnds_lossless.2.2 a "s.c" "é\r\r\nx\n\ry\r" _ (by decide) rfl (by decide) (by decide)
  exact ⟨hsame, hevery, lineEnds_lossless.2.1 a b hsame s ▸ hevery⟩

end SourceSlice
