import Mathlib.Data.List.DropRight
import SourceSlice.Proofs.Json.Tokens
/-!
# Reading what was written

The parser reads back what the printer writes, in every layout made of blanks (`parse?_spell`).  The readers of values,
items and members call one another; they are followed together, by induction on the bound of their calls, which the
length of the text they read keeps up with.
-/
namespace SourceSlice.Json

mutual

/-- Whether a value is one of its text alone: no text misses half a character, and no number is kept by its spelling. -/
def Plain : Json → Prop
  | .integer n => (Nat.toDigits 10 n.natAbs).length ≤ longestInteger
  | .real _ => False
  | .string s => s.isSome
  | .array items => PlainItems items
  | .object members => PlainMembers members
  | _ => True

def PlainItems : List Json → Prop
  | [] => True
  | v :: rest => Plain v ∧ PlainItems rest

def PlainMembers : List (Option String × Json) → Prop
  | [] => True
  | (name, v) :: rest => name.isSome ∧ Plain v ∧ PlainMembers rest

end

structure Layout.Blank (layout : Layout) : Prop where
  before : ∀ level, ∀ c ∈ layout.before level, isBlank c = true
  afterName : ∀ c ∈ layout.afterName, isBlank c = true

theorem Layout.blank_compact : Layout.compact.Blank := ⟨(fun _ _ h => nomatch h), (fun _ h => nomatch h)⟩

theorem Layout.blank_broad : Layout.broad.Blank where
  before level c hc := by
    rcases List.mem_cons.1 hc with rfl | hc
    · rfl
    · rw [List.eq_of_mem_replicate hc]; rfl
  afterName c hc := by rw [List.mem_singleton.1 hc]; rfl

theorem value_skipBlanks (n : Nat) (s : List Char) : value n (skipBlanks s) = value n s := by
  cases n with
  | zero => rfl
  | succ n => rw [value, value, skipBlanks, skipBlanks, List.dropWhile_idempotent]

theorem value_gap {gap : List Char} (h : ∀ c ∈ gap, isBlank c = true) (n : Nat) (s : List Char) :
    value n (gap ++ s) = value n s := by
  rw [← value_skipBlanks, skipBlanks_append h, value_skipBlanks]

theorem items_skipBlanks (n : Nat) (s : List Char) : items n (skipBlanks s) = items n s := by
  cases n with
  | zero => rfl
  | succ n => rw [items, items, value_skipBlanks]

theorem members_skipBlanks (n : Nat) (s : List Char) : members n (skipBlanks s) = members n s := by
  cases n with
  | zero => rfl
  | succ n => rw [members, members, skipBlanks, skipBlanks, List.dropWhile_idempotent]

theorem toString_eq_cons (n : Int) : ∃ c s, (toString n).toList = c :: s ∧ (c.isDigit = true ∨ c = '-') := by
  rw [toList_toString]
  by_cases hneg : n < 0
  · rw [if_pos hneg]
    exact ⟨_, _, rfl, .inr rfl⟩
  · obtain ⟨d, ds, hds, hdigit⟩ := toDigits_eq_cons n.natAbs
    rw [if_neg hneg, List.nil_append, hds]
    exact ⟨d, ds, rfl, .inl hdigit⟩

theorem ne_of_digit {c d : Char} (hc : c.isDigit = true ∨ c = '-') (hd : d.isDigit = false) (hminus : d ≠ '-') :
    c ≠ d := by
  rintro rfl
  rcases hc with hc | hc
  · rw [hd] at hc; cases hc
  · exact hminus hc

theorem not_isBlank_of_digit {c : Char} (hc : c.isDigit = true ∨ c = '-') : isBlank c = false := by
  have hne {d : Char} (hd : d.isDigit = false) (hminus : d ≠ '-') : c ≠ d := ne_of_digit hc hd hminus
  simp only [isBlank, Bool.or_eq_false_iff, decide_eq_false_iff_not]
  exact ⟨⟨⟨hne rfl (by decide), hne rfl (by decide)⟩, hne rfl (by decide)⟩, hne rfl (by decide)⟩

theorem value_number {c : Char} (hc : c.isDigit = true ∨ c = '-') (n : Nat) (s : List Char) :
    value (n + 1) (c :: s) = number (c :: s) := by
  have hne {d : Char} (hd : d.isDigit = false) (hminus : d ≠ '-') : c ≠ d := ne_of_digit hc hd hminus
  rw [value, skipBlanks_cons (not_isBlank_of_digit hc)]
  split
  next heq => exact absurd (List.cons.inj heq).1 (hne rfl (by decide))
  next heq => exact absurd (List.cons.inj heq).1 (hne rfl (by decide))
  next =>
    rw [atom.eq_def]
    split
    next heq => exact absurd (List.cons.inj heq).1 (hne rfl (by decide))
    next heq => exact absurd (List.cons.inj heq).1 (hne rfl (by decide))
    next heq => exact absurd (List.cons.inj heq).1 (hne rfl (by decide))
    next heq => exact absurd (List.cons.inj heq).1 (hne rfl (by decide))
    next => rfl

theorem spell_eq_cons (layout : Layout) (level : Nat) {v : Json} (hv : v.Plain) :
    ∃ c s, spell layout level v = c :: s ∧ isBlank c = false ∧ c ≠ ']' ∧ c ≠ '\x7d' := by
  have hstarts {c : Char} (s : List Char) (h : isBlank c = false ∧ c ≠ ']' ∧ c ≠ '\x7d') :
      ∃ d t, c :: s = d :: t ∧ isBlank d = false ∧ d ≠ ']' ∧ d ≠ '\x7d' := ⟨c, s, rfl, h⟩
  match v with
  | .null => exact hstarts _ (by decide)
  | .bool true => exact hstarts _ (by decide)
  | .bool false => exact hstarts _ (by decide)
  | .string (some s) => exact hstarts _ (by decide)
  | .array [] => exact hstarts _ (by decide)
  | .array (v :: vs) => exact hstarts _ (by decide)
  | .object [] => exact hstarts _ (by decide)
  | .object (m :: ms) => exact hstarts _ (by decide)
  | .integer n =>
    obtain ⟨c, s, hs, hc⟩ := toString_eq_cons n
    exact ⟨c, s, hs, not_isBlank_of_digit hc, ne_of_digit hc rfl (by decide), ne_of_digit hc rfl (by decide)⟩

/-! ## One step of each reader -/

section Step

variable {n : Nat} {c : Char} {s t rest gap : List Char} {v : Json}

theorem value_array (ht : skipBlanks t = c :: s) (hc : c ≠ ']') :
    value (n + 1) ('[' :: t) = (items n t).map fun (vs, rest) => (.array vs, rest) := by
  rw [← items_skipBlanks, ht, value, skipBlanks_cons rfl]
  simp only [ht]
  split
  next heq => exact absurd (List.cons.inj heq).1 hc
  next => rfl

theorem value_object (ht : skipBlanks t = c :: s) (hc : c ≠ '\x7d') :
    value (n + 1) ('\x7b' :: t) = (members n t).map fun (ms, rest) => (.object ms, rest) := by
  rw [← members_skipBlanks, ht, value, skipBlanks_cons rfl]
  simp only [ht]
  split
  next heq => exact absurd (List.cons.inj heq).1 hc
  next => rfl

theorem items_last (hgap : ∀ c ∈ gap, isBlank c = true) (hv : value n s = some (v, gap ++ ']' :: rest)) :
    items (n + 1) s = some ([v], rest) := by
  rw [items, hv]
  dsimp only
  rw [skipBlanks_append hgap, skipBlanks_cons rfl]
  rfl

theorem items_more (hv : value n s = some (v, ',' :: t)) :
    items (n + 1) s = (items n t).map fun (vs, rest) => (v :: vs, rest) := by
  rw [items, hv]
  dsimp only
  rw [skipBlanks_cons rfl]
  rfl

theorem skipBlanks_quoted (hgap : ∀ c ∈ gap, isBlank c = true) (name : String) (s : List Char) :
    skipBlanks (gap ++ quoted (some name) ++ s) = '"' :: (name.toList.flatMap escape ++ '"' :: s) := by
  rw [List.append_assoc, skipBlanks_append hgap, quoted, List.cons_append, skipBlanks_cons rfl, List.append_assoc,
    List.singleton_append]

theorem members_last (hgap : ∀ c ∈ gap, isBlank c = true) (name : String) {outer : List Char}
    (houter : ∀ c ∈ outer, isBlank c = true) (hv : value n s = some (v, outer ++ '\x7d' :: rest)) :
    members (n + 1) (gap ++ quoted (some name) ++ ':' :: s) = some ([(some name, v)], rest) := by
  have hname := quotedText_escaped name (':' :: s)
  have hcolon : skipBlanks (':' :: s) = ':' :: s := skipBlanks_cons rfl s
  have hbrace : skipBlanks (outer ++ '\x7d' :: rest) = '\x7d' :: rest := by
    rw [skipBlanks_append houter, skipBlanks_cons rfl]
  rw [members, skipBlanks_quoted hgap]
  simp only [hname, hcolon, hv, hbrace]

theorem members_more (hgap : ∀ c ∈ gap, isBlank c = true) (name : String) (hv : value n s = some (v, ',' :: t)) :
    members (n + 1) (gap ++ quoted (some name) ++ ':' :: s)
      = (members n t).map fun (ms, rest) => ((some name, v) :: ms, rest) := by
  have hname := quotedText_escaped name (':' :: s)
  have hcolon : skipBlanks (':' :: s) = ':' :: s := skipBlanks_cons rfl s
  have hcomma : skipBlanks (',' :: t) = ',' :: t := skipBlanks_cons rfl t
  rw [members, skipBlanks_quoted hgap]
  simp only [hname, hcolon, hv, hcomma]

end Step

/-! ## The whole text -/

theorem spellItems_cons (layout : Layout) (level : Nat) (v w : Json) (vs : List Json) :
    spellItems layout level (v :: w :: vs)
      = layout.before level ++ spell layout level v ++ ',' :: spellItems layout level (w :: vs) := rfl

theorem spellMembers_cons (layout : Layout) (level : Nat) (name : Option String) (v : Json)
    (m : Option String × Json) (ms : List (Option String × Json)) :
    spellMembers layout level ((name, v) :: m :: ms) = layout.before level ++ quoted name ++
      ':' :: (layout.afterName ++ spell layout level v ++ ',' :: spellMembers layout level (m :: ms)) := rfl

section Spelled

variable {layout : Layout} (hl : layout.Blank)
include hl

theorem skipBlanks_spellItems {v : Json} (hv : v.Plain) (vs : List Json) (level : Nat) (s : List Char) :
    ∃ c t, skipBlanks (spellItems layout level (v :: vs) ++ s) = c :: t ∧ c ≠ ']' := by
  obtain ⟨c, t, ht, hblank, hc, -⟩ := spell_eq_cons layout level hv
  have hskip (s : List Char) : skipBlanks (layout.before level ++ spell layout level v ++ s) = c :: (t ++ s) := by
    rw [List.append_assoc, skipBlanks_append (hl.before level), ht, List.cons_append, skipBlanks_cons hblank]
  cases vs with
  | nil => exact ⟨c, t ++ s, hskip s, hc⟩
  | cons w vs =>
    rw [spellItems_cons, List.append_assoc (layout.before level ++ spell layout level v)]
    exact ⟨c, _, hskip _, hc⟩

theorem skipBlanks_spellMembers (name : String) (v : Json) (ms : List (Option String × Json)) (level : Nat)
    (s : List Char) :
    ∃ c t, skipBlanks (spellMembers layout level ((some name, v) :: ms) ++ s) = c :: t ∧ c ≠ '\x7d' := by
  have hskip := skipBlanks_quoted (hl.before level) name
  cases ms with
  | nil =>
    rw [spellMembers, List.append_assoc (layout.before level ++ quoted (some name))]
    exact ⟨'"', _, hskip _, by decide⟩
  | cons m ms =>
    rw [spellMembers_cons, List.append_assoc (layout.before level ++ quoted (some name))]
    exact ⟨'"', _, hskip _, by decide⟩

mutual

/-- **A value is read back from its text**, whatever follows it. -/
theorem value_spell : ∀ (n level : Nat) (v : Json) {rest : List Char}, v.Plain → Stops rest →
    (spell layout level v).length ≤ n → value n (spell layout level v ++ rest) = some (v, rest)
  | 0, level, v, _, hv, _, hn => by
    obtain ⟨c, s, hs, -⟩ := spell_eq_cons layout level hv
    rw [hs] at hn
    exact absurd hn (Nat.not_succ_le_zero _)
  | n + 1, _, .null, _, _, _, _ => rfl
  | n + 1, _, .bool true, _, _, _, _ => rfl
  | n + 1, _, .bool false, _, _, _, _ => rfl
  | n + 1, _, .integer i, rest, hv, hrest, _ => by
    obtain ⟨c, s, hs, hc⟩ := toString_eq_cons i
    have hnumber := number_toString hv hrest
    rw [hs] at hnumber
    change value (n + 1) ((toString i).toList ++ rest) = _
    rw [hs]
    exact (value_number hc n (s ++ rest)).trans hnumber
  | n + 1, _, .string (some s), rest, _, _, _ => by
    change (quotedText ((s.toList.flatMap escape ++ ['"']) ++ rest)).map _ = _
    rw [List.append_assoc, List.singleton_append, quotedText_escaped]
    rfl
  | n + 1, _, .array [], _, _, _, _ => rfl
  | n + 1, level, .array (v :: vs), rest, hv, hrest, hn => by
    -- The two brackets pay for the step down, so the bound still covers the items.
    rw [spell, List.length_cons, List.length_append, List.length_append, List.length_singleton] at hn
    have hitems := items_spell n (level + 1) level v vs rest hv (by omega)
    rw [List.append_assoc] at hitems
    obtain ⟨c, t, ht, hc⟩ := skipBlanks_spellItems hl hv.1 vs (level + 1) (layout.before level ++ ']' :: rest)
    rw [spell, List.cons_append, List.append_assoc, List.append_assoc, List.singleton_append, value_array ht hc, hitems]
    rfl
  | n + 1, _, .object [], _, _, _, _ => rfl
  | n + 1, level, .object ((some name, v) :: ms), rest, hv, hrest, hn => by
    rw [spell, List.length_cons, List.length_append, List.length_append, List.length_singleton] at hn
    have hmembers := members_spell n (level + 1) level name v ms rest hv (by omega)
    rw [List.append_assoc] at hmembers
    obtain ⟨c, t, ht, hc⟩ := skipBlanks_spellMembers hl name v ms (level + 1) (layout.before level ++ '\x7d' :: rest)
    rw [spell, List.cons_append, List.append_assoc, List.append_assoc, List.singleton_append, value_object ht hc,
      hmembers]
    rfl

theorem items_spell : ∀ (n level outer : Nat) (v : Json) (vs : List Json) (rest : List Char),
    PlainItems (v :: vs) → (spellItems layout level (v :: vs)).length < n →
    items n (spellItems layout level (v :: vs) ++ layout.before outer ++ ']' :: rest) = some (v :: vs, rest)
  | n + 1, level, outer, v, [], rest, hv, hn => by
    simp only [spellItems, List.length_append] at hn
    have hvalue := value_spell n level v hv.1 (.gap (hl.before outer) (stops_bracket rest)) (by omega)
    rw [spellItems, List.append_assoc, List.append_assoc]
    exact items_last (hl.before outer) ((value_gap (hl.before level) _ _).trans hvalue)
  | n + 1, level, outer, v, w :: vs, rest, hv, hn => by
    simp only [spellItems_cons, List.length_append, List.length_cons] at hn
    have htext : spellItems layout level (v :: w :: vs) ++ layout.before outer ++ ']' :: rest
        = layout.before level ++ (spell layout level v ++
          ',' :: (spellItems layout level (w :: vs) ++ layout.before outer ++ ']' :: rest)) := by
      rw [spellItems_cons]
      simp only [List.append_assoc, List.cons_append]
    have hvalue := value_spell n level v hv.1 (stops_comma (spellItems layout level (w :: vs) ++ layout.before outer ++
      ']' :: rest)) (by omega)
    have hmore := items_spell n level outer w vs rest hv.2 (by omega)
    rw [htext, items_more ((value_gap (hl.before level) _ _).trans hvalue), hmore]
    rfl

theorem members_spell : ∀ (n level outer : Nat) (name : String) (v : Json) (ms : List (Option String × Json))
    (rest : List Char), PlainMembers ((some name, v) :: ms) →
    (spellMembers layout level ((some name, v) :: ms)).length < n →
    members n (spellMembers layout level ((some name, v) :: ms) ++ layout.before outer ++ '\x7d' :: rest)
      = some ((some name, v) :: ms, rest)
  | n + 1, level, outer, name, v, [], rest, hv, hn => by
    simp only [spellMembers, List.length_append, List.length_cons] at hn
    have hvalue := value_spell n level v hv.2.1 (.gap (hl.before outer) (stops_brace rest)) (by omega)
    have htext : spellMembers layout level [(some name, v)] ++ layout.before outer ++ '\x7d' :: rest
        = layout.before level ++ quoted (some name) ++
          ':' :: (layout.afterName ++ (spell layout level v ++ (layout.before outer ++ '\x7d' :: rest))) := by
      rw [spellMembers]
      simp only [List.append_assoc, List.cons_append]
    rw [htext]
    exact members_last (hl.before level) name (hl.before outer) ((value_gap hl.afterName _ _).trans hvalue)
  | n + 1, level, outer, name, v, (some name', w) :: ms, rest, hv, hn => by
    simp only [spellMembers_cons, List.length_append, List.length_cons] at hn
    have htext : spellMembers layout level ((some name, v) :: (some name', w) :: ms) ++ layout.before outer ++
          '\x7d' :: rest
        = layout.before level ++ quoted (some name) ++ ':' :: (layout.afterName ++ (spell layout level v ++
          ',' :: (spellMembers layout level ((some name', w) :: ms) ++ layout.before outer ++ '\x7d' :: rest))) := by
      rw [spellMembers_cons]
      simp only [List.append_assoc, List.cons_append]
    have hvalue := value_spell n level v hv.2.1 (stops_comma (spellMembers layout level ((some name', w) :: ms) ++
      layout.before outer ++ '\x7d' :: rest)) (by omega)
    have hmore := members_spell n level outer name' w ms rest hv.2.2 (by omega)
    rw [htext, members_more (hl.before level) name ((value_gap hl.afterName _ _).trans hvalue), hmore]
    rfl

end

/-- **The parser inverts the printer** in every layout. -/
theorem parse?_spell {v : Json} (hv : v.Plain) : parse? (String.ofList (spell layout 0 v)) = some v := by
  have hvalue := value_spell hl (2 * (spell layout 0 v).length + 2) 0 v hv stops_nil (by omega)
  rw [List.append_nil] at hvalue
  rw [parse?, String.toList_ofList, hvalue]
  rfl

end Spelled

theorem parse?_render {v : Json} (hv : v.Plain) : parse? v.render = some v := parse?_spell Layout.blank_compact hv

theorem parse?_renderBroad {v : Json} (hv : v.Plain) : parse? v.renderBroad = some v :=
  parse?_spell Layout.blank_broad hv

end SourceSlice.Json
