import Mathlib.Data.List.Basic
import SourceSlice.Proofs.Work
import SourceSlice.Table
import SourceSlice.Text.Split
/-!
# Writing a table

Records are written with every field in quotes and the quotes in it doubled, so commas, line ends and byte order marks
in a field mean nothing (`Written`).  Reading such a text is followed place by place: a field leads from before it to
after its closing quote (`recordsFrom_quoted`), and so do the fields of a record (`recordsFrom_record`).  The reader
works on bytes, and of the bytes of a text only those of a quote are quotes (`quote_not_mem_utf8EncodeChar`).
-/
namespace SourceSlice

open Text

def Row.fields (r : Row) : List String := [r.file, r.line, r.varname, r.entryPoint] ++ r.label.toList

theorem Row.ofFields?_eq_some_iff {l : List String} {r : Row} : Row.ofFields? l = some r ↔ r.fields = l := by
  constructor
  · intro h
    unfold ofFields? at h
    split at h
    · cases h; rfl
    · cases h; rfl
    · cases h
  · rintro rfl
    obtain ⟨file, line, varname, entryPoint, _ | label⟩ := r <;> rfl

theorem Row.isSome_ofFields? (l : List String) : (Row.ofFields? l).isSome ↔ l.length = 4 ∨ l.length = 5 := by
  unfold ofFields?
  split
  · simp
  · simp
  next hfour hfive =>
    simp only [Option.isSome_none, Bool.false_eq_true, false_iff]
    rintro (h | h)
    · obtain ⟨a, b, c, d, rfl⟩ := List.length_eq_four.1 h
      exact hfour a b c d rfl
    · match l, h with
      | [a, b, c, d, e], _ => exact hfive a b c d e rfl

theorem Row.map_fields_filterMap (records : List (List String)) :
    (records.filterMap Row.ofFields?).map Row.fields = records.filter fun l => l.length = 4 ∨ l.length = 5 := by
  induction records with
  | nil => rfl
  | cons l rest ih =>
    cases h : Row.ofFields? l with
    | none =>
      have hno : ¬ (l.length = 4 ∨ l.length = 5) := by simp [← Row.isSome_ofFields?, h]
      rw [List.filterMap_cons_none h, ih, List.filter_cons_of_neg (by simpa using hno)]
    | some r =>
      have hyes : l.length = 4 ∨ l.length = 5 := by simp [← Row.isSome_ofFields?, h]
      rw [List.filterMap_cons_some h, List.map_cons, ih, Row.ofFields?_eq_some_iff.1 h,
        List.filter_cons_of_pos (by simpa using hyes)]

namespace Table

/-! ## Tables as they are written -/

def doubled (field : List Char) : List Char := field.flatMap fun c => if c = '"' then ['"', '"'] else [c]

def quoted (field : String) : List Char := '"' :: (doubled field.toList ++ ['"'])

def recordText (fields : List String) : List Char := joinWith ',' (fields.map quoted)

/-- **The texts of records**: each has a field or more, and a line end after it, which the last one may lack. -/
inductive Written : List (List String) → List Char → Prop
  | empty : Written [] []
  | unended {fields : List String} : fields ≠ [] → Written [fields] (recordText fields)
  | ended {fields : List String} {ending text : List Char} {records : List (List String)} : fields ≠ [] →
    ending = ['\n'] ∨ ending = ['\r', '\n'] ∨ ending = ['\r'] → Written records text →
    Written (fields :: records) (recordText fields ++ ending ++ text)

/-! ## Texts as bytes -/

def bytesOf (text : List Char) : List UInt8 := text.flatMap String.utf8EncodeChar

theorem bytesOf_append (a b : List Char) : bytesOf (a ++ b) = bytesOf a ++ bytesOf b := List.flatMap_append

theorem bytesOf_cons (c : Char) (text : List Char) :
    bytesOf (c :: text) = String.utf8EncodeChar c ++ bytesOf text := rfl

theorem utf8EncodeChar_quote : String.utf8EncodeChar '"' = [quote] := by decide

theorem toList_toUTF8 (s : String) : s.toUTF8.data.toList = bytesOf s.toList := by
  rw [String.toUTF8_eq_toByteArray, ← String.utf8Encode_toList, List.utf8Encode, List.toList_data_toByteArray]
  rfl

theorem fieldText_bytesOf (s : String) : fieldText (bytesOf s.toList) = .ok s := by
  have hbytes : (⟨(bytesOf s.toList).toArray⟩ : ByteArray) = s.toUTF8 := by
    rw [← toList_toUTF8]
  rw [fieldText, hbytes, Utf8.decode_toUTF8]

theorem quote_not_mem_utf8EncodeChar {c : Char} (h : c ≠ '"') : quote ∉ String.utf8EncodeChar c := by
  have hval : c.val.toNat ≠ 34 := fun e => h (Char.toNat_inj.1 e)
  fun_cases String.utf8EncodeChar c with
  | case1 v hle =>
    simp only [quote, List.mem_singleton, ← UInt8.toNat_inj]
    simp
    omega
  | case2 v => simp [quote, ← UInt8.toNat_inj]; omega
  | case3 v => simp [quote, ← UInt8.toNat_inj]; omega
  | case4 v => simp [quote, ← UInt8.toNat_inj]; omega

/-! ## Reading what is written -/

variable {place : Place} {fields : List Field} {field : Field} {rest : List UInt8}

theorem recordsFrom_opening (hplace : place = .recordStart ∨ place = .fieldStart) (fields : List Field)
    (bytes : List UInt8) : recordsFrom place fields [] (quote :: bytes) = recordsFrom .quoted fields [] bytes := by
  rcases hplace with rfl | rfl <;> simp [recordsFrom, isEnd, quote]

theorem recordsFrom_two_quotes (fields : List Field) (field : Field) (bytes : List UInt8) :
    recordsFrom .quoted fields field (quote :: quote :: bytes) = recordsFrom .quoted fields (quote :: field) bytes := by
  simp [recordsFrom, isEnd, quote]

theorem recordsFrom_comma (fields : List Field) (field : Field) (bytes : List UInt8) :
    recordsFrom .quoteSeen fields field (comma :: bytes)
      = recordsFrom .fieldStart (field.reverse :: fields) [] bytes := by
  simp [recordsFrom, isEnd, comma, quote]

theorem recordsFrom_plain (fields : List Field) (rest : List UInt8) : ∀ (bytes : List UInt8) (field : Field),
    quote ∉ bytes → recordsFrom .quoted fields field (bytes ++ rest)
      = recordsFrom .quoted fields (bytes.reverse ++ field) rest
  | [], _, _ => rfl
  | b :: bytes, field, h => by
    rw [List.mem_cons, not_or] at h
    rw [List.cons_append, recordsFrom, if_pos rfl, if_neg (Ne.symm h.1), recordsFrom_plain fields rest bytes _ h.2]
    simp

theorem recordsFrom_doubled (fields : List Field) (rest : List UInt8) : ∀ (text : List Char) (field : Field),
    recordsFrom .quoted fields field (bytesOf (doubled text) ++ quote :: rest)
      = recordsFrom .quoteSeen fields ((bytesOf text).reverse ++ field) rest
  | [], _ => by simp [doubled, bytesOf, recordsFrom]
  | c :: text, field => by
    have ih := recordsFrom_doubled fields rest text
    have hcons : bytesOf (doubled (c :: text))
        = bytesOf (if c = '"' then ['"', '"'] else [c]) ++ bytesOf (doubled text) := by
      rw [← bytesOf_append]
      rfl
    rw [hcons, bytesOf_cons, List.append_assoc, List.reverse_append, List.append_assoc]
    by_cases hc : c = '"'
    · have htwo : bytesOf (if c = '"' then ['"', '"'] else [c]) = [quote, quote] := by
        subst hc
        decide
      rw [htwo, List.cons_append, List.cons_append, List.nil_append, recordsFrom_two_quotes, ih, hc,
        utf8EncodeChar_quote]
      rfl
    · have hsame : bytesOf (if c = '"' then ['"', '"'] else [c]) = String.utf8EncodeChar c := by
        rw [if_neg hc, bytesOf_cons]
        exact List.append_nil _
      rw [hsame, recordsFrom_plain fields _ _ _ (quote_not_mem_utf8EncodeChar hc), ih]

theorem recordsFrom_quoted (hplace : place = .recordStart ∨ place = .fieldStart) (fields : List Field) (field : String)
    (rest : List UInt8) : recordsFrom place fields [] (bytesOf (quoted field) ++ rest)
      = recordsFrom .quoteSeen fields (bytesOf field.toList).reverse rest := by
  have hbytes : bytesOf (quoted field) ++ rest = quote :: (bytesOf (doubled field.toList) ++ quote :: rest) := by
    simp [quoted, bytesOf, utf8EncodeChar_quote]
  rw [hbytes, recordsFrom_opening hplace, recordsFrom_doubled, List.append_nil]

/-- **A record is read back**, when what follows it ends it. -/
theorem recordsFrom_record {after : List (List Field)}
    (hends : ∀ fields field, recordsFrom .quoteSeen fields field rest = (field.reverse :: fields).reverse :: after) :
    ∀ {record : List String} {place : Place} (fields : List Field), record ≠ [] →
      place = .recordStart ∨ place = .fieldStart →
      recordsFrom place fields [] (bytesOf (recordText record) ++ rest)
        = (fields.reverse ++ record.map fun field => bytesOf field.toList) :: after
  -- only the first field stands at the start of the record, so the place changes along the recursion
  | [field], place, fields, _, hplace => by
    have hlast : recordText [field] = quoted field := rfl
    rw [hlast, recordsFrom_quoted hplace, hends]
    simp
  | field :: next :: record, place, fields, _, hplace => by
    have hcomma : bytesOf (recordText (field :: next :: record)) ++ rest
        = bytesOf (quoted field) ++ comma :: (bytesOf (recordText (next :: record)) ++ rest) := by
      have hone : String.utf8EncodeChar ',' = [comma] := rfl
      simp [recordText, joinWith, bytesOf_append, bytesOf_cons, hone]
    rw [hcomma, recordsFrom_quoted hplace, recordsFrom_comma,
      recordsFrom_record hends _ (List.cons_ne_nil _ _) (.inr rfl)]
    simp

/-- **Records are read back from their text**, as the bytes of their fields. -/
theorem Written.recordsFrom_eq {records : List (List String)} {text : List Char} (h : Written records text) :
    recordsFrom .recordStart [] [] (bytesOf text) = records.map (·.map fun field => bytesOf field.toList) := by
  induction h with
  | empty => rfl
  | @unended fields hne =>
    have hread : recordsFrom .recordStart [] [] (bytesOf (recordText fields) ++ [])
        = [fields.map fun field => bytesOf field.toList] := recordsFrom_record (fun _ _ => rfl) [] hne (.inl rfl)
    rwa [List.append_nil] at hread
  | @ended fields ending text records hne hending _ ih =>
    have hends (fields : List Field) (field : Field) :
        recordsFrom .quoteSeen fields field (bytesOf ending ++ bytesOf text)
          = (field.reverse :: fields).reverse :: recordsFrom .recordStart [] [] (bytesOf text) := by
      have hbytes : bytesOf ['\n'] = [0x0A] ∧ bytesOf ['\r', '\n'] = [0x0D, 0x0A] ∧ bytesOf ['\r'] = [0x0D] := by decide
      rcases hending with rfl | rfl | rfl <;> simp [hbytes, recordsFrom, isEnd, comma, quote]
    rw [bytesOf_append, bytesOf_append, List.append_assoc, recordsFrom_record hends [] hne (.inl rfl), ih]
    rfl

theorem Written.dropMark_eq {records : List (List String)} {text : List Char} (h : Written records text) :
    dropMark (bytesOf text) = bytesOf text := by
  have hquote (fields : List String) (hne : fields ≠ []) (text : List Char) :
      dropMark (bytesOf (recordText fields ++ text)) = bytesOf (recordText fields ++ text) := by
    obtain ⟨field, rest, rfl⟩ := List.exists_cons_of_ne_nil hne
    cases rest <;> simp [recordText, joinWith, quoted, bytesOf_cons, utf8EncodeChar_quote, dropMark, quote]
  cases h with
  | empty => rfl
  | unended hne =>
    have := hquote _ hne []
    rwa [List.append_nil] at this
  | ended hne => rw [List.append_assoc]; exact hquote _ hne _

theorem mapM_map_of_inverse {α β : Type} {f : β → Except Utf8.Fault α} {g : α → β} (h : ∀ a, f (g a) = .ok a)
    (l : List α) : (l.map g).mapM f = .ok l := by
  have hpure : ∀ a ∈ l, (f ∘ g) a = pure (id a) := fun a _ => h a
  rw [List.mapM_map, Work.mapM_eq_pure hpure, List.map_id]
  rfl

theorem rows_of_written {records : List (List String)} {text : String} (h : Written records text.toList) :
    rows text.toUTF8 = .ok (records.filterMap Row.ofFields?) := by
  have hfields (fields : List String) : (fields.map fun field => bytesOf field.toList).mapM fieldText = .ok fields :=
    mapM_map_of_inverse fieldText_bytesOf fields
  rw [rows, toList_toUTF8, Table.records, h.dropMark_eq, h.recordsFrom_eq, texts, mapM_map_of_inverse hfields]
  rfl

/-- **A table gives back the records written to it.**  The rows of a file with such a text are, in order and with their
fields as they were given, the records of four fields and those of five, the fifth being the label; of other records
there is nothing, wherever they stand. -/
theorem read_written {files : FileSystem} {p : Path} {records : List (List String)} {text : String}
    (hread : files.read p = .ok text.toUTF8) (h : Written records text.toList) :
    ∃ rows, Table.read files p = .ok rows ∧
      rows.map Row.fields = records.filter fun l => l.length = 4 ∨ l.length = 5 := by
  refine ⟨_, ?_, Row.map_fields_filterMap records⟩
  unfold FileSystem.read at hread
  unfold Table.read
  cases hfind : files.find p with
  | error fault => rw [hfind] at hread; cases hread
  | ok node =>
    rw [hfind] at hread
    cases node with
    | directory => cases hread
    | file content executable =>
      have hbytes : content.toBytes = text.toUTF8 := Except.ok.inj hread
      dsimp only
      rw [hbytes, rows_of_written h]

/-- A byte order mark, separators and quotes in the fields of the first record; an empty record, which is no row; and a
label that nothing ends. -/
theorem read_written_mark_in_field :
    let text := "\"\uFEFFa,c\",\" 1\",\"v\"\"w\",\"ma\r\nin\"\r\"\"\r\n\"b.c\",\"2\",\"\",\"main\",\"l\""
    let files : FileSystem := ⟨[(["t.csv"], .file (.bytes text.toUTF8) false)], []⟩
    let first := ["\uFEFFa,c", " 1", "v\"w", "ma\r\nin"]
    let last := ["b.c", "2", "", "main", "l"]
    files.read ⟨"t.csv"⟩ = .ok text.toUTF8 ∧ Written [first, [""], last] text.toList ∧
      ∃ rows, Table.read files ⟨"t.csv"⟩ = .ok rows ∧ rows.map Row.fields = [first, last] := by
  intro text files first last
  have hread : files.read ⟨"t.csv"⟩ = .ok text.toUTF8 := rfl
  have htext : text.toList
      = recordText first ++ ['\r'] ++ (recordText [""] ++ ['\r', '\n'] ++ recordText last) := by decide
  have hwritten : Written [first, [""], last] text.toList :=
    htext ▸ .ended (by decide) (.inr (.inr rfl)) (.ended (by decide) (.inr (.inl rfl)) (.unended (by decide)))
  exact ⟨hread, hwritten, read_written hread hwritten⟩

end Table
end SourceSlice
