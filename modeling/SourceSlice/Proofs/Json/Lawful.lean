import SourceSlice.Interchange
import SourceSlice.Proofs.Json.RoundTrip
import SourceSlice.Proofs.Work
/-!
# Codecs that read what they write

A codec is lawful when it decodes what it encodes and puts only plain values into texts.  Then reading inverts writing
in both layouts (`read?_write`, `read?_writeBroad`).
-/
namespace SourceSlice

open Json (Plain PlainItems PlainMembers)

/-- **Decoding inverts encoding**, and what is encoded is one with its text. -/
class LawfulCodec (α : Type) [Codec α] : Prop where
  plain : ∀ a : α, (Codec.encode a).Plain
  decode?_encode : ∀ a : α, Codec.decode? (Codec.encode a) = some a

namespace Codec

variable {α : Type} [Codec α] [LawfulCodec α]

theorem read?_write (a : α) : read? (write a) = some a := by
  rw [read?, write, Json.parse?_render (LawfulCodec.plain a), Option.bind_some, LawfulCodec.decode?_encode]

theorem read?_writeBroad (a : α) : read? (writeBroad a) = some a := by
  rw [read?, writeBroad, Json.parse?_renderBroad (LawfulCodec.plain a), Option.bind_some, LawfulCodec.decode?_encode]

theorem plainItems_iff {items : List Json} : PlainItems items ↔ ∀ v ∈ items, v.Plain := by
  induction items with
  | nil => exact ⟨(fun _ _ h => nomatch h), fun _ => trivial⟩
  | cons v rest ih =>
    rw [List.forall_mem_cons, ← ih]
    rfl

instance : LawfulCodec String where
  plain _ := rfl
  decode?_encode _ := rfl

instance : LawfulCodec (List α) where
  plain l := plainItems_iff.2 fun v hv => by
    obtain ⟨a, -, rfl⟩ := List.mem_map.1 hv
    exact LawfulCodec.plain a
  decode?_encode l := by
    change (l.map encode).mapM decode? = some l
    rw [List.mapM_map]
    exact (Work.mapM_eq_pure fun a _ => LawfulCodec.decode?_encode a).trans (congrArg some (List.map_id l))

/-! ## Records -/

theorem plain_record {members : List (String × Json)} (h : ∀ m ∈ members, m.2.Plain) : (Json.record members).Plain := by
  rw [Json.record, Plain]
  induction members with
  | nil => trivial
  | cons m members ih =>
    exact ⟨rfl, h m List.mem_cons_self, ih fun m hm => h m (List.mem_cons_of_mem _ hm)⟩

def members (fields : List (String × Option Json)) : List (String × Json) :=
  fields.filterMap fun (name, value) => value.map (name, ·)

def Given.ofField : Option Json → Given
  | some v => .value v
  | none => .absent

theorem member?_members {f : String × Option Json} : ∀ {fields : List (String × Option Json)},
    (fields.map (·.1)).Nodup → f ∈ fields →
    member? ((members fields).map fun (name, value) => (some name, value)) f.1 = some (.ofField f.2)
  | x :: fields, hnodup, hf => by
    obtain ⟨hx, hrest⟩ := List.nodup_cons.1 hnodup
    have hother {name : String} (hname : name ∉ fields.map (·.1)) :
        ((members fields).map fun (n, v) => ((some n, v) : Option String × Json)).filter (·.1 = some name) = [] := by
      refine List.filter_eq_nil_iff.2 fun y hy he => hname ?_
      obtain ⟨z, hz, rfl⟩ := List.mem_map.1 hy
      obtain ⟨w, hw, hwz⟩ := List.mem_filterMap.1 hz
      obtain ⟨v, -, rfl⟩ := Option.map_eq_some_iff.1 hwz
      exact List.mem_map.2 ⟨w, hw, Option.some.inj (of_decide_eq_true he)⟩
    obtain ⟨name, _ | v⟩ := x
    · have hskip : members ((name, none) :: fields) = members fields := rfl
      rw [hskip]
      rcases List.mem_cons.1 hf with rfl | hf
      · rw [member?, hother hx, Given.ofField]
      · exact member?_members hrest hf
    · have hcons : members ((name, some v) :: fields) = (name, v) :: members fields := rfl
      rw [hcons]
      rcases List.mem_cons.1 hf with rfl | hf
      · rw [member?, List.map_cons, List.filter_cons_of_pos (by simp), hother hx, Given.ofField]
      · have hne : name ≠ f.1 := fun e => hx (List.mem_map.2 ⟨f, hf, e.symm⟩)
        rw [member?, List.map_cons, List.filter_cons_of_neg (by simpa using hne)]
        exact member?_members hrest hf

theorem fields?_members {fields : List (String × Option Json)} (h : (fields.map (·.1)).Nodup) :
    fields? (fields.map (·.1)) (.record (members fields)) = some (fields.map fun f => .ofField f.2) := by
  have hnames : ((members fields).map fun (n, v) => ((some n, v) : Option String × Json)).any (·.1.isNone) = false := by
    simp
  rw [Json.record, fields?, hnames, if_neg Bool.false_ne_true, List.mapM_map]
  exact Work.mapM_eq_pure fun f hf => member?_members h hf

theorem bind_fields? {β : Type} (fields : List (String × Option Json)) (f : List Given → Option β)
    (h : (fields.map (·.1)).Nodup) :
    (fields? (fields.map (·.1)) (.record (members fields))).bind f = f (fields.map fun f => .ofField f.2) := by
  rw [fields?_members h, Option.bind_some]

@[simp] theorem required?_encode (a : α) : (Given.ofField (some (encode a))).required? = some a :=
  LawfulCodec.decode?_encode a

@[simp] theorem orElse?_encode (default a : α) : (Given.ofField (some (encode a))).orElse? default = some a :=
  LawfulCodec.decode?_encode a

@[simp] theorem optional?_encode {β : Type} [Codec β] [LawfulCodec (Option β)] (b : Option β) :
    (Given.ofField (some (encode b))).optional? = some b :=
  LawfulCodec.decode?_encode b

instance : LawfulCodec BatchOutput where
  plain o := plain_record <| by simp [LawfulCodec.plain]
  decode?_encode o := by
    refine (bind_fields? [("code_slices", encode o.codeSlices), ("labels", encode o.labels)] _ (by simp)).trans ?_
    simp

end Codec
end SourceSlice
