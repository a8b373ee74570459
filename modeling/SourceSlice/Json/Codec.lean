import SourceSlice.Json.Parser
import SourceSlice.Json.Value
import SourceSlice.LineNumber
import SourceSlice.Path
/-!
# Values as JSON

`Codec` ties a type to its JSON form.  A record is an object with one member for each field; on reading, members with
other names do not count, a field may be given once only, and a list of the fields' values in their order is a record
too.  What a field that is not given means is for the field to say (`Given`).
-/
namespace SourceSlice

class Codec (α : Type) where
  encode : α → Json
  decode? : Json → Option α

namespace Codec

def read? {α : Type} [Codec α] (text : String) : Option α := (Json.parse? text).bind decode?

def write {α : Type} [Codec α] (a : α) : String := (encode a).render

def writeBroad {α : Type} [Codec α] (a : α) : String := (encode a).renderBroad

instance : Codec String where
  encode := .text
  decode?
    | .string s => s
    | _ => none

instance : Codec Bool where
  encode := .bool
  decode?
    | .bool b => some b
    | _ => none

instance {α : Type} [Codec α] : Codec (Option α) where
  encode := Json.nullable encode
  decode?
    | .null => some none
    | v => (decode? v).map some

instance {α : Type} [Codec α] : Codec (List α) where
  encode l := .array (l.map encode)
  decode?
    | .array items => items.mapM decode?
    | _ => none

def integer? : Json → Option Int
  | .integer n => some n
  | _ => none

instance : Codec UInt32 where
  encode n := .integer n.toNat
  decode? v := (integer? v).bind fun n =>
    if 0 ≤ n ∧ n < 4294967296 then some (UInt32.ofNat n.toNat) else none

instance : Codec UInt64 where
  encode n := .integer n.toNat
  decode? v := (integer? v).bind fun n =>
    if 0 ≤ n ∧ n < 18446744073709551616 then some (UInt64.ofNat n.toNat) else none

instance : Codec Int64 where
  encode n := .integer n.toInt
  decode? v := (integer? v).bind fun n =>
    if Int64.minValue.toInt ≤ n ∧ n ≤ Int64.maxValue.toInt then some (Int64.ofInt n) else none

instance : Codec LineNumber where
  encode n := .integer n.toNat
  decode? v := (integer? v).bind fun n => if 0 ≤ n then LineNumber.ofNat? n.toNat else none

instance : Codec Path where
  encode p := .text p.text
  decode? v := (decode? v).map Path.mk

/-! ## Records -/

inductive Given where
  | value (v : Json)
  | absent
  | cut

namespace Given

def required? {α : Type} [Codec α] : Given → Option α
  | value v => decode? v
  | _ => none

def optional? {α : Type} [Codec α] : Given → Option (Option α)
  | value v => decode? v
  | absent => some none
  | cut => none

/-- A field that has a value even when it is not given. -/
def orElse? {α : Type} [Codec α] (default : α) : Given → Option α
  | value v => decode? v
  | _ => some default

end Given

/-- What the members of an object give for a name; a name given twice gives nothing that can be read. -/
def member? (members : List (Option String × Json)) (name : String) : Option Given :=
  match members.filter (·.1 = some name) with
  | [] => some .absent
  | [(_, v)] => some (.value v)
  | _ => none

/-- What the items of a list give for fields in order. -/
def inOrder : Nat → List Json → Option (List Given)
  | 0, [] => some []
  | 0, _ :: _ => none
  | n + 1, [] => (inOrder n []).map (.cut :: ·)
  | n + 1, v :: rest => (inOrder n rest).map (.value v :: ·)

/-- **What a value gives for the fields of a record**, in the order of their names. -/
def fields? (names : List String) : Json → Option (List Given)
  | .object members => if members.any (·.1.isNone) then none else names.mapM (member? members)
  | .array items => inOrder names.length items
  | _ => none

/-! ## Choices -/

/-- The one of several values that a text names; an object with that name and null says the same. -/
def choice? {α : Type} (name : α → String) (all : List α) : Json → Option α
  | .string (some s) => all.find? fun a => name a == s
  | .object [(some s, .null)] => all.find? fun a => name a == s
  | _ => none

end Codec
end SourceSlice
