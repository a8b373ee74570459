/-!
# UTF-8

Reading bytes as text, strictly and loosely.  A source file that is not UTF-8 is refused with the place and the kind
of the first fault; what an engine prints is read with U+FFFD in place of each fault.  Both readings rest on one
table: `follow` says which bytes may come after the first byte of a character.
-/
namespace SourceSlice.Utf8

/-- The least and the greatest byte allowed at a place. -/
abbrev Range := UInt8 × UInt8

/-- **The bytes that follow a character's first byte**, as a range for each, with the bits that the first byte itself
gives to the character; `none` for a byte that starts no character. -/
def follow (b : UInt8) : Option (Nat × List Range) :=
  if b < 0x80 then some (b.toNat, [])
  else if b < 0xC2 then none
  else if b < 0xE0 then some (b.toNat % 0x20, [(0x80, 0xBF)])
  else if b = 0xE0 then some (0, [(0xA0, 0xBF), (0x80, 0xBF)])
  else if b = 0xED then some (0xD, [(0x80, 0x9F), (0x80, 0xBF)])
  else if b < 0xF0 then some (b.toNat % 0x10, [(0x80, 0xBF), (0x80, 0xBF)])
  else if b = 0xF0 then some (0, [(0x90, 0xBF), (0x80, 0xBF), (0x80, 0xBF)])
  else if b < 0xF4 then some (b.toNat % 0x08, [(0x80, 0xBF), (0x80, 0xBF), (0x80, 0xBF)])
  else if b = 0xF4 then some (4, [(0x80, 0x8F), (0x80, 0xBF), (0x80, 0xBF)])
  else none

inductive Fault where
  /-- `length` bytes from `index` on begin no character. -/
  | malformed (length index : Nat)
  /-- The bytes end inside the character that begins at `index`. -/
  | truncated (index : Nat)
deriving DecidableEq, Repr

def Fault.message : Fault → String
  | .malformed length index => s!"invalid utf-8 sequence of {length} bytes from index {index}"
  | .truncated index => s!"incomplete utf-8 byte sequence from index {index}"

/-- The first fault, reading on at a character that began at `start`, of which `seen` bytes are read and `owed` are
to come. -/
def faultFrom (start seen : Nat) : List Range → List UInt8 → Option Fault
  | [], [] => none
  | _ :: _, [] => some (.truncated start)
  | [], b :: rest =>
    match follow b with
    | none => some (.malformed 1 start)
    | some (_, []) => faultFrom (start + 1) 0 [] rest
    | some (_, owed) => faultFrom start 1 owed rest
  | (low, high) :: owed, b :: rest =>
    if low ≤ b ∧ b ≤ high then
      if owed.isEmpty then faultFrom (start + seen + 1) 0 [] rest else faultFrom start (seen + 1) owed rest
    else some (.malformed seen start)

def fault? (bytes : List UInt8) : Option Fault := faultFrom 0 0 [] bytes

/-- The characters from the middle of one whose bits so far are `bits` and of which `owed` bytes are to come. -/
def looseFrom (bits : Nat) : List Range → List UInt8 → List Char
  | [], [] => []
  | _ :: _, [] => ['\uFFFD']
  | [], b :: rest =>
    match follow b with
    | none => '\uFFFD' :: looseFrom 0 [] rest
    | some (n, []) => Char.ofNat n :: looseFrom 0 [] rest
    | some (n, owed) => looseFrom n owed rest
  | (low, high) :: owed, b :: rest =>
    if low ≤ b ∧ b ≤ high then
      let bits := bits * 0x40 + b.toNat % 0x40
      if owed.isEmpty then Char.ofNat bits :: looseFrom 0 [] rest else looseFrom bits owed rest
    else match follow b with
      | none => '\uFFFD' :: '\uFFFD' :: looseFrom 0 [] rest
      | some (n, []) => '\uFFFD' :: Char.ofNat n :: looseFrom 0 [] rest
      | some (n, owed) => '\uFFFD' :: looseFrom n owed rest

/-- **Strict reading**: the text the bytes spell, or their first fault. -/
def decode (bytes : ByteArray) : Except Fault String :=
  match String.fromUTF8? bytes with
  | some text => .ok text
  | none => .error ((fault? bytes.data.toList).getD (.malformed 1 0))

/-- **Loose reading**: U+FFFD stands for each faulty run of bytes. -/
def decodeLoosely (bytes : ByteArray) : String :=
  match String.fromUTF8? bytes with
  | some text => text
  | none => String.ofList (looseFrom 0 [] bytes.data.toList)

/-- **A written text reads back.** -/
theorem decode_toUTF8 (s : String) : decode s.toUTF8 = .ok s := by
  have h : String.fromUTF8? s.toUTF8 = some s := by
    simp only [String.fromUTF8?, String.toUTF8_eq_toByteArray, dif_pos s.isValidUTF8]
    rfl
  rw [decode, h]

end SourceSlice.Utf8
