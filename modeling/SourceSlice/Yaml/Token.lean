import SourceSlice.Yaml.Scalar
/-!
# Tokens of YAML

What a YAML text is made of before its structure is known.  Indentation shows as the starts and ends of blocks.
-/
namespace SourceSlice.Yaml

/-- The tag of a node as it is written: a handle, which may be empty, and what follows it. -/
structure Tag where
  handle : String
  suffix : String
deriving DecidableEq, Repr

inductive Token where
  | version (major minor : Nat)
  | tagHandle (handle expansion : String)
  | documentStart
  | documentEnd
  | blockSequenceStart
  | blockMappingStart
  | blockEnd
  | flowSequenceStart
  | flowSequenceEnd
  | flowMappingStart
  | flowMappingEnd
  | blockEntry
  | flowEntry
  | key
  | value
  | alias (name : String)
  | anchor (name : String)
  | tag (tag : Tag)
  | scalar (text : String) (style : Style)
deriving DecidableEq, Repr

/-! ## Names and tags -/

/-- The name of an anchor or an alias after its mark. -/
def anchorName (c : Cursor) : Option (String × Cursor) :=
  let (name, c) := c.takeWhile isWord
  let ends := c.gapAt 0 || c.head?.any (['?', ':', ',', ']', '}', '%', '@', '\x60'].contains ·)
  if name = [] ∨ !ends then none else some (String.ofList name, c)

/-- The characters of a tag that stand for themselves. -/
def isUri (c : Char) : Bool :=
  isWord c || [';', '/', '?', ':', '@', '&', '=', '+', '$', '.', '!', '~', '*', '\'', '(', ')'].contains c

/-- How many bytes the character has that starts with this one. -/
def utf8Width? (b : Nat) : Option Nat :=
  if b < 0x80 then some 1 else if b / 32 = 6 then some 2 else if b / 16 = 14 then some 3
  else if b / 8 = 30 then some 4 else none

/-- The byte that a percent sign and two digits spell. -/
def uriByte? (c : Cursor) : Option Nat :=
  match c.rest with
  | '%' :: a :: b :: _ => hexValue? [a, b]
  | _ => none

/-- `count` more bytes of a character whose bits so far are `bits`. -/
def uriTail : Nat → Nat → Cursor → Option (Nat × Cursor)
  | 0, bits, c => some (bits, c)
  | count + 1, bits, c => do
    let b ← uriByte? c
    if b / 64 = 2 then uriTail count (bits * 64 + b % 64) (c.skip 3) else none

/-- The character that `width` bytes with these bits are; bytes that are no character stand for none of a known tag. -/
def characterOf (width bits : Nat) : Char :=
  if bits.isValidChar ∧ (Char.ofNat bits).utf8Size = width then Char.ofNat bits else '\uFFFD'

def uriEscape (c : Cursor) : Option (Char × Cursor) := do
  let b ← uriByte? c
  let width ← utf8Width? b
  let bits := match width with
    | 1 => b
    | 2 => b % 32
    | 3 => b % 16
    | _ => b % 8
  let (n, c) ← uriTail (width - 1) bits (c.skip 3)
  return (characterOf width n, c)

/-- The characters of a tag from here on; a verbatim one may hold commas and brackets. -/
def uriFrom (verbatim : Bool) : Nat → List Char → Cursor → Option (List Char × Cursor)
  | 0, _, _ => none
  | bound + 1, seen, c => match c.head? with
    | none => some (seen.reverse, c)
    | some x =>
      if x = '%' then do
        let (y, c) ← uriEscape c
        uriFrom verbatim bound (y :: seen) c
      else if isUri x || (verbatim && (x = ',' || x = '[' || x = ']')) then
        uriFrom verbatim bound (x :: seen) (c.skip 1)
      else some (seen.reverse, c)

/-- A handle: an exclamation mark, and maybe a name and a second mark. -/
def tagHandle (c : Cursor) : Option (List Char × Cursor) :=
  if !c.sees '!' then none
  else
    let (name, c) := (c.skip 1).takeWhile isWord
    if c.sees '!' then some ('!' :: (name ++ ['!']), c.skip 1) else some ('!' :: name, c)

/-- What counts of the characters of a tag: those before the first NUL. -/
def tagText (s : List Char) : String := String.ofList (s.takeWhile (· ≠ '\x00'))

def readTag (bound : Nat) (inFlow : Bool) (c : Cursor) : Option (Tag × Cursor) := do
  let (tag, c) ← if c.at? 1 = some '<' then do
      let (uri, c) ← uriFrom true bound [] (c.skip 2)
      if uri = [] ∨ !c.sees '>' then none
      pure (Tag.mk "" (tagText uri), c.skip 1)
    else do
      let (handle, c) ← tagHandle c
      let (uri, c) ← uriFrom false bound [] c
      if 2 ≤ handle.length ∧ handle.getLast? = some '!' then
        if uri = [] then none
        pure (Tag.mk (String.ofList handle) (tagText uri), c)
      else
        let suffix := tagText (handle.drop 1 ++ uri)
        pure (if suffix = "" then Tag.mk "" "!" else Tag.mk "!" suffix, c)
  if c.gapAt 0 || (inFlow && c.sees ',') then return (tag, c) else none

/-! ## Directives -/

def smallNumber (c : Cursor) : Option (Nat × Cursor) :=
  let (ds, c) := c.takeWhile Char.isDigit
  if ds = [] ∨ 9 < ds.length then none else some (Nat.ofDigitChars 10 ds 0, c)

def readDirective (bound : Nat) (c : Cursor) : Option (Token × Cursor) := do
  let (name, c) := (c.skip 1).takeWhile isWord
  if name = [] ∨ !c.gapAt 0 then none
  let c := c.skipWhile isBlank
  let (token, c) ←
    if name = ['Y', 'A', 'M', 'L'] then do
      let (major, c) ← smallNumber c
      if !c.sees '.' then none
      let (minor, c) ← smallNumber (c.skip 1)
      pure (Token.version major minor, c)
    else if name = ['T', 'A', 'G'] then do
      let (handle, c) ← tagHandle c
      if 2 ≤ handle.length ∧ handle.getLast? ≠ some '!' then none
      if !(c.head?.any isBlank) then none
      let (uri, c) ← uriFrom true bound [] (c.skipWhile isBlank)
      if uri = [] ∨ !c.gapAt 0 then none
      pure (Token.tagHandle (String.ofList handle) (tagText uri), c)
    else none
  let c := c.skipComment
  if !c.lineEnds then none
  return (token, if c.rest.isEmpty then c else c.nextLine)

end SourceSlice.Yaml
