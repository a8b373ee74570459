/-!
# JSON values

A number is kept as an integer when it is spelled as one that may fit 64 bits, and by its spelling when it is not;
nothing here computes with fractions.  A text in which an escape names half a character has no value as a text, but it
is still JSON, and it may stand where nobody looks at it.

A value has one text for each `Layout`: the compact text, and the broad one.  Only what JSON forbids inside quotes is
escaped.
-/
namespace SourceSlice

/-- A JSON value; the members of an object are in the order of the text. -/
inductive Json where
  | null
  | bool (b : Bool)
  | integer (n : Int)
  /-- A number with a fraction or an exponent, a negative zero, or a number of more than twenty digits. -/
  | real (spelling : String)
  /-- A text, or none where half of a character is missing. -/
  | string (s : Option String)
  | array (items : List Json)
  | object (members : List (Option String × Json))
deriving Repr, Inhabited

namespace Json

def text (s : String) : Json := .string (some s)

def record (members : List (String × Json)) : Json := .object (members.map fun (name, value) => (some name, value))

def nullable {α : Type} (f : α → Json) : Option α → Json
  | some a => f a
  | none => .null

def hexDigit (n : Nat) : Char := if n < 10 then Char.ofNat (48 + n) else Char.ofNat (87 + n)

def escape (c : Char) : List Char :=
  if c = '"' then ['\\', '"']
  else if c = '\\' then ['\\', '\\']
  else if c = '\x08' then ['\\', 'b']
  else if c = '\x0c' then ['\\', 'f']
  else if c = '\n' then ['\\', 'n']
  else if c = '\r' then ['\\', 'r']
  else if c = '\t' then ['\\', 't']
  else if c.toNat < 0x20 then ['\\', 'u', '0', '0', hexDigit (c.toNat / 16), hexDigit (c.toNat % 16)]
  else [c]

/-- A text in quotes; one that misses half a character is written as that half. -/
def quoted : Option String → List Char
  | some s => '"' :: (s.toList.flatMap escape ++ ['"'])
  | none => ['"', '\\', 'u', 'd', '8', '0', '0', '"']

def scalar : Json → List Char
  | .bool true => ['t', 'r', 'u', 'e']
  | .bool false => ['f', 'a', 'l', 's', 'e']
  | .integer n => (toString n).toList
  | .real spelling => spelling.toList
  | .string s => quoted s
  | _ => ['n', 'u', 'l', 'l']

/-- How the text of a value is laid out: what stands before an item or a closing bracket at a level, and after the name
of a member and its colon. -/
structure Layout where
  before : Nat → List Char
  afterName : List Char

namespace Layout

/-- No blanks at all. -/
def compact : Layout := ⟨fun _ => [], []⟩

/-- A line for each item and each member, with two blanks for each level. -/
def broad : Layout := ⟨fun level => '\n' :: List.replicate (2 * level) ' ', [' ']⟩

end Layout

mutual

/-- **The text of a value** at a level. -/
def spell (layout : Layout) (level : Nat) : Json → List Char
  | .array [] => ['[', ']']
  | .array (v :: rest) => '[' :: (spellItems layout (level + 1) (v :: rest) ++ layout.before level ++ [']'])
  | .object [] => ['\x7b', '\x7d']
  | .object (m :: rest) => '\x7b' :: (spellMembers layout (level + 1) (m :: rest) ++ layout.before level ++ ['\x7d'])
  | v => scalar v

def spellItems (layout : Layout) (level : Nat) : List Json → List Char
  | [] => []
  | [v] => layout.before level ++ spell layout level v
  | v :: rest => layout.before level ++ spell layout level v ++ ',' :: spellItems layout level rest

def spellMembers (layout : Layout) (level : Nat) : List (Option String × Json) → List Char
  | [] => []
  | [(name, v)] => layout.before level ++ quoted name ++ ':' :: (layout.afterName ++ spell layout level v)
  | (name, v) :: rest =>
    layout.before level ++ quoted name ++
      ':' :: (layout.afterName ++ spell layout level v ++ ',' :: spellMembers layout level rest)

end

def render (v : Json) : String := String.ofList (spell .compact 0 v)

def renderBroad (v : Json) : String := String.ofList (spell .broad 0 v)

end Json
end SourceSlice
