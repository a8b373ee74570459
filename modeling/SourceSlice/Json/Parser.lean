import SourceSlice.Json.Value
/-!
# Reading JSON

A reader takes the characters from where it stands and gives the value with the characters after it.  `value`, `items`
and `members` call one another; their first argument bounds the depth of the calls, and twice the length of the text
is always enough.
-/
namespace SourceSlice.Json

def isBlank (c : Char) : Bool := c = ' ' || c = '\t' || c = '\n' || c = '\r'

def skipBlanks (s : List Char) : List Char := s.dropWhile isBlank

/-- The value of a digit of base sixteen, in a small or a capital letter. -/
def hexValue? (c : Char) : Option Nat :=
  if c.isDigit then some (c.toNat - 48)
  else if 'a' ≤ c ∧ c ≤ 'f' then some (c.toNat - 87)
  else if 'A' ≤ c ∧ c ≤ 'F' then some (c.toNat - 55)
  else none

/-- What stands inside quotes: a character, or the number that an escape gives for 16 bits of one. -/
inductive Unit16 where
  | char (c : Char)
  | code (n : Nat)

/-- The character that an escape of one letter stands for. -/
def unescape? (c : Char) : Option Char :=
  if c = '"' ∨ c = '\\' ∨ c = '/' then some c
  else if c = 'b' then some '\x08'
  else if c = 'f' then some '\x0c'
  else if c = 'n' then some '\n'
  else if c = 'r' then some '\r'
  else if c = 't' then some '\t'
  else none

/-- The rest of a text after its opening quote; `seen` is what has been read of it, the last first. -/
def unitsFrom (seen : List Unit16) : List Char → Option (List Unit16 × List Char)
  | [] => none
  | '"' :: rest => some (seen.reverse, rest)
  | '\\' :: 'u' :: a :: b :: c :: d :: rest =>
    match hexValue? a, hexValue? b, hexValue? c, hexValue? d with
    | some a, some b, some c, some d => unitsFrom (.code (((a * 16 + b) * 16 + c) * 16 + d) :: seen) rest
    | _, _, _, _ => none
  | '\\' :: c :: rest => match unescape? c with
    | some c => unitsFrom (.char c :: seen) rest
    | none => none
  | c :: rest => if c.toNat < 0x20 ∨ c = '\\' then none else unitsFrom (.char c :: seen) rest

/-- The characters that units make up; two halves of a character must stand side by side. -/
def joinUnits (seen : List Char) : List Unit16 → Option (List Char)
  | [] => some seen.reverse
  | .char c :: rest => joinUnits (c :: seen) rest
  | .code high :: .code low :: rest =>
    if 0xD800 ≤ high ∧ high < 0xDC00 then
      if 0xDC00 ≤ low ∧ low < 0xE000 then
        joinUnits (Char.ofNat (0x10000 + (high - 0xD800) * 0x400 + (low - 0xDC00)) :: seen) rest
      else none
    else if 0xDC00 ≤ high ∧ high < 0xE000 then none
    else joinUnits (Char.ofNat high :: seen) (.code low :: rest)
  | .code n :: rest => if 0xD800 ≤ n ∧ n < 0xE000 then none else joinUnits (Char.ofNat n :: seen) rest

def quotedText (s : List Char) : Option (Option String × List Char) :=
  (unitsFrom [] s).map fun (units, rest) => ((joinUnits [] units).map String.ofList, rest)

def digits1 (s : List Char) : Option (List Char × List Char) :=
  match s.span Char.isDigit with
  | ([], _) => none
  | r => some r

/-- The whole part of a number: a zero, or digits that do not start with one. -/
def wholePart (s : List Char) : Option (List Char × List Char) :=
  match s with
  | '0' :: rest => if (rest.head?.map Char.isDigit).getD false then none else some (['0'], rest)
  | s => digits1 s

def fractionPart : List Char → Option (List Char × List Char)
  | '.' :: rest => (digits1 rest).map fun (ds, rest) => ('.' :: ds, rest)
  | s => some ([], s)

def exponentPart : List Char → Option (List Char × List Char)
  | e :: rest =>
    if e = 'e' ∨ e = 'E' then
      match rest with
      | sign :: rest' =>
        if sign = '+' ∨ sign = '-' then (digits1 rest').map fun (ds, r) => (e :: sign :: ds, r)
        else (digits1 rest).map fun (ds, r) => (e :: ds, r)
      | [] => none
    else some ([], e :: rest)
  | [] => some ([], [])

/-- The length of the longest whole number that is kept as one, in digits. -/
def longestInteger : Nat := 20

def number (s : List Char) : Option (Json × List Char) := do
  let (negative, s) := match s with
    | '-' :: rest => (true, rest)
    | s => (false, s)
  let (whole, s) ← wholePart s
  let (fraction, s) ← fractionPart s
  let (exponent, s) ← exponentPart s
  if fraction = [] ∧ exponent = [] ∧ whole.length ≤ longestInteger ∧ ¬ (negative ∧ whole = ['0']) then
    let value : Int := Nat.ofDigitChars 10 whole 0
    return (.integer (if negative then -value else value), s)
  else
    return (.real (String.ofList ((if negative then ['-'] else []) ++ whole ++ fraction ++ exponent)), s)

def atom : List Char → Option (Json × List Char)
  | 'n' :: 'u' :: 'l' :: 'l' :: rest => some (.null, rest)
  | 't' :: 'r' :: 'u' :: 'e' :: rest => some (.bool true, rest)
  | 'f' :: 'a' :: 'l' :: 's' :: 'e' :: rest => some (.bool false, rest)
  | '"' :: rest => (quotedText rest).map fun (s, rest) => (.string s, rest)
  | s => number s

mutual

def value : Nat → List Char → Option (Json × List Char)
  | 0, _ => none
  | bound + 1, s => match skipBlanks s with
    | '[' :: rest => match skipBlanks rest with
      | ']' :: rest => some (.array [], rest)
      | rest => (items bound rest).map fun (vs, rest) => (.array vs, rest)
    | '\x7b' :: rest => match skipBlanks rest with
      | '\x7d' :: rest => some (.object [], rest)
      | rest => (members bound rest).map fun (ms, rest) => (.object ms, rest)
    | rest => atom rest

def items : Nat → List Char → Option (List Json × List Char)
  | 0, _ => none
  | bound + 1, s => match value bound s with
    | none => none
    | some (v, s) => match skipBlanks s with
      | ',' :: rest => (items bound rest).map fun (vs, rest) => (v :: vs, rest)
      | ']' :: rest => some ([v], rest)
      | _ => none

def members : Nat → List Char → Option (List (Option String × Json) × List Char)
  | 0, _ => none
  | bound + 1, s => match skipBlanks s with
    | '"' :: rest => match quotedText rest with
      | none => none
      | some (name, rest) => match skipBlanks rest with
        | ':' :: rest => match value bound rest with
          | none => none
          | some (v, s) => match skipBlanks s with
            | ',' :: rest => (members bound rest).map fun (ms, rest) => ((name, v) :: ms, rest)
            | '\x7d' :: rest => some ([(name, v)], rest)
            | _ => none
        | _ => none
    | _ => none

end

/-- **The value of a text**, with nothing but blanks around it. -/
def parse? (text : String) : Option Json :=
  let s := text.toList
  match value (2 * s.length + 2) s with
  | some (v, rest) => if skipBlanks rest = [] then some v else none
  | none => none

end SourceSlice.Json
