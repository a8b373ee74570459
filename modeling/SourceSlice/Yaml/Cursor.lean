/-!
# A place in a YAML text

The characters that are to come, and where the first of them stands.  The place counts for YAML: indentation is a
column, and a key must stand on one line and must not be too many bytes before its colon.
-/
namespace SourceSlice.Yaml

/-- The characters that a YAML text may hold. -/
def isAllowed (c : Char) : Bool :=
  let n := c.toNat
  n == 0x09 || n == 0x0A || n == 0x0D || (0x20 ≤ n && n ≤ 0x7E) || n == 0x85 || (0xA0 ≤ n && n ≤ 0xD7FF) ||
    (0xE000 ≤ n && n ≤ 0xFFFD) || 0x10000 ≤ n

def isBlank (c : Char) : Bool := c = ' ' || c = '\t'

def isBreak (c : Char) : Bool := c = '\r' || c = '\n' || c = '\u0085' || c = '\u2028' || c = '\u2029'

/-- The characters of the names of anchors, handles and directives. -/
def isWord (c : Char) : Bool := c.isAlphanum || c = '_' || c = '-'

structure Cursor where
  rest : List Char
  /-- How many bytes stand before it. -/
  index : Nat
  line : Nat
  column : Nat

namespace Cursor

def start (text : List Char) : Cursor := ⟨text, 0, 0, 0⟩

def head? (c : Cursor) : Option Char := c.rest.head?

def at? (c : Cursor) (i : Nat) : Option Char := c.rest[i]?

def sees (c : Cursor) (x : Char) : Bool := c.head? == some x

/-- Whether the text or the line ends at an offset, or a blank stands there. -/
def gapAt (c : Cursor) (i : Nat) : Bool := (c.at? i).all fun x => isBlank x || isBreak x

def lineEnds (c : Cursor) : Bool := c.head?.all isBreak

/-- The place `n` characters on in the same line. -/
def skip : Nat → Cursor → Cursor
  | 0, c => c
  | n + 1, c => match c.rest with
    | [] => c
    | x :: rest => skip n ⟨rest, c.index + x.utf8Size, c.line, c.column + 1⟩

/-- The place after the line's end that stands here. -/
def nextLine (c : Cursor) : Cursor :=
  match c.rest with
  | '\r' :: '\n' :: rest => ⟨rest, c.index + 2, c.line + 1, 0⟩
  | x :: rest => ⟨rest, c.index + x.utf8Size, c.line + 1, 0⟩
  | [] => c

/-- What the line's end that stands here becomes in a scalar. -/
def breakText (c : Cursor) : Char :=
  match c.head? with
  | some x => if x = '\u2028' ∨ x = '\u2029' then x else '\n'
  | none => '\n'

/-- The characters from here on that pass a test, and the place after them. -/
def takeWhile (c : Cursor) (p : Char → Bool) : List Char × Cursor :=
  let taken := c.rest.takeWhile p
  (taken, c.skip taken.length)

def skipWhile (c : Cursor) (p : Char → Bool) : Cursor := (c.takeWhile p).2

/-- The place after blanks and a comment. -/
def skipComment (c : Cursor) : Cursor :=
  let c := c.skipWhile isBlank
  if c.sees '#' then c.skipWhile (!isBreak ·) else c

/-- Whether a mark of three characters stands alone at the start of this line. -/
def seesMark (c : Cursor) (x : Char) : Bool :=
  c.column == 0 && c.rest.take 3 == [x, x, x] && c.gapAt 3

def seesDocumentMark (c : Cursor) : Bool := c.seesMark '-' || c.seesMark '.'

end Cursor
end SourceSlice.Yaml
