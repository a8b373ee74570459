import SourceSlice.Yaml.Cursor
/-!
# Scalars of YAML

The four ways to write a text: plain, in single or double quotes, and as an indented block.  A text may run over
several lines, and `Gap` says what the blanks and line ends between two of its words become.

Readers take a bound on the number of their steps; the length of the text is always enough.  They keep what they have
read with the last character first, and give it back so.
-/
namespace SourceSlice.Yaml

inductive Style where
  | plain
  | singleQuoted
  | doubleQuoted
  | literal
  | folded
deriving DecidableEq, Repr

/-- The blanks and line ends between two words, the last one first. -/
structure Gap where
  /-- The blanks, as long as no line has ended. -/
  blanks : List Char := []
  broken : Bool := false
  /-- The first line's end. -/
  first : List Char := []
  /-- The line ends after the first. -/
  more : List Char := []

namespace Gap

def isEmpty (g : Gap) : Bool := g.blanks.isEmpty && !g.broken

/-- **What a gap becomes**: one line's end becomes a blank, and of several the first is dropped. -/
def text (g : Gap) : List Char :=
  if !g.broken then g.blanks
  else if g.first = ['\n'] then (if g.more = [] then [' '] else g.more)
  else g.more ++ g.first

/-- Reads on over blanks and line ends.  Left of the column `floor` a line must not be indented by a tab. -/
def read (floor : Nat) : Nat → Gap → Cursor → Option (Gap × Cursor)
  | 0, _, _ => none
  | bound + 1, g, c => match c.head? with
    | none => some (g, c)
    | some x =>
      if isBlank x then
        if g.broken then
          if x = '\t' ∧ c.column < floor then none else read floor bound g (c.skip 1)
        else read floor bound { g with blanks := x :: g.blanks } (c.skip 1)
      else if isBreak x then
        if g.broken then read floor bound { g with more := c.breakText :: g.more } c.nextLine
        else read floor bound ⟨[], true, [c.breakText], []⟩ c.nextLine
      else some (g, c)

end Gap

/-! ## Plain scalars -/

def isFlowMark (c : Char) : Bool := c = ',' || c = '[' || c = ']' || c = '{' || c = '}'

/-- The word of a plain scalar that starts here. -/
def plainWord (inFlow : Bool) : Nat → List Char → Cursor → Option (List Char × Cursor)
  | 0, _, _ => none
  | bound + 1, seen, c => match c.head? with
    | none => some (seen, c)
    | some x =>
      if isBlank x || isBreak x then some (seen, c)
      else if inFlow && x = ':' && (c.at? 1).any (fun y => isFlowMark y || y = '?') then none
      else if x = ':' && c.gapAt 1 then some (seen, c)
      else if inFlow && isFlowMark x then some (seen, c)
      else plainWord inFlow bound (x :: seen) (c.skip 1)

/-- A plain scalar from the middle, and whether a line has ended after its last word. -/
def plainFrom (inFlow : Bool) (floor bound : Nat) :
    Nat → List Char → Gap → Cursor → Option (List Char × Bool × Cursor)
  | 0, _, _, _ => none
  | steps + 1, text, g, c =>
    if c.seesDocumentMark || c.sees '#' then some (text, g.broken, c)
    else do
      let (word, c) ← plainWord inFlow bound [] c
      let (text, g) := if word = [] then (text, g) else (word ++ (g.text ++ text), {})
      if !(c.head?.any fun x => isBlank x || isBreak x) then return (text, g.broken, c)
      let (g, c) ← Gap.read floor bound g c
      if !inFlow && c.column < floor then return (text, g.broken, c)
      plainFrom inFlow floor bound steps text g c

/-! ## Quoted scalars -/

def hexValue? (ds : List Char) : Option Nat :=
  ds.foldl (fun n c => do
    let n ← n
    if c.isDigit then return n * 16 + (c.toNat - 48)
    else if 'a' ≤ c ∧ c ≤ 'f' then return n * 16 + (c.toNat - 87)
    else if 'A' ≤ c ∧ c ≤ 'F' then return n * 16 + (c.toNat - 55)
    else none) (some 0)

/-- The character that an escape of one letter stands for. -/
def escaped? (c : Char) : Option Char :=
  [('0', '\x00'), ('a', '\x07'), ('b', '\x08'), ('t', '\t'), ('\t', '\t'), ('n', '\n'), ('v', '\x0b'), ('f', '\x0c'),
    ('r', '\r'), ('e', '\x1b'), (' ', ' '), ('"', '"'), ('/', '/'), ('\\', '\\'), ('N', '\u0085'), ('_', '\u00a0'),
    ('L', '\u2028'), ('P', '\u2029')].lookup c

/-- How many digits follow the letter of a numeric escape. -/
def escapeWidth? (c : Char) : Option Nat := [('x', 2), ('u', 4), ('U', 8)].lookup c

def codePoint? (ds : List Char) (width : Nat) : Option Char := do
  if ds.length < width then none
  let n ← hexValue? ds
  if (0xD800 ≤ n ∧ n ≤ 0xDFFF) ∨ 0x10FFFF < n then none else some (Char.ofNat n)

/-- The word of a quoted scalar that starts here, and whether an escaped line's end stands after it. -/
def quotedWord (single : Bool) : Nat → List Char → Cursor → Option (List Char × Bool × Cursor)
  | 0, _, _ => none
  | bound + 1, seen, c => match c.rest with
    | [] => some (seen, false, c)
    | x :: rest =>
      if isBlank x || isBreak x then some (seen, false, c)
      else if single then
        if x = '\'' then
          if rest.head? = some '\'' then quotedWord single bound ('\'' :: seen) (c.skip 2)
          else some (seen, false, c)
        else quotedWord single bound (x :: seen) (c.skip 1)
      else if x = '"' then some (seen, false, c)
      else if x = '\\' then
        match rest with
        | [] => none
        | y :: digits =>
          if isBreak y then some (seen, true, (c.skip 1).nextLine)
          else match escaped? y, escapeWidth? y with
            | some z, _ => quotedWord single bound (z :: seen) (c.skip 2)
            | none, some width => match codePoint? (digits.take width) width with
              | some z => quotedWord single bound (z :: seen) (c.skip (2 + width))
              | none => none
            | none, none => none
      else quotedWord single bound (x :: seen) (c.skip 1)

/-- A quoted scalar from the middle, up to its closing quote. -/
def quotedFrom (single : Bool) (bound : Nat) : Nat → List Char → Cursor → Option (List Char × Cursor)
  | 0, _, _ => none
  | steps + 1, text, c =>
    if c.seesDocumentMark || c.rest.isEmpty then none
    else do
      let (text, folded, c) ← quotedWord single bound text c
      if !folded && c.sees (if single then '\'' else '"') then return (text, c.skip 1)
      let (g, c) ← Gap.read 0 bound { broken := folded } c
      quotedFrom single bound steps (g.text ++ text) c

/-! ## Block scalars -/

/-- What becomes of the line ends after a block. -/
inductive Chomping where
  | strip
  | clip
  | keep
deriving DecidableEq, Repr

def chomping? : Option Char → Option Chomping
  | some '+' => some .keep
  | some '-' => some .strip
  | _ => none

def indentMark? (c : Option Char) : Option Nat :=
  c.bind fun c => if c.isDigit then some (c.toNat - 48) else none

/-- The head of a block after its first character: what it does with line ends, and its indentation when given. -/
def blockHead (c : Cursor) : Option (Chomping × Option Nat × Cursor) :=
  let (chomping, width, c) : Chomping × Option Nat × Cursor :=
    match chomping? c.head?, indentMark? c.head? with
    | some k, _ => match indentMark? (c.at? 1) with
      | some n => (k, some n, c.skip 2)
      | none => (k, none, c.skip 1)
    | none, some n => match chomping? (c.at? 1) with
      | some k => (k, some n, c.skip 2)
      | none => (.clip, some n, c.skip 1)
    | none, none => (.clip, none, c)
  if width = some 0 then none
  else
    let c := c.skipComment
    if !c.lineEnds then none
    else some (chomping, width, if c.rest.isEmpty then c else c.nextLine)

/-- The blank lines that stand here, with the greatest indentation seen. -/
def blankLines (indent : Option Nat) : Nat → Nat → List Char → Cursor → Option (List Char × Nat × Cursor)
  | 0, _, _, _ => none
  | bound + 1, widest, breaks, c =>
    let inside (column : Nat) : Bool := indent.all (column < ·)
    let spaces := (c.rest.takeWhile (· = ' ')).length
    let c := c.skip (match indent with
      | none => spaces
      | some n => min spaces (n - c.column))
    let widest := max widest c.column
    if inside c.column && c.sees '\t' then none
    else if c.head?.any isBreak then blankLines indent bound widest (c.breakText :: breaks) c.nextLine
    else some (breaks, widest, c)

/-- The lines of a block from the middle: the text so far, the end of the line before, the blank lines after it, and
whether that line began with a blank. -/
def blockLines (folded : Bool) (indent bound : Nat) :
    Nat → List Char → List Char → List Char → Bool → Cursor →
      Option (List Char × List Char × List Char × Cursor)
  | 0, _, _, _, _, _ => none
  | steps + 1, text, lead, breaks, ledBlank, c =>
    if c.column = indent ∧ ¬ c.rest.isEmpty then do
      let blank := c.head?.any isBlank
      let joint :=
        if folded && lead == ['\n'] && !ledBlank && !blank then (if breaks = [] then [' '] else []) else lead
      let (line, c) := c.takeWhile (!isBreak ·)
      let text := line.reverse ++ (breaks ++ (joint ++ text))
      let (lead, c) := if c.rest.isEmpty then ([], c) else ([c.breakText], c.nextLine)
      let (breaks, _, c) ← blankLines (some indent) bound 0 [] c
      blockLines folded indent bound steps text lead breaks blank c
    else some (text, lead, breaks, c)

/-- A block after its first character; `parent` is the column of what it stands in, if any. -/
def block (folded : Bool) (parent : Option Nat) (bound : Nat) (c : Cursor) : Option (List Char × Cursor) := do
  let (chomping, width, c) ← blockHead c
  let given := width.map (parent.getD 0 + ·)
  let (breaks, widest, c) ← blankLines given bound 0 [] c
  let indent := given.getD (max (max widest ((parent.map (· + 1)).getD 0)) 1)
  let (text, lead, breaks, c) ← blockLines folded indent bound bound [] [] breaks false c
  let text := (if chomping = .keep then breaks else []) ++ ((if chomping = .strip then [] else lead) ++ text)
  return (text, c)

end SourceSlice.Yaml
