import SourceSlice.Yaml.Token
/-!
# From text to tokens

A text that turns out to be the key of a mapping is known as one only at the colon after it.  Until then the place of
its token is remembered as a possible key, one for each level of brackets, and the tokens for the key go in there
later.  A possible key is given up when its line ends or after 1024 bytes.

Only a key outside all brackets can be required, so of the others it is enough to look at the innermost one.
-/
namespace SourceSlice.Yaml

/-- A token that a colon may yet make a key. -/
structure PossibleKey where
  /-- Whether the block cannot go on unless it is a key. -/
  required : Bool
  /-- How many tokens stand before it. -/
  token : Nat
  index : Nat
  line : Nat
  column : Nat

/-- Whether a possible key is on an earlier line or too far back. -/
def PossibleKey.isStale (key : PossibleKey) (c : Cursor) : Bool :=
  key.line < c.line || key.index + 1024 < c.index

structure Lexer where
  cursor : Cursor
  /-- The tokens so far, the last one first. -/
  done : List Token
  /-- How many they are. -/
  count : Nat
  indent : Option Nat
  /-- The columns of the blocks around it, the innermost first. -/
  outer : List (Option Nat)
  /-- The possible key outside all brackets. -/
  blockKey : Option PossibleKey
  /-- The possible keys inside brackets, the one of the innermost first. -/
  flowKeys : List (Option PossibleKey)
  keyAllowed : Bool

namespace Lexer

def start (text : List Char) : Lexer := ⟨.start text, [], 0, none, [], none, [], true⟩

def inFlow (x : Lexer) : Bool := !x.flowKeys.isEmpty

def emit (x : Lexer) (t : Token) : Lexer := { x with done := t :: x.done, count := x.count + 1 }

/-- Puts a token before all but the first `n`. -/
def emitAt (x : Lexer) (n : Nat) (t : Token) : Lexer :=
  let after := x.count - n
  { x with done := x.done.take after ++ t :: x.done.drop after, count := x.count + 1 }

def key? (x : Lexer) : Option PossibleKey :=
  match x.flowKeys with
  | [] => x.blockKey
  | key :: _ => key

def setKey (x : Lexer) (key : Option PossibleKey) : Lexer :=
  match x.flowKeys with
  | [] => { x with blockKey := key }
  | _ :: rest => { x with flowKeys := key :: rest }

def deeper (x : Lexer) (column : Nat) : Bool := x.indent.all (· < column)

/-- Opens a block at a column that lies inside the innermost one. -/
def openBlock (x : Lexer) (column place : Nat) (t : Token) : Lexer :=
  if x.inFlow || !x.deeper column then x
  else { x.emitAt place t with indent := some column, outer := x.indent :: x.outer }

/-- Closes the blocks that lie right of a column; `none` closes all. -/
def closeBlocks (column : Option Nat) (x : Lexer) : Lexer :=
  if x.inFlow then x else go x.outer x
where
  /-- Closes one block for each that is around it, as long as it lies right of the column. -/
  go : List (Option Nat) → Lexer → Lexer
    | [], x => x
    | around :: rest, x =>
      if x.indent.any fun n => column.all (· < n) then
        go rest { x.emit .blockEnd with indent := around, outer := rest }
      else x

/-- Gives the innermost possible key up, which fails when it must be a key. -/
def dropKey (x : Lexer) : Option Lexer :=
  if x.key?.any (·.required) then none else some (x.setKey none)

/-- Notes that the next token may be a key. -/
def noteKey (x : Lexer) : Option Lexer :=
  if x.keyAllowed then do
    let c := x.cursor
    let key : PossibleKey := ⟨!x.inFlow && x.indent == some c.column, x.count, c.index, c.line, c.column⟩
    return (← x.dropKey).setKey (some key)
  else some x

/-- Gives up the possible keys that have gone stale, which fails when one of them must be a key. -/
def dropStaleKeys (x : Lexer) : Option Lexer :=
  let stale (key : Option PossibleKey) : Bool := key.any (·.isStale x.cursor)
  if stale x.blockKey && x.blockKey.any (·.required) then none
  else
    let x := if stale x.blockKey then { x with blockKey := none } else x
    some (if stale x.key? then x.setKey none else x)

/-- Goes on to the next token: over blanks, comments and line ends. -/
def skipToToken : Nat → Lexer → Lexer
  | 0, x => x
  | bound + 1, x =>
    let c := if x.cursor.column = 0 ∧ x.cursor.sees '\uFEFF' then x.cursor.skip 1 else x.cursor
    let tabs := x.inFlow || !x.keyAllowed
    let c := c.skipWhile fun a => a = ' ' || (tabs && a = '\t')
    let c := if c.sees '#' then c.skipWhile (!isBreak ·) else c
    if c.head?.any isBreak then
      skipToToken bound { x with cursor := c.nextLine, keyAllowed := x.keyAllowed || !x.inFlow }
    else { x with cursor := c }

/-- Reads a token of `n` characters. -/
def mark (x : Lexer) (n : Nat) (t : Token) : Lexer := { x.emit t with cursor := x.cursor.skip n }

def allow (x : Lexer) (allowed : Bool) : Lexer := { x with keyAllowed := allowed }

/-- The start or the end of a document, or a directive: all blocks end. -/
def endBlocks (x : Lexer) : Option Lexer := do
  let x ← (x.closeBlocks none).dropKey
  return x.allow false

def openFlow (x : Lexer) (t : Token) : Option Lexer := do
  let x ← x.noteKey
  return ({ x with flowKeys := none :: x.flowKeys }.allow true).mark 1 t

def closeFlow (x : Lexer) (t : Token) : Option Lexer := do
  let x ← x.dropKey
  return ({ x with flowKeys := x.flowKeys.tail }.allow false).mark 1 t

def entry (x : Lexer) : Option Lexer := do
  if !x.inFlow && !x.keyAllowed then none
  let x := x.openBlock x.cursor.column x.count .blockSequenceStart
  let x ← x.dropKey
  return (x.allow true).mark 1 .blockEntry

def explicitKey (x : Lexer) : Option Lexer := do
  if !x.inFlow && !x.keyAllowed then none
  let x := x.openBlock x.cursor.column x.count .blockMappingStart
  let x ← x.dropKey
  return (x.allow (!x.inFlow)).mark 1 .key

def colon (x : Lexer) : Option Lexer :=
  match x.key? with
  | some key =>
    let x := (x.emitAt key.token .key).setKey none
    let x := x.openBlock key.column key.token .blockMappingStart
    some ((x.allow false).mark 1 .value)
  | none => do
    if !x.inFlow && !x.keyAllowed then none
    let x := x.openBlock x.cursor.column x.count .blockMappingStart
    return (x.allow (!x.inFlow)).mark 1 .value

/-- A token that may be a key and is read by a reader of its own. -/
def item (x : Lexer) (read : Cursor → Option (Token × Cursor)) : Option Lexer := do
  let x := (← x.noteKey).allow false
  let (t, cursor) ← read x.cursor
  return { x.emit t with cursor }

def blockScalar (bound : Nat) (x : Lexer) (folded : Bool) : Option Lexer := do
  let x := (← x.dropKey).allow true
  let (text, cursor) ← block folded x.indent bound (x.cursor.skip 1)
  return { x.emit (.scalar (String.ofList text.reverse) (if folded then .folded else .literal)) with cursor }

def plainScalar (bound : Nat) (x : Lexer) : Option Lexer := do
  let x := (← x.noteKey).allow false
  let floor := (x.indent.map (· + 1)).getD 0
  let (text, broken, cursor) ← plainFrom x.inFlow floor bound bound [] {} x.cursor
  return { x.emit (.scalar (String.ofList text.reverse) .plain) with cursor, keyAllowed := broken }

def quotedScalar (bound : Nat) (x : Lexer) (single : Bool) : Option Lexer :=
  x.item fun c => do
    let (text, c) ← quotedFrom single bound bound [] (c.skip 1)
    return (.scalar (String.ofList text.reverse) (if single then .singleQuoted else .doubleQuoted), c)

def isIndicator (c : Char) : Bool :=
  ['-', '?', ':', ',', '[', ']', '{', '}', '#', '&', '*', '!', '|', '>', '\'', '"', '%', '@', '\x60'].contains c

def startsPlain (x : Lexer) : Bool :=
  match x.cursor.head? with
  | none => false
  | some c =>
    !(isBlank c || isBreak c || isIndicator c) || (c = '-' && !((x.cursor.at? 1).any isBlank)) ||
      (!x.inFlow && (c = '?' || c = ':') && !x.cursor.gapAt 1)

def token (bound : Nat) (x : Lexer) (c : Char) : Option Lexer :=
  let gap := x.cursor.gapAt 1
  if x.cursor.column = 0 ∧ c = '%' then do
    let x ← x.endBlocks
    let (t, cursor) ← readDirective bound x.cursor
    return { x.emit t with cursor }
  else if x.cursor.seesMark '-' then x.endBlocks.map (·.mark 3 .documentStart)
  else if x.cursor.seesMark '.' then x.endBlocks.map (·.mark 3 .documentEnd)
  else if c = '[' then x.openFlow .flowSequenceStart
  else if c = '{' then x.openFlow .flowMappingStart
  else if c = ']' then x.closeFlow .flowSequenceEnd
  else if c = '}' then x.closeFlow .flowMappingEnd
  else if c = ',' then x.dropKey.map fun x => (x.allow true).mark 1 .flowEntry
  else if c = '-' && gap then x.entry
  else if c = '?' && (x.inFlow || gap) then x.explicitKey
  else if c = ':' && (x.inFlow || gap) then x.colon
  else if c = '*' then x.item fun c => (anchorName (c.skip 1)).map fun (name, c) => (.alias name, c)
  else if c = '&' then x.item fun c => (anchorName (c.skip 1)).map fun (name, c) => (.anchor name, c)
  else if c = '!' then x.item fun c => (readTag bound x.inFlow c).map fun (tag, c) => (.tag tag, c)
  else if c = '|' && !x.inFlow then x.blockScalar bound false
  else if c = '>' && !x.inFlow then x.blockScalar bound true
  else if c = '\'' then x.quotedScalar bound true
  else if c = '"' then x.quotedScalar bound false
  else if x.startsPlain then x.plainScalar bound
  else none

/-- All tokens from here to the end of the text. -/
def run (bound : Nat) : Nat → Lexer → Option (List Token)
  | 0, _ => none
  | steps + 1, x => do
    let x ← (skipToToken bound x).dropStaleKeys
    match x.cursor.head? with
    | none =>
      let x ← (x.closeBlocks none).dropKey
      return x.done.reverse
    | some c =>
      let x ← (x.closeBlocks (some x.cursor.column)).token bound c
      run bound steps x

end Lexer

/-- **The tokens of a text**, unless it is not YAML. -/
def tokens? (text : List Char) : Option (List Token) :=
  if text.all isAllowed then Lexer.run (text.length + 2) (text.length + 2) (.start text) else none

end SourceSlice.Yaml
