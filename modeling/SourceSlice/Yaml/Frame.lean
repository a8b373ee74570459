import SourceSlice.Yaml.Lexer
import SourceSlice.Yaml.Scalar
import Std.Data.HashMap
/-!
# From tokens to nodes

A document is a tree of scalars, sequences and mappings, in which an alias stands for a node that has an anchor.  A
name of an anchor may be used again, so an alias holds a number, and `Document.target?` finds the node that was marked
with it last.

Collections stand in collections as deep as a text likes, so those that are not complete yet are kept in a list of
frames, the innermost first.  `step` moves by one token at most: it opens a collection, gives a node to the innermost
frame, or goes on in it.
-/
namespace SourceSlice.Yaml

/-- A node; the tag of a scalar is the whole tag, its handle expanded. -/
inductive Node where
  | scalar (text : String) (style : Style) (tag : Option String)
  | sequence (items : List Node)
  | mapping (pairs : List (Node × Node))
  | alias (anchor : Nat)
deriving Repr, Inhabited

def Node.nothing : Node := .scalar "" .plain none

/-- A node that an anchor marks, and how many marked nodes begin before it. -/
structure Target where
  order : Nat
  node : Node
deriving Inhabited

abbrev Targets := Std.HashMap Nat Target

/-- The marked nodes with one more; of those with one number the one that begins last stays. -/
def Targets.note (targets : Targets) (anchor : Nat) (t : Target) : Targets :=
  match targets[anchor]? with
  | some old => if old.order < t.order then targets.insert anchor t else targets
  | none => targets.insert anchor t

/-- A document: its root, and the nodes that aliases may stand for. -/
structure Document where
  root : Node
  targets : Targets

def Document.target? (d : Document) (anchor : Nat) : Option Node := d.targets[anchor]?.map (·.node)

/-- What is known in the middle of a stream of tokens. -/
structure Reading where
  tokens : List Token
  /-- The tag handles of the document with what they stand for. -/
  handles : List (String × String) := []
  /-- The names of anchors with their numbers. -/
  names : Std.HashMap String Nat := ∅
  /-- How many marked nodes have begun. -/
  marked : Nat := 0
  targets : Targets := ∅

abbrev Reader := StateT Reading Option

/-- The mark of a node: how many marked nodes begin before it, and the number of its anchor. -/
structure Mark where
  order : Nat
  anchor : Nat

/-- A collection that is not complete; its members are kept with the last one first. -/
inductive Frame where
  /-- A sequence that is not indented. -/
  | flatItems (mark : Option Mark) (items : List Node)
  | blockItems (mark : Option Mark) (items : List Node)
  | flowItems (mark : Option Mark) (items : List Node)
  /-- A mapping, and the key whose value comes next. -/
  | blockPairs (mark : Option Mark) (pairs : List (Node × Node)) (key : Option Node)
  | flowPairs (mark : Option Mark) (pairs : List (Node × Node)) (key : Option Node)
  /-- A key in braces that has no value. -/
  | loneKey (mark : Option Mark) (pairs : List (Node × Node))
  /-- A pair that stands in a sequence by itself, and its key when that is known. -/
  | singlePair (key : Option Node)

/-- What comes next. -/
inductive Focus where
  /-- A node.  Blocks may start only where `inBlock` holds, and a sequence without indentation where `flat` does. -/
  | want (inBlock flat : Bool)
  /-- The place for a node that has been read. -/
  | got (node : Node)
  /-- Whatever the innermost collection goes on with. -/
  | more

namespace Reader

def peek : Reader (Option Token) := return (← get).tokens.head?

def drop : Reader Unit := modify fun r => { r with tokens := r.tokens.tail }

def fail {α : Type} : Reader α := fun _ => none

def sees (ts : List Token) : Reader Bool := return (← peek).any ts.contains

/-- The mark of a node with an anchor, whose number is how many names there are so far. -/
def register : Option String → Reader (Option Mark)
  | none => return none
  | some name => do
    let r ← get
    set { r with names := r.names.insert name r.names.size, marked := r.marked + 1 }
    return some ⟨r.marked, r.names.size⟩

/-- A node that is complete, noted when it has a mark. -/
def complete (mark : Option Mark) (node : Node) : Reader Node := do
  match mark with
  | some mark => modify fun r => { r with targets := r.targets.note mark.anchor ⟨mark.order, node⟩ }
  | none => pure ()
  return node

def expand (tag : Tag) : Reader String := do
  if tag.handle = "" then return tag.suffix
  match (← get).handles.lookup tag.handle with
  | some expansion => return expansion ++ tag.suffix
  | none => fail

/-- The anchor and the tag before a node, in either order. -/
def properties : Reader (Option String × Option Tag) := do
  match ← peek with
  | some (.anchor name) =>
    drop
    match ← peek with
    | some (.tag tag) => drop; return (some name, some tag)
    | _ => return (some name, none)
  | some (.tag tag) =>
    drop
    match ← peek with
    | some (.anchor name) => drop; return (some name, some tag)
    | _ => return (none, some tag)
  | _ => return (none, none)

/-- A node of nothing, which only an anchor or a tag can call for. -/
def bare (frames : List Frame) (anchor tag : Option String) : Reader (List Frame × Focus) := do
  if anchor.isNone && tag.isNone then fail
  return (frames, .got (← complete (← register anchor) (.scalar "" .plain tag)))

/-- Begins a node. -/
def begin (frames : List Frame) (inBlock flat : Bool) : Reader (List Frame × Focus) := do
  if let some (.alias name) ← peek then
    drop
    match (← get).names[name]? with
    | some anchor => return (frames, .got (.alias anchor))
    | none => fail
  let (anchor, tag) ← properties
  let tag ← tag.mapM expand
  match ← peek with
  | some (.scalar text style) =>
    drop
    return (frames, .got (← complete (← register anchor) (.scalar text style tag)))
  | some .blockEntry =>
    if !flat then bare frames anchor tag
    else return (.flatItems (← register anchor) [] :: frames, .more)
  | some .flowSequenceStart =>
    drop
    return (.flowItems (← register anchor) [] :: frames, .more)
  | some .flowMappingStart =>
    drop
    return (.flowPairs (← register anchor) [] none :: frames, .more)
  | some .blockSequenceStart =>
    if !inBlock then bare frames anchor tag
    else
      drop
      return (.blockItems (← register anchor) [] :: frames, .more)
  | some .blockMappingStart =>
    if !inBlock then bare frames anchor tag
    else
      drop
      return (.blockPairs (← register anchor) [] none :: frames, .more)
  | _ => bare frames anchor tag

/-- Gives a node to the innermost collection. -/
def place (node : Node) : List Frame → List Frame × Focus
  | [] => ([], .got node)
  | frame :: rest => match frame with
    | .flatItems mark items => (.flatItems mark (node :: items) :: rest, .more)
    | .blockItems mark items => (.blockItems mark (node :: items) :: rest, .more)
    | .flowItems mark items => (.flowItems mark (node :: items) :: rest, .more)
    | .blockPairs mark pairs none => (.blockPairs mark pairs (some node) :: rest, .more)
    | .blockPairs mark pairs (some key) => (.blockPairs mark ((key, node) :: pairs) none :: rest, .more)
    | .flowPairs mark pairs none => (.flowPairs mark pairs (some node) :: rest, .more)
    | .flowPairs mark pairs (some key) => (.flowPairs mark ((key, node) :: pairs) none :: rest, .more)
    | .loneKey mark pairs => (.flowPairs mark ((node, .nothing) :: pairs) none :: rest, .more)
    | .singlePair none => (.singlePair (some node) :: rest, .more)
    | .singlePair (some key) => (rest, .got (.mapping [(key, node)]))

/-- A node, or nothing where one of these tokens stands. -/
def wantUnless (stops : List Token) (frames : List Frame) (inBlock flat : Bool) : Reader (List Frame × Focus) := do
  return (frames, if ← sees stops then .got .nothing else .want inBlock flat)

/-- The value of a key where the mark of a value stands, and nothing where it does not. -/
def wantValue (stops : List Token) (frames : List Frame) (inBlock flat : Bool) : Reader (List Frame × Focus) := do
  if ← sees [.value] then
    drop
    wantUnless stops frames inBlock flat
  else return (frames, .got .nothing)

def closeItems (frames : List Frame) (mark : Option Mark) (items : List Node) : Reader (List Frame × Focus) :=
  return (frames, .got (← complete mark (.sequence items.reverse)))

def closePairs (frames : List Frame) (mark : Option Mark) (pairs : List (Node × Node)) :
    Reader (List Frame × Focus) :=
  return (frames, .got (← complete mark (.mapping pairs.reverse)))

/-- Goes on in a sequence in brackets; each item but the first comes after a comma. -/
def nextItem (frame : Frame) (mark : Option Mark) (items : List Node) (rest : List Frame) :
    Reader (List Frame × Focus) := do
  if ← sees [.flowSequenceEnd] then
    drop
    closeItems rest mark items
  else
    if !items.isEmpty then
      if ← sees [.flowEntry] then drop else fail
    match ← peek with
    | some .flowSequenceEnd =>
      drop
      closeItems rest mark items
    | some .key =>
      drop
      let frames := .singlePair none :: frame :: rest
      if ← sees [.value, .flowEntry, .flowSequenceEnd] then
        drop
        return (frames, .got .nothing)
      else return (frames, .want false false)
    | _ => return (frame :: rest, .want false false)

/-- Goes on in a mapping in braces; each pair but the first comes after a comma. -/
def nextPair (frame : Frame) (mark : Option Mark) (pairs : List (Node × Node)) (rest : List Frame) :
    Reader (List Frame × Focus) := do
  if ← sees [.flowMappingEnd] then
    drop
    closePairs rest mark pairs
  else
    if !pairs.isEmpty then
      if ← sees [.flowEntry] then drop else fail
    match ← peek with
    | some .flowMappingEnd =>
      drop
      closePairs rest mark pairs
    | some .key =>
      drop
      wantUnless [.value, .flowEntry, .flowMappingEnd] (frame :: rest) false false
    | _ => return (.loneKey mark pairs :: rest, .want false false)

/-- Goes on in the innermost collection.  In a pair that stands in a sequence by itself, the token in the place of a
missing key is passed over. -/
def goOn : List Frame → Reader (List Frame × Focus)
  | [] => fail
  | frame :: rest => do
    match frame with
    | .flatItems mark items =>
      if ← sees [.blockEntry] then
        drop
        wantUnless [.blockEntry, .key, .value, .blockEnd] (frame :: rest) true false
      else closeItems rest mark items
    | .blockItems mark items =>
      match ← peek with
      | some .blockEntry =>
        drop
        wantUnless [.blockEntry, .blockEnd] (frame :: rest) true false
      | some .blockEnd =>
        drop
        closeItems rest mark items
      | _ => fail
    | .blockPairs mark pairs none =>
      match ← peek with
      | some .key =>
        drop
        wantUnless [.key, .value, .blockEnd] (frame :: rest) true true
      | some .blockEnd =>
        drop
        closePairs rest mark pairs
      | _ => fail
    | .blockPairs _ _ (some _) => wantValue [.key, .value, .blockEnd] (frame :: rest) true true
    | .flowItems mark items => nextItem frame mark items rest
    | .flowPairs mark pairs none => nextPair frame mark pairs rest
    | .flowPairs _ _ (some _) => wantValue [.flowEntry, .flowMappingEnd] (frame :: rest) false false
    | .singlePair (some _) => wantValue [.flowEntry, .flowSequenceEnd] (frame :: rest) false false
    | .singlePair none => fail
    | .loneKey .. => fail

def step (frames : List Frame) : Focus → Reader (List Frame × Focus)
  | .want inBlock flat => begin frames inBlock flat
  | .got node => return place node frames
  | .more => goOn frames

/-- The node that the frames and the focus lead to, in at most `bound` steps. -/
def finish : Nat → List Frame → Focus → Reading → Option (Node × Reading)
  | _, [], .got node, r => some (node, r)
  | 0, _, _, _ => none
  | bound + 1, frames, focus, r => match step frames focus r with
    | some ((frames, focus), r) => finish bound frames focus r
    | none => none

/-- **The node that starts here.** -/
def node : Reader Node := fun r => finish (8 * r.tokens.length + 8) [] (.want true false) r

end Reader

end SourceSlice.Yaml
