import SourceSlice.Yaml.Frame
/-!
# From tokens to documents

A text may hold several documents, each with directives before it, and marks at its start and its end.
-/
namespace SourceSlice.Yaml

namespace Reader

/-- The handles that every document has. -/
def commonHandles : List (String × String) := [("!", "!"), ("!!", "tag:yaml.org,2002:")]

/-- The directives before a document; `versioned` tells whether the version was given. -/
def directives (versioned : Bool) : Nat → Reader Unit
  | 0 => fail
  | bound + 1 => do
    match ← peek with
    | some (.version major minor) =>
      if versioned ∨ major ≠ 1 ∨ (minor ≠ 1 ∧ minor ≠ 2) then fail
      drop
      directives true bound
    | some (.tagHandle handle expansion) =>
      if ((← get).handles.lookup handle).isSome then fail
      drop
      modify fun r => { r with handles := (handle, expansion) :: r.handles }
      directives versioned bound
    | _ => modify fun r => { r with handles := r.handles ++ commonHandles }

/-- The marks of an ended document. -/
def dropEnds : Nat → Reader Unit
  | 0 => pure ()
  | bound + 1 => do
    match ← peek with
    | some .documentEnd => drop; dropEnds bound
    | _ => pure ()

/-- The next document, if there is one; only the first may do without a mark at its start. -/
def document? (first : Bool) : Reader (Option Document) := do
  let bound := (← get).tokens.length + 1
  modify fun r => { tokens := r.tokens }
  if !first then dropEnds bound
  match ← peek with
  | none => return none
  | some t =>
    let marked := match t with
      | .version .. => true
      | .tagHandle .. => true
      | .documentStart => true
      | _ => false
    if !first && !marked then fail
    directives false bound
    if marked then
      if (← peek) ≠ some .documentStart then fail
      drop
    let root ← match ← peek with
      | none => pure .nothing
      | some (.version ..) => pure .nothing
      | some (.tagHandle ..) => pure .nothing
      | some .documentStart => if marked then pure .nothing else node
      | some .documentEnd => if marked then pure .nothing else node
      | some _ => node
    if (← peek) = some .documentEnd then drop
    return some ⟨root, (← get).targets⟩

end Reader

/-- **The document of a text**, where it has one; a text with two is refused. -/
def document? (text : List Char) : Option (Option Document) := do
  let (first, rest) ← (Reader.document? true).run { tokens := ← tokens? text }
  match first with
  | none => return none
  | some d =>
    let (second, _) ← (Reader.document? false).run rest
    if second.isSome then none else return some d

end SourceSlice.Yaml
