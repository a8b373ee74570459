import SourceSlice.Criterion
import SourceSlice.Engine.Process
import SourceSlice.Yaml.Stream
/-!
# Settings of a run

What a settings file may say, and what holds where it says nothing.

The root of a YAML document of settings is a mapping from their names to scalars; a document of nothing gives the
standard settings.  Names that are no settings do not count, and a setting may be given once only.
-/
namespace SourceSlice

structure Settings where
  enginePath : Option Path
  defaultEntry : String
  verify : Bool
  output : Path
  /-- The results database to record the run in, when there is one. -/
  db : Option Path
deriving DecidableEq, Repr

namespace Settings

def defaultOutput : String := "sliced_data.json"

/-- **The settings of an empty file.** -/
def standard : Settings := ⟨none, defaultEntryPoint, false, ⟨defaultOutput⟩, none⟩

instance : Inhabited Settings := ⟨standard⟩

def engineOptions (s : Settings) : EngineOptions := ⟨s.verify⟩

def engineVariable : String := "VARSLICE_ENGINE"

def defaultEngine : String := "llvm-src-slicer"

/-- The engine that the environment names; an empty name counts as none. -/
def environmentEngine (named : Option String) : Path :=
  ⟨(named.filter (· ≠ "")).getD defaultEngine⟩

/-- **The engine of a run**: the one named, or else that of the environment. -/
def engineOr (path : Option Path) (named : Option String) : Path := path.getD (environmentEngine named)

/-! ## Settings in a document -/

open Yaml (Style)

def scalar? (d : Yaml.Document) : Yaml.Node → Option (String × Style × Option String)
  | .scalar text style tag => some (text, style, tag)
  | .alias anchor => match d.target? anchor with
    | some (.scalar text style tag) => some (text, style, tag)
    | _ => none
  | _ => none

def nullTag : String := "tag:yaml.org,2002:null"

def boolTag : String := "tag:yaml.org,2002:bool"

def isNullText (s : String) : Bool := ["null", "Null", "NULL", "~"].contains s

/-- A text; any scalar will do. -/
def text? (d : Yaml.Document) (n : Yaml.Node) : Option String := (scalar? d n).map (·.1)

/-- A path that may be missing: a plain scalar of nothing or null names none. -/
def optionalPath? (d : Yaml.Document) (n : Yaml.Node) : Option (Option Path) := do
  let (text, style, tag) ← scalar? d n
  if style ≠ .plain then return some ⟨text⟩
  match tag with
  | none => return if text = "" ∨ isNullText text then none else some ⟨text⟩
  | some tag => if tag ≠ nullTag then return some ⟨text⟩ else if isNullText text then return none else none

/-- A truth value: a plain scalar, or a literal one that its tag makes one. -/
def bool? (d : Yaml.Document) (n : Yaml.Node) : Option Bool := do
  let (text, style, tag) ← scalar? d n
  if style = .plain ∨ (style = .literal ∧ tag = some boolTag) then
    if ["true", "True", "TRUE"].contains text then return true
    if ["false", "False", "FALSE"].contains text then return false
    none
  else none

/-- The settings with one more setting of the document, and the names that were given. -/
def addPair (d : Yaml.Document) (given : List String) (s : Settings) (pair : Yaml.Node × Yaml.Node) :
    Option (List String × Settings) := do
  let name ← text? d pair.1
  if given.contains name then none
  let known (s : Settings) : Option (List String × Settings) := some (name :: given, s)
  match name with
  | "engine_path" => known { s with enginePath := ← optionalPath? d pair.2 }
  | "default_entry" => known { s with defaultEntry := ← text? d pair.2 }
  | "verify" => known { s with verify := ← bool? d pair.2 }
  | "output" => known { s with output := ⟨← text? d pair.2⟩ }
  | "db" => known { s with db := ← optionalPath? d pair.2 }
  | _ => return (given, s)

def addPairs (d : Yaml.Document) (given : List String) (s : Settings) :
    List (Yaml.Node × Yaml.Node) → Option Settings
  | [] => some s
  | pair :: rest => do
    let (given, s) ← addPair d given s pair
    addPairs d given s rest

/-- **The settings of a document.** -/
def ofDocument? (d : Yaml.Document) : Option Settings :=
  match d.root with
  | .mapping pairs => addPairs d [] standard pairs
  | .scalar "" .plain _ => some standard
  | _ => none

/-- The settings of a YAML text; a text without a document gives the standard ones. -/
def ofYaml? (text : String) : Option Settings :=
  match Yaml.document? text.toList with
  | none => none
  | some none => some standard
  | some (some d) => ofDocument? d

end Settings
end SourceSlice
