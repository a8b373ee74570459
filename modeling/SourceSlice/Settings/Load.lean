import SourceSlice.FileSystem
import SourceSlice.Interchange
import SourceSlice.Settings
/-!
# Loading settings

The extension of a settings file says how it is written.  The file is read before its extension is looked at.
-/
namespace SourceSlice

inductive SettingsError where
  | unreadable (path : Path) (fault : FileFault)
  | yaml (path : Path) (detail : String)
  | json (path : Path) (detail : String)
  | unsupportedFormat (path : Path)
deriving DecidableEq, Repr

def SettingsError.message : SettingsError → String
  | unreadable path fault => s!"Failed to read config {path.text}: {fault.message}"
  | yaml path detail => s!"Failed to parse YAML config {path.text}: {detail}"
  | json path detail => s!"Failed to parse JSON config {path.text}: {detail}"
  | unsupportedFormat path => s!"Unsupported config format for {path.text} (expected .yaml, .yml or .json)"

namespace Settings

inductive Format where
  | yaml
  | json
deriving DecidableEq, Repr

def Format.ofExtension? (e : String) : Option Format :=
  if e = "yaml" ∨ e = "yml" then some .yaml else if e = "json" then some .json else none

def parse (path : Path) (text : String) : Format → Except SettingsError Settings
  | .yaml => match ofYaml? text with
    | some s => .ok s
    | none => .error (.yaml path "not a document of settings")
  | .json => match Codec.read? text with
    | some s => .ok s
    | none => .error (.json path "not a record of settings")

/-- **Loads settings from a file.** -/
def load (files : FileSystem) (path : Path) : Except SettingsError Settings :=
  match files.readText path with
  | .error fault => .error (.unreadable path fault)
  | .ok text => match Format.ofExtension? (path.extension?.getD "") with
    | some format => parse path text format
    | none => .error (.unsupportedFormat path)

/-- The settings of the file that is named, and the standard ones where none is. -/
def loadOrStandard (files : FileSystem) : Option Path → Except SettingsError Settings
  | some path => load files path
  | none => .ok standard

end Settings
end SourceSlice
