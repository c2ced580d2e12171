import Peripheral.Settings.Json
import Peripheral.Text.Utf8
import Peripheral.Toml.Reader
import Peripheral.Toml.Writer

/-
  Peripheral.Settings.File — settings as the text of a file. What is read from a file is
  checked against the limits; what is written is not.
-/

namespace Peripheral.Settings

/-- Reads settings from a text. -/
def ofText (text : String) : Except SettingsError Settings := do
  let some s := (Toml.ofText? text).bind fun es => shape .table (.obj (Toml.entriesToJson es))
    | throw .malformed
  s.check
  return s

/-- Reads settings from the bytes of a file. -/
def ofBytes (bytes : List UInt8) : Except SettingsError Settings :=
  match Text.Utf8.decode? bytes with
  | some text => ofText text
  | none => .error (.read "InvalidData")

/-- The text of a file with the settings. -/
def text (s : Settings) : Except SettingsError String :=
  (Toml.text? s.toJson).elim (.error .unwritable) .ok

/-- What is logged when settings were loaded from a file. -/
def loaded (path : String) (s : Settings) : LogEvent :=
  ⟨.info, "Loaded settings", [("path", path), ("devices", s!"{s.devices.length}")]⟩

end Peripheral.Settings
