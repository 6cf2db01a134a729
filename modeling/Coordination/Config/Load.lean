import Coordination.Config.Layering
import Coordination.Setting.Environment
import Coordination.Toml.Document

namespace Coordination

namespace SettingsFile

-- The part of a file's name after its last point; a point at its beginning does not count.
def format (name : String) : String :=
  let last := (name.toList.reverse.takeWhile (· ≠ '/'))
  match last.dropWhile (· ≠ '.') with
  | [] | ['.'] => ""
  | _ => String.ofList (last.takeWhile (· ≠ '.')).reverse

-- The entries of a file.
def read (f : SettingsFile) : Except LoadError Settings :=
  match f.content with
  | none => .error (.noSuchFile f.name)
  | some text =>
    if format f.name ≠ "toml" then .error (.unknownFormat f.name)
    else match Toml.parse text with
      | none => .error (.malformed f.name)
      | some settings => .ok settings

end SettingsFile

-- The library that the program runs with. Of the files it knows those in one format.
instance Toml.library : SettingsLibrary where
  read := SettingsFile.read
  parsed := Environment.setting
  ofVariable? := Environment.entry
  environment := Environment.layer
  ofCount? n := Setting.ofInt? n.toNat
  ofWord := .text
  ofSwitch := .bool
  head key := (SettingPath.ofKey key).head
  lay := Settings.onto
  count? := Setting.count?
  variant? := Setting.variant?
  switch? := Setting.switch?

end Coordination
