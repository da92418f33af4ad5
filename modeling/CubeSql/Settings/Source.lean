import CubeSql.Settings
import CubeSql.Toml.Document

/-!
# Where settings come from

Settings are the member `compiler` of a TOML text. They may stand in one of several files; the first file
from which they can be read counts, and where there is none the defaults do (`SettingsFiles.load`).
-/

namespace CubeSql

/-- Why no settings can be read. -/
inductive SettingsFault where
  /-- There is no file, or what it holds is no text. -/
  | unreadable
  /-- The text is not TOML, or some setting has no allowed value. -/
  | malformed
  /-- The marker of totals is empty. -/
  | emptyMarker
deriving DecidableEq, Repr, Inhabited

/-- The text of a fault. -/
def SettingsFault.message : SettingsFault → String
  | unreadable => "config error: failed to read config file"
  | malformed => "config error: failed to parse config"
  | emptyMarker => "config error: compiler.totals_marker must not be empty"

namespace Settings

/-- The members of a document with settings. -/
def documentShape : Node.Shape := ⟨["compiler"], false⟩

/-- Reads the settings of a document; other members are passed over. -/
def readDocument (c : Conventions) (n : Node) : Reading Settings := do
  let found ← n.readRecord c documentShape
    (fun found _ node => Node.fill found (Settings.read c node)) none
  return found.getD default

/-- The settings of a TOML text. The marker of totals must not be empty there. -/
def ofToml (text : String) : Except SettingsFault Settings :=
  match Toml.node? text with
  | none => .error .malformed
  | some n =>
    match readDocument .toml n with
    | .error _ => .error .malformed
    | .ok s => if s.totalsMarker.isEmpty then .error .emptyMarker else .ok s

/-- The settings of a file, which is given by its bytes if it exists. -/
def ofFile (file : Option ByteArray) : Except SettingsFault Settings :=
  match file.bind String.fromUTF8? with
  | none => .error .unreadable
  | some text => ofToml text

end Settings

/-- The files in which settings are looked for, each given by its bytes if it exists. -/
structure SettingsFiles where
  /-- The file that the environment names. -/
  named : Option ByteArray
  /-- The file in the working directory. -/
  inDirectory : Option ByteArray
  /-- The user's own file. -/
  ofUser : Option ByteArray
deriving Inhabited

namespace SettingsFiles

/-- The files, the most important one first. -/
def inOrder (files : SettingsFiles) : List (Option ByteArray) :=
  [files.named, files.inDirectory, files.ofUser]

/-- The settings of the first file that has any, and the default settings where none has. -/
def load (files : SettingsFiles) : Settings :=
  (files.inOrder.findSome? fun file => (Settings.ofFile file).toOption).getD .default

end SettingsFiles

end CubeSql
