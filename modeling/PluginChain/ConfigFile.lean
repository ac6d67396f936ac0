import PluginChain.Config
import PluginChain.Files.FileSystem
import PluginChain.Json.Parse
import PluginChain.Log
import PluginChain.Settings.Environment
import PluginChain.Settings.Failure
import PluginChain.Text.Utf8
import PluginChain.Toml.Parse
set_option autoImplicit false

/-!
# Loading a configuration

A configuration comes from a file, which may be absent, and from the environment,
whose settings are laid over those of the file.  The file is the given path where
that leads to a file, and else the path with the extension of a format added.

The keys of the file's root are places, so that `logging.level` is the level in the
table of logging; keys further inside are taken as they are.

Neither the keys of a root nor the variables of an environment are laid in an order of
their own.  `Config.load` takes them as they come in their lists, and `Config.MayLoad` in
every order there is; the two differ only where one place reaches into another.
-/

namespace PluginChain

/-- The formats of configuration files.  Files in YAML, INI, RON and JSON5, which would be
found behind these two, are left out. -/
inductive ConfigFormat where
  | toml
  | json
  deriving DecidableEq, Repr, Inhabited

namespace ConfigFormat

/-- All formats, in the order in which they are tried. -/
def all : List ConfigFormat := [.toml, .json]

/-- The extension of files in the format. -/
def extension : ConfigFormat → String
  | .toml => "toml"
  | .json => "json"

/-- The format that an extension belongs to. -/
def ofExtension? (extension : String) : Option ConfigFormat :=
  all.find? fun f => f.extension == extension

/-- The settings at the root of a file, or what is wrong with it. -/
def read (origin text : String) : ConfigFormat → Except String (List (String × Setting))
  | .toml =>
    match Toml.parse text with
    | .ok fields => .ok (Setting.ofTomlFields origin fields)
    | .error p => .error p.message
  | .json =>
    match Json.parse text with
    | .ok (.obj fields) => .ok (Setting.ofJsonFields origin fields)
    | .ok _ => .error "expected an object"
    | .error e => .error e.message

end ConfigFormat

namespace ConfigFile

/-- The name that stands for a file where a path ends in a directory whose own name has
an extension. -/
def placeholder : String := ".placeholder"

/-- The file of a configuration and its format.  A file with the extension of no
format counts as absent. -/
def locate (fs : FileSystem) (path : String) : Option (String × ConfigFormat) :=
  let path := Path.join fs.cwdPath path
  if fs.isFile path then
    ((Path.extension? path).bind ConfigFormat.ofExtension?).map fun format => (path, format)
  else
    let candidates := ConfigFormat.all.map fun f =>
      (Path.withSuffixBehind path placeholder ("." ++ f.extension), f)
    candidates.find? fun candidate => fs.isFile candidate.1

/-- The text of bytes, without a leading byte order mark. -/
def decode (bytes : ByteArray) : String := Utf8.ofBytesLossy (Utf8.withoutMark bytes)

/-- The settings at the root of a configuration's file; there are none where the file
is absent. -/
def read (fs : FileSystem) (path : String) : Except String (List (String × Setting)) :=
  match locate fs path with
  | none => .ok []
  | some (file, format) =>
    match fs.read file with
    | .error _ => .ok []
    | .ok bytes => format.read (Path.seenFrom fs.cwdPath file) (decode bytes)

/-- Lays settings over others, each at the place that its key stands for. -/
def overlay : List (String × Setting) → Setting → Setting
  | [], s => s
  | (key, v) :: rest, s => overlay rest (Place.set (Place.ofText key) v s)

end ConfigFile

namespace Config

/-- The fault for a file that cannot be read. -/
def unreadable (problem : String) : Fault :=
  .new .configuration ("Failed to build config: " ++ problem)

/-- The fault for settings that are no configuration. -/
def unfit (failure : SettingFailure) : Fault :=
  .new .configuration ("Failed to deserialize config: " ++ failure.message)

/-- The settings of a file with those of the environment laid over them. -/
def settings (fields : List (String × Setting)) (environment : Environment) : Setting :=
  environment.overlay (ConfigFile.overlay fields Setting.emptyTable)

/-- The configuration that the settings of a file and of an environment make up. -/
def ofSettings (fields : List (String × Setting)) (environment : Environment) :
    Except Fault Config :=
  match read (settings fields environment) with
  | .ok config => .ok config
  | .error failure => .error (unfit failure)

/-- The configuration that a file and an environment make up. -/
def load (fs : FileSystem) (environment : Environment) (path : String) : Except Fault Config :=
  match ConfigFile.read fs path with
  | .error problem => .error (unreadable problem)
  | .ok fields => ofSettings fields environment

/-- What loading may answer, as the keys of the file's root and the variables of the
environment come in some order. -/
inductive MayLoad (fs : FileSystem) (environment : Environment) (path : String) :
    Except Fault Config → Prop where
  | unreadable {problem : String} (hfile : ConfigFile.read fs path = .error problem) :
      MayLoad fs environment path (.error (unreadable problem))
  | laid {given fields : List (String × Setting)} {vars : Environment}
      (hfile : ConfigFile.read fs path = .ok given) (hfields : fields.Perm given)
      (hvars : vars.Perm environment) : MayLoad fs environment path (ofSettings fields vars)

/-- The order in which they stand is one of them. -/
theorem mayLoad_load (fs : FileSystem) (environment : Environment) (path : String) :
    MayLoad fs environment path (load fs environment path) := by
  unfold load
  cases hfile : ConfigFile.read fs path with
  | error problem => exact .unreadable hfile
  | ok fields => exact .laid hfile (.refl _) (.refl _)

/-- The record of a configuration that was loaded. -/
def loadedRecord (path : String) (config : Config) : LogRecord :=
  .debug .configuration "Configuration loaded" [
    ("path", .str path), ("plugins", .int config.plugins.length),
    ("plugin_dir", .str config.plugin.directory)]

end Config

end PluginChain
