import PluginChain.Entry
import PluginChain.Fault
set_option autoImplicit false

/-!
# Configurations

A `Config` holds the plugin list, where plugin libraries are looked for, and what
is logged.  `Config.read` reads one from a value in any format; every part of it
may be absent and then has its default.  `Config.toJson` is the plain form in
which a configuration is handed to plugins, and `Config.ofJson` takes it back.
-/

namespace PluginChain

/-- Where plugins that are not compiled in are looked for. -/
structure PluginSettings where
  directory : String := "./plugins"
  deriving DecidableEq, Repr, Inhabited

/-- What is logged, and how. -/
structure LogSettings where
  level : String := "warn"
  format : String := "pretty"
  deriving DecidableEq, Repr, Inhabited

/-- The configuration of a run. -/
structure Config where
  plugins : List PluginEntry := []
  plugin : PluginSettings := {}
  logging : LogSettings := {}
  deriving Inhabited

section

variable {V E : Type} [Format V E]

namespace PluginSettings

/-- The settings as a record. -/
def recordType : RecordType := ⟨"PluginConfig", ["directory"]⟩

/-- Reads the settings; an absent part has its default. -/
def read (v : V) : Except E PluginSettings := do
  let parts ← Format.parts recordType v
  let directory ← parts.read recordType "directory" Format.text
  parts.finish recordType
  return { directory := directory.getD ({} : PluginSettings).directory }

end PluginSettings

namespace LogSettings

/-- The settings as a record. -/
def recordType : RecordType := ⟨"LoggingConfig", ["level", "format"]⟩

/-- Reads the settings; an absent part has its default. -/
def read (v : V) : Except E LogSettings := do
  let parts ← Format.parts recordType v
  let level := parts.read recordType "level" Format.text
  let format := parts.read recordType "format" Format.text
  parts.settle (Parts.failure "level" level ++ Parts.failure "format" format)
  let level ← level
  let format ← format
  parts.finish recordType
  return { level := level.getD ({} : LogSettings).level
           format := format.getD ({} : LogSettings).format }

end LogSettings

namespace Config

/-- The configuration as a record. -/
def recordType : RecordType := ⟨"AppConfig", ["plugins", "plugin", "logging"]⟩

/-- Reads a configuration; an absent part has its default. -/
def read (v : V) : Except E Config := do
  let parts ← Format.parts recordType v
  let plugins := parts.read recordType "plugins" (Format.list PluginEntry.read)
  let plugin := parts.read recordType "plugin" PluginSettings.read
  let logging := parts.read recordType "logging" LogSettings.read
  parts.settle (Parts.failure "plugins" plugins ++ Parts.failure "plugin" plugin
    ++ Parts.failure "logging" logging)
  let plugins ← plugins
  let plugin ← plugin
  let logging ← logging
  parts.finish recordType
  return { plugins := plugins.getD [], plugin := plugin.getD {}, logging := logging.getD {} }

end Config

end

namespace Config

instance : BEq Config where
  beq a b := a.plugins == b.plugins && a.plugin == b.plugin && a.logging == b.logging

/-- The configuration as data. -/
def toSerial (c : Config) : Serial :=
  .record [
    ("plugins", .seq (c.plugins.map PluginEntry.toSerial)),
    ("plugin", .record [("directory", .str c.plugin.directory)]),
    ("logging", .record [("level", .str c.logging.level), ("format", .str c.logging.format)])]

/-- The configuration in plain JSON form. -/
def toJson (c : Config) : Json :=
  .obj [
    ("logging", .obj [("format", .str c.logging.format), ("level", .str c.logging.level)]),
    ("plugin", .obj [("directory", .str c.plugin.directory)]),
    ("plugins", .arr (c.plugins.map PluginEntry.toJson))]

/-- The configuration that a plugin left behind in plain JSON form. -/
def ofJson (v : Json) : Except Fault Config :=
  match read v with
  | .ok c => .ok c
  | .error m =>
    .error (.new .configuration ("Plugin produced an invalid config: " ++ m.jsonMessage))

theorem itemsToJson_entries (es : List PluginEntry) :
    Serial.itemsToJson (es.map PluginEntry.toSerial) = .ok (es.map PluginEntry.toJson) := by
  induction es with
  | nil => simp [Serial.itemsToJson]
  | cons e es ih => simp [Serial.itemsToJson, PluginEntry.toJson_toSerial, ih]

/-- The plain form of the configuration as data is its JSON form. -/
theorem toJson_toSerial (c : Config) : c.toSerial.toJson = .ok c.toJson := by
  have plugin : "plugin" < "plugins" := by decide +kernel
  have logging : "logging" < "plugin" := by decide +kernel
  have format : "format" < "level" := by decide +kernel
  simp only [toSerial, toJson, Serial.toJson, Serial.fieldsToJson, itemsToJson_entries,
    Json.ofFields, Keyed.ofList, List.foldl_cons, List.foldl_nil, Keyed.insert_nil]
  rw [Keyed.insert_cons_of_lt plugin, Keyed.insert_cons_of_lt logging,
    Keyed.insert_cons_of_lt format]

end Config

end PluginChain
