import PluginChain.Config
set_option autoImplicit false

/-!
# Events

An event is handed to the plugins of a hook one after the other.  It carries data
of the hook, the option of the plugin that is being called, and fields that
plugins add for those after them.  `Event.assigned` starts an event with data as
it is; `Event.copied` rebuilds the data from its plain JSON form first, so that
nothing done to it reaches the caller.
-/

namespace PluginChain

/-- What the plugins of a hook are handed. -/
structure Event (D : Type) where
  /-- The option of the plugin that is being called. -/
  option : Json
  data : D
  /-- Fields that plugins have added. -/
  extra : Keyed Json
  deriving Inhabited

namespace Event

variable {D : Type}

/-- An event with data as given, a null option, and nothing added. -/
def assigned (data : D) : Event D := ⟨.null, data, []⟩

/-- The event with another option. -/
def setOption (e : Event D) (option : Json) : Event D := { e with option }

/-- The plain JSON form of data for an event. -/
def toPlain (s : Serial) : Except Fault Json :=
  match s.toJson with
  | .ok v => .ok v
  | .error m =>
    .error (.because .serialization
      ("Event field is not JSON-representable: " ++ m.jsonMessage) m.jsonMessage)

/-- An event whose data is read back from the plain form of a seed. -/
def copied (read : Json → Except Mismatch D) (seed : Serial) : Except Fault (Event D) :=
  match toPlain seed with
  | .error f => .error f
  | .ok v =>
    match read v with
    | .ok data => .ok (assigned data)
    | .error m => .error (.ofMismatch m)

@[simp] theorem option_assigned (data : D) : (assigned data).option = .null := rfl

@[simp] theorem data_assigned (data : D) : (assigned data).data = data := rfl

@[simp] theorem extra_assigned (data : D) : (assigned data).extra = [] := rfl

@[simp] theorem data_setOption (e : Event D) (v : Json) : (e.setOption v).data = e.data := rfl

@[simp] theorem option_setOption (e : Event D) (v : Json) : (e.setOption v).option = v := rfl

@[simp] theorem extra_setOption (e : Event D) (v : Json) : (e.setOption v).extra = e.extra := rfl

end Event

/-! ## Data that is copied into events -/

/-- The data of the plugin-list hook. -/
structure PluginsData where
  plugins : List PluginEntry
  deriving Inhabited

/-- The data of the configuration hook. -/
structure ConfigData where
  config : Json
  deriving Inhabited

/-- The data of the hook for documentation records. -/
structure DocsData where
  docs : List Json
  deriving Inhabited

/-- The data of the hook for rendered files. -/
structure ContentData where
  content : String
  fileName : String
  deriving DecidableEq, Repr, Inhabited

namespace PluginsData

/-- The data as a record. -/
def recordType : RecordType := ⟨"PluginsData", ["plugins"]⟩

/-- Reads the data from its plain form. -/
def ofJson (v : Json) : Except Mismatch PluginsData := do
  let parts ← Format.parts recordType v
  let plugins ← parts.read recordType "plugins" PluginEntry.listOfJson
  let plugins ← parts.require recordType "plugins" plugins
  parts.finish recordType
  return { plugins }

/-- The data as a record of entries. -/
def toSerial (d : PluginsData) : Serial :=
  .record [("plugins", .seq (d.plugins.map PluginEntry.toSerial))]

/-- The data in plain form. -/
def toJson (d : PluginsData) : Json := .obj [("plugins", .arr (d.plugins.map PluginEntry.toJson))]

theorem toJson_toSerial (d : PluginsData) : d.toSerial.toJson = .ok d.toJson := by
  simp [toSerial, toJson, Serial.toJson, Serial.fieldsToJson, Config.itemsToJson_entries,
    Json.ofFields, Keyed.ofList]

end PluginsData

namespace ConfigData

/-- The data as a record. -/
def recordType : RecordType := ⟨"ConfigData", ["config"]⟩

/-- Reads the data from its plain form. -/
def ofJson (v : Json) : Except Mismatch ConfigData := do
  let parts ← Format.parts recordType v
  let config ← parts.read recordType "config" fun v => Except.ok (Format.plain v)
  let config ← parts.require recordType "config" config
  parts.finish recordType
  return { config }

/-- The data with its configuration given as data of the host. -/
def seed (config : Serial) : Serial := .record [("config", config)]

/-- The data in plain form. -/
def toJson (d : ConfigData) : Json := .obj [("config", d.config)]

end ConfigData

namespace DocsData

/-- The data as a record. -/
def recordType : RecordType := ⟨"DocsData", ["docs"]⟩

/-- Reads the data from its plain form. -/
def ofJson (v : Json) : Except Mismatch DocsData := do
  let parts ← Format.parts recordType v
  let docs ← parts.read recordType "docs" Json.readList
  let docs ← parts.require recordType "docs" docs
  parts.finish recordType
  return { docs }

/-- The data as a record of values. -/
def toSerial (d : DocsData) : Serial := .record [("docs", .seq (d.docs.map .plain))]

/-- The data in plain form. -/
def toJson (d : DocsData) : Json := .obj [("docs", .arr d.docs)]

theorem toJson_toSerial (d : DocsData) : d.toSerial.toJson = .ok d.toJson := by
  simp [toSerial, toJson, Serial.toJson, Serial.fieldsToJson, Serial.itemsToJson_plain,
    Json.ofFields, Keyed.ofList]

end DocsData

namespace ContentData

/-- The data as a record. -/
def recordType : RecordType := ⟨"ContentData", ["content", "file_name"]⟩

/-- Reads the data from its plain form. -/
def ofJson (v : Json) : Except Mismatch ContentData := do
  let parts ← Format.parts recordType v
  let content := parts.read recordType "content" Json.readText
  let fileName := parts.read recordType "file_name" Json.readText
  parts.settle (Parts.failure "content" content ++ Parts.failure "file_name" fileName)
  let content ← parts.require recordType "content" (← content)
  let fileName ← parts.require recordType "file_name" (← fileName)
  parts.finish recordType
  return { content, fileName }

/-- The data as a record of texts. -/
def toSerial (d : ContentData) : Serial :=
  .record [("content", .str d.content), ("file_name", .str d.fileName)]

/-- The data in plain form. -/
def toJson (d : ContentData) : Json :=
  .obj [("content", .str d.content), ("file_name", .str d.fileName)]

theorem toJson_toSerial (d : ContentData) : d.toSerial.toJson = .ok d.toJson := by
  simp only [toSerial, toJson, Serial.toJson, Serial.fieldsToJson]
  rw [Json.ofFields_eq_obj]
  show ["content", "file_name"].Pairwise (· < ·)
  decide +kernel

end ContentData

end PluginChain
