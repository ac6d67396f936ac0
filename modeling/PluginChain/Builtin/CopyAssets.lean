import PluginChain.Builtin.Option
import PluginChain.Files.Path
set_option autoImplicit false

/-!
# Assets in the output

`copy-assets` copies a directory of assets into the output with the operation that
the host lends.  The target is the configured one, or else the last name in the
path of the source.
-/

namespace PluginChain.Builtin.CopyAssets

variable {σ ω : Type}

/-- The identifier of the plugin. -/
def identifier : String := "copy-assets"

/-- What the plugin is to copy. -/
structure Options where
  /-- The path of the source. -/
  source? : Option String
  /-- The path of the target in the output. -/
  target? : Option String
  deriving DecidableEq, Repr, Inhabited

namespace Options

/-- The option as a record. -/
def recordType : RecordType := ⟨"CopyOption", ["src", "dest"]⟩

/-- Reads the option; each part may be absent or null. -/
def ofJson (v : Json) : Except Mismatch Options := do
  let parts ← Format.parts recordType v
  let source := parts.read recordType "src" Json.readPath?
  let target := parts.read recordType "dest" Json.readPath?
  parts.settle (Parts.failure "src" source ++ Parts.failure "dest" target)
  let source ← source
  let target ← target
  parts.finish recordType
  return { source? := source.join, target? := target.join }

end Options

/-- The fault for an option without a source. -/
def sourceMissing : Fault :=
  .new .configuration ("Plugin '" ++ identifier ++ "' requires option 'src'")

/-- The fault for a source whose path does not end in a name. -/
def targetUnknown (source : String) : Fault :=
  .new .configuration
    ("Plugin '" ++ identifier ++ "' cannot derive 'dest' from '" ++ source ++ "'")

/-- The source and the target of the copy. -/
def paths (options : Options) : Except Fault (String × String) :=
  match options.source? with
  | none => .error sourceMissing
  | some source =>
    match options.target?.orElse fun _ => Path.fileName? source with
    | none => .error (targetUnknown source)
    | some target => .ok (source, target)

/-- The record of a copy. -/
def copiedRecord (source target : String) : LogRecord :=
  .info .copyAssets "Assets copied" [("src", .str source), ("dest", .str target)]

/-- Copies the assets with the operation that the event lends. -/
def copy (options : Options) : Handler σ ω (PublishData ω) := fun scene =>
  match paths options with
  | .error f => (.error f, scene)
  | .ok (source, target) =>
    match scene.event.data.copyDir.part source target scene.host with
    | (.error f, host) => (.error f, { scene with host })
    | (.ok (), host) => (.ok (), { scene with host := host.note (copiedRecord source target) })

/-- The plugin. -/
def plugin : Plugin σ ω where
  name := identifier
  hooks := [.publish]
  handle
    | .publish => withOption identifier Options.ofJson copy
    | _ => Handler.skip

end PluginChain.Builtin.CopyAssets
