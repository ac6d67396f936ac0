import PluginChain.Dispatch
set_option autoImplicit false

/-!
# The plugin manager

A manager holds the active plugin list of a run and takes every hook through it.
The operations of a `Run` are the hooks: each starts an event, dispatches it over
the active list, and gives back the part of the event that the caller needs.

The plugin-list hook alone changes the active list: it goes over the list it is
given, and the list that its plugins leave in the event becomes the active one.
-/

namespace PluginChain

/-- The active plugin list and what resolves it. -/
structure Manager (σ ω : Type) where
  /-- The active list, in the order of declaration. -/
  plugins : List PluginEntry := []
  resolver : Resolver σ ω
  /-- The parsers for the hook that chooses factories. -/
  capabilities : Option ParsingCapabilities := none

/-- A manager at work in its host. -/
structure Run (σ ω : Type) where
  manager : Manager σ ω
  host : Host ω

/-- An operation of a run.  What it has done until it fails stays done. -/
abbrev Operation (σ ω α : Type) := Run σ ω → Except Fault α × Run σ ω

/-- One operation after another, which is given the result of the first. -/
def Operation.andThen {σ ω α β : Type} (first : Operation σ ω α) (next : α → Operation σ ω β) :
    Operation σ ω β := fun run =>
  match first run with
  | (.ok a, run) => next a run
  | (.error f, run) => (.error f, run)

/-- A type whose values have a plain form from which they are read back. -/
class Portable (α : Type) where
  toSerial : α → Serial
  ofJson : Json → Except Mismatch α

instance : Portable Json := ⟨.plain, .ok⟩

instance : Portable Config := ⟨Config.toSerial, Config.read⟩

namespace Run

variable {σ ω α : Type}

/-- The run with another active list. -/
def withPlugins (run : Run σ ω) (plugins : List PluginEntry) : Run σ ω :=
  { run with manager := { run.manager with plugins } }

/-- Takes an event of a hook through the active list: the event as the plugins
leave it. -/
def dispatch (hook : Hook) (event : Event (hook.Data ω)) : Operation σ ω (Event (hook.Data ω)) :=
  fun run =>
    let st : Stage σ ω (hook.Data ω) :=
      { resolver := run.manager.resolver, event, host := run.host }
    let (result, st) := st.dispatch run.manager.plugins hook fun p => p.handle hook
    let run : Run σ ω :=
      { manager := { run.manager with resolver := st.resolver }, host := st.host }
    match result with
    | .ok _ => (.ok st.event, run)
    | .error f => (.error f, run)

/-- A hook whose event may be refused, and that gives back a part of it. -/
def through (hook : Hook) (event : Except Fault (Event (hook.Data ω)))
    (result : Event (hook.Data ω) → Except Fault α) : Operation σ ω α := fun run =>
  match event with
  | .error f => (.error f, run)
  | .ok event =>
    match run.dispatch hook event with
    | (.error f, run) => (.error f, run)
    | (.ok event, run) => (result event, run)

/-- The plugin-list hook: goes over the given list, which is the active one until
the plugins have left another. -/
def handlePlugins (plugins : List PluginEntry) : Operation σ ω (List PluginEntry) := fun run =>
  let run := run.withPlugins plugins
  let seed : PluginsData := { plugins }
  match run.through .plugins (Event.copied PluginsData.ofJson seed.toSerial)
      fun event => .ok event.data.plugins with
  | (.error f, run) => (.error f, run)
  | (.ok replaced, run) =>
    let host :=
      if replaced == plugins then run.host
      else run.host.note (.info .manager "Plugin list replaced by plugin"
        [("before", .int plugins.length), ("after", .int replaced.length)])
    (.ok replaced, { run with host }.withPlugins replaced)

/-- Sets the active list of a new run. -/
def init (plugins : List PluginEntry) : Operation σ ω Unit := fun run =>
  match run.handlePlugins plugins with
  | (.ok _, run) => (.ok (), run)
  | (.error f, run) => (.error f, run)

/-- The hook at the start. -/
def start : Operation σ ω Unit :=
  through .start (.ok (.assigned ())) fun _ => .ok ()

/-- The configuration hook: the configuration travels in plain form and is read
back at the end. -/
def handleConfig [Portable α] (config : α) : Operation σ ω α :=
  through .config (Event.copied ConfigData.ofJson (ConfigData.seed (Portable.toSerial config)))
    fun event =>
      match Portable.ofJson event.data.config with
      | .ok config => .ok config
      | .error m => .error (.ofMismatch m)

/-- The hook for source text. -/
def handleCode (code filePath : String) : Operation σ ω String :=
  through .code (.ok (.assigned { code, filePath })) fun event => .ok event.data.code

/-- The hook that chooses a parser and its options. -/
def handleCodeParser (parser : Shared CodeParser) (parserOption : Json) (filePath code : String) :
    Operation σ ω (Shared CodeParser × Json) :=
  through .codeParser (.ok (.assigned { parser, parserOption, filePath, code }))
    fun event => .ok (event.data.parser, event.data.parserOption)

/-- The fault of the hook that chooses factories in a host without parsers. -/
def capabilitiesFault : Fault :=
  .new .internal "Doc-class hook requires parsing capabilities from the host"

/-- The hook that chooses a factory.  It needs the parsers of the host. -/
def handleDocClass (kind : String) (factory : Shared DocFactory) :
    Operation σ ω (Shared DocFactory) := fun run =>
  match run.manager.capabilities with
  | none => (.error capabilitiesFault, run)
  | some parsers =>
    run.through .docClass (.ok (.assigned { kind, factory, parsers }))
      fun event => .ok event.data.factory

/-- The hook for syntax trees. -/
def handleAst (ast : Json) (filePath code : String) : Operation σ ω Json :=
  through .ast (.ok (.assigned { ast, filePath, code })) fun event => .ok event.data.ast

/-- The hook for documentation records. -/
def handleDocs (docs : List Json) : Operation σ ω (List Json) :=
  through .docs (Event.copied DocsData.ofJson (DocsData.toSerial { docs }))
    fun event => .ok event.data.docs

/-- The publish hook, with the operations that write the output. -/
def publish (write : String → String → Effect ω Unit) (copy : Shared (CopyOperation ω))
    (read : String → Effect ω String) : Operation σ ω Unit :=
  through .publish (.ok (.assigned { write, copyFile := copy, copyDir := copy, read }))
    fun _ => .ok ()

/-- The hook for rendered files. -/
def handleContent (content fileName : String) : Operation σ ω String :=
  through .content (Event.copied ContentData.ofJson (ContentData.toSerial { content, fileName }))
    fun event => .ok event.data.content

/-- The hook at the end. -/
def complete : Operation σ ω Unit :=
  through .complete (.ok (.assigned ())) fun _ => .ok ()

/-- Resolves an identifier outside of any hook. -/
def resolve (identifier : String) : Operation σ ω (Instance σ ω) := fun run =>
  let (result, resolver, host) := run.manager.resolver.resolve identifier run.host
  (result, { manager := { run.manager with resolver }, host })

/-! ## Laws -/

/-- Taking an event through the active list leaves the list as it was. -/
theorem plugins_dispatch (hook : Hook) (event : Event (hook.Data ω)) (run : Run σ ω) :
    (run.dispatch hook event).2.manager.plugins = run.manager.plugins := by
  rw [dispatch]
  generalize Stage.dispatch run.manager.plugins hook _ _ = answer
  obtain ⟨_ | _, _⟩ := answer <;> rfl

/-- A hook leaves the active list as it was. -/
theorem plugins_through (hook : Hook) (event : Except Fault (Event (hook.Data ω)))
    (result : Event (hook.Data ω) → Except Fault α) (run : Run σ ω) :
    (run.through hook event result).2.manager.plugins = run.manager.plugins := by
  unfold through
  cases event with
  | error f => rfl
  | ok event =>
    have h := plugins_dispatch hook event run
    dsimp only
    split <;> simp_all

/-- An event that is refused leaves the run as it was. -/
theorem through_error (hook : Hook) (f : Fault)
    (result : Event (hook.Data ω) → Except Fault α) (run : Run σ ω) :
    run.through hook (.error f) result = (.error f, run) := rfl

end Run

end PluginChain
