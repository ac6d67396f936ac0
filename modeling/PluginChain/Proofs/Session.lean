import PluginChain.Manager
import PluginChain.Proofs.Calls
set_option autoImplicit false

/-!
# Sessions

A session is any sequence of calls of one manager, with changes of its host by
others in between.  `Step.served` says once what a step can come to; what holds of a
session follows from it by induction over the steps.

`Step.opening` is the hook that a step takes and the event it starts with.  The
plugin-list hook goes over the list it is given, every other hook over the active
list.
-/

namespace PluginChain

/-- An operation whose result is not looked at. -/
def Operation.discard {σ ω α : Type} (op : Operation σ ω α) : Operation σ ω Unit :=
  op.andThen fun _ run => (.ok (), run)

/-- A call of a manager, or a change of its host by others. -/
inductive Step (ω : Type) : Type 1 where
  | init (plugins : List PluginEntry)
  | handlePlugins (plugins : List PluginEntry)
  | start
  | config (α : Type) [Portable α] (config : α)
  | code (code filePath : String)
  | codeParser (parser : Shared CodeParser) (parserOption : Json) (filePath code : String)
  | docClass (kind : String) (factory : Shared DocFactory)
  | ast (ast : Json) (filePath code : String)
  | docs (docs : List Json)
  | publish (write : String → String → Effect ω Unit) (copy : Shared (CopyOperation ω))
      (read : String → Effect ω String)
  | content (content fileName : String)
  | complete
  /-- A resolution outside of any hook. -/
  | resolve (identifier : String)
  /-- The host as others leave it. -/
  | outside (host : Host ω)

namespace Step

variable {σ ω : Type}

/-- Does a step, and does not look at the result. -/
def perform : Step ω → Operation σ ω Unit
  | init plugins => Run.init plugins
  | handlePlugins plugins => (Run.handlePlugins plugins).discard
  | start => Run.start
  | config _ value => (Run.handleConfig value).discard
  | code text path => (Run.handleCode text path).discard
  | codeParser parser option path text =>
    (Run.handleCodeParser parser option path text).discard
  | docClass kind factory => (Run.handleDocClass kind factory).discard
  | ast tree path text => (Run.handleAst tree path text).discard
  | docs records => (Run.handleDocs records).discard
  | publish write copy read => Run.publish write copy read
  | content text name => (Run.handleContent text name).discard
  | complete => Run.complete
  | resolve identifier => (Run.resolve identifier).discard
  | outside host => fun run => (.ok (), { run with host })

/-- The list that a step is given to be the active one. -/
def list? : Step ω → Option (List PluginEntry)
  | init plugins | handlePlugins plugins => some plugins
  | _ => none

/-- The event of the hook that chooses factories, refused in a host without parsers. -/
def docClassEvent (m : Manager σ ω) (kind : String) (factory : Shared DocFactory) :
    Except Fault (Event (Hook.docClass.Data ω)) :=
  match m.capabilities with
  | none => .error Run.capabilitiesFault
  | some parsers => .ok (.assigned { kind, factory, parsers })

/-- The hook that a step takes, and the event that it starts with, unless that is
refused. -/
def opening : Step ω → Manager σ ω → Option ((hook : Hook) × Except Fault (Event (hook.Data ω)))
  | init plugins, _ | handlePlugins plugins, _ =>
    some ⟨.plugins, Event.copied PluginsData.ofJson (PluginsData.toSerial { plugins })⟩
  | start, _ => some ⟨.start, .ok (.assigned ())⟩
  | config _ value, _ =>
    some ⟨.config, Event.copied ConfigData.ofJson (ConfigData.seed (Portable.toSerial value))⟩
  | code text path, _ => some ⟨.code, .ok (.assigned { code := text, filePath := path })⟩
  | codeParser parser option path text, _ =>
    some ⟨.codeParser,
      .ok (.assigned { parser, parserOption := option, filePath := path, code := text })⟩
  | docClass kind factory, m => some ⟨.docClass, docClassEvent m kind factory⟩
  | ast tree path text, _ =>
    some ⟨.ast, .ok (.assigned { ast := tree, filePath := path, code := text })⟩
  | docs records, _ =>
    some ⟨.docs, Event.copied DocsData.ofJson (DocsData.toSerial { docs := records })⟩
  | publish write copy read, _ =>
    some ⟨.publish, .ok (.assigned { write, copyFile := copy, copyDir := copy, read })⟩
  | content text name, _ =>
    some ⟨.content,
      Event.copied ContentData.ofJson (ContentData.toSerial { content := text, fileName := name })⟩
  | complete, _ => some ⟨.complete, .ok (.assigned ())⟩
  | resolve _, _ | outside _, _ => none

/-- What a step comes to. -/
inductive Served (run : Run σ ω) : Step ω → Except Fault Unit × Run σ ω → Prop
  /-- It takes the plugin-list hook. -/
  | listing {s : Step ω} {plugins : List PluginEntry} (list?_eq : s.list? = some plugins)
      (opening_eq : s.opening run.manager =
        some ⟨.plugins, Event.copied PluginsData.ofJson (PluginsData.toSerial { plugins })⟩) :
      Served run s ((Run.handlePlugins plugins).discard run)
  /-- It takes another hook. -/
  | hook {s : Step ω} {hook : Hook} {event : Except Fault (Event (hook.Data ω))}
      (list?_eq : s.list? = none) (opening_eq : s.opening run.manager = some ⟨hook, event⟩)
      (result : Event (hook.Data ω) → Except Fault Unit) :
      Served run s (run.through hook event result)
  /-- It resolves an identifier. -/
  | resolved (identifier : String) :
      Served run (.resolve identifier) ((Run.resolve identifier).discard run)
  /-- It is a change by others. -/
  | outside (host : Host ω) : Served run (.outside host) (.ok (), { run with host })

end Step

namespace Run

variable {σ ω α : Type}

/-- The run after the steps of a session. -/
def performAll : List (Step ω) → Run σ ω → Run σ ω
  | [], run => run
  | s :: rest, run => performAll rest (s.perform run).2

@[simp] theorem performAll_cons (s : Step ω) (rest : List (Step ω)) (run : Run σ ω) :
    performAll (s :: rest) run = performAll rest (s.perform run).2 := rfl

theorem performAll_append (before after : List (Step ω)) (run : Run σ ω) :
    performAll (before ++ after) run = performAll after (performAll before run) := by
  induction before generalizing run with
  | nil => rfl
  | cons s rest ih => exact ih _

/-! ## Hooks as dispatches -/

variable {D : Type}

/-- Where the dispatch of an event starts. -/
def stage (run : Run σ ω) (event : Event D) : Stage σ ω D :=
  { resolver := run.manager.resolver, event, host := run.host }

/-- The dispatch of an event over a list. -/
def pass (run : Run σ ω) (hook : Hook) (entries : List PluginEntry)
    (event : Event (hook.Data ω)) : Except Fault Nat × Stage σ ω (hook.Data ω) :=
  (run.stage event).dispatch entries hook fun p => p.handle hook

/-- The run after a dispatch. -/
def leftBy (run : Run σ ω) (st : Stage σ ω D) : Run σ ω :=
  { manager := { run.manager with resolver := st.resolver }, host := st.host }

/-- A hook is a dispatch over the active list, and what is taken from the event
where no entry fails. -/
theorem through_ok (hook : Hook) (event : Event (hook.Data ω))
    (result : Event (hook.Data ω) → Except Fault α) (run : Run σ ω) :
    run.through hook (.ok event) result =
      match run.pass hook run.manager.plugins event with
      | (.ok _, st) => (result st.event, run.leftBy st)
      | (.error f, st) => (.error f, run.leftBy st) := by
  simp only [through, dispatch, pass, stage]
  generalize Stage.dispatch run.manager.plugins hook _ _ = answer
  obtain ⟨_ | _, st⟩ := answer <;> rfl

theorem fst_through_ok (hook : Hook) (event : Event (hook.Data ω))
    (result : Event (hook.Data ω) → Except Fault α) (run : Run σ ω) :
    (run.through hook (.ok event) result).1 =
      match (run.pass hook run.manager.plugins event).1 with
      | .ok _ => result (run.pass hook run.manager.plugins event).2.event
      | .error f => .error f := by
  rw [through_ok]
  rcases run.pass hook run.manager.plugins event with ⟨_ | _, _⟩ <;> rfl

/-- A hook leaves the run as its dispatch does, whatever is taken from the event. -/
theorem snd_through_ok (hook : Hook) (event : Event (hook.Data ω))
    (result : Event (hook.Data ω) → Except Fault α) (run : Run σ ω) :
    (run.through hook (.ok event) result).2 =
      run.leftBy (run.pass hook run.manager.plugins event).2 := by
  rw [through_ok]
  rcases run.pass hook run.manager.plugins event with ⟨_ | _, _⟩ <;> rfl

/-- Not to look at the result of a hook is to take nothing from the event. -/
theorem discard_through (hook : Hook) (event : Except Fault (Event (hook.Data ω)))
    (result : Event (hook.Data ω) → Except Fault α) (run : Run σ ω) :
    Operation.discard (through hook event result) run =
      run.through hook event fun event =>
        match result event with
        | .ok _ => .ok ()
        | .error f => .error f := by
  cases event with
  | error f => rfl
  | ok event =>
    simp only [Operation.discard, Operation.andThen, through_ok]
    rcases run.pass hook run.manager.plugins event with ⟨f | n, st⟩
    · rfl
    · dsimp only
      cases result st.event <;> rfl

end Run

namespace Step

variable {σ ω : Type}

theorem handleDocClass_eq_through (kind : String) (factory : Shared DocFactory)
    (run : Run σ ω) :
    run.handleDocClass kind factory =
      run.through .docClass (docClassEvent run.manager kind factory)
        fun event => .ok event.data.factory := by
  unfold Run.handleDocClass docClassEvent
  cases run.manager.capabilities <;> rfl

/-- Every step comes to one of the four things. -/
theorem served (s : Step ω) (run : Run σ ω) : Served run s (s.perform run) := by
  cases s with
  | init plugins =>
    have h : Run.init plugins run = (Run.handlePlugins plugins).discard run := by
      unfold Run.init Operation.discard Operation.andThen
      rcases run.handlePlugins plugins with ⟨_ | _, _⟩ <;> rfl
    rw [perform, h]
    exact .listing rfl rfl
  | handlePlugins plugins => exact .listing rfl rfl
  | start =>
    rw [perform, Run.start]
    exact .hook rfl rfl _
  | config _ config =>
    rw [perform, Run.handleConfig, Run.discard_through]
    exact .hook rfl rfl _
  | code code filePath =>
    rw [perform, Run.handleCode, Run.discard_through]
    exact .hook rfl rfl _
  | codeParser parser parserOption filePath code =>
    rw [perform, Run.handleCodeParser, Run.discard_through]
    exact .hook rfl rfl _
  | docClass kind factory =>
    have h : (Run.handleDocClass kind factory).discard run =
        (Run.through .docClass (docClassEvent run.manager kind factory)
          fun event => .ok event.data.factory).discard run := by
      unfold Operation.discard Operation.andThen
      rw [handleDocClass_eq_through]
    rw [perform, h, Run.discard_through]
    exact .hook rfl rfl _
  | ast ast filePath code =>
    rw [perform, Run.handleAst, Run.discard_through]
    exact .hook rfl rfl _
  | docs docs =>
    rw [perform, Run.handleDocs, Run.discard_through]
    exact .hook rfl rfl _
  | publish write copy read =>
    rw [perform, Run.publish]
    exact .hook rfl rfl _
  | content content fileName =>
    rw [perform, Run.handleContent, Run.discard_through]
    exact .hook rfl rfl _
  | complete =>
    rw [perform, Run.complete]
    exact .hook rfl rfl _
  | resolve identifier => exact .resolved identifier
  | outside host => exact .outside host

end Step

end PluginChain
