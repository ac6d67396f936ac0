import PluginChain.Proofs.PlainForm
import PluginChain.Proofs.Skipping
set_option autoImplicit false

/-!
# Hooks that no plugin handles

A hook goes over a list of which no plugin handles it as it goes over the empty list: the
event stays as it was started (`Run.through_of_idle`).  So what the hook gives back is
what it was given, as soon as this comes through the copy into the event and, for a
configuration, through the reading at the end.
-/

namespace PluginChain

namespace Portable

/-- A value that has a plain form and is read back from it. -/
def ReadsBack {α : Type} [Portable α] (a : α) : Prop :=
  ∃ v, (toSerial a).toJson = .ok v ∧ ofJson v = .ok a

/-- Every JSON value is read back. -/
theorem readsBack_json (v : Json) : ReadsBack v := ⟨v, Serial.toJson_plain v, rfl⟩

/-- Every configuration is read back. -/
theorem readsBack_config (c : Config) : ReadsBack c :=
  ⟨c.toJson, c.toJson_toSerial, c.read_toJson⟩

end Portable

namespace Run

variable {σ ω α : Type} {run : Run σ ω} {hook : Hook} {entries : List PluginEntry}

/-- Every entry of a list resolves to a plugin, and none of the plugins handles a hook. -/
def Idle (run : Run σ ω) (hook : Hook) (entries : List PluginEntry) : Prop :=
  ∀ e ∈ entries, ∃ i, (run.manager.resolver.resolve e.name run.host).1 = .ok i ∧
    i.plugin.handles hook = false

/-- A dispatch over such a list makes no call, and leaves the event as it was. -/
theorem pass_of_idle (h : run.Idle hook entries) (event : Event (hook.Data ω)) :
    (run.pass hook entries event).1 = .ok 0 ∧ (run.pass hook entries event).2.event = event := by
  have hstart : Stage.Beside (entries.map (·.name)) (run.stage event) (run.stage event) :=
    ⟨.refl _ _, rfl, rfl⟩
  have hpassed : ∀ e ∈ entries, e.name ∈ entries.map (·.name) ∧
      ∃ i, (run.stage event).resolver.instance? e.name = some i ∧
        i.plugin.handles hook = false := by
    intro e he
    obtain ⟨i, hi, hh⟩ := h e he
    exact ⟨List.mem_map_of_mem he, i, Resolver.resolve_eq_ok_iff.mp hi, hh⟩
  obtain ⟨-, hanswer, hleft⟩ :=
    hstart.dispatch (Woven.into_nil entries) hpassed fun p => p.handle hook
  exact ⟨hanswer.symm, hleft.event.symm⟩

/-- A hook that no plugin of the active list handles reads its answer from the event that
it has started. -/
theorem through_of_idle (h : run.Idle hook run.manager.plugins) (event : Event (hook.Data ω))
    (result : Event (hook.Data ω) → Except Fault α) :
    (run.through hook (.ok event) result).1 = result event := by
  obtain ⟨hanswer, hevent⟩ := pass_of_idle h event
  rw [fst_through_ok, hanswer, hevent]

/-- The same of an event that is copied. -/
theorem through_copied_of_idle (h : run.Idle hook run.manager.plugins)
    {copied : Except Fault (Event (hook.Data ω))} {event : Event (hook.Data ω)}
    (hcopied : copied = .ok event) (result : Event (hook.Data ω) → Except Fault α) :
    (run.through hook copied result).1 = result event := by
  rw [hcopied]
  exact through_of_idle h event result

/-- The plugin-list hook gives back a list of which no plugin handles it, and makes it the
active one. -/
theorem handlePlugins_of_idle {plugins : List PluginEntry} (h : run.Idle .plugins plugins) :
    (run.handlePlugins plugins).1 = .ok plugins ∧
      (run.handlePlugins plugins).2.manager.plugins = plugins := by
  obtain ⟨hanswer, hevent⟩ := pass_of_idle h (listEvent plugins)
  obtain ⟨host, -, hhandle⟩ := handlePlugins_of_ok hanswer
  have hleft : listLeft (run.listPass plugins).2.event = plugins :=
    congrArg listLeft hevent
  rw [hhandle, hleft]
  exact ⟨rfl, rfl⟩

/-- A configuration that no plugin handles is given back, if it is read back. -/
theorem handleConfig_of_idle [Portable α] {config : α} (hback : Portable.ReadsBack config)
    (h : run.Idle .config run.manager.plugins) : (run.handleConfig config).1 = .ok config := by
  obtain ⟨v, hplain, hread⟩ := hback
  refine (through_copied_of_idle h (ConfigData.copied_seed hplain) _).trans ?_
  dsimp only [Event.data_assigned]
  rw [hread]

/-- A factory that no plugin handles is given back, in a host with parsers. -/
theorem handleDocClass_of_idle {parsers : ParsingCapabilities}
    (hparsers : run.manager.capabilities = some parsers)
    (h : run.Idle .docClass run.manager.plugins) (kind : String) (factory : Shared DocFactory) :
    (run.handleDocClass kind factory).1 = .ok factory := by
  have hevent : Step.docClassEvent run.manager kind factory =
      .ok (.assigned { kind, factory, parsers }) := by
    rw [Step.docClassEvent, hparsers]
  rw [Step.handleDocClass_eq_through]
  exact through_copied_of_idle h hevent _

/-- A hook whose entries all resolve, to plugins that do not handle it, gives back what it
is given: the plugin list with all its options, documentation records, texts, syntax trees,
parsers and factories, and a configuration, be it any JSON value or typed.  No event of
these hooks is refused, as what is copied into it is read back as it was; and that holds of
JSON values of any depth also where they are copied member by member. -/
theorem idle_hooks_give_back (run : Run σ ω) :
    (∀ plugins, run.Idle .plugins plugins →
      (run.handlePlugins plugins).1 = .ok plugins ∧
        (run.handlePlugins plugins).2.manager.plugins = plugins) ∧
    (run.Idle .docs run.manager.plugins → ∀ docs, (run.handleDocs docs).1 = .ok docs) ∧
    (run.Idle .content run.manager.plugins → ∀ content fileName,
      (run.handleContent content fileName).1 = .ok content) ∧
    (run.Idle .code run.manager.plugins → ∀ code filePath,
      (run.handleCode code filePath).1 = .ok code) ∧
    (run.Idle .ast run.manager.plugins → ∀ ast filePath code,
      (run.handleAst ast filePath code).1 = .ok ast) ∧
    (run.Idle .codeParser run.manager.plugins → ∀ parser option filePath code,
      (run.handleCodeParser parser option filePath code).1 = .ok (parser, option)) ∧
    (run.Idle .docClass run.manager.plugins → run.manager.capabilities ≠ none →
      ∀ kind factory, (run.handleDocClass kind factory).1 = .ok factory) ∧
    (run.Idle .config run.manager.plugins →
      (∀ v : Json, (run.handleConfig v).1 = .ok v) ∧
        ∀ c : Config, (run.handleConfig c).1 = .ok c) ∧
    ((∀ d : PluginsData, Event.copied PluginsData.ofJson d.toSerial = .ok (.assigned d)) ∧
      (∀ d : DocsData, Event.copied DocsData.ofJson d.toSerial = .ok (.assigned d)) ∧
      (∀ d : ContentData, Event.copied ContentData.ofJson d.toSerial = .ok (.assigned d)) ∧
      (∀ v, Event.copied ConfigData.ofJson (ConfigData.seed (Portable.toSerial v)) =
        .ok (.assigned ⟨v⟩)) ∧
      ∀ c : Config, Event.copied ConfigData.ofJson (ConfigData.seed (Portable.toSerial c)) =
        .ok (.assigned ⟨c.toJson⟩)) ∧
    ∀ v : Json, v.WellFormed → (Serial.ofJson v).toJson = .ok v ∧ v.rebuilt = v := by
  refine ⟨fun plugins h => handlePlugins_of_idle h, fun h docs => ?_,
    fun h content fileName => ?_, fun h code filePath => ?_, fun h ast filePath code => ?_,
    fun h parser option filePath code => ?_, fun h hparsers kind factory => ?_,
    fun h => ⟨fun v => ?_, fun c => ?_⟩, ⟨?_, ?_, ?_, fun v => ?_, fun c => ?_⟩,
    fun v hv => ⟨Serial.toJson_ofJson hv, Json.rebuilt_eq_self hv⟩⟩
  · exact through_copied_of_idle h (DocsData.copied_toSerial { docs }) _
  · exact through_copied_of_idle h (ContentData.copied_toSerial { content, fileName }) _
  · exact through_of_idle h _ _
  · exact through_of_idle h _ _
  · exact through_of_idle h _ _
  · obtain ⟨parsers, hparsers⟩ := Option.ne_none_iff_exists'.mp hparsers
    exact handleDocClass_of_idle hparsers h kind factory
  · exact handleConfig_of_idle (Portable.readsBack_json v) h
  · exact handleConfig_of_idle (Portable.readsBack_config c) h
  · exact PluginsData.copied_toSerial
  · exact DocsData.copied_toSerial
  · exact ContentData.copied_toSerial
  · exact ConfigData.copied_seed (Serial.toJson_plain v)
  · exact ConfigData.copied_seed c.toJson_toSerial

end Run

/-- A plugin that handles the start alone. -/
def Plugin.onlooking : Plugin Nat Unit where
  name := "onlooking"
  hooks := [.start]
  handle := fun _ => .skip

namespace Run

/-- A run with a plugin that looks on, in a host with parsers. -/
def watched : Run Nat Unit where
  manager :=
    { plugins := [⟨"onlooking", .null⟩]
      resolver :=
        { registry := { entries := [("onlooking", .factory 0 fun _ => (.onlooking, 0))] } }
      capabilities := some ⟨fun _ => .ok .null, fun _ => .ok [], fun _ _ => .ok .null⟩ }
  host := { memory := () }

/-- Nested values go through a hook that no plugin handles as they are. -/
theorem idle_hooks_give_back_watched :
    let nested : Json := .obj [("deep", .arr [.obj [("a", .null)], .int 1]), ("kind", .str "c")]
    let given : List PluginEntry := [⟨"onlooking", nested⟩, ⟨"onlooking", .bool true⟩]
    let factory : Shared DocFactory := ⟨7, default⟩
    watched.Idle .plugins given ∧ (watched.handlePlugins given).1 = .ok given ∧
      watched.Idle .docs watched.manager.plugins ∧
      (watched.handleDocs [nested, nested]).1 = .ok [nested, nested] ∧
      watched.Idle .docClass watched.manager.plugins ∧ watched.manager.capabilities ≠ none ∧
      (watched.handleDocClass "class" factory).1 = .ok factory ∧
      nested.WellFormed ∧ (Serial.ofJson nested).toJson = .ok nested := by
  intro nested given factory
  have hidle : ∀ hook, hook ≠ .start → ∀ entries : List PluginEntry,
      (∀ e ∈ entries, e.name = "onlooking") → watched.Idle hook entries := by
    intro hook hstart entries hentries e he
    rw [hentries e he]
    refine ⟨⟨.built "onlooking" 1, .onlooking, 0⟩, rfl, ?_⟩
    simpa [Plugin.handles, Plugin.onlooking] using hstart
  have hgiven : watched.Idle .plugins given :=
    hidle .plugins Hook.noConfusion given (by simp [given])
  have hactive : ∀ e ∈ watched.manager.plugins, e.name = "onlooking" := by simp [watched]
  have hdocsIdle := hidle .docs Hook.noConfusion watched.manager.plugins hactive
  have hdocClassIdle := hidle .docClass Hook.noConfusion watched.manager.plugins hactive
  have hcapable : watched.manager.capabilities ≠ none := Option.some_ne_none _
  have hnames : (Keyed.keys [("deep", Json.arr [.obj [("a", .null)], .int 1]),
      ("kind", .str "c")]).Pairwise (· < ·) := by
    show ["deep", "kind"].Pairwise (· < ·)
    decide +kernel
  have hinner : (Keyed.keys [("a", Json.null)]).Pairwise (· < ·) := List.pairwise_singleton _ _
  have hrange : Json.minInt ≤ 1 ∧ 1 ≤ Json.maxInt := by decide
  have hnested : nested.WellFormed :=
    ⟨hnames, ⟨⟨hinner, trivial, trivial⟩, hrange, trivial⟩, trivial, trivial⟩
  obtain ⟨hplugins, hdocs, -, -, -, -, hdocClass, -, -, hcopy⟩ := idle_hooks_give_back watched
  exact ⟨hgiven, (hplugins given hgiven).1, hdocsIdle, hdocs hdocsIdle _, hdocClassIdle,
    hcapable, hdocClass hdocClassIdle hcapable "class" factory, hnested, (hcopy nested hnested).1⟩

end Run

end PluginChain
