import PluginChain.Cli.Execution
import PluginChain.Proofs.Answers
import PluginChain.Proofs.Copying
import PluginChain.Proofs.History
set_option autoImplicit false

/-!
# Two routes through the configuration hook

A host may hand the configuration hook a configuration, or its plain form from whose
result it rebuilds one.  Both routes start the hook with one event
(`Run.handleConfig_eq_through`), so all that is left to compare is how they read what the
plugins leave in it.
-/

namespace PluginChain

namespace Run

variable {σ ω α : Type}

/-- The route through the plain form of a configuration. -/
def rebuildConfig (c : Config) : Operation σ ω Config :=
  Operation.andThen (handleConfig c.toJson) fun handled run => (Config.ofJson handled, run)

/-- The event with which a configuration starts its hook. -/
def configEvent (c : Config) : Event (Hook.config.Data ω) :=
  .assigned (ConfigData.mk c.toJson)

/-- The configuration in plain form that plugins have left in an event. -/
def configLeft (event : Event (Hook.config.Data ω)) : Json := ConfigData.config event.data

/-- The dispatch of the configuration hook for a configuration. -/
def configPass (run : Run σ ω) (c : Config) :
    Except Fault Nat × Stage σ ω (Hook.config.Data ω) :=
  run.pass .config run.manager.plugins (configEvent c)

/-- The reading of a value that was handed to plugins. -/
def readHandled [Portable α] (v : Json) : Except Fault α :=
  match (Portable.ofJson v : Except Mismatch α) with
  | .ok config => .ok config
  | .error m => .error (.ofMismatch m)

/-- Whatever has the plain form of a configuration is copied into its event. -/
theorem copied_config [Portable α] {a : α} {c : Config}
    (h : (Portable.toSerial a).toJson = .ok c.toJson) :
    Event.copied ConfigData.ofJson (ConfigData.seed (Portable.toSerial a)) =
      .ok (configEvent (ω := ω) c) :=
  ConfigData.copied_seed h

/-- Whatever has the plain form of a configuration is taken through the hook by the event
of this configuration. -/
theorem handleConfig_eq_through [Portable α] {a : α} {c : Config}
    (h : (Portable.toSerial a).toJson = .ok c.toJson) (run : Run σ ω) :
    run.handleConfig a =
      run.through .config (.ok (configEvent c)) fun event => readHandled (configLeft event) :=
  congrArg (fun event => run.through .config event _) (copied_config h)

/-- Where no plugin fails, the typed route reads the value that the plugins leave. -/
theorem handleConfig_typed (c : Config) (run : Run σ ω) :
    run.handleConfig c =
      run.through .config (.ok (configEvent c)) fun event => readHandled (configLeft event) :=
  handleConfig_eq_through c.toJson_toSerial run

/-- Where no plugin fails, the plain route rebuilds a configuration from that value. -/
theorem rebuildConfig_eq_through (c : Config) (run : Run σ ω) :
    run.rebuildConfig c =
      run.through .config (.ok (configEvent c))
        fun event => Config.ofJson (configLeft event) := by
  rw [rebuildConfig, Operation.andThen,
    handleConfig_eq_through (Serial.toJson_plain c.toJson) run, through_ok, through_ok]
  rcases run.pass .config run.manager.plugins (configEvent c) with ⟨_ | _, _⟩ <;> rfl

/-- Both routes leave the run as the dispatch does. -/
theorem routes_leave (c : Config) (run : Run σ ω) :
    (run.handleConfig c).2 = run.leftBy (run.configPass c).2 ∧
      (run.rebuildConfig c).2 = run.leftBy (run.configPass c).2 := by
  rw [handleConfig_typed, rebuildConfig_eq_through, snd_through_ok, snd_through_ok]
  exact ⟨rfl, rfl⟩

/-- A plugin that fails gives both routes its fault. -/
theorem routes_of_error {c : Config} {run : Run σ ω} {f : Fault}
    (h : (run.configPass c).1 = .error f) :
    (run.handleConfig c).1 = .error f ∧ (run.rebuildConfig c).1 = .error f := by
  rw [configPass] at h
  rw [handleConfig_typed, rebuildConfig_eq_through, fst_through_ok, fst_through_ok, h]
  exact ⟨rfl, rfl⟩

/-- Where no plugin fails, each route reads what the plugins leave in its own way. -/
theorem routes_of_ok {c : Config} {run : Run σ ω} {n : Nat}
    (h : (run.configPass c).1 = .ok n) :
    (run.handleConfig c).1 = readHandled (configLeft (run.configPass c).2.event) ∧
      (run.rebuildConfig c).1 = Config.ofJson (configLeft (run.configPass c).2.event) := by
  rw [configPass] at h
  rw [handleConfig_typed, rebuildConfig_eq_through, fst_through_ok, fst_through_ok, h]
  exact ⟨rfl, rfl⟩

/-- The fault of a value from which no configuration can be rebuilt. -/
def unrebuilt (m : Mismatch) : Fault :=
  .new .configuration ("Plugin produced an invalid config: " ++ m.jsonMessage)

/-- The two ways to read a value give the same configurations, and refuse the same values
with faults of two kinds. -/
theorem readings_agree (v : Json) :
    (∃ c : Config, Config.read v = .ok c ∧ readHandled v = .ok c ∧ Config.ofJson v = .ok c) ∨
      ∃ m, Config.read (E := Mismatch) v = .error m ∧
        readHandled (α := Config) v = .error (.ofMismatch m) ∧
        Config.ofJson v = .error (unrebuilt m) := by
  have hread : (Portable.ofJson v : Except Mismatch Config) = Config.read v := rfl
  rw [readHandled, hread, Config.ofJson]
  cases Config.read (E := Mismatch) v with
  | ok c => exact .inl ⟨c, rfl, rfl, rfl⟩
  | error m => exact .inr ⟨m, rfl, rfl, rfl⟩

/-- The program shows a configuration by the plain route. -/
theorem showConfig_eq_rebuild (config : Config) (format : OutputFormat) (host : Host Unit) :
    Cli.showConfig config format host =
      Cli.execute config
        (Operation.andThen (rebuildConfig config) fun handled run =>
          (.ok (format.print handled.toJson), run)) host := by
  unfold Cli.showConfig
  congr 1
  funext run
  unfold rebuildConfig Operation.andThen
  rcases run.handleConfig config.toJson with ⟨f | handled, run⟩
  · rfl
  · dsimp only
    cases Config.ofJson handled <;> rfl

/-- A configuration goes through its hook typed as it goes through in plain form:

* its plain form is what the hook copies, so both routes start the same event, make the
  same resolutions and the same calls, and leave the same run: its resolver with all
  private states, its list and its host;
* they succeed with the same configurations;
* where a plugin fails, both fail with its fault;
* where none fails, both give the configuration that the plugins leave, if it can be read,
  and else refuse it for the same mismatch, the typed route as data that does not fit, the
  other as a configuration that makes no sense.

The program shows a configuration by the second route. -/
theorem config_routes_agree (c : Config) (run : Run σ ω) :
    let typed := run.handleConfig c
    let plain := run.rebuildConfig c
    let pass := run.configPass c
    c.toSerial.toJson = .ok c.toJson ∧
    ((Step.config Config c).opening run.manager = some ⟨.config, .ok (configEvent c)⟩ ∧
      (Step.config Json c.toJson).opening run.manager = some ⟨.config, .ok (configEvent c)⟩ ∧
      (Step.config Config c).calls run = (Step.config Json c.toJson).calls run ∧
      (Step.config Config c).resolutions run = (Step.config Json c.toJson).resolutions run ∧
      typed.2 = plain.2) ∧
    (∀ c', typed.1 = .ok c' ↔ plain.1 = .ok c') ∧
    (∀ f, pass.1 = .error f → typed.1 = .error f ∧ plain.1 = .error f) ∧
    (∀ n, pass.1 = .ok n →
      (∀ c', Config.read (E := Mismatch) (configLeft pass.2.event) = .ok c' →
        typed.1 = .ok c' ∧ plain.1 = .ok c') ∧
      ∀ m : Mismatch, Config.read (configLeft pass.2.event) = .error m →
        typed.1 = .error (.ofMismatch m) ∧ (Fault.ofMismatch m).kind = .serialization ∧
          plain.1 = .error (unrebuilt m) ∧ (unrebuilt m).kind = .configuration) ∧
    ∀ (format : OutputFormat) (host : Host Unit),
      Cli.showConfig c format host =
        Cli.execute c
          (Operation.andThen (rebuildConfig c) fun handled run =>
            (.ok (format.print handled.toJson), run)) host := by
  intro typed plain pass
  have hopening : (Step.config Config c).opening run.manager =
      some ⟨.config, .ok (configEvent c)⟩ :=
    congrArg (fun event => some (Sigma.mk Hook.config event)) (copied_config c.toJson_toSerial)
  have hopening' : (Step.config Json c.toJson).opening run.manager =
      some ⟨.config, .ok (configEvent c)⟩ :=
    congrArg (fun event => some (Sigma.mk Hook.config event))
      (copied_config (Serial.toJson_plain c.toJson))
  obtain ⟨htyped, hplain⟩ := routes_leave c run
  refine ⟨c.toJson_toSerial, ⟨hopening, hopening', ?_, ?_, htyped.trans hplain.symm⟩, ?_,
    fun f hf => routes_of_error hf, fun n hn => ?_, fun format host =>
      showConfig_eq_rebuild c format host⟩
  · rw [Step.calls_of_opening hopening, Step.calls_of_opening hopening']
    rfl
  · rw [Step.resolutions, Step.resolutions, hopening, hopening']
    rfl
  · intro c'
    cases hpass : pass.1 with
    | error f =>
      obtain ⟨hf, hf'⟩ := routes_of_error hpass
      rw [hf, hf']
    | ok n =>
      obtain ⟨hread, hread'⟩ := routes_of_ok hpass
      obtain ⟨d, -, hd, hd'⟩ | ⟨m, -, hm, hm'⟩ := readings_agree (configLeft pass.2.event)
      · rw [hread.trans hd, hread'.trans hd']
      · rw [hread.trans hm, hread'.trans hm']
        exact iff_of_false (fun h => by cases h) (fun h => by cases h)
  · obtain ⟨hread, hread'⟩ := routes_of_ok hn
    obtain ⟨d, hd, htyped, hplain⟩ | ⟨m, hm, htyped, hplain⟩ :=
      readings_agree (configLeft pass.2.event)
    · refine ⟨fun c' hc' => ?_, fun m hm => ?_⟩
      · obtain rfl := Except.ok.inj (hd.symm.trans hc')
        exact ⟨hread.trans htyped, hread'.trans hplain⟩
      · cases hd.symm.trans hm
    · refine ⟨fun c' hc' => ?_, fun m' hm' => ?_⟩
      · cases hm.symm.trans hc'
      · obtain rfl := Except.error.inj (hm.symm.trans hm')
        exact ⟨hread.trans htyped, rfl, hread'.trans hplain, rfl⟩

end Run

end PluginChain
