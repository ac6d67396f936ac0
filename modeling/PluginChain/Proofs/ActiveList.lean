import PluginChain.Proofs.Copying
import PluginChain.Proofs.Session
set_option autoImplicit false

/-!
# The active list

The plugin-list hook goes over the list that it is given, whatever list its plugins
are building in the event, and no event of it is refused
(`PluginsData.copied_toSerial`).  What it leaves for the active list hangs on that
dispatch alone, and no other step of a session touches the active list.
-/

namespace PluginChain

namespace Run

variable {σ ω : Type}

/-- The event of the plugin-list hook for a list. -/
def listEvent (plugins : List PluginEntry) : Event (Hook.plugins.Data ω) :=
  .assigned (PluginsData.mk plugins)

/-- The dispatch of the plugin-list hook for a list. -/
def listPass (run : Run σ ω) (plugins : List PluginEntry) :
    Except Fault Nat × Stage σ ω (Hook.plugins.Data ω) :=
  run.pass .plugins plugins (listEvent plugins)

/-- The list that plugins have left in the event of the plugin-list hook. -/
def listLeft (event : Event (Hook.plugins.Data ω)) : List PluginEntry :=
  PluginsData.plugins event.data

/-- Makes the list that the plugins have left the active one. -/
def settleList (plugins : List PluginEntry) :
    Except Fault (List PluginEntry) × Run σ ω → Except Fault (List PluginEntry) × Run σ ω
  | (.error f, run) => (.error f, run)
  | (.ok replaced, run) =>
    let host :=
      if replaced == plugins then run.host
      else run.host.note (.info .manager "Plugin list replaced by plugin"
        [("before", .int plugins.length), ("after", .int replaced.length)])
    (.ok replaced, { run with host }.withPlugins replaced)

/-- No event of the plugin-list hook is refused. -/
theorem copied_list (plugins : List PluginEntry) :
    Event.copied PluginsData.ofJson (PluginsData.toSerial { plugins }) =
      .ok (listEvent (ω := ω) plugins) :=
  PluginsData.copied_toSerial { plugins }

/-- The plugin-list hook is a dispatch over the list that it is given. -/
theorem handlePlugins_eq (plugins : List PluginEntry) (run : Run σ ω) :
    run.handlePlugins plugins =
      settleList plugins
        ((run.withPlugins plugins).through .plugins (.ok (listEvent plugins))
          fun event => .ok (listLeft event)) := by
  have hcopied : run.handlePlugins plugins =
      settleList plugins
        ((run.withPlugins plugins).through .plugins
          (Event.copied PluginsData.ofJson (PluginsData.toSerial { plugins }))
          fun event => .ok (listLeft event)) := rfl
  exact hcopied.trans (congrArg (fun event => settleList plugins
    ((run.withPlugins plugins).through .plugins event fun event => .ok (listLeft event)))
      (copied_list plugins))

/-- The plugin-list hook starts with the list that it is given as the active one. -/
theorem through_listed {α : Type} (plugins : List PluginEntry)
    (result : Event (Hook.plugins.Data ω) → Except Fault α) (run : Run σ ω) :
    (run.withPlugins plugins).through .plugins (.ok (listEvent plugins)) result =
      match run.listPass plugins with
      | (.ok _, st) => (result st.event, (run.leftBy st).withPlugins plugins)
      | (.error f, st) => (.error f, (run.leftBy st).withPlugins plugins) := by
  have hpass : (run.withPlugins plugins).pass .plugins (run.withPlugins plugins).manager.plugins
      (listEvent plugins) = run.listPass plugins := rfl
  rw [through_ok, hpass]
  rcases run.listPass plugins with ⟨_ | _, _⟩ <;> rfl

/-- Where an entry fails, the list that the hook was given stays the active one. -/
theorem handlePlugins_of_error {plugins : List PluginEntry} {run : Run σ ω} {f : Fault}
    (h : (run.listPass plugins).1 = .error f) :
    run.handlePlugins plugins =
      (.error f, (run.leftBy (run.listPass plugins).2).withPlugins plugins) := by
  rw [handlePlugins_eq, through_listed]
  revert h
  rcases run.listPass plugins with ⟨answer, st⟩
  rintro rfl
  rfl

/-- Where no entry fails, the list in the event becomes the active one. -/
theorem handlePlugins_of_ok {plugins : List PluginEntry} {run : Run σ ω} {n : Nat}
    (h : (run.listPass plugins).1 = .ok n) :
    ∃ host : Host ω, host.quiet = (run.listPass plugins).2.host.quiet ∧
      run.handlePlugins plugins =
        (.ok (listLeft (run.listPass plugins).2.event),
          { run.leftBy (run.listPass plugins).2 with host }.withPlugins
            (listLeft (run.listPass plugins).2.event)) := by
  rw [handlePlugins_eq, through_listed]
  revert h
  rcases run.listPass plugins with ⟨answer, st⟩
  rintro rfl
  refine ⟨_, ?_, rfl⟩
  dsimp only
  split <;> rfl

end Run

/-! ## Single steps -/

namespace Step

variable {σ ω : Type} {s : Step ω} {run : Run σ ω} {plugins : List PluginEntry}

/-- A step that is given a list takes the plugin-list hook over it. -/
theorem perform_of_list (hlist : s.list? = some plugins) :
    s.perform run = (Run.handlePlugins plugins).discard run := by
  have h := s.served run
  generalize s.perform run = out at h ⊢
  cases h with
  | listing hlist' _ =>
    obtain rfl := Option.some.inj (hlist.symm.trans hlist')
    rfl
  | hook hlist' _ _ => simp [hlist] at hlist'
  | resolved _ => cases hlist
  | outside _ => cases hlist

/-- A step that is not given a list leaves the active one as it was. -/
theorem plugins_perform (hlist : s.list? = none) :
    (s.perform run).2.manager.plugins = run.manager.plugins := by
  have h := s.served run
  generalize s.perform run = out at h ⊢
  cases h with
  | listing hlist' _ => simp [hlist] at hlist'
  | hook _ _ result => exact Run.plugins_through _ _ result run
  | resolved identifier =>
    simp only [Operation.discard, Operation.andThen, Run.resolve]
    rcases run.manager.resolver.resolve identifier run.host with ⟨_ | _, _, _⟩ <;> rfl
  | outside _ => rfl

/-- Where an entry fails, the step does, and its list stays the active one. -/
theorem perform_of_listPass_error {f : Fault} (hlist : s.list? = some plugins)
    (h : (run.listPass plugins).1 = .error f) :
    s.perform run = (.error f, (run.leftBy (run.listPass plugins).2).withPlugins plugins) := by
  rw [perform_of_list hlist, Operation.discard, Operation.andThen, Run.handlePlugins_of_error h]

/-- Where no entry fails, the list that the plugins have left becomes the active one. -/
theorem perform_of_listPass_ok {n : Nat} (hlist : s.list? = some plugins)
    (h : (run.listPass plugins).1 = .ok n) :
    ∃ host : Host ω, host.quiet = (run.listPass plugins).2.host.quiet ∧
      s.perform run =
        (.ok (),
          { run.leftBy (run.listPass plugins).2 with host }.withPlugins
            (Run.listLeft (run.listPass plugins).2.event)) := by
  obtain ⟨host, hquiet, hhandle⟩ := Run.handlePlugins_of_ok h
  refine ⟨host, hquiet, ?_⟩
  rw [perform_of_list hlist, Operation.discard, Operation.andThen, hhandle]

/-- The dispatch that a step makes: over the list that it is given, or else over the
active one. -/
def pass (s : Step ω) (run : Run σ ω) {hook : Hook} (event : Event (hook.Data ω)) :
    Except Fault Nat × Stage σ ω (hook.Data ω) :=
  run.pass hook (s.list?.getD run.manager.plugins) event

/-- A step that is given a list starts the event of the plugin-list hook with it. -/
theorem opening_of_list (hlist : s.list? = some plugins) (m : Manager σ ω) :
    s.opening m = some ⟨.plugins, .ok (Run.listEvent plugins)⟩ := by
  cases s <;> cases hlist <;>
    exact congrArg (fun event => some (Sigma.mk Hook.plugins event)) (Run.copied_list plugins)

/-- What a step does to the run beside the active list is what its dispatch does. -/
theorem leaves_of_opening {hook : Hook} {event : Event (hook.Data ω)}
    (hopening : s.opening run.manager = some ⟨hook, .ok event⟩) :
    (s.perform run).2.manager.resolver = (s.pass run event).2.resolver ∧
      (s.perform run).2.host.quiet = (s.pass run event).2.host.quiet ∧
      ∀ f, (s.pass run event).1 = .error f → (s.perform run).1 = .error f := by
  cases hlist : s.list? with
  | some plugins =>
    rw [opening_of_list hlist] at hopening
    cases hopening
    have hpass : s.pass run (Run.listEvent plugins) = run.listPass plugins := by
      rw [pass, hlist]
      rfl
    rw [hpass]
    cases hanswer : (run.listPass plugins).1 with
    | error f =>
      rw [perform_of_listPass_error hlist hanswer]
      exact ⟨rfl, rfl, fun _ h => by rw [Except.error.inj h]⟩
    | ok n =>
      obtain ⟨host, hquiet, hperform⟩ := perform_of_listPass_ok hlist hanswer
      rw [hperform]
      exact ⟨rfl, hquiet, fun _ h => nomatch h⟩
  | none =>
    have hpass : s.pass run event = run.pass hook run.manager.plugins event := by
      rw [pass, hlist]
      rfl
    have h := s.served run
    generalize s.perform run = out at h ⊢
    cases h with
    | listing hlist' _ => simp [hlist] at hlist'
    | hook _ hopening' result =>
      cases hopening.symm.trans hopening'
      rw [hpass, Run.fst_through_ok, Run.snd_through_ok]
      refine ⟨rfl, rfl, fun f hf => ?_⟩
      rw [hf]
    | resolved _ => cases hopening
    | outside _ => cases hopening

/-- A step whose event is refused does nothing. -/
theorem perform_of_refused {hook : Hook} {f : Fault}
    (hopening : s.opening run.manager = some ⟨hook, .error f⟩) :
    s.perform run = (.error f, run) := by
  have h := s.served run
  generalize s.perform run = out at h ⊢
  cases h with
  | listing hlist _ =>
    rw [opening_of_list hlist] at hopening
    cases hopening
  | hook _ hopening' result =>
    cases hopening.symm.trans hopening'
    rfl
  | resolved _ => cases hopening
  | outside _ => cases hopening

end Step

/-! ## Whole sessions -/

namespace Run

variable {σ ω : Type}

/-- Without the plugin-list hook, a session leaves the active list as it was. -/
theorem plugins_performAll {steps : List (Step ω)} (h : ∀ s ∈ steps, s.list? = none)
    (run : Run σ ω) : (run.performAll steps).manager.plugins = run.manager.plugins := by
  induction steps generalizing run with
  | nil => rfl
  | cons s rest ih =>
    obtain ⟨hs, hrest⟩ := List.forall_mem_cons.mp h
    rw [performAll_cons, ih hrest, Step.plugins_perform hs]

/-- After a session, the active list is as the last step with a list has made it: the
list that the plugins have left in the event, where no entry of the given list has
failed, or else the given list.  Without such a step it is as before.  Each dispatch of
a session goes over the list that its step is given, or else over the active list as it
is then, and a step whose event is refused does nothing. -/
theorem active_list_of_last_list (run : Run σ ω) (steps : List (Step ω)) :
    ((∀ s ∈ steps, s.list? = none) →
      (run.performAll steps).manager.plugins = run.manager.plugins) ∧
    (∀ before s after plugins, steps = before ++ s :: after → s.list? = some plugins →
      (∀ t ∈ after, t.list? = none) →
      let now := run.performAll before
      (∀ n, (now.listPass plugins).1 = .ok n → (s.perform now).1 = .ok () ∧
        (run.performAll steps).manager.plugins = listLeft (now.listPass plugins).2.event) ∧
      (∀ f, (now.listPass plugins).1 = .error f → (s.perform now).1 = .error f ∧
        (run.performAll steps).manager.plugins = plugins)) ∧
    (∀ before s after, steps = before ++ s :: after →
      let now := run.performAll before
      ∀ (hook : Hook) (event : Except Fault (Event (hook.Data ω))),
        s.opening now.manager = some ⟨hook, event⟩ →
        match event with
        | .error f => s.perform now = (.error f, now)
        | .ok event =>
          let pass := now.pass hook (s.list?.getD now.manager.plugins) event
          (s.perform now).2.manager.resolver = pass.2.resolver ∧
            (s.perform now).2.host.quiet = pass.2.host.quiet ∧
            ∀ f, pass.1 = .error f → (s.perform now).1 = .error f) := by
  refine ⟨fun h => plugins_performAll h run, ?_, ?_⟩
  · rintro before s after plugins rfl hlist hafter
    rw [performAll_append, performAll_cons]
    refine ⟨fun n h => ?_, fun f h => ?_⟩
    · obtain ⟨host, -, hperform⟩ := Step.perform_of_listPass_ok hlist h
      rw [plugins_performAll hafter, hperform]
      exact ⟨rfl, rfl⟩
    · rw [plugins_performAll hafter, Step.perform_of_listPass_error hlist h]
      exact ⟨rfl, rfl⟩
  · intro before s after _ now hook event hopening
    cases event with
    | error f => exact Step.perform_of_refused hopening
    | ok event => exact Step.leaves_of_opening hopening

end Run

end PluginChain
