import PluginChain.Proofs.ActiveList
set_option autoImplicit false

/-!
# What the steps of a session answer

`Step.perform` does not look at the result of a step; `Step.answer` gives it.  A hook
reads its answer from the event as the dispatch leaves it, and looks at nothing else of
the run (`Step.exists_reading`).  `Step.calls` lists the calls that a step makes.

Runs that differ in their logs alone cannot be told apart: every step answers the same
in both, by the same calls, and leaves them differing in their logs alone
(`Run.SameButLog.answer`).
-/

namespace PluginChain

theorem Operation.discard_eq_self {σ ω : Type} (op : Operation σ ω Unit) : op.discard = op := by
  funext run
  unfold Operation.discard Operation.andThen
  rcases op run with ⟨_ | _, _⟩ <;> rfl

namespace Step

variable {σ ω : Type}

/-- What a step answers with. -/
def Answer (σ : Type) : Step ω → Type
  | init _ | start | publish _ _ _ | complete | outside _ => Unit
  | handlePlugins _ => List PluginEntry
  | config α _ => α
  | code _ _ | content _ _ => String
  | codeParser _ _ _ _ => Shared CodeParser × Json
  | docClass _ _ => Shared DocFactory
  | ast _ _ _ => Json
  | docs _ => List Json
  | resolve _ => Instance σ ω

/-- Does a step, with its answer. -/
def answer : (s : Step ω) → Operation σ ω (s.Answer σ)
  | init plugins => Run.init plugins
  | handlePlugins plugins => Run.handlePlugins plugins
  | start => Run.start
  | config α value => Run.handleConfig (α := α) value
  | code text path => Run.handleCode text path
  | codeParser parser option path text => Run.handleCodeParser parser option path text
  | docClass kind factory => Run.handleDocClass kind factory
  | ast tree path text => Run.handleAst tree path text
  | docs records => Run.handleDocs records
  | publish write copy read => Run.publish write copy read
  | content text name => Run.handleContent text name
  | complete => Run.complete
  | resolve identifier => Run.resolve identifier
  | outside host => fun run => (.ok (), { run with host })

variable {s : Step ω} {run : Run σ ω}

theorem perform_eq_discard (s : Step ω) (run : Run σ ω) :
    s.perform run = Operation.discard s.answer run := by
  cases s with
  | init | start | publish | complete | outside =>
    exact (congrFun (Operation.discard_eq_self _) run).symm
  | _ => rfl

theorem snd_perform (s : Step ω) (run : Run σ ω) : (s.perform run).2 = (s.answer run).2 := by
  rw [perform_eq_discard]
  unfold Operation.discard Operation.andThen
  rcases s.answer run with ⟨_ | _, _⟩ <;> rfl

theorem perform_eq_error_iff {f : Fault} :
    (s.perform run).1 = .error f ↔ (s.answer run).1 = .error f := by
  rw [perform_eq_discard]
  unfold Operation.discard Operation.andThen
  rcases s.answer run with ⟨_ | _, _⟩ <;> simp

/-- The hooks beside the plugin-list hook read their answers from the event that the
dispatch leaves.  A reading fails only where the event holds what does not fit. -/
theorem exists_reading (hlist : s.list? = none) {m : Manager σ ω} {hook : Hook}
    {event : Except Fault (Event (hook.Data ω))} (hopening : s.opening m = some ⟨hook, event⟩) :
    ∃ reading : Event (hook.Data ω) → Except Mismatch (s.Answer σ),
      ∀ run : Run σ ω, run.manager.capabilities = m.capabilities →
        s.answer run =
          run.through hook event fun event => (reading event).mapError .ofMismatch := by
  cases s with
  | init | handlePlugins => cases hlist
  | resolve | outside => cases hopening
  | config α value =>
    cases hopening
    refine ⟨fun event => (Portable.ofJson event.data.config : Except Mismatch α), fun run _ => ?_⟩
    rw [answer, Run.handleConfig]
    congr 1
    funext event
    dsimp only
    cases (Portable.ofJson event.data.config : Except Mismatch α) <;> rfl
  | docClass kind factory =>
    cases hopening
    refine ⟨fun event => .ok event.data.factory, fun run hrun => ?_⟩
    have hevent : docClassEvent m kind factory = docClassEvent run.manager kind factory := by
      unfold docClassEvent
      rw [hrun]
    rw [hevent]
    exact handleDocClass_eq_through kind factory run
  | start | publish | complete =>
    cases hopening
    exact ⟨fun _ => .ok (), fun _ _ => rfl⟩
  | code =>
    cases hopening
    exact ⟨fun event => .ok event.data.code, fun _ _ => rfl⟩
  | codeParser =>
    cases hopening
    exact ⟨fun event => .ok (event.data.parser, event.data.parserOption), fun _ _ => rfl⟩
  | ast =>
    cases hopening
    exact ⟨fun event => .ok event.data.ast, fun _ _ => rfl⟩
  | docs =>
    cases hopening
    exact ⟨fun event => .ok event.data.docs, fun _ _ => rfl⟩
  | content =>
    cases hopening
    exact ⟨fun event => .ok event.data.content, fun _ _ => rfl⟩

/-- No step changes the parsers that a manager offers. -/
theorem capabilities_perform (s : Step ω) (run : Run σ ω) :
    (s.perform run).2.manager.capabilities = run.manager.capabilities := by
  have h := s.served run
  generalize s.perform run = out at h ⊢
  cases h with
  | @listing s plugins _ _ =>
    rw [Operation.discard, Operation.andThen]
    cases hpass : (run.listPass plugins).1 with
    | error f =>
      rw [Run.handlePlugins_of_error hpass]
      rfl
    | ok n =>
      obtain ⟨host, -, hhandle⟩ := Run.handlePlugins_of_ok hpass
      rw [hhandle]
      rfl
  | @hook s hook event _ _ result =>
    cases event with
    | error f => rfl
    | ok event =>
      rw [Run.snd_through_ok]
      rfl
  | resolved identifier =>
    simp only [Operation.discard, Operation.andThen, Run.resolve]
    rcases run.manager.resolver.resolve identifier run.host with ⟨_ | _, _, _⟩ <;> rfl
  | outside host => rfl

/-- A step starts the same event for managers that offer the same parsers. -/
theorem opening_congr {m m' : Manager σ ω} (h : m.capabilities = m'.capabilities) (s : Step ω) :
    s.opening m = s.opening m' := by
  cases s with
  | docClass kind factory => simp only [opening, docClassEvent, h]
  | _ => rfl

/-- The calls that a step makes, each with the hook that it is made for. -/
def calls (s : Step ω) (run : Run σ ω) : List ((hook : Hook) × Call σ ω (hook.Data ω)) :=
  match s.opening run.manager with
  | some ⟨hook, .ok event⟩ =>
    ((run.stage event).calls (s.list?.getD run.manager.plugins) hook fun p => p.handle hook).map
      fun c => ⟨hook, c⟩
  | _ => []

theorem calls_of_opening {hook : Hook} {event : Event (hook.Data ω)}
    (hopening : s.opening run.manager = some ⟨hook, .ok event⟩) :
    s.calls run =
      ((run.stage event).calls (s.list?.getD run.manager.plugins) hook
        fun p => p.handle hook).map fun c => ⟨hook, c⟩ := by
  rw [calls, hopening]

theorem calls_of_refused {hook : Hook} {f : Fault}
    (hopening : s.opening run.manager = some ⟨hook, .error f⟩) : s.calls run = [] := by
  rw [calls, hopening]

end Step

/-! ## Runs that differ in their logs alone -/

namespace Stage

variable {σ ω D : Type}

/-- A list of entries comes to the same, by the same calls, in stages that differ in
their logs alone. -/
theorem SameButLog.visitAll {st st' : Stage σ ω D} (h : SameButLog st st') (hook : Hook)
    (handler : Plugin σ ω → Handler σ ω D) (entries : List PluginEntry) (position calls : Nat) :
    callsFrom hook handler position entries st = callsFrom hook handler position entries st' ∧
      (visitAll hook handler entries calls st).1 = (visitAll hook handler entries calls st').1 ∧
      SameButLog (visitAll hook handler entries calls st).2
        (visitAll hook handler entries calls st').2 := by
  obtain ⟨hcalls, hanswer, halike⟩ := h.alike.visitAll hook handler entries position calls
  obtain ⟨hevent, -, -⟩ := leaves_of_visitAll hook handler entries position calls st
  obtain ⟨hevent', -, -⟩ := leaves_of_visitAll hook handler entries position calls st'
  refine ⟨hcalls, hanswer, halike.resolver, ?_, halike.host⟩
  rw [hevent, hevent', hcalls, h.event]

theorem SameButLog.symm {st st' : Stage σ ω D} (h : SameButLog st st') : SameButLog st' st :=
  ⟨h.resolver.symm, h.event.symm, h.host.symm⟩

theorem SameButLog.trans {st st' st'' : Stage σ ω D} (h : SameButLog st st')
    (h' : SameButLog st' st'') : SameButLog st st'' :=
  ⟨h.resolver.trans h'.resolver, h.event.trans h'.event, h.host.trans h'.host⟩

theorem sameButLog_note (st : Stage σ ω D) (r : LogRecord) : SameButLog (st.note r) st :=
  ⟨rfl, rfl, rfl⟩

/-- A dispatch goes through its list from a stage that differs in its log alone. -/
theorem dispatch_sameButLog (entries : List PluginEntry) (hook : Hook)
    (handler : Plugin σ ω → Handler σ ω D) (st : Stage σ ω D) :
    (st.dispatch entries hook handler).1 = (Stage.visitAll hook handler entries 0 st).1 ∧
      SameButLog (st.dispatch entries hook handler).2
        (Stage.visitAll hook handler entries 0 st).2 :=
  ((sameButLog_note st _).visitAll hook handler entries 0 0).2

/-- A dispatch comes to the same, by the same calls, in stages that differ in their logs
alone. -/
theorem SameButLog.dispatch {st st' : Stage σ ω D} (h : SameButLog st st')
    (entries : List PluginEntry) (hook : Hook) (handler : Plugin σ ω → Handler σ ω D) :
    st.calls entries hook handler = st'.calls entries hook handler ∧
      (st.dispatch entries hook handler).1 = (st'.dispatch entries hook handler).1 ∧
      SameButLog (st.dispatch entries hook handler).2 (st'.dispatch entries hook handler).2 := by
  obtain ⟨hcalls, hanswer, hleft⟩ := h.visitAll hook handler entries 0 0
  obtain ⟨hdispatch, hst⟩ := dispatch_sameButLog entries hook handler st
  obtain ⟨hdispatch', hst'⟩ := dispatch_sameButLog entries hook handler st'
  exact ⟨hcalls, hdispatch.trans (hanswer.trans hdispatch'.symm),
    hst.trans (hleft.trans hst'.symm)⟩

end Stage

namespace Run

variable {σ ω α : Type} {run run' : Run σ ω}

/-- Two runs that differ in their logs alone: their lists, their resolvers with all
private states, their parsers, their files and their memories are the same. -/
structure SameButLog (run run' : Run σ ω) : Prop where
  manager : run.manager = run'.manager
  host : run.host.quiet = run'.host.quiet

namespace SameButLog

theorem withPlugins (h : SameButLog run run') (plugins : List PluginEntry) :
    SameButLog (run.withPlugins plugins) (run'.withPlugins plugins) :=
  ⟨by simp only [Run.withPlugins, h.manager], h.host⟩

theorem leftBy {D : Type} (h : SameButLog run run') {st st' : Stage σ ω D}
    (hst : Stage.SameButLog st st') : SameButLog (run.leftBy st) (run'.leftBy st') :=
  ⟨by simp only [Run.leftBy, h.manager, hst.resolver], hst.host⟩

/-- The same dispatch comes to the same, by the same calls. -/
theorem pass (h : SameButLog run run') (hook : Hook) (entries : List PluginEntry)
    (event : Event (hook.Data ω)) :
    ((run.stage event).calls entries hook fun p => p.handle hook) =
        ((run'.stage event).calls entries hook fun p => p.handle hook) ∧
      (run.pass hook entries event).1 = (run'.pass hook entries event).1 ∧
      Stage.SameButLog (run.pass hook entries event).2 (run'.pass hook entries event).2 := by
  have hstage : Stage.SameButLog (run.stage event) (run'.stage event) :=
    ⟨by simp only [stage, h.manager], rfl, h.host⟩
  exact hstage.dispatch entries hook _

theorem through (h : SameButLog run run') (hook : Hook)
    (event : Except Fault (Event (hook.Data ω))) (result : Event (hook.Data ω) → Except Fault α) :
    (run.through hook event result).1 = (run'.through hook event result).1 ∧
      SameButLog (run.through hook event result).2 (run'.through hook event result).2 := by
  cases event with
  | error f => exact ⟨rfl, h⟩
  | ok event =>
    obtain ⟨-, hanswer, hleft⟩ := h.pass hook run.manager.plugins event
    rw [fst_through_ok, fst_through_ok, snd_through_ok, snd_through_ok, ← h.manager, hanswer,
      hleft.event]
    exact ⟨rfl, h.leftBy hleft⟩

theorem handlePlugins (h : SameButLog run run') (plugins : List PluginEntry) :
    (run.handlePlugins plugins).1 = (run'.handlePlugins plugins).1 ∧
      SameButLog (run.handlePlugins plugins).2 (run'.handlePlugins plugins).2 := by
  obtain ⟨-, hanswer, hleft⟩ := h.pass .plugins plugins (listEvent plugins)
  cases hpass : (run.listPass plugins).1 with
  | error f =>
    rw [handlePlugins_of_error hpass, handlePlugins_of_error (hanswer.symm.trans hpass)]
    exact ⟨rfl, (h.leftBy hleft).withPlugins plugins⟩
  | ok n =>
    obtain ⟨host, hquiet, heq⟩ := handlePlugins_of_ok hpass
    obtain ⟨host', hquiet', heq'⟩ := handlePlugins_of_ok (hanswer.symm.trans hpass)
    have hlist : listLeft (run.listPass plugins).2.event =
        listLeft (run'.listPass plugins).2.event := congrArg listLeft hleft.event
    rw [heq, heq', ← hlist]
    refine ⟨rfl, ?_, hquiet.trans (hleft.host.trans hquiet'.symm)⟩
    exact ((h.leftBy hleft).withPlugins _).manager

theorem resolve (h : SameButLog run run') (identifier : String) :
    (run.resolve identifier).1 = (run'.resolve identifier).1 ∧
      SameButLog (run.resolve identifier).2 (run'.resolve identifier).2 := by
  have hquiet := Resolver.quiet_resolve run.manager.resolver identifier run.host
  have hquiet' := Resolver.quiet_resolve run'.manager.resolver identifier run'.host
  refine ⟨?_, ?_, hquiet.trans (h.host.trans hquiet'.symm)⟩
  · simp only [Run.resolve, Resolver.resolve_fst, h.manager, Host.files_eq_of_quiet h.host]
  · simp only [Run.resolve, Resolver.resolve_settled, h.manager]

/-- A step makes the same calls in runs that differ in their logs alone. -/
theorem calls (h : SameButLog run run') (s : Step ω) : s.calls run = s.calls run' := by
  unfold Step.calls
  rw [← h.manager]
  rcases s.opening run.manager with _ | ⟨hook, f | event⟩
  · rfl
  · rfl
  · dsimp only
    rw [(h.pass hook _ event).1]

/-- A step answers the same in runs that differ in their logs alone, and leaves them so. -/
theorem answer (h : SameButLog run run') (s : Step ω) :
    (s.answer run).1 = (s.answer run').1 ∧ SameButLog (s.answer run).2 (s.answer run').2 := by
  cases hlist : s.list? with
  | some plugins =>
    have hhandle := h.handlePlugins plugins
    cases s with
    | handlePlugins =>
      cases hlist
      exact hhandle
    | init =>
      cases hlist
      simp only [Step.answer, Run.init]
      revert hhandle
      rcases run.handlePlugins plugins with ⟨answer, left⟩
      rcases run'.handlePlugins plugins with ⟨answer', left'⟩
      rintro ⟨rfl, hleft⟩
      cases answer <;> exact ⟨rfl, hleft⟩
    | _ => cases hlist
  | none =>
    cases hopening : s.opening run.manager with
    | some opening =>
      obtain ⟨hook, event⟩ := opening
      obtain ⟨reading, hreading⟩ := Step.exists_reading hlist hopening
      rw [hreading run rfl, hreading run' (by rw [h.manager])]
      exact h.through hook event _
    | none =>
      cases s with
      | resolve identifier => exact h.resolve identifier
      | outside host => exact ⟨rfl, h.manager, rfl⟩
      | _ => cases hopening

/-- Sessions leave runs that differ in their logs alone so. -/
theorem performAll (h : SameButLog run run') (steps : List (Step ω)) :
    SameButLog (run.performAll steps) (run'.performAll steps) := by
  induction steps generalizing run run' with
  | nil => exact h
  | cons s rest ih =>
    apply ih
    rw [Step.snd_perform, Step.snd_perform]
    exact (h.answer s).2

end SameButLog

end Run

end PluginChain
