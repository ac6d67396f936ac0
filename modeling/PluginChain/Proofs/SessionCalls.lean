import PluginChain.Proofs.Answers
import PluginChain.Proofs.CallOrder
set_option autoImplicit false

/-!
# The calls of a session and its log

`Run.sessionCalls` lists the calls of a whole session.  Resolver, dispatcher and manager
write records of their own into the log; all others in it were written by calls, in the
order of the calls (`Run.records_performAll`).  The step lemma is that for one entry
(`Stage.records_visit`): a handler works on an empty log, which is then added to that of
the host.
-/

namespace PluginChain

/-- A call with the hook that it is made for. -/
abbrev HookCall (σ ω : Type) := (hook : Hook) × Call σ ω (hook.Data ω)

/-- The parts of the program that write records while they make calls. -/
def LogSource.ofChain : List LogSource := [.resolver, .dispatcher, .manager]

namespace Host

variable {ω : Type} {source : LogSource}

/-- The records of one part of the program, in order. -/
def recordsOf (source : LogSource) (h : Host ω) : List LogRecord :=
  h.log.filter fun r => r.source = source

theorem recordsOf_note {r : LogRecord} (hr : r.source ≠ source) (h : Host ω) :
    (h.note r).recordsOf source = h.recordsOf source := by
  simp [recordsOf, hr]

/-- A log that is added to that of a host adds its records. -/
theorem recordsOf_append (h : Host ω) (log : List LogRecord) :
    ({ h with log := log ++ h.log } : Host ω).recordsOf source =
      (log.filter fun r => r.source = source) ++ h.recordsOf source :=
  List.filter_append log h.log

end Host

variable {σ ω : Type} {source : LogSource}

/-- A resolution adds to the records of resolvers alone. -/
theorem Resolver.records_resolve (hsource : source ∉ LogSource.ofChain) (r : Resolver σ ω)
    (identifier : String) (h : Host ω) :
    (r.resolve identifier h).2.2.recordsOf source = h.recordsOf source := by
  have hne : LogSource.resolver ≠ source := fun heq => hsource (heq ▸ .head _)
  unfold resolve
  split
  · rfl
  · split
    · exact (Host.recordsOf_note hne _).trans (Host.recordsOf_note hne h)
    · exact Host.recordsOf_note hne h

namespace Stage

variable {D : Type}

/-- The records that some calls have written. -/
def writtenBy (source : LogSource) (calls : List (Call σ ω D)) : List LogRecord :=
  calls.flatMap fun c => c.after.host.recordsOf source

theorem writtenBy_append (a b : List (Call σ ω D)) :
    writtenBy source (a ++ b) = writtenBy source a ++ writtenBy source b :=
  List.flatMap_append

variable {hook : Hook} {handler : Plugin σ ω → Handler σ ω D}

/-- An entry adds the records of its call. -/
theorem records_visit (hsource : source ∉ LogSource.ofChain) (position : Nat)
    (entry : PluginEntry) (st : Stage σ ω D) :
    (visit hook handler entry st).2.host.recordsOf source =
      st.host.recordsOf source ++
        writtenBy source (st.call? hook handler position entry).toList := by
  have hne : LogSource.dispatcher ≠ source := fun heq => hsource (heq ▸ .tail _ (.head _))
  have hresolve := st.resolver.records_resolve hsource entry.name st.host
  cases hc : st.call? hook handler position entry with
  | none =>
    rw [Option.toList_none, writtenBy, List.flatMap_nil, List.append_nil, ← hresolve]
    cases hi : st.resolver.instance? entry.name with
    | none =>
      obtain ⟨host, hr, -⟩ := Resolver.resolve_of_none hi st.host
      rw [visit, hr]
    | some i =>
      have hh := call?_eq_none_iff.mp hc i hi
      obtain ⟨host, hr, -⟩ := Resolver.resolve_of_some hi st.host
      rw [visit, hr]
      simp only [hh, Bool.false_eq_true, if_false]
  | some c =>
    obtain ⟨hi, hh, -, -, hbefore, hcall⟩ := call?_eq_some_iff.mp hc
    obtain ⟨host, hr, hquiet⟩ := Resolver.resolve_of_some hi st.host
    have hscene : handler c.target.plugin
        ⟨(st.resolver.settled entry.name).stateOf c.target, st.event.setOption entry.option,
          { host with log := [] }⟩ = (c.result, c.after) := by
      rw [hcall, hbefore, Resolver.stateOf_settled, ← hquiet]
      rfl
    rw [hr] at hresolve
    -- The record about the call is the dispatcher's, so what is left is the handler's.
    have hlog : ((host.log ++ [LogRecord.debug .dispatcher "Invoking plugin handler"
          [("hook", .str hook.name), ("plugin", .str entry.name)]]).filter
            fun r => r.source = source) = st.host.recordsOf source :=
      (Host.recordsOf_note hne host).trans hresolve
    rw [visit, hr]
    simp only [hh, if_true, note, Stage.call, Host.note, hscene, Option.toList_some, writtenBy,
      List.flatMap_singleton]
    cases hresult : c.result with
    | ok _ =>
      rw [← hlog]
      exact Host.recordsOf_append c.after.host _
    | error f =>
      rw [← hlog]
      exact (Host.recordsOf_note hne _).trans (Host.recordsOf_append c.after.host _)

/-- A list of entries adds the records of its calls. -/
theorem records_visitAll (hsource : source ∉ LogSource.ofChain) (entries : List PluginEntry)
    (position calls : Nat) (st : Stage σ ω D) :
    (visitAll hook handler entries calls st).2.host.recordsOf source =
      st.host.recordsOf source ++
        writtenBy source (callsFrom hook handler position entries st) := by
  induction entries generalizing position calls st with
  | nil => exact (List.append_nil _).symm
  | cons entry rest ih =>
    have hentry : (visit hook handler entry st).2.host.recordsOf source = _ :=
      records_visit hsource position entry st
    cases hv : (visit hook handler entry st).1 with
    | error f =>
      rw [visitAll_of_error hv, callsFrom_of_error hv]
      exact hentry
    | ok called =>
      rw [visitAll_of_ok hv, callsFrom_of_ok hv, ih (position + 1), hentry, writtenBy_append,
        List.append_assoc]

/-- A dispatch adds the records of its calls. -/
theorem records_dispatch (hsource : source ∉ LogSource.ofChain) (entries : List PluginEntry)
    (hook : Hook) (handler : Plugin σ ω → Handler σ ω D) (st : Stage σ ω D) :
    (st.dispatch entries hook handler).2.host.recordsOf source =
      st.host.recordsOf source ++ writtenBy source (st.calls entries hook handler) := by
  have hne : LogSource.dispatcher ≠ source := fun heq => hsource (heq ▸ .tail _ (.head _))
  rw [dispatch, records_visitAll hsource entries 0, calls_note]
  exact congrArg (· ++ _) (Host.recordsOf_note hne st.host)

end Stage

/-- The plugin-list hook adds to the records of its dispatch those of managers alone. -/
theorem Run.records_handlePlugins (hsource : source ∉ LogSource.ofChain)
    (plugins : List PluginEntry) (run : Run σ ω) :
    (run.handlePlugins plugins).2.host.recordsOf source =
      (run.listPass plugins).2.host.recordsOf source := by
  have hne : LogSource.manager ≠ source :=
    fun heq => hsource (heq ▸ .tail _ (.tail _ (.head _)))
  rw [handlePlugins_eq, through_listed]
  rcases run.listPass plugins with ⟨f | n, st⟩
  · rfl
  · dsimp only [settleList, withPlugins, leftBy]
    split
    · rfl
    · exact Host.recordsOf_note hne st.host

namespace Step

variable {s : Step ω} {run : Run σ ω}

/-- The hook that a step takes. -/
def hook? : Step ω → Option Hook
  | init _ | handlePlugins _ => some .plugins
  | start => some .start
  | config _ _ => some .config
  | code _ _ => some .code
  | codeParser _ _ _ _ => some .codeParser
  | docClass _ _ => some .docClass
  | ast _ _ _ => some .ast
  | docs _ => some .docs
  | publish _ _ _ => some .publish
  | content _ _ => some .content
  | complete => some .complete
  | resolve _ | outside _ => none

theorem hook?_eq_opening (s : Step ω) (m : Manager σ ω) :
    s.hook? = (s.opening m).map (·.1) := by
  cases s <;> rfl

/-- A change of the host by others. -/
def IsOutside : Step ω → Prop
  | outside _ => True
  | _ => False

/-- The records that the calls of hooks have written. -/
def writtenBy (source : LogSource) (calls : List (HookCall σ ω)) :
    List LogRecord :=
  calls.flatMap fun c => c.2.after.host.recordsOf source

theorem writtenBy_append (a b : List (HookCall σ ω)) :
    writtenBy source (a ++ b) = writtenBy source a ++ writtenBy source b :=
  List.flatMap_append

/-- The dispatch of a step adds the records of its calls. -/
theorem records_pass (hsource : source ∉ LogSource.ofChain) {hook : Hook}
    {event : Event (hook.Data ω)} (hopening : s.opening run.manager = some ⟨hook, .ok event⟩) :
    (s.pass run event).2.host.recordsOf source =
      run.host.recordsOf source ++ writtenBy source (s.calls run) := by
  rw [calls_of_opening hopening, writtenBy, List.flatMap_map]
  exact Stage.records_dispatch hsource _ hook _ (run.stage event)

/-- A step adds the records of its calls, unless others change the host. -/
theorem records_perform (hsource : source ∉ LogSource.ofChain) (houtside : ¬ s.IsOutside)
    (run : Run σ ω) :
    (s.perform run).2.host.recordsOf source =
      run.host.recordsOf source ++ writtenBy source (s.calls run) := by
  cases hlist : s.list? with
  | some plugins =>
    have hpass : s.pass run (Run.listEvent plugins) = run.listPass plugins := by
      rw [pass, hlist]
      rfl
    have hdiscard : (s.perform run).2 = (run.handlePlugins plugins).2 := by
      rw [perform_of_list hlist, Operation.discard, Operation.andThen]
      rcases run.handlePlugins plugins with ⟨_ | _, _⟩ <;> rfl
    rw [hdiscard, Run.records_handlePlugins hsource, ← hpass]
    exact records_pass hsource (opening_of_list hlist run.manager)
  | none =>
    cases hopening : s.opening run.manager with
    | some opening =>
      obtain ⟨hook, f | event⟩ := opening
      · rw [perform_of_refused hopening, calls_of_refused hopening]
        exact (List.append_nil _).symm
      · obtain ⟨reading, hreading⟩ := exists_reading (σ := σ) hlist hopening
        have hpass : s.pass run event = run.pass hook run.manager.plugins event := by
          rw [pass, hlist]
          rfl
        rw [snd_perform, hreading run rfl, Run.snd_through_ok, ← hpass]
        exact records_pass hsource hopening
    | none =>
      have hcalls : s.calls run = [] := by rw [calls, hopening]
      rw [hcalls]
      cases s with
      | resolve identifier =>
        rw [snd_perform]
        exact (run.manager.resolver.records_resolve hsource identifier run.host).trans
          (List.append_nil _).symm
      | outside host => exact absurd trivial houtside
      | _ => cases hopening

end Step

namespace Run

/-- The calls of a hook over the active list. -/
def hookCalls (run : Run σ ω) (hook : Hook) (event : Event (hook.Data ω)) :
    List (Call σ ω (hook.Data ω)) :=
  (run.stage event).calls run.manager.plugins hook fun p => p.handle hook

/-- The calls of a session, in order. -/
def sessionCalls : List (Step ω) → Run σ ω → List (HookCall σ ω)
  | [], _ => []
  | s :: rest, run => s.calls run ++ sessionCalls rest (s.perform run).2

theorem sessionCalls_append (before after : List (Step ω)) (run : Run σ ω) :
    run.sessionCalls (before ++ after) =
      run.sessionCalls before ++ (run.performAll before).sessionCalls after := by
  induction before generalizing run with
  | nil => rfl
  | cons s rest ih =>
    rw [List.cons_append, sessionCalls, sessionCalls, ih, List.append_assoc]
    rfl

theorem sessionCalls_snoc (steps : List (Step ω)) (s : Step ω) (run : Run σ ω) :
    run.sessionCalls (steps ++ [s]) =
      run.sessionCalls steps ++ s.calls (run.performAll steps) := by
  rw [sessionCalls_append, sessionCalls, sessionCalls, List.append_nil]

/-- A call of a session is one of a step, behind the calls of the steps before it. -/
theorem sessionCalls_split {steps : List (Step ω)} {run : Run σ ω}
    {earlier later : List (HookCall σ ω)} {c : HookCall σ ω}
    (h : run.sessionCalls steps = earlier ++ c :: later) :
    ∃ before s after inner rest, steps = before ++ s :: after ∧
      earlier = run.sessionCalls before ++ inner ∧
      s.calls (run.performAll before) = inner ++ c :: rest := by
  induction steps generalizing run earlier with
  | nil =>
    rw [sessionCalls] at h
    exact absurd h.symm (by simp)
  | cons s steps ih =>
    have hlater {behind : List (HookCall σ ω)} (hearlier : earlier = s.calls run ++ behind)
        (hrest : (s.perform run).2.sessionCalls steps = behind ++ c :: later) :
        ∃ before t after inner rest, s :: steps = before ++ t :: after ∧
          earlier = run.sessionCalls before ++ inner ∧
          t.calls (run.performAll before) = inner ++ c :: rest := by
      obtain ⟨before, t, after, inner, rest, rfl, rfl, hcalls⟩ := ih hrest
      refine ⟨s :: before, t, after, inner, rest, rfl, ?_, hcalls⟩
      rw [hearlier, sessionCalls, List.append_assoc]
    rw [sessionCalls, List.append_eq_append_iff] at h
    obtain ⟨behind, hearlier, hrest⟩ | ⟨behind, hcalls, hbehind⟩ := h
    · exact hlater hearlier hrest
    · rcases List.cons_eq_append_iff.mp hbehind with ⟨rfl, hrest⟩ | ⟨inner, rfl, -⟩
      · rw [List.append_nil] at hcalls
        exact hlater (by rw [hcalls, List.append_nil]) hrest
      · exact ⟨[], s, steps, earlier, inner, rfl, rfl, hcalls⟩

/-- A session that others do not disturb adds the records of its calls to the log. -/
theorem records_performAll (hsource : source ∉ LogSource.ofChain) {steps : List (Step ω)}
    (houtside : ∀ s ∈ steps, ¬ s.IsOutside) (run : Run σ ω) :
    (run.performAll steps).host.recordsOf source =
      run.host.recordsOf source ++ Step.writtenBy source (run.sessionCalls steps) := by
  induction steps generalizing run with
  | nil => exact (List.append_nil _).symm
  | cons s rest ih =>
    obtain ⟨hs, hrest⟩ := List.forall_mem_cons.mp houtside
    rw [performAll_cons, ih hrest, Step.records_perform hsource hs, sessionCalls,
      Step.writtenBy_append, List.append_assoc]

end Run

end PluginChain
