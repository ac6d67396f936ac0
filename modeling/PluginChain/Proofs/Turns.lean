import Mathlib.Data.List.Basic
import PluginChain.Proofs.ActiveList
import PluginChain.Proofs.Loading
set_option autoImplicit false

/-!
# Plugins that turn the data of a hook

Where each plugin of a list turns the data of a hook in a way that hangs on its option
alone, and none fails, the hook gives back what these turns come to, one after the other
(`Run.through_of_turns`); and where one plugin refuses its option, the hook fails whatever
the others do (`Run.through_of_refuses`).

A plugin that is passed over counts as one that turns nothing, so `Plugin.Turns` can be
shown of a plugin without asking which hooks it handles.
-/

namespace PluginChain

namespace Plugin

variable {σ ω : Type} {p : Plugin σ ω} {hook : Hook} {option : Json}
  {turn : hook.Data ω → hook.Data ω}

/-- Whether a plugin, under an option, turns the data of a hook in one way and never
fails. -/
structure Turns (p : Plugin σ ω) (hook : Hook) (option : Json)
    (turn : hook.Data ω → hook.Data ω) : Prop where
  called : ∀ scene : Scene σ ω (hook.Data ω), scene.event.option = option →
    (p.handle hook scene).1 = .ok () ∧
      (p.handle hook scene).2.event.data = turn scene.event.data
  /-- Where it does not handle the hook, the data stays as it is. -/
  passed : p.handles hook = false → ∀ data, turn data = data

/-- Whether a plugin handles a hook and always fails under an option. -/
structure Refuses (p : Plugin σ ω) (hook : Hook) (option : Json) : Prop where
  handles : p.handles hook = true
  called : ∀ scene : Scene σ ω (hook.Data ω), scene.event.option = option →
    ∃ f, (p.handle hook scene).1 = .error f

/-- A handler that does nothing turns nothing. -/
theorem turns_of_skip (h : p.handle hook = Handler.skip) (option : Json) :
    p.Turns hook option id := by
  refine ⟨fun scene _ => ?_, fun _ _ => rfl⟩
  rw [h]
  exact ⟨rfl, rfl⟩

end Plugin

namespace Stage

variable {σ ω : Type} {hook : Hook} {entry : PluginEntry} {entries : List PluginEntry}
  {st : Stage σ ω (hook.Data ω)} {i : Instance σ ω}

/-- An entry for which a call is made answers as that call does. -/
theorem fst_visit_of_call {position : Nat} {c : Call σ ω (hook.Data ω)}
    (hcall : st.call? hook (fun p => p.handle hook) position entry = some c) :
    (visit hook (fun p => p.handle hook) entry st).1 =
      match c.result with
      | .ok () => .ok true
      | .error f => .error (handlerFault hook entry f) := by
  have hout := outcome_of_call hcall
  generalize (visit hook (fun p => p.handle hook) entry st).1 = answer at hout ⊢
  cases hout with
  | called hresult _ => rw [hresult]
  | failed hresult _ => rw [hresult]

/-- An entry whose plugin does not handle the hook does not fail. -/
theorem fst_visit_of_passed (hi : st.resolver.instance? entry.name = some i)
    (hpassed : i.plugin.handles hook = false) :
    (visit hook (fun p => p.handle hook) entry st).1 = .ok false := by
  obtain ⟨host, hresolve, -⟩ := Resolver.resolve_of_some hi st.host
  rw [visit, hresolve]
  simp only [hpassed, Bool.false_eq_true, if_false]

/-- The call that is made for an entry is that of the instance that it stands for, under
its option and with the data as it is. -/
theorem handle_of_call {position : Nat} {c : Call σ ω (hook.Data ω)}
    (hi : st.resolver.instance? entry.name = some i)
    (hcall : st.call? hook (fun p => p.handle hook) position entry = some c) :
    (c.result, c.after) = i.plugin.handle hook c.before ∧
      c.before.event.option = entry.option ∧ c.before.event.data = st.event.data := by
  obtain ⟨htarget, -, -, -, hbefore, hanswer⟩ := call?_eq_some_iff.mp hcall
  obtain rfl := Option.some.inj (hi.symm.trans htarget)
  refine ⟨hanswer, ?_, ?_⟩
  · rw [hbefore, Event.option_setOption]
  · rw [hbefore, Event.data_setOption]

/-- An entry whose plugin turns the data does not fail, and leaves the data turned. -/
theorem visit_of_turns {turn : hook.Data ω → hook.Data ω}
    (hi : st.resolver.instance? entry.name = some i)
    (hturns : i.plugin.Turns hook entry.option turn) :
    (∃ called, (visit hook (fun p => p.handle hook) entry st).1 = .ok called) ∧
      (visit hook (fun p => p.handle hook) entry st).2.event.data = turn st.event.data := by
  have hevent := (outcome_of_visit hook (fun p => p.handle hook) 0 entry st).event_next
  cases hcall : st.call? hook (fun p => p.handle hook) 0 entry with
  | none =>
    have hpassed := call?_eq_none_iff.mp hcall i hi
    rw [hcall] at hevent
    rw [fst_visit_of_passed hi hpassed, hevent]
    exact ⟨⟨false, rfl⟩, (hturns.passed hpassed _).symm⟩
  | some c =>
    obtain ⟨hanswer, hoption, hdata⟩ := handle_of_call hi hcall
    have hcalled := hturns.called c.before hoption
    rw [← hanswer, hdata] at hcalled
    obtain ⟨hresult, hturned⟩ : c.result = .ok () ∧ c.after.event.data = turn st.event.data :=
      hcalled
    rw [hcall] at hevent
    rw [fst_visit_of_call hcall, hresult, hevent]
    exact ⟨⟨true, rfl⟩, hturned⟩

/-- An entry whose plugin refuses its option fails. -/
theorem visit_of_refuses (hi : st.resolver.instance? entry.name = some i)
    (hrefuses : i.plugin.Refuses hook entry.option) :
    ∃ f, (visit hook (fun p => p.handle hook) entry st).1 = .error f := by
  cases hcall : st.call? hook (fun p => p.handle hook) 0 entry with
  | none =>
    have hpassed := call?_eq_none_iff.mp hcall i hi
    rw [hrefuses.handles] at hpassed
    cases hpassed
  | some c =>
    obtain ⟨hanswer, hoption, -⟩ := handle_of_call hi hcall
    obtain ⟨f, hcalled⟩ := hrefuses.called c.before hoption
    rw [← hanswer] at hcalled
    have hresult : c.result = .error f := hcalled
    rw [fst_visit_of_call hcall, hresult]
    exact ⟨_, rfl⟩

/-- A list whose plugins all turn the data does not fail, and leaves the data as their
turns do, one after the other. -/
theorem visitAll_of_turns (calls : Nat) (st : Stage σ ω (hook.Data ω))
    {turn : PluginEntry → hook.Data ω → hook.Data ω}
    (h : ∀ e ∈ entries, ∃ i, st.resolver.instance? e.name = some i ∧
      i.plugin.Turns hook e.option (turn e)) :
    (∃ n, (visitAll hook (fun p => p.handle hook) entries calls st).1 = .ok n) ∧
      (visitAll hook (fun p => p.handle hook) entries calls st).2.event.data =
        entries.foldl (fun data e => turn e data) st.event.data := by
  induction entries generalizing calls st with
  | nil => exact ⟨⟨calls, rfl⟩, rfl⟩
  | cons entry rest ih =>
    obtain ⟨⟨i, hi, hturns⟩, hrest⟩ := List.forall_mem_cons.mp h
    obtain ⟨⟨called, hanswer⟩, hdata⟩ := visit_of_turns hi hturns
    have hout := outcome_of_visit hook (fun p => p.handle hook) 0 entry st
    rw [visitAll_of_ok hanswer, List.foldl_cons, ← hdata]
    apply ih
    intro e he
    rw [hout.instance?_next]
    exact hrest e he

/-- A list fails where the plugin of one of its entries refuses its option. -/
theorem visitAll_of_refuses (calls : Nat) (st : Stage σ ω (hook.Data ω))
    (h : ∃ e ∈ entries, ∃ i, st.resolver.instance? e.name = some i ∧
      i.plugin.Refuses hook e.option) :
    ∃ f, (visitAll hook (fun p => p.handle hook) entries calls st).1 = .error f := by
  induction entries generalizing calls st with
  | nil =>
    obtain ⟨e, he, -⟩ := h
    cases he
  | cons entry rest ih =>
    cases hanswer : (visit hook (fun p => p.handle hook) entry st).1 with
    | error f =>
      rw [visitAll_of_error hanswer]
      exact ⟨f, rfl⟩
    | ok called =>
      have hout := outcome_of_visit hook (fun p => p.handle hook) 0 entry st
      rw [visitAll_of_ok hanswer]
      apply ih
      obtain ⟨e, he, i, hi, hrefuses⟩ := h
      rcases List.mem_cons.mp he with rfl | hlater
      · -- The entry itself has not failed, so it is not the one that refuses.
        obtain ⟨f, hfails⟩ := visit_of_refuses hi hrefuses
        rw [hanswer] at hfails
        cases hfails
      · rw [← hout.instance?_next e.name] at hi
        exact ⟨e, hlater, i, hi, hrefuses⟩

end Stage

namespace Run

variable {σ ω α : Type} {run : Run σ ω} {hook : Hook} {entries : List PluginEntry}

/-- A dispatch over plugins that turn the data leaves it as their turns do. -/
theorem pass_of_turns {turn : PluginEntry → hook.Data ω → hook.Data ω}
    (h : ∀ e ∈ entries, ∃ i, run.manager.resolver.instance? e.name = some i ∧
      i.plugin.Turns hook e.option (turn e)) (event : Event (hook.Data ω)) :
    (∃ n, (run.pass hook entries event).1 = .ok n) ∧
      (run.pass hook entries event).2.event.data =
        entries.foldl (fun data e => turn e data) event.data := by
  obtain ⟨hanswer, halike⟩ :=
    Stage.dispatch_alike entries hook (fun p => p.handle hook) (run.stage event)
  obtain ⟨⟨n, hok⟩, hdata⟩ := Stage.visitAll_of_turns 0 (run.stage event) h
  exact ⟨⟨n, hanswer.trans hok⟩, halike.data.trans hdata⟩

/-- A hook whose plugins turn the data gives back what is taken from the turned data. -/
theorem through_of_turns {turn : PluginEntry → hook.Data ω → hook.Data ω}
    (h : ∀ e ∈ run.manager.plugins, ∃ i, run.manager.resolver.instance? e.name = some i ∧
      i.plugin.Turns hook e.option (turn e))
    (event : Event (hook.Data ω)) (take : hook.Data ω → Except Fault α) :
    (run.through hook (.ok event) fun event => take event.data).1 =
      take (run.manager.plugins.foldl (fun data e => turn e data) event.data) := by
  obtain ⟨⟨n, hanswer⟩, hdata⟩ := pass_of_turns h event
  rw [fst_through_ok, hanswer, hdata]

/-- A hook fails where a plugin refuses its option. -/
theorem through_of_refuses
    (h : ∃ e ∈ run.manager.plugins, ∃ i, run.manager.resolver.instance? e.name = some i ∧
      i.plugin.Refuses hook e.option)
    (event : Event (hook.Data ω)) (result : Event (hook.Data ω) → Except Fault α) :
    ∃ f, (run.through hook (.ok event) result).1 = .error f := by
  obtain ⟨hanswer, -⟩ :=
    Stage.dispatch_alike run.manager.plugins hook (fun p => p.handle hook) (run.stage event)
  obtain ⟨f, herror⟩ := Stage.visitAll_of_refuses 0 (run.stage event) h
  refine ⟨f, ?_⟩
  rw [fst_through_ok, pass, hanswer, herror]

/-- A hook whose plugins turn nothing gives back what is taken from the data it was given. -/
theorem through_of_untouched
    (h : ∀ e ∈ run.manager.plugins, ∃ i, run.manager.resolver.instance? e.name = some i ∧
      i.plugin.Turns hook e.option id)
    (event : Event (hook.Data ω)) (take : hook.Data ω → Except Fault α) :
    (run.through hook (.ok event) fun event => take event.data).1 = take event.data :=
  (through_of_turns h event take).trans
    (congrArg take (List.foldl_fixed run.manager.plugins))

/-- The hook for rendered files is taken with the file as it is. -/
theorem handleContent_eq (content fileName : String) (run : Run σ ω) :
    run.handleContent content fileName =
      run.through .content (.ok (.assigned { content, fileName }))
        fun event => .ok event.data.content :=
  congrArg (fun event => run.through .content event _)
    (ContentData.copied_toSerial { content, fileName })

/-- The hook for documentation records is taken with the records as they are. -/
theorem handleDocs_eq (docs : List Json) (run : Run σ ω) :
    run.handleDocs docs =
      run.through .docs (.ok (.assigned { docs })) fun event => .ok event.data.docs :=
  congrArg (fun event => run.through .docs event _) (DocsData.copied_toSerial { docs })

/-- The plugin-list hook gives back a list of which no plugin turns the data, and makes it
the active one. -/
theorem handlePlugins_of_untouched {plugins : List PluginEntry}
    (h : ∀ e ∈ plugins, ∃ i, run.manager.resolver.instance? e.name = some i ∧
      i.plugin.Turns .plugins e.option id) :
    (run.handlePlugins plugins).1 = .ok plugins ∧
      (run.handlePlugins plugins).2.manager.plugins = plugins ∧
      (run.handlePlugins plugins).2.manager.resolver = (run.listPass plugins).2.resolver := by
  obtain ⟨⟨n, hanswer⟩, hdata⟩ := pass_of_turns h (listEvent plugins)
  have hkept : listLeft (run.listPass plugins).2.event = plugins :=
    congrArg PluginsData.plugins (hdata.trans (List.foldl_fixed plugins))
  obtain ⟨host, -, hhandle⟩ := handlePlugins_of_ok hanswer
  rw [hhandle, hkept]
  exact ⟨rfl, rfl, rfl⟩

end Run

end PluginChain
