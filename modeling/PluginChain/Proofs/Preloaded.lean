import PluginChain.Proofs.Answers
import PluginChain.Proofs.Loading
set_option autoImplicit false

/-!
# Lists that are loaded from the start

The plugin-list hook resolves every entry of the list that it is given, also those
whose plugins do not handle it, and nothing that was loaded is forgotten.  So a run
that has begun with a list can fail to resolve an identifier later only where its
plugins have put a new one into the active list, and without a new one it loads nothing
more (`Run.resolved_by_init`).

A resolution fault reaches the caller of a hook from the dispatcher alone: that of a
handler is wrapped, and an event that is refused or does not fit at the end gives a
fault of another kind.
-/

namespace PluginChain

open Resolver (SameLoaded)

namespace Stage

variable {σ ω D : Type} {hook : Hook} {handler : Plugin σ ω → Handler σ ω D}
  {entry : PluginEntry} {entries : List PluginEntry} {calls : Nat} {st : Stage σ ω D}

/-- An entry keeps the library directory. -/
theorem localDir_visit (hook : Hook) (handler : Plugin σ ω → Handler σ ω D)
    (entry : PluginEntry) (st : Stage σ ω D) :
    (visit hook handler entry st).2.resolver.localDir = st.resolver.localDir := by
  have hout := outcome_of_visit hook handler 0 entry st
  generalize st.call? hook handler 0 entry = call at hout
  generalize (visit hook handler entry st).1 = answer at hout
  cases hout with
  | unresolved _ same => rw [same.resolver]
  | passed _ _ same => rw [same.resolver, passedOver, Resolver.localDir_settled]
  | @called c _ _ same | @failed c _ _ _ same =>
    rw [same.resolver, leftBy]
    exact Resolver.localDir_settled st.resolver c.entry.name

/-- A list that fails with a resolution fault has an entry that stands for no instance,
and the fault is that of its identifier. -/
theorem exists_unresolved_of_error {f : Fault}
    (h : (visitAll hook handler entries calls st).1 = .error f) (hkind : f.kind = .resolution) :
    ∃ e ∈ entries, st.resolver.instance? e.name = none ∧
      ∃ files, f = (st.resolver.missing files e.name).fault := by
  induction entries generalizing calls st with
  | nil => cases h
  | cons entry rest ih =>
    have hout := outcome_of_visit hook handler 0 entry st
    cases hv : (visit hook handler entry st).1 with
    | error g =>
      rw [visitAll_of_error hv] at h
      obtain rfl := Except.error.inj h
      rw [hv] at hout
      generalize st.call? hook handler 0 entry = call at hout
      cases hout with
      | unresolved hi _ => exact ⟨entry, List.mem_cons_self, hi, st.host.files, rfl⟩
      | failed _ _ => cases hkind
    | ok called =>
      rw [visitAll_of_ok hv] at h
      obtain ⟨e, he, hi, files, hf⟩ := ih h
      rw [hout.instance?_next] at hi
      refine ⟨e, List.mem_cons_of_mem entry he, hi, files, hf.trans ?_⟩
      rw [Resolver.missing_congr (localDir_visit hook handler entry st) rfl]

/-- A list of which every entry is loaded leaves the registry and the cache as they
were. -/
theorem sameLoaded_dispatch (h : ∀ e ∈ entries, st.resolver.isLoaded e.name = true) :
    SameLoaded st.resolver (st.dispatch entries hook handler).2.resolver := by
  apply (leads_dispatch entries hook handler st).sameLoaded
  intro q hq
  have hnames := prefix_identifiers hook handler entries st
  obtain ⟨e, he, hname⟩ :=
    List.mem_map.mp (hnames.subset (List.mem_map_of_mem hq))
  rw [← hname]
  exact h e he

end Stage

namespace Step

variable {σ ω : Type} {s : Step ω} {run : Run σ ω}

/-- No event is refused with a resolution fault. -/
theorem kind_ne_of_refused {m : Manager σ ω} {hook : Hook}
    {event : Except Fault (Event (hook.Data ω))} (hopening : s.opening m = some ⟨hook, event⟩)
    {f : Fault} (h : event = .error f) : f.kind ≠ .resolution := by
  cases s with
  | init | handlePlugins | config | docs | content =>
    cases hopening
    rw [Event.kind_of_copied_error h]
    exact FaultKind.noConfusion
  | docClass kind factory =>
    cases hopening
    unfold docClassEvent at h
    cases hm : m.capabilities with
    | none =>
      rw [hm] at h
      cases h
      exact FaultKind.noConfusion
    | some parsers =>
      rw [hm] at h
      cases h
  | start | code | codeParser | ast | publish | complete =>
    cases hopening
    cases h
  | resolve | outside => cases hopening

/-- A hook over the active list that answers with a resolution fault has met an entry that
stands for no instance. -/
theorem exists_unresolved_of_answer (hlist : s.list? = none) (hdirect : s.direct? = none)
    {f : Fault} (h : (s.answer run).1 = .error f) (hkind : f.kind = .resolution) :
    ∃ e ∈ run.manager.plugins, run.manager.resolver.instance? e.name = none ∧
      ∃ files, f = (run.manager.resolver.missing files e.name).fault := by
  cases hopening : s.opening run.manager with
  | none =>
    cases s with
    | outside => cases h
    | resolve => cases hdirect
    | _ => cases hopening
  | some opening =>
    obtain ⟨hook, event⟩ := opening
    obtain ⟨reading, hreading⟩ := exists_reading hlist hopening
    rw [hreading run rfl] at h
    cases event with
    | error g =>
      obtain rfl := Except.error.inj h
      exact absurd hkind (kind_ne_of_refused hopening rfl)
    | ok event =>
      have hdispatch := (Stage.dispatch_alike run.manager.plugins hook
        (fun p => p.handle hook) (run.stage event)).1
      rw [Run.fst_through_ok] at h
      cases hpass : (run.pass hook run.manager.plugins event).1 with
      | error g =>
        rw [hpass] at h
        obtain rfl := Except.error.inj h
        exact Stage.exists_unresolved_of_error (hdispatch.symm.trans hpass) hkind
      | ok n =>
        rw [hpass] at h
        dsimp only at h
        cases hread : reading (run.pass hook run.manager.plugins event).2.event with
        | error mismatch =>
          rw [hread] at h
          obtain rfl := Except.error.inj h
          cases hkind
        | ok value =>
          rw [hread] at h
          cases h

/-- A hook over an active list of which every entry is loaded leaves the registry and the
cache as they were. -/
theorem sameLoaded_answer (hlist : s.list? = none) (hdirect : s.direct? = none)
    (h : ∀ e ∈ run.manager.plugins, run.manager.resolver.isLoaded e.name = true) :
    SameLoaded run.manager.resolver (s.answer run).2.manager.resolver := by
  rw [← snd_perform]
  cases hopening : s.opening run.manager with
  | none =>
    cases s with
    | outside => exact .refl _
    | resolve => cases hdirect
    | _ => cases hopening
  | some opening =>
    obtain ⟨hook, event⟩ := opening
    cases event with
    | error f =>
      rw [perform_of_refused hopening]
      exact .refl _
    | ok event =>
      obtain ⟨hresolver, -, -⟩ := leaves_of_opening hopening
      have hsame : SameLoaded (run.stage event).resolver
          ((run.stage event).dispatch run.manager.plugins hook fun p => p.handle hook).2.resolver :=
        Stage.sameLoaded_dispatch h
      rwa [hresolver, pass, hlist]

end Step

namespace Run

variable {σ ω : Type} {run : Run σ ω} {plugins : List PluginEntry}

/-- A list with which a run has begun is loaded. -/
theorem isLoaded_of_init (h : (run.init plugins).1 = .ok ()) :
    ∀ given ∈ plugins, (run.init plugins).2.manager.resolver.isLoaded given.name = true := by
  intro given hgiven
  cases hpass : (run.listPass plugins).1 with
  | error f =>
    have hperform : run.init plugins = _ := Step.perform_of_listPass_error
      (s := Step.init plugins) rfl hpass
    rw [hperform] at h
    cases h
  | ok n =>
    obtain ⟨host, -, hperform⟩ := Step.perform_of_listPass_ok (s := Step.init plugins) rfl hpass
    have hresolver : (run.init plugins).2.manager.resolver = (run.listPass plugins).2.resolver :=
      congrArg (fun answer => answer.2.manager.resolver) hperform
    obtain ⟨hanswer, halike⟩ := Stage.dispatch_alike plugins .plugins
      (fun p => p.handle .plugins) (run.stage (listEvent plugins))
    rw [hresolver, listPass, pass, halike.resolver]
    exact Stage.isLoaded_of_visitAll_ok (hanswer.symm.trans hpass) given hgiven

/-- Take a run that has begun with a list, and any later session that does not take the
plugin-list hook, with changes of the host by others in between.  A hook of it answers
with a resolution fault only for an identifier that the plugins have put into the active
list: no entry of the given list has it, and it was not resolved before.  And if the
active list has no new identifier, no hook adds to the cache or to the calls of a
factory. -/
theorem resolved_by_init (run : Run σ ω) (plugins : List PluginEntry)
    (hinit : (run.init plugins).1 = .ok ()) (steps : List (Step ω))
    (hsteps : ∀ s ∈ steps, s.list? = none) :
    let begun := (run.init plugins).2
    ∀ before s after, steps = before ++ s :: after → s.direct? = none →
      let now := begun.performAll before
      (∀ f, (s.answer now).1 = .error f → f.kind = .resolution →
        ∃ e ∈ begun.manager.plugins, (∀ given ∈ plugins, given.name ≠ e.name) ∧
          now.manager.resolver.isLoaded e.name = false ∧
          ∃ files, f = (now.manager.resolver.missing files e.name).fault) ∧
      ((∀ e ∈ begun.manager.plugins, ∃ given ∈ plugins, given.name = e.name) →
        (s.answer now).2.manager.resolver.cache = now.manager.resolver.cache ∧
          (s.answer now).2.manager.resolver.registry = now.manager.resolver.registry) := by
  rintro begun before s after rfl hdirect now
  have hlist : s.list? = none := hsteps s (by simp)
  have hplugins : now.manager.plugins = begun.manager.plugins :=
    plugins_performAll (fun t ht => hsteps t (by simp [ht])) begun
  -- What was resolved for the given list is there for good.
  have hloaded : ∀ given ∈ plugins, now.manager.resolver.isLoaded given.name = true := by
    intro given hgiven
    exact (leads_performAll before begun).isLoaded_of_isLoaded (isLoaded_of_init hinit given hgiven)
  refine ⟨fun f hf hkind => ?_, fun hknown => ?_⟩
  · obtain ⟨e, he, hi, files, hfault⟩ := Step.exists_unresolved_of_answer hlist hdirect hf hkind
    have hnot : now.manager.resolver.isLoaded e.name = false := by
      rw [Bool.eq_false_iff]
      intro hl
      exact Resolver.instance?_ne_none_of_isLoaded hl hi
    refine ⟨e, hplugins ▸ he, fun given hgiven hname => ?_, hnot, files, hfault⟩
    have := hloaded given hgiven
    rw [hname, hnot] at this
    cases this
  · have hsame : SameLoaded now.manager.resolver (s.answer now).2.manager.resolver := by
      apply Step.sameLoaded_answer hlist hdirect
      intro e he
      rw [hplugins] at he
      obtain ⟨given, hgiven, hname⟩ := hknown e he
      rw [← hname]
      exact hloaded given hgiven
    exact ⟨hsame.cache.symm, hsame.registry.symm⟩

end Run

/-- A plugin that puts another one into the active list. -/
def Plugin.recruiting : Plugin Nat Unit where
  name := "recruiting"
  hooks := [.plugins]
  handle
    | .plugins => fun scene =>
      let plugins := PluginsData.plugins scene.event.data ++ [⟨"recruit", .null⟩]
      (.ok (), { scene with event := { scene.event with data := PluginsData.mk plugins } })
    | _ => .skip

namespace Run

/-- A run with a plugin that recruits another one, of which nothing is known. -/
def recruited : Run Nat Unit where
  manager :=
    { resolver :=
        { registry := { entries := [("recruiting", .shared ⟨.given 0, .recruiting, 0⟩)] } } }
  host := { memory := () }

/-- A hook fails to resolve a recruit, which was not in the list that the run began with. -/
theorem resolved_by_init_recruited :
    let begun := (recruited.init [⟨"recruiting", .null⟩]).2
    (∃ f, (Step.start.answer (begun.performAll [.outside { memory := () }])).1 = .error f ∧
      f.kind = .resolution) ∧
    ∃ e ∈ begun.manager.plugins, "recruiting" ≠ e.name ∧
      begun.manager.resolver.isLoaded e.name = false := by
  intro begun
  have hinit : (recruited.init [⟨"recruiting", .null⟩]).1 = .ok () := rfl
  have hfails : ∃ f,
      (Step.start.answer (begun.performAll [.outside { memory := () }])).1 = .error f ∧
        f.kind = .resolution := ⟨_, rfl, rfl⟩
  obtain ⟨f, hf, hkind⟩ := hfails
  obtain ⟨hlate, -⟩ := resolved_by_init recruited [⟨"recruiting", .null⟩] hinit
    [.outside { memory := () }, .start] (by simp [Step.list?]) [.outside { memory := () }] .start []
    rfl rfl
  obtain ⟨e, he, hnew, hnot, -⟩ := hlate f hf hkind
  exact ⟨⟨f, hf, hkind⟩, e, he, hnew ⟨"recruiting", .null⟩ (by simp), hnot⟩

end Run

end PluginChain
