import PluginChain.Proofs.Answers
import PluginChain.Proofs.Loading
import PluginChain.Proofs.OptionIsolation
set_option autoImplicit false

/-!
# The first entry that fails

A dispatch ends with the first entry that fails.  The entries before it lead on to a
stage in which it fails (`Stage.exists_reached`), and from there on the rest of the list
plays no part: not in the calls, not in the resolutions, not in the answer.

What the calls have left in private states and in the host stays, and so does what was
loaded.  The event does not: a run has no place for one, so a later hook works with the
event that it starts itself.
-/

namespace PluginChain

namespace Stage

variable {σ ω D : Type} {hook : Hook} {handler : Plugin σ ω → Handler σ ω D}
  {entry : PluginEntry} {before entries : List PluginEntry} {position calls n k : Nat}
  {st reached : Stage σ ω D} {f : Fault}

/-! ## Up to the entry -/

/-- The entries before the first that fails do not fail, and lead on to a stage in which
it does. -/
theorem exists_reached (calls : Nat) (hfails : FailsFrom hook handler position entries st k)
    (hfirst : ∀ l < k, ¬ FailsFrom hook handler position entries st l) :
    ∃ entry n reached f, entries[k]? = some entry ∧
      visitAll hook handler (entries.take k) calls st = (.ok n, reached) ∧
      (visit hook handler entry reached).1 = .error f := by
  induction entries generalizing position k calls st with
  | nil =>
    obtain ⟨e, he, -⟩ := hfails
    cases he
  | cons entry rest ih =>
    cases hv : (visit hook handler entry st).1 with
    | error f =>
      cases k with
      | zero => exact ⟨entry, calls, st, f, rfl, rfl, hv⟩
      | succ k => exact absurd (failsFrom_zero_of_error hv) (hfirst 0 (Nat.succ_pos k))
    | ok called =>
      cases k with
      | zero => exact absurd hfails (not_failsFrom_zero_of_ok hv)
      | succ k =>
        have hrest : ∀ l < k, ¬ FailsFrom hook handler (position + 1) rest
            (visit hook handler entry st).2 l := by
          intro l hl
          rw [← failsFrom_succ hv]
          exact hfirst (l + 1) (Nat.succ_lt_succ hl)
        rw [List.getElem?_cons_succ, List.take_succ_cons, visitAll_of_ok hv]
        exact ih _ ((failsFrom_succ hv k).mp hfails) hrest

/-- The resolutions of a list in two parts are those of the first part and, unless it
fails, those of the second. -/
theorem resolutions_append (hook : Hook) (handler : Plugin σ ω → Handler σ ω D)
    (before after : List PluginEntry) (calls : Nat) (st : Stage σ ω D) :
    resolutions hook handler (before ++ after) st =
      resolutions hook handler before st ++
        match visitAll hook handler before calls st with
        | (.error _, _) => []
        | (.ok _, st) => resolutions hook handler after st := by
  induction before generalizing calls st with
  | nil => rfl
  | cons entry rest ih =>
    cases hv : (visit hook handler entry st).1 with
    | error f =>
      rw [List.cons_append, resolutions_of_error hv, resolutions_of_error hv, visitAll_of_error hv]
      rfl
    | ok called =>
      rw [List.cons_append, resolutions_of_ok hv, resolutions_of_ok hv, visitAll_of_ok hv,
        List.cons_append, ih (if called then calls + 1 else calls)]

/-! ## From the entry on -/

/-- An entry that fails stands for no instance, or its plugin is called and fails. -/
theorem error_cases (position : Nat) (hf : (visit hook handler entry st).1 = .error f) :
    (st.resolver.instance? entry.name = none ∧
        f = (st.resolver.missing st.host.files entry.name).fault) ∨
      ∃ c inner, st.call? hook handler position entry = some c ∧ c.result = .error inner ∧
        f = handlerFault hook entry inner := by
  have hout := outcome_of_visit hook handler position entry st
  rw [hf] at hout
  generalize st.call? hook handler position entry = call at hout ⊢
  cases hout with
  | unresolved hi _ => exact .inl ⟨hi, rfl⟩
  | @failed c inner _ hresult _ => exact .inr ⟨c, inner, rfl, hresult, rfl⟩

/-- A list with an entry that fails comes to what that entry comes to. -/
theorem visitAll_of_reached
    (hreached : visitAll hook handler before calls st = (.ok n, reached))
    (hf : (visit hook handler entry reached).1 = .error f) (after : List PluginEntry) :
    visitAll hook handler (before ++ entry :: after) calls st =
      (.error f, (visit hook handler entry reached).2) := by
  rw [visitAll_append, hreached]
  exact visitAll_of_error hf

/-- The calls of a list with an entry that fails end with the call for it. -/
theorem callsFrom_of_reached (position : Nat)
    (hreached : visitAll hook handler before calls st = (.ok n, reached))
    (hf : (visit hook handler entry reached).1 = .error f) (after : List PluginEntry) :
    callsFrom hook handler position (before ++ entry :: after) st =
      callsFrom hook handler position before st ++
        (reached.call? hook handler (position + before.length) entry).toList := by
  rw [callsFrom_append hook handler before (entry :: after) position calls, hreached]
  exact congrArg _ (callsFrom_of_error hf)

/-- The resolutions of a list with an entry that fails end with that of the entry. -/
theorem resolutions_of_reached
    (hreached : visitAll hook handler before calls st = (.ok n, reached))
    (hf : (visit hook handler entry reached).1 = .error f) (after : List PluginEntry) :
    resolutions hook handler (before ++ entry :: after) st =
      resolutions hook handler before st ++ [⟨entry.name, reached.resolver, reached.host⟩] := by
  rw [resolutions_append hook handler before (entry :: after) calls, hreached]
  exact congrArg _ (resolutions_of_error hf)

/-- What comes of the first entry that fails: nothing behind it is called or resolved, and
the fault of its resolution is the answer as it stands, that of its handler wrapped. -/
theorem dispatch_of_fails (hfails : st.Fails entries hook handler k)
    (hfirst : ∀ l < k, ¬ st.Fails entries hook handler l) :
    st.calls entries hook handler = st.calls (entries.take (k + 1)) hook handler ∧
      (st.resolutions hook handler entries).map (·.identifier) =
        (entries.take (k + 1)).map (·.name) ∧
      ∃ entry f, entries[k]? = some entry ∧ (st.dispatch entries hook handler).1 = .error f ∧
        ((f.kind = .resolution ∧ ∃ q, (st.resolutions hook handler entries)[k]? = some q ∧
            q.identifier = entry.name ∧ q.answer = .error f) ∨
          ∃ c ∈ st.calls entries hook handler, c.position = k ∧ c.entry = entry ∧
            ∃ inner, c.result = .error inner ∧ f = handlerFault hook entry inner) := by
  simp only [fails_iff_failsFrom] at hfails hfirst
  obtain ⟨entry, n, reached, f, hentry, hreached, hf⟩ := exists_reached 0 hfails hfirst
  obtain ⟨hk, hget⟩ := List.getElem?_eq_some_iff.mp hentry
  have hsplit : entries = entries.take k ++ entry :: entries.drop (k + 1) := by
    rw [← hget, ← List.drop_eq_getElem_cons hk, List.take_append_drop]
  have htake : entries.take (k + 1) = entries.take k ++ [entry] := by
    rw [List.take_add_one, hentry]
    rfl
  have hlength : (entries.take k).length = k := List.length_take_of_le (Nat.le_of_lt hk)
  have hbefore : (resolutions hook handler (entries.take k) st).map (·.identifier) =
      (entries.take k).map (·.name) :=
    identifiers_of_visitAll_ok (congrArg Prod.fst hreached)
  have hcalls (after : List PluginEntry) :
      st.calls (entries.take k ++ entry :: after) hook handler =
        st.calls (entries.take k) hook handler ++
          (reached.call? hook handler k entry).toList := by
    have h := callsFrom_of_reached 0 hreached hf after
    rwa [hlength, Nat.zero_add] at h
  have hresolutions : st.resolutions hook handler entries =
      st.resolutions hook handler (entries.take k) ++
        [⟨entry.name, reached.resolver, reached.host⟩] := by
    have h := resolutions_of_reached hreached hf (entries.drop (k + 1))
    rwa [← hsplit] at h
  refine ⟨?_, ?_, entry, f, hentry, ?_, ?_⟩
  · rw [htake, hcalls, ← hcalls (entries.drop (k + 1)), ← hsplit]
  · rw [hresolutions, htake, List.map_append, List.map_append, hbefore]
    rfl
  · rw [(dispatch_alike entries hook handler st).1, hsplit, visitAll_of_reached hreached hf]
  · rcases error_cases k hf with ⟨hi, rfl⟩ | ⟨c, inner, hc, hresult, rfl⟩
    · have hplace := congrArg List.length hbefore
      rw [List.length_map, List.length_map, hlength] at hplace
      refine .inl ⟨rfl, ⟨entry.name, reached.resolver, reached.host⟩, ?_, rfl, ?_⟩
      · rw [hresolutions, List.getElem?_append_right (Nat.le_of_eq hplace), hplace, Nat.sub_self]
        rfl
      · rw [Resolution.answer, Resolver.resolve_fst, hi]
    · refine .inr ⟨c, ?_, position_of_call? hc, (call?_eq_some_iff.mp hc).2.2.2.1, inner, hresult,
        rfl⟩
      rw [hsplit, hcalls, hc]
      exact List.mem_append_right _ List.mem_cons_self

end Stage

namespace Step

variable {σ ω : Type} {s : Step ω} {run : Run σ ω} {hook : Hook} {event : Event (hook.Data ω)}
  {f : Fault}

/-- A hook in which an entry fails leaves the list that it went over as the active one. -/
theorem plugins_of_pass_error (hopening : s.opening run.manager = some ⟨hook, .ok event⟩)
    (hf : (s.pass run event).1 = .error f) :
    (s.perform run).2.manager.plugins = s.list?.getD run.manager.plugins := by
  cases hlist : s.list? with
  | none => exact plugins_perform hlist
  | some plugins =>
    rw [opening_of_list hlist] at hopening
    cases hopening
    have hpass : (run.listPass plugins).1 = .error f := by
      rw [pass, hlist] at hf
      exact hf
    rw [perform_of_listPass_error hlist hpass]
    rfl

/-- The first call of a hook finds the event as the hook has started it, but for the
option, which is that of its entry. -/
theorem event_of_head_calls (hopening : s.opening run.manager = some ⟨hook, .ok event⟩)
    {c : Call σ ω (hook.Data ω)} (hc : (s.calls run).head? = some ⟨hook, c⟩) :
    c.before.event = event.setOption c.entry.option := by
  rw [calls_of_opening hopening, List.head?_map, Option.map_eq_some_iff] at hc
  obtain ⟨d, hd, hdc⟩ := hc
  obtain rfl : d = c := eq_of_heq (Sigma.mk.inj hdc).2
  obtain ⟨later, hlater⟩ := List.head?_eq_some_iff.mp hd
  have hsplit : Stage.callsFrom hook (fun p => p.handle hook) 0
      (s.list?.getD run.manager.plugins) (run.stage event) = [] ++ d :: later := hlater
  rw [Stage.before_of_callsFrom hsplit]
  rfl

end Step

namespace Run

variable {σ ω : Type}

/-- Take a hook, the event that it starts, and the first entry of its list that fails.
No entry behind it is resolved or called, so that the cache and the registry gain
nothing from these.  If the entry has no plugin, the fault of its resolution is the
answer; if its handler fails, the answer is a fault that names the entry and the hook
and has the fault of the handler, and then all its causes, for causes.

What the calls up to there have left in private states and in the host stays, and what
was resolved is loaded; the active list is the one that the hook went over.  The event
is gone: a later hook starts the event that it would have started before, its first call
finds it so, and nothing in the run tells a later step about the failure, since it answers as in
every run with the same list, resolver, parsers, files and memory. -/
theorem abort_at_first_failure (run : Run σ ω) (s : Step ω) {hook : Hook}
    {event : Event (hook.Data ω)} (hopening : s.opening run.manager = some ⟨hook, .ok event⟩)
    {k : Nat}
    (hfails : (run.stage event).Fails (s.list?.getD run.manager.plugins) hook
      (fun p => p.handle hook) k)
    (hfirst : ∀ l < k, ¬ (run.stage event).Fails (s.list?.getD run.manager.plugins) hook
      (fun p => p.handle hook) l) :
    let entries := s.list?.getD run.manager.plugins
    let tried := entries.take (k + 1)
    let st := run.stage event
    let calls := st.calls entries hook fun p => p.handle hook
    let resolutions := st.resolutions hook (fun p => p.handle hook) entries
    let left := (s.answer run).2
    (calls = st.calls tried hook (fun p => p.handle hook) ∧
      resolutions.map (·.identifier) = tried.map (·.name)) ∧
    (∃ entry, entries[k]? = some entry ∧
      ((∃ q f, resolutions[k]? = some q ∧ q.identifier = entry.name ∧ q.answer = .error f ∧
          f.kind = .resolution ∧ (s.answer run).1 = .error f) ∨
        ∃ c inner, c ∈ calls ∧ c.position = k ∧ c.entry = entry ∧ c.result = .error inner ∧
          (s.answer run).1 = .error
            { kind := .handler
              message :=
                "Plugin '" ++ entry.name ++ "' failed in " ++ hook.name ++ ": " ++ inner.message
              causes := inner.display :: inner.causes })) ∧
    ((∀ i, left.manager.resolver.stateOf i = Call.stateAfter run.manager.resolver i calls) ∧
      left.host.quiet = Call.hostAfter run.host calls ∧
      (∀ identifier, Keyed.get? identifier left.manager.resolver.cache =
        if identifier ∈ tried.map (·.name) then run.manager.resolver.instance? identifier
        else Keyed.get? identifier run.manager.resolver.cache) ∧
      (∀ identifier, identifier ∉ tried.map (·.name) →
        Keyed.get? identifier left.manager.resolver.registry.entries =
          Keyed.get? identifier run.manager.resolver.registry.entries) ∧
      left.manager.plugins = entries) ∧
    (∀ (t : Step ω) (hook' : Hook) (event' : Event (hook'.Data ω)),
      t.opening run.manager = some ⟨hook', .ok event'⟩ →
        t.opening left.manager = some ⟨hook', .ok event'⟩ ∧
          ∀ c, (t.calls left).head? = some ⟨hook', c⟩ →
            c.before.event = event'.setOption c.entry.option) ∧
    ∀ other, left.SameButLog other → ∀ (later : List (Step ω)) (t : Step ω),
      (t.answer (left.performAll later)).1 = (t.answer (other.performAll later)).1 ∧
        t.calls (left.performAll later) = t.calls (other.performAll later) := by
  intro entries tried st calls resolutions left
  obtain ⟨hcalls, hidentifiers, entry, f, hentry, hf, hcause⟩ :=
    Stage.dispatch_of_fails hfails hfirst
  have hleft : left = (s.perform run).2 := (Step.snd_perform s run).symm
  obtain ⟨hresolver, hhost, hanswer⟩ := Step.leaves_of_opening hopening
  have hfault : (s.answer run).1 = .error f := Step.perform_eq_error_iff.mp (hanswer f hf)
  obtain ⟨-, hquiet, hstates⟩ :=
    Stage.leaves_of_dispatch entries hook (fun p => p.handle hook) st
  have hleads := Stage.leads_dispatch entries hook (fun p => p.handle hook) st
  have hcapabilities : left.manager.capabilities = run.manager.capabilities := by
    rw [hleft]
    exact Step.capabilities_perform s run
  refine ⟨⟨hcalls, hidentifiers⟩, ⟨entry, hentry, ?_⟩, ⟨fun i => ?_, ?_, fun identifier => ?_,
    fun identifier hnot => ?_, ?_⟩, fun t hook' event' ht => ?_, fun other hother later t => ?_⟩
  · rcases hcause with ⟨hkind, q, hq, hname, hanswered⟩ |
      ⟨c, hc, hposition, hce, inner, hresult, rfl⟩
    · exact .inl ⟨q, f, hq, hname, hanswered, hkind, hfault⟩
    · exact .inr ⟨c, inner, hc, hposition, hce, hresult, hfault⟩
  · rw [hleft, hresolver]
    exact hstates i
  · rw [hleft, hhost]
    exact hquiet
  · rw [hleft, hresolver, ← hidentifiers]
    exact hleads.get?_cache identifier
  · rw [hleft, hresolver]
    exact hleads.get?_registry_of_not_mem (by rwa [hidentifiers])
  · rw [hleft]
    exact Step.plugins_of_pass_error hopening hf
  · have ht' := (Step.opening_congr hcapabilities t).trans ht
    exact ⟨ht', fun c => Step.event_of_head_calls ht'⟩
  · have h := hother.performAll later
    exact ⟨(h.answer t).1, h.calls t⟩

end Run

/-- A plugin that fails, with a fault that has a cause of its own. -/
def Plugin.failing : Plugin Nat Unit where
  name := "failing"
  hooks := [.code]
  handle _ := .fail (.because .io "no space left" "quota")

namespace Run

/-- A run with a plugin that fails between two that do not. -/
def halted : Run Nat Unit where
  manager :=
    { plugins := [⟨"tampering", .null⟩, ⟨"failing", .int 7⟩, ⟨"bystander", .null⟩]
      resolver :=
        { registry :=
            { entries :=
                [("bystander", .shared ⟨.given 1, .bystander, 0⟩),
                  ("failing", .shared ⟨.given 2, .failing, 0⟩),
                  ("tampering", .shared ⟨.given 0, .tampering, 0⟩)] } } }
  host := { memory := () }

/-- The plugin before the one that fails keeps its count, and the one behind it is not
even loaded. -/
theorem abort_at_first_failure_halted :
    let s : Step Unit := .code "fn main() {}" "main.rs"
    let left := (s.answer halted).2
    (s.answer halted).1 = .error
      { kind := .handler
        message := "Plugin 'failing' failed in on_handle_code: no space left"
        causes := ["IO: no space left", "quota"] } ∧
      left.manager.resolver.stateOf ⟨.given 0, .tampering, 0⟩ = 1 ∧
      Keyed.get? "bystander" left.manager.resolver.cache = none ∧
      left.manager.plugins = halted.manager.plugins := by
  intro s left
  have hopening : s.opening halted.manager =
      some ⟨.code, .ok (.assigned { code := "fn main() {}", filePath := "main.rs" })⟩ := rfl
  have hcalls : (halted.stage (.assigned (CodeData.mk "fn main() {}" "main.rs"))).calls
      halted.manager.plugins .code (fun p => p.handle .code) = [_, _] := rfl
  have hfails : (halted.stage (.assigned (CodeData.mk "fn main() {}" "main.rs"))).Fails
      halted.manager.plugins .code (fun p => p.handle .code) 1 := by
    refine ⟨⟨"failing", .int 7⟩, rfl, .inr ?_⟩
    rw [hcalls]
    exact ⟨_, List.mem_cons_of_mem _ List.mem_cons_self, rfl, _, rfl⟩
  have hfirst : ∀ l < 1, ¬ (halted.stage (.assigned (CodeData.mk "fn main() {}" "main.rs"))).Fails
      halted.manager.plugins .code (fun p => p.handle .code) l := by
    intro l hl
    obtain rfl : l = 0 := by omega
    rintro ⟨entry, hentry, ⟨f, hf⟩ | ⟨c, hc, hposition, f, hf⟩⟩
    · cases hentry
      cases hf
    · rw [hcalls] at hc
      simp only [List.mem_cons, List.not_mem_nil, or_false] at hc
      rcases hc with rfl | rfl
      · cases hf
      · cases hposition
  obtain ⟨-, -, ⟨hstates, -, hcache, -, hplugins⟩, -⟩ :=
    abort_at_first_failure halted s hopening hfails hfirst
  refine ⟨rfl, ?_, ?_, hplugins⟩
  · rw [hstates]
    rfl
  · rw [hcache, if_neg (by decide)]
    rfl

end Run

end PluginChain
