import PluginChain.Proofs.Calls
set_option autoImplicit false

/-!
# The order of the calls

A dispatch calls the plugins that handle the hook in the order of their entries,
once for each entry, up to the first entry that fails.  It answers with the number
of calls exactly if no entry fails.  `Stage.Fails` says when an entry does.

The induction runs over the list.  An entry that fails ends it; after one that does
not, the places of the rest move up by one (`Stage.failsFrom_succ`) and identifiers
stand for the same instances as before.
-/

namespace PluginChain.Stage

variable {σ ω D : Type} {hook : Hook} {handler : Plugin σ ω → Handler σ ω D}
  {entry : PluginEntry} {rest : List PluginEntry} {position : Nat} {st : Stage σ ω D}

/-- Whether the entry at a place in a list fails.  The list stands in a longer one
from a position on. -/
def FailsFrom (hook : Hook) (handler : Plugin σ ω → Handler σ ω D) (position : Nat)
    (entries : List PluginEntry) (st : Stage σ ω D) (k : Nat) : Prop :=
  ∃ entry, entries[k]? = some entry ∧
    (st.resolver.instance? entry.name = none ∨
      ∃ c ∈ callsFrom hook handler position entries st,
        c.position = position + k ∧ ∃ f, c.result = .error f)

/-- Whether the entry at a place of a list fails in a dispatch: it does not resolve,
or its plugin is called and fails. -/
def Fails (entries : List PluginEntry) (hook : Hook) (handler : Plugin σ ω → Handler σ ω D)
    (st : Stage σ ω D) (k : Nat) : Prop :=
  ∃ entry, entries[k]? = some entry ∧
    ((∃ f, (st.resolver.resolve entry.name st.host).1 = .error f) ∨
      ∃ c ∈ st.calls entries hook handler, c.position = k ∧ ∃ f, c.result = .error f)

theorem fails_iff_failsFrom {entries : List PluginEntry} {k : Nat} :
    st.Fails entries hook handler k ↔ FailsFrom hook handler 0 entries st k := by
  simp only [Fails, FailsFrom, calls, Resolver.resolve_eq_error_iff, Nat.zero_add]

/-! ## Where the calls stand -/

theorem position_of_call? {c : Call σ ω D} (hc : c ∈ st.call? hook handler position entry) :
    c.position = position :=
  (call?_eq_some_iff.mp hc).2.2.1

/-- The calls for a list stand at its position or behind. -/
theorem le_position_of_mem {entries : List PluginEntry} {c : Call σ ω D}
    (hc : c ∈ callsFrom hook handler position entries st) : position ≤ c.position := by
  induction entries generalizing position st with
  | nil => simp [callsFrom] at hc
  | cons entry rest ih =>
    rcases mem_callsFrom_cons.mp hc with hc | ⟨-, hc⟩
    · exact Nat.le_of_eq (position_of_call? hc).symm
    · exact Nat.le_of_succ_le (ih hc)

/-- The places of the calls increase: there is one call for an entry at most, and
the entries are in order. -/
theorem pairwise_position (hook : Hook) (handler : Plugin σ ω → Handler σ ω D)
    (entries : List PluginEntry) (position : Nat) (st : Stage σ ω D) :
    ((callsFrom hook handler position entries st).map (·.position)).Pairwise (· < ·) := by
  induction entries generalizing position st with
  | nil => exact List.Pairwise.nil
  | cons entry rest ih =>
    have hfirst : ((st.call? hook handler position entry).toList.map (·.position)).Pairwise
        (· < ·) := by
      cases st.call? hook handler position entry <;> simp
    cases hv : (visit hook handler entry st).1 with
    | error f =>
      rw [callsFrom_of_error hv]
      exact hfirst
    | ok called =>
      rw [callsFrom_of_ok hv, List.map_append, List.pairwise_append]
      refine ⟨hfirst, ih _ _, ?_⟩
      intro a ha b hb
      obtain ⟨c, hc, rfl⟩ := List.mem_map.mp ha
      obtain ⟨d, hd, rfl⟩ := List.mem_map.mp hb
      rw [Option.mem_toList] at hc
      rw [position_of_call? hc]
      exact le_position_of_mem hd

/-- Each call is that of the handler of the plugin of its entry. -/
theorem call_of_mem {entries : List PluginEntry} {c : Call σ ω D}
    (hc : c ∈ callsFrom hook handler position entries st) :
    ∃ k, c.position = position + k ∧ entries[k]? = some c.entry ∧
      st.resolver.instance? c.entry.name = some c.target ∧
      (c.result, c.after) = handler c.target.plugin c.before := by
  induction entries generalizing position st with
  | nil => simp [callsFrom] at hc
  | cons entry rest ih =>
    rcases mem_callsFrom_cons.mp hc with hc | ⟨-, hc⟩
    · obtain ⟨hi, -, hposition, rfl, -, hcall⟩ := call?_eq_some_iff.mp hc
      exact ⟨0, hposition, rfl, hi, hcall⟩
    · obtain ⟨k, hposition, hentry, hi, hcall⟩ := ih hc
      rw [(outcome_of_visit hook handler position entry st).instance?_next] at hi
      exact ⟨k + 1, by omega, hentry, hi, hcall⟩

/-! ## Which entries fail -/

theorem failsFrom_zero_of_error {f : Fault} (hv : (visit hook handler entry st).1 = .error f) :
    FailsFrom hook handler position (entry :: rest) st 0 := by
  refine ⟨entry, rfl, ?_⟩
  have hout := outcome_of_visit hook handler position entry st
  rw [hv] at hout
  rw [callsFrom_of_error hv]
  generalize hc : st.call? hook handler position entry = call at hout ⊢
  cases hout with
  | unresolved hi _ => exact .inl hi
  | @failed c f _ hresult _ =>
    exact .inr ⟨c, by simp, position_of_call? hc, f, hresult⟩

theorem not_failsFrom_zero_of_ok {called : Bool}
    (hv : (visit hook handler entry st).1 = .ok called) :
    ¬ FailsFrom hook handler position (entry :: rest) st 0 := by
  rintro ⟨e, he, hfails⟩
  obtain rfl : entry = e := by simpa using he
  have hout := outcome_of_visit hook handler position entry st
  rw [hv] at hout
  rcases hfails with hnone | ⟨c, hc, hposition, f, hresult⟩
  · generalize hcall : st.call? hook handler position entry = call at hout
    cases hout with
    | passed hi _ _ => simp [hnone] at hi
    | called _ _ =>
      have hi := (call?_eq_some_iff.mp hcall).1
      simp [hnone] at hi
  · rcases mem_callsFrom_cons.mp hc with hc | ⟨-, hc⟩
    · rw [Option.mem_def.mp hc] at hout
      cases hout with
      | called hok _ => simp [hok] at hresult
    · have := le_position_of_mem hc
      omega

theorem failsFrom_succ {called : Bool} (hv : (visit hook handler entry st).1 = .ok called)
    (k : Nat) :
    FailsFrom hook handler position (entry :: rest) st (k + 1) ↔
      FailsFrom hook handler (position + 1) rest (visit hook handler entry st).2 k := by
  have hplace : position + 1 + k = position + (k + 1) := by omega
  simp only [FailsFrom, List.getElem?_cons_succ, hplace,
    (outcome_of_visit hook handler position entry st).instance?_next]
  constructor
  · rintro ⟨e, he, hnone | ⟨c, hc, hposition, hresult⟩⟩
    · exact ⟨e, he, .inl hnone⟩
    · rcases mem_callsFrom_cons.mp hc with hc | ⟨-, hc⟩
      · have := position_of_call? hc
        omega
      · exact ⟨e, he, .inr ⟨c, hc, hposition, hresult⟩⟩
  · rintro ⟨e, he, hnone | ⟨c, hc, hposition, hresult⟩⟩
    · exact ⟨e, he, .inl hnone⟩
    · exact ⟨e, he, .inr ⟨c, mem_callsFrom_cons.mpr (.inr ⟨⟨called, hv⟩, hc⟩), hposition, hresult⟩⟩

/-! ## The calls and the answer -/

/-- There is a call for the first entry exactly if its plugin handles the hook. -/
theorem exists_call_zero_iff :
    (∃ c ∈ callsFrom hook handler position (entry :: rest) st, c.position = position) ↔
      ∃ i, st.resolver.instance? entry.name = some i ∧ i.plugin.handles hook = true := by
  constructor
  · rintro ⟨c, hc, hposition⟩
    rcases mem_callsFrom_cons.mp hc with hc | ⟨-, hc⟩
    · obtain ⟨hi, hh, -⟩ := call?_eq_some_iff.mp hc
      exact ⟨c.target, hi, hh⟩
    · have := le_position_of_mem hc
      omega
  · rintro ⟨i, hi, hh⟩
    cases hc : st.call? hook handler position entry with
    | none => simp [call?_eq_none_iff.mp hc i hi] at hh
    | some c => exact ⟨c, mem_callsFrom_cons.mpr (.inl hc), position_of_call? hc⟩

/-- There is a call for the entry at a place exactly if its plugin handles the hook
and no entry before it fails. -/
theorem exists_call_iff (hook : Hook) (handler : Plugin σ ω → Handler σ ω D)
    (entries : List PluginEntry) (position : Nat) (st : Stage σ ω D) (k : Nat) :
    (∃ c ∈ callsFrom hook handler position entries st, c.position = position + k) ↔
      ∃ entry i, entries[k]? = some entry ∧ st.resolver.instance? entry.name = some i ∧
        i.plugin.handles hook = true ∧ ∀ l < k, ¬ FailsFrom hook handler position entries st l := by
  induction entries generalizing position st k with
  | nil => simp [callsFrom]
  | cons entry rest ih =>
    cases k with
    | zero => simpa using exists_call_zero_iff
    | succ k =>
      rw [Nat.forall_lt_succ_left]
      cases hv : (visit hook handler entry st).1 with
      | error f =>
        constructor
        · rintro ⟨c, hc, hposition⟩
          rcases mem_callsFrom_cons.mp hc with hc | ⟨⟨called, hok⟩, -⟩
          · have := position_of_call? hc
            omega
          · rw [hv] at hok
            cases hok
        · rintro ⟨e, i, -, -, -, hnot, -⟩
          exact absurd (failsFrom_zero_of_error hv) hnot
      | ok called =>
        have hplace : position + (k + 1) = position + 1 + k := by omega
        have hrest := ih (position + 1) (visit hook handler entry st).2 k
        simp only [(outcome_of_visit hook handler position entry st).instance?_next] at hrest
        simp only [failsFrom_succ hv, not_failsFrom_zero_of_ok hv, not_false_eq_true, true_and,
          List.getElem?_cons_succ, hplace]
        rw [← hrest]
        constructor
        · rintro ⟨c, hc, hposition⟩
          rcases mem_callsFrom_cons.mp hc with hc | ⟨-, hc⟩
          · have := position_of_call? hc
            omega
          · exact ⟨c, hc, hposition⟩
        · rintro ⟨c, hc, hposition⟩
          exact ⟨c, mem_callsFrom_cons.mpr (.inr ⟨⟨called, hv⟩, hc⟩), hposition⟩

/-- The answer is a number exactly if no entry fails, and then the number of calls. -/
theorem visitAll_eq_ok_iff (hook : Hook) (handler : Plugin σ ω → Handler σ ω D)
    (entries : List PluginEntry) (position calls : Nat) (st : Stage σ ω D) (n : Nat) :
    (visitAll hook handler entries calls st).1 = .ok n ↔
      (∀ k, ¬ FailsFrom hook handler position entries st k) ∧
        n = calls + (callsFrom hook handler position entries st).length := by
  induction entries generalizing position calls st with
  | nil => simp [FailsFrom, callsFrom, eq_comm]
  | cons entry rest ih =>
    rw [← Nat.and_forall_add_one]
    cases hv : (visit hook handler entry st).1 with
    | error f =>
      rw [visitAll_of_error hv]
      simp [failsFrom_zero_of_error hv]
    | ok called =>
      rw [visitAll_of_ok hv, ih (position + 1), callsFrom_of_ok hv, List.length_append,
        length_call? hv]
      simp only [failsFrom_succ hv, not_failsFrom_zero_of_ok hv, not_false_eq_true, true_and]
      cases called <;> simp [Nat.add_assoc]

/-- Whether the plugin of an entry handles a hook. -/
def handles (hook : Hook) (st : Stage σ ω D) (e : PluginEntry) : Bool :=
  (st.resolver.instance? e.name).any fun i => i.plugin.handles hook

theorem entries_call? (hook : Hook) (handler : Plugin σ ω → Handler σ ω D) (position : Nat)
    (entry : PluginEntry) (st : Stage σ ω D) :
    (st.call? hook handler position entry).toList.map (·.entry) =
      [entry].filter (st.handles hook) := by
  cases hc : st.call? hook handler position entry with
  | some c =>
    obtain ⟨hi, hh, -, rfl, -⟩ := call?_eq_some_iff.mp hc
    simp [handles, hi, hh]
  | none =>
    have hunhandled := call?_eq_none_iff.mp hc
    cases hi : st.resolver.instance? entry.name with
    | none => simp [handles, hi]
    | some i => simp [handles, hi, hunhandled i hi]

/-- A list in which no entry fails makes calls for just the entries whose plugin handles the
hook, in their order. -/
theorem entries_callsFrom {entries : List PluginEntry} {calls n : Nat}
    (h : (visitAll hook handler entries calls st).1 = .ok n) :
    (callsFrom hook handler position entries st).map (·.entry) =
      entries.filter (st.handles hook) := by
  induction entries generalizing position calls st with
  | nil => rfl
  | cons entry rest ih =>
    cases hv : (visit hook handler entry st).1 with
    | error f =>
      rw [visitAll_of_error hv] at h
      cases h
    | ok called =>
      have hsame := (outcome_of_visit hook handler position entry st).instance?_next
      have hhandles : (visit hook handler entry st).2.handles hook = st.handles hook := by
        funext e
        rw [handles, handles, hsame]
      rw [visitAll_of_ok hv] at h
      rw [callsFrom_of_ok hv, List.map_append, entries_call?, ih h, hhandles, ← List.filter_append,
        List.singleton_append]

/-! ## A whole dispatch -/

theorem calls_note (entries : List PluginEntry) (hook : Hook)
    (handler : Plugin σ ω → Handler σ ω D) (st : Stage σ ω D) (r : LogRecord) :
    callsFrom hook handler 0 entries (st.note r) = st.calls entries hook handler :=
  ((alike_note st r).visitAll hook handler entries 0 0).1

/-- A dispatch leaves the event, the files and the memory, and the private states as
its calls leave them. -/
theorem leaves_of_dispatch (entries : List PluginEntry) (hook : Hook)
    (handler : Plugin σ ω → Handler σ ω D) (st : Stage σ ω D) :
    (st.dispatch entries hook handler).2.event =
        Call.eventAfter st.event (st.calls entries hook handler) ∧
      (st.dispatch entries hook handler).2.host.quiet =
        Call.hostAfter st.host (st.calls entries hook handler) ∧
      ∀ i, (st.dispatch entries hook handler).2.resolver.stateOf i =
        Call.stateAfter st.resolver i (st.calls entries hook handler) := by
  simp only [← calls_note entries hook handler st (.debug .dispatcher "Dispatching hook"
    [("hook", .str hook.name), ("plugin_count", .int entries.length)])]
  exact leaves_of_visitAll hook handler entries 0 0 _

/-- A call of a dispatch is for the entry at its place. -/
theorem getElem?_position {entries : List PluginEntry} {c : Call σ ω D}
    (hc : c ∈ st.calls entries hook handler) : entries[c.position]? = some c.entry := by
  obtain ⟨k, hposition, hentry, -⟩ := call_of_mem hc
  rw [hposition, Nat.zero_add, hentry]

/-- A dispatch answers with a number exactly if no entry fails: that of its calls. -/
theorem dispatch_eq_ok_iff (entries : List PluginEntry) (hook : Hook)
    (handler : Plugin σ ω → Handler σ ω D) (st : Stage σ ω D) (n : Nat) :
    (st.dispatch entries hook handler).1 = .ok n ↔
      (∀ k, ¬ st.Fails entries hook handler k) ∧
        n = (st.calls entries hook handler).length := by
  simp only [fails_iff_failsFrom]
  rw [(dispatch_alike entries hook handler st).1, visitAll_eq_ok_iff hook handler entries 0,
    Nat.zero_add]
  rfl

/-- A dispatch in which no entry fails makes calls for just the entries whose plugin handles
the hook. -/
theorem entries_calls {entries : List PluginEntry} {n : Nat}
    (h : (st.dispatch entries hook handler).1 = .ok n) :
    (st.calls entries hook handler).map (·.entry) = entries.filter (st.handles hook) :=
  entries_callsFrom ((dispatch_alike entries hook handler st).1.symm.trans h)

/-- A dispatch calls the handlers of exactly those entries whose plugin handles the
hook, in their order and once for each, up to and including the first entry that
fails.  Each call finds the event, the private state of its instance, the files and
the memory as the calls before it left them, but for the option, which is that of
its entry; and this is how the dispatch leaves them in the end.  It answers with the
number of its calls exactly if no entry fails. -/
theorem dispatch_calls_in_order (entries : List PluginEntry) (hook : Hook)
    (handler : Plugin σ ω → Handler σ ω D) (st : Stage σ ω D) :
    ((st.calls entries hook handler).map (·.position)).Pairwise (· < ·) ∧
    (∀ k, (∃ c ∈ st.calls entries hook handler, c.position = k) ↔
      ∃ entry i, entries[k]? = some entry ∧
        (st.resolver.resolve entry.name st.host).1 = .ok i ∧ i.plugin.handles hook = true ∧
        ∀ l < k, ¬ st.Fails entries hook handler l) ∧
    (∀ earlier c later, st.calls entries hook handler = earlier ++ c :: later →
      entries[c.position]? = some c.entry ∧
      (st.resolver.resolve c.entry.name st.host).1 = .ok c.target ∧
      c.before =
        { state := Call.stateAfter st.resolver c.target earlier
          event := (Call.eventAfter st.event earlier).setOption c.entry.option
          host := Call.hostAfter st.host earlier } ∧
      (c.result, c.after) = handler c.target.plugin c.before) ∧
    ((st.dispatch entries hook handler).2.event =
        Call.eventAfter st.event (st.calls entries hook handler) ∧
      (st.dispatch entries hook handler).2.host.quiet =
        Call.hostAfter st.host (st.calls entries hook handler) ∧
      ∀ i, (st.dispatch entries hook handler).2.resolver.stateOf i =
        Call.stateAfter st.resolver i (st.calls entries hook handler)) ∧
    (∀ n, (st.dispatch entries hook handler).1 = .ok n ↔
      (∀ k, ¬ st.Fails entries hook handler k) ∧
        n = (st.calls entries hook handler).length) := by
  refine ⟨pairwise_position hook handler entries 0 st, fun k => ?_, ?_,
    leaves_of_dispatch entries hook handler st, dispatch_eq_ok_iff entries hook handler st⟩
  · simp only [fails_iff_failsFrom, Resolver.resolve_eq_ok_iff]
    have h := exists_call_iff hook handler entries 0 st k
    rwa [Nat.zero_add] at h
  · intro earlier c later h
    have hc : c ∈ st.calls entries hook handler := by simp [h]
    obtain ⟨-, -, -, hi, hcall⟩ := call_of_mem hc
    exact ⟨getElem?_position hc, Resolver.resolve_eq_ok_iff.mpr hi, before_of_callsFrom h, hcall⟩

end PluginChain.Stage
