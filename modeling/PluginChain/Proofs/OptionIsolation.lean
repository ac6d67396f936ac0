import PluginChain.Proofs.CallOrder
set_option autoImplicit false

/-!
# Options do not leak

Every handler finds the option of its own entry in the event: so the calls of a dispatch
say, and a dispatch goes by its handler nowhere but in these calls (`Stage.dispatch_congr`).
Two dispatches over lists that differ in the option of one entry are compared: they are one and the
same up to the call for that entry, and if that call leaves the same in both,
whatever it does to the option, they are one and the same again behind it.

The comparison is of two stages that are `Alike`.  They may differ in the option of
the event, which the call of a later entry replaces before its handler sees it; so
entries that are passed over in between do no harm.
-/

namespace PluginChain

/-- Whether a handler works on the private state and the event alone: it leaves the
files and the memory of the host as they were. -/
def Handler.KeepsHost {σ ω D : Type} (handler : Handler σ ω D) : Prop :=
  ∀ scene, (handler scene).2.host.quiet = scene.host.quiet

namespace Call

variable {σ ω D : Type}

/-- Whether two calls of a handler leave the same to the calls after them, whatever
each leaves for an option: the same result, private state, data and added fields.
A handler that also works on the host must leave that the same, too. -/
structure LeaveAlike (handler : Plugin σ ω → Handler σ ω D) (c c' : Call σ ω D) : Prop where
  result : c.result = c'.result
  state : c.after.state = c'.after.state
  data : c.after.event.data = c'.after.event.data
  extra : c.after.event.extra = c'.after.event.extra
  host : (handler c.target.plugin).KeepsHost ∨ c.after.host.quiet = c'.after.host.quiet

end Call

namespace Stage

variable {σ ω D : Type} {hook : Hook} {handler : Plugin σ ω → Handler σ ω D}
  {st : Stage σ ω D} {position : Nat}

/-! ## Handlers that agree in the calls -/

variable {handler' : Plugin σ ω → Handler σ ω D}

/-- An entry goes by its handler nowhere but in the call that is made for it. -/
theorem visit_congr {entry : PluginEntry}
    (h : ∀ c ∈ st.call? hook handler position entry,
      handler' c.target.plugin c.before = handler c.target.plugin c.before) :
    visit hook handler' entry st = visit hook handler entry st := by
  cases hi : st.resolver.instance? entry.name with
  | none =>
    obtain ⟨host, hr, -⟩ := Resolver.resolve_of_none hi st.host
    rw [visit, visit, hr]
  | some i =>
    obtain ⟨host, hr, hquiet⟩ := Resolver.resolve_of_some hi st.host
    rw [visit, visit, hr]
    dsimp only
    cases hc : st.call? hook handler position entry with
    | none =>
      rw [call?_eq_none_iff.mp hc i hi]
      rfl
    | some c =>
      obtain ⟨hi', hh, -, -, hbefore, -⟩ := call?_eq_some_iff.mp hc
      obtain rfl : c.target = i := Option.some.inj (hi'.symm.trans hi)
      -- The scene in which the dispatcher calls the handler is the one in the call.
      have hscene : c.before = ⟨(st.resolver.settled entry.name).stateOf c.target,
          st.event.setOption entry.option, { host with log := [] }⟩ := by
        rw [hbefore, Resolver.stateOf_settled, ← hquiet]
        rfl
      have hsame := h c hc
      rw [hscene] at hsame
      simp only [hh, if_true, note, Stage.call, Host.note, hsame]

/-- A dispatch goes by its handler nowhere but in the calls that it makes. -/
theorem dispatch_congr {entries : List PluginEntry}
    (h : ∀ c ∈ st.calls entries hook handler,
      handler' c.target.plugin c.before = handler c.target.plugin c.before) :
    st.dispatch entries hook handler' = st.dispatch entries hook handler := by
  have hlist (entries : List PluginEntry) (position calls : Nat) (st : Stage σ ω D)
      (h : ∀ c ∈ callsFrom hook handler position entries st,
        handler' c.target.plugin c.before = handler c.target.plugin c.before) :
      visitAll hook handler' entries calls st = visitAll hook handler entries calls st := by
    induction entries generalizing position calls st with
    | nil => rfl
    | cons entry rest ih =>
      have hfirst := visit_congr fun c hc => h c (mem_callsFrom_cons.mpr (.inl hc))
      cases hv : (visit hook handler entry st).1 with
      | error f => rw [visitAll_of_error hv, visitAll_of_error (hfirst ▸ hv), hfirst]
      | ok called =>
        rw [visitAll_of_ok hv, visitAll_of_ok (hfirst ▸ hv), hfirst]
        apply ih (position + 1)
        intro c hc
        exact h c (mem_callsFrom_cons.mpr (.inr ⟨⟨called, hv⟩, hc⟩))
  rw [← calls_note] at h
  exact hlist entries 0 0 _ h

/-! ## Lists in parts -/

/-- The calls for a list in two parts are those for the first part and, unless it
fails, those for the second. -/
theorem callsFrom_append (hook : Hook) (handler : Plugin σ ω → Handler σ ω D)
    (before after : List PluginEntry) (position calls : Nat) (st : Stage σ ω D) :
    callsFrom hook handler position (before ++ after) st =
      callsFrom hook handler position before st ++
        match visitAll hook handler before calls st with
        | (.error _, _) => []
        | (.ok _, st) => callsFrom hook handler (position + before.length) after st := by
  induction before generalizing position calls st with
  | nil => simp [callsFrom]
  | cons entry rest ih =>
    cases hv : (visit hook handler entry st).1 with
    | error f =>
      rw [List.cons_append, callsFrom_of_error hv, callsFrom_of_error hv, visitAll_of_error hv]
      exact (List.append_nil _).symm
    | ok called =>
      rw [List.cons_append, callsFrom_of_ok hv, callsFrom_of_ok hv, visitAll_of_ok hv,
        List.append_assoc, ih (position + 1) (if called then calls + 1 else calls),
        List.length_cons, Nat.add_assoc, Nat.add_comm 1 rest.length]

/-- The calls for a list stand inside of it. -/
theorem position_lt_of_mem {entries : List PluginEntry} {c : Call σ ω D}
    (hc : c ∈ callsFrom hook handler position entries st) :
    c.position < position + entries.length := by
  obtain ⟨k, hposition, hentry, -⟩ := call_of_mem hc
  obtain ⟨hk, -⟩ := List.getElem?_eq_some_iff.mp hentry
  omega

/-! ## Two entries that differ in their options -/

variable {entry entry' : PluginEntry}

/-- For entries of one name, calls of the same instance are made, in scenes that are
the same but for the option. -/
theorem exists_call?_of_name_eq (hname : entry.name = entry'.name) {c : Call σ ω D}
    (hc : st.call? hook handler position entry = some c) :
    ∃ c', st.call? hook handler position entry' = some c' ∧ c'.target = c.target ∧
      c'.before = { c.before with event := c.before.event.setOption entry'.option } := by
  obtain ⟨hi, hh, -, -, hbefore, -⟩ := call?_eq_some_iff.mp hc
  rw [hname] at hi
  cases hc' : st.call? hook handler position entry' with
  | none => simp [call?_eq_none_iff.mp hc' _ hi] at hh
  | some c' =>
    obtain ⟨hi', -, -, hentry', hbefore', -⟩ := call?_eq_some_iff.mp hc'
    have htarget : c'.target = c.target := Option.some.inj (hi'.symm.trans hi)
    refine ⟨c', rfl, htarget, ?_⟩
    rw [hbefore', hbefore, htarget]
    rfl

/-- A handler that keeps the host leaves it as the call found it. -/
theorem quiet_after_of_keepsHost {c : Call σ ω D}
    (hc : st.call? hook handler position entry = some c)
    (hkeeps : (handler c.target.plugin).KeepsHost) : c.after.host.quiet = st.host.quiet := by
  obtain ⟨-, -, -, -, hbefore, hcall⟩ := call?_eq_some_iff.mp hc
  have hafter : c.after = (handler c.target.plugin c.before).2 := by rw [← hcall]
  rw [hafter, hkeeps, hbefore]
  rfl

/-- Calls that leave alike lead to stages that are alike. -/
theorem alike_leftBy_of_leaveAlike (hname : entry.name = entry'.name) {c c' : Call σ ω D}
    (hc : st.call? hook handler position entry = some c)
    (hc' : st.call? hook handler position entry' = some c')
    (hleave : Call.LeaveAlike handler c c') : Alike (st.leftBy c) (st.leftBy c') := by
  obtain ⟨hi, -, -, hentry, -⟩ := call?_eq_some_iff.mp hc
  obtain ⟨hi', -, -, hentry', -⟩ := call?_eq_some_iff.mp hc'
  rw [hname] at hi
  have htarget : c'.target = c.target := Option.some.inj (hi'.symm.trans hi)
  refine ⟨?_, hleave.data, hleave.extra, ?_⟩
  · rw [leftBy, leftBy, hentry, hentry', hname, htarget, hleave.state]
  · rcases hleave.host with hkeeps | hhost
    · have hkeeps' : (handler c'.target.plugin).KeepsHost := by rwa [htarget]
      exact (quiet_after_of_keepsHost hc hkeeps).trans (quiet_after_of_keepsHost hc' hkeeps').symm
    · exact hhost

theorem passedOver_of_name_eq (hname : entry.name = entry'.name) :
    st.passedOver entry = st.passedOver entry' := by
  rw [passedOver, passedOver, hname]

/-- A fault of a handler is reported with the name of its entry alone. -/
theorem handlerFault_of_name_eq (hname : entry.name = entry'.name) (f : Fault) :
    handlerFault hook entry f = handlerFault hook entry' f := by
  rw [handlerFault, handlerFault, hname]

/-- Entries of one name, for which no call is made, come to the same. -/
theorem visit_of_no_call (hname : entry.name = entry'.name)
    (hc : st.call? hook handler position entry = none) :
    (visit hook handler entry st).1 = (visit hook handler entry' st).1 ∧
      Alike (visit hook handler entry st).2 (visit hook handler entry' st).2 := by
  have hc' : st.call? hook handler position entry' = none := by
    rw [call?_eq_none_iff, hname] at hc
    exact call?_eq_none_iff.mpr hc
  have hout := outcome_of_visit hook handler position entry st
  have hout' := outcome_of_visit hook handler position entry' st
  rw [hc] at hout
  rw [hc'] at hout'
  generalize (visit hook handler entry st).1 = answer at hout ⊢
  generalize (visit hook handler entry' st).1 = answer' at hout' ⊢
  cases hout with
  | unresolved hi same =>
    cases hout' with
    | unresolved _ same' => exact ⟨by rw [hname], same.alike.trans same'.alike.symm⟩
    | passed hi' _ _ => simp [← hname, hi] at hi'
  | passed hi _ same =>
    cases hout' with
    | unresolved hi' _ => simp [← hname, hi] at hi'
    | passed _ _ same' =>
      rw [← passedOver_of_name_eq hname] at same'
      exact ⟨rfl, same.alike.trans same'.alike.symm⟩

/-- Entries of one name, whose calls leave alike, come to the same. -/
theorem visit_of_leaveAlike (hname : entry.name = entry'.name)
    (hleave : ∀ c c', st.call? hook handler position entry = some c →
      st.call? hook handler position entry' = some c' → Call.LeaveAlike handler c c') :
    (visit hook handler entry st).1 = (visit hook handler entry' st).1 ∧
      Alike (visit hook handler entry st).2 (visit hook handler entry' st).2 := by
  cases hc : st.call? hook handler position entry with
  | none => exact visit_of_no_call hname hc
  | some c =>
    obtain ⟨c', hc', -, -⟩ := exists_call?_of_name_eq hname hc
    have hl := hleave c c' hc hc'
    have halike := alike_leftBy_of_leaveAlike hname hc hc' hl
    have hout := outcome_of_call hc
    have hout' := outcome_of_call hc'
    generalize (visit hook handler entry st).1 = answer at hout ⊢
    generalize (visit hook handler entry' st).1 = answer' at hout' ⊢
    cases hout with
    | called hresult same =>
      cases hout' with
      | called _ same' => exact ⟨rfl, same.alike.trans (halike.trans same'.alike.symm)⟩
      | failed hresult' _ => simp [← hl.result, hresult] at hresult'
    | failed hresult same =>
      cases hout' with
      | called hresult' _ => simp [← hl.result, hresult] at hresult'
      | failed hresult' same' =>
        obtain rfl := Except.error.inj (hresult.symm.trans (hl.result.trans hresult'))
        exact ⟨by rw [handlerFault_of_name_eq hname],
          same.alike.trans (halike.trans same'.alike.symm)⟩

/-! ## Two lists that differ in the option of one entry -/

variable {before after : List PluginEntry}

/-- The calls before a place are those for the entries before it. -/
theorem filter_before_calls (before rest : List PluginEntry) (hook : Hook)
    (handler : Plugin σ ω → Handler σ ω D) (st : Stage σ ω D) :
    (st.calls (before ++ rest) hook handler).filter (·.position < before.length) =
      st.calls before hook handler := by
  rw [calls, callsFrom_append hook handler before rest 0 0, List.filter_append, calls]
  have hfirst : (callsFrom hook handler 0 before st).filter (·.position < before.length) =
      callsFrom hook handler 0 before st := by
    rw [List.filter_eq_self]
    intro c hc
    have := position_lt_of_mem hc
    simpa using this
  rw [hfirst]
  refine (congrArg (_ ++ ·) ?_).trans (List.append_nil _)
  rcases visitAll hook handler before 0 st with ⟨_ | n, reached⟩
  · rfl
  · rw [List.filter_eq_nil_iff]
    intro c hc
    have := le_position_of_mem hc
    simpa using this

/-- A call is made for the entry at a place if those before it do not fail, as the
stage they lead to has it. -/
theorem mem_calls_at_iff {c : Call σ ω D} :
    (c ∈ st.calls (before ++ entry :: after) hook handler ∧ c.position = before.length) ↔
      ∃ n reached, visitAll hook handler before 0 st = (.ok n, reached) ∧
        reached.call? hook handler before.length entry = some c := by
  rw [calls, callsFrom_append hook handler before _ 0 0, List.mem_append]
  rcases visitAll hook handler before 0 st with ⟨_ | n, reached⟩
  · simp only [List.not_mem_nil, or_false]
    constructor
    · rintro ⟨hc, hposition⟩
      have := position_lt_of_mem hc
      omega
    · rintro ⟨_, _, h, -⟩
      cases h
  · simp only [Nat.zero_add]
    constructor
    · rintro ⟨hc | hc, hposition⟩
      · have := position_lt_of_mem hc
        omega
      · rcases mem_callsFrom_cons.mp hc with hc | ⟨-, hc⟩
        · exact ⟨n, reached, rfl, hc⟩
        · have := le_position_of_mem hc
          omega
    · rintro ⟨_, _, h, hc⟩
      cases h
      exact ⟨.inr (mem_callsFrom_cons.mpr (.inl hc)), position_of_call? hc⟩

/-- Where the entries before a place do not fail, the calls behind it are those for
the rest of the list, from the stage that its entry leads to. -/
theorem filter_behind_calls {n : Nat} {reached : Stage σ ω D}
    (hbefore : visitAll hook handler before 0 st = (.ok n, reached)) :
    (st.calls (before ++ entry :: after) hook handler).filter (before.length < ·.position) =
      match visit hook handler entry reached with
      | (.error _, _) => []
      | (.ok _, st) => callsFrom hook handler (before.length + 1) after st := by
  have hfirst : (callsFrom hook handler 0 before st).filter (before.length < ·.position) = [] := by
    rw [List.filter_eq_nil_iff]
    intro c hc
    have := position_lt_of_mem hc
    simp only [decide_eq_true_eq]
    omega
  have hat : ((reached.call? hook handler before.length entry).toList).filter
      (before.length < ·.position) = [] := by
    rw [List.filter_eq_nil_iff]
    intro c hc
    rw [Option.mem_toList] at hc
    simp [position_of_call? hc]
  rw [calls, callsFrom_append hook handler before _ 0 0, List.filter_append, hfirst, hbefore]
  simp only [List.nil_append, Nat.zero_add, callsFrom, List.filter_append, hat]
  rcases visit hook handler entry reached with ⟨_ | called, next⟩
  · rfl
  · dsimp only
    rw [List.filter_eq_self]
    intro c hc
    have := le_position_of_mem hc
    simp only [decide_eq_true_eq]
    omega

/-- Up to an entry, two lists that differ in its option come to the same calls, and
the calls for the entry find the same but for the option. -/
theorem same_up_to_option (hname : entry.name = entry'.name) {c : Call σ ω D}
    (hc : c ∈ st.calls (before ++ entry :: after) hook handler)
    (hposition : c.position = before.length) :
    ∃ c' ∈ st.calls (before ++ entry' :: after) hook handler, c'.position = before.length ∧
      c'.target = c.target ∧
      c'.before = { c.before with event := c.before.event.setOption entry'.option } := by
  obtain ⟨n, reached, hreached, hc⟩ := mem_calls_at_iff.mp ⟨hc, hposition⟩
  obtain ⟨c', hc', htarget, hbefore⟩ := exists_call?_of_name_eq hname hc
  obtain ⟨hmem, hposition'⟩ := mem_calls_at_iff.mpr ⟨n, reached, hreached, hc'⟩
  exact ⟨c', hmem, hposition', htarget, hbefore⟩

/-- Behind an entry, two lists that differ in its option come to the same, if the
calls for it leave alike. -/
theorem same_behind_option (hname : entry.name = entry'.name)
    (hleave : ∀ c ∈ st.calls (before ++ entry :: after) hook handler,
      ∀ c' ∈ st.calls (before ++ entry' :: after) hook handler,
      c.position = before.length → c'.position = before.length → Call.LeaveAlike handler c c') :
    (st.calls (before ++ entry :: after) hook handler).filter (before.length < ·.position) =
        (st.calls (before ++ entry' :: after) hook handler).filter (before.length < ·.position) ∧
      (visitAll hook handler (before ++ entry :: after) 0 st).1 =
        (visitAll hook handler (before ++ entry' :: after) 0 st).1 ∧
      Alike (visitAll hook handler (before ++ entry :: after) 0 st).2
        (visitAll hook handler (before ++ entry' :: after) 0 st).2 := by
  rw [visitAll_append, visitAll_append]
  rcases hreached : visitAll hook handler before 0 st with ⟨f | n, reached⟩
  · have hsame (rest : List PluginEntry) :
        st.calls (before ++ rest) hook handler = callsFrom hook handler 0 before st := by
      rw [calls, callsFrom_append hook handler before rest 0 0, hreached]
      exact List.append_nil _
    exact ⟨by rw [hsame, hsame], rfl, rfl, rfl, rfl, rfl⟩
  · obtain ⟨hanswer, halike⟩ := visit_of_leaveAlike hname fun c c' hc hc' => by
      obtain ⟨hmem, hposition⟩ := mem_calls_at_iff.mpr ⟨n, reached, hreached, hc⟩
      obtain ⟨hmem', hposition'⟩ := mem_calls_at_iff.mpr ⟨n, reached, hreached, hc'⟩
      exact hleave c hmem c' hmem' hposition hposition'
    rw [filter_behind_calls hreached, filter_behind_calls hreached]
    simp only [visitAll]
    revert hanswer halike
    rcases visit hook handler entry reached with ⟨answer, next⟩
    rcases visit hook handler entry' reached with ⟨answer', next'⟩
    rintro rfl halike
    cases answer with
    | error f => exact ⟨rfl, rfl, halike⟩
    | ok called => exact halike.visitAll hook handler after _ _

/-- Every handler finds the option of its own entry, whatever those before it wrote
there; and a dispatch is the same for another handler that does the same in these calls,
whatever that does in any other scene.  Two lists that differ in the option of one entry come to the same calls up to
that entry, and to calls for it that find the same but for the option.  If these
leave alike, whatever each leaves for an option, the calls behind the entry, the
answer, and all that the dispatch leaves but the option and the log are the same, too. -/
theorem option_isolation (hook : Hook) (handler : Plugin σ ω → Handler σ ω D)
    (st : Stage σ ω D) :
    (∀ entries, ∀ c ∈ st.calls entries hook handler,
      entries[c.position]? = some c.entry ∧ c.before.event.option = c.entry.option) ∧
    (∀ entries (handler' : Plugin σ ω → Handler σ ω D),
      (∀ c ∈ st.calls entries hook handler,
        handler' c.target.plugin c.before = handler c.target.plugin c.before) →
          st.dispatch entries hook handler' = st.dispatch entries hook handler) ∧
    ∀ (before after : List PluginEntry) (entry entry' : PluginEntry), entry.name = entry'.name →
      let entries := before ++ entry :: after
      let entries' := before ++ entry' :: after
      (st.calls entries hook handler).filter (·.position < before.length) =
        (st.calls entries' hook handler).filter (·.position < before.length) ∧
      (∀ c ∈ st.calls entries hook handler, c.position = before.length →
        ∃ c' ∈ st.calls entries' hook handler, c'.position = before.length ∧
          c'.target = c.target ∧
          c'.before = { c.before with event := c.before.event.setOption entry'.option }) ∧
      ((∀ c ∈ st.calls entries hook handler, ∀ c' ∈ st.calls entries' hook handler,
          c.position = before.length → c'.position = before.length →
            Call.LeaveAlike handler c c') →
        (st.calls entries hook handler).filter (before.length < ·.position) =
          (st.calls entries' hook handler).filter (before.length < ·.position) ∧
        (st.dispatch entries hook handler).1 = (st.dispatch entries' hook handler).1 ∧
        Alike (st.dispatch entries hook handler).2 (st.dispatch entries' hook handler).2) := by
  refine ⟨fun entries c hc => ?_, fun entries handler' h => dispatch_congr h,
    fun before after entry entry' hname => ⟨?_, ?_, ?_⟩⟩
  · obtain ⟨k, hposition, hentry, -⟩ := call_of_mem hc
    obtain ⟨earlier, later, hsplit⟩ := List.append_of_mem hc
    rw [Nat.zero_add] at hposition
    refine ⟨hposition ▸ hentry, ?_⟩
    rw [before_of_callsFrom hsplit, Event.option_setOption]
  · rw [filter_before_calls, filter_before_calls]
  · exact fun c hc hposition => same_up_to_option hname hc hposition
  · intro hleave
    obtain ⟨hcalls, hanswer, halike⟩ := same_behind_option hname hleave
    have hd := dispatch_alike (before ++ entry :: after) hook handler st
    have hd' := dispatch_alike (before ++ entry' :: after) hook handler st
    exact ⟨hcalls, hd.1.trans (hanswer.trans hd'.1.symm), hd.2.trans (halike.trans hd'.2.symm)⟩

end Stage

/-- A plugin that counts its calls and writes to the option of the event. -/
def Plugin.tampering : Plugin Nat Unit where
  name := "tampering"
  hooks := [.code]
  handle _ scene :=
    let event := scene.event.setOption (.arr [scene.event.option])
    (.ok (), { scene with state := scene.state + 1, event })

/-- A plugin that handles nothing. -/
def Plugin.bystander : Plugin Nat Unit where
  name := "bystander"
  hooks := []
  handle _ := .skip

namespace Stage

/-- A stage with a plugin that tampers with options, and a bystander. -/
def tampered : Stage Nat Unit CodeData where
  resolver :=
    { registry :=
        { entries :=
            [("bystander", .shared ⟨.given 1, .bystander, 0⟩),
              ("tampering", .shared ⟨.given 0, .tampering, 0⟩)] } }
  event := .assigned { code := "fn main() {}", filePath := "main.rs" }
  host := { memory := () }

/-- An option that a plugin has written reaches no plugin behind it, not even past a
bystander. -/
theorem option_isolation_tampered :
    let handler := fun p : Plugin Nat Unit => p.handle .code
    let rest : List PluginEntry := [⟨"bystander", .null⟩, ⟨"tampering", .int 7⟩]
    let entries : List PluginEntry := ⟨"tampering", .null⟩ :: rest
    let entries' : List PluginEntry := ⟨"tampering", .bool true⟩ :: rest
    (tampered.calls entries .code handler).map (·.after.event.option) ≠
        (tampered.calls entries' .code handler).map (·.after.event.option) ∧
      (tampered.calls entries .code handler).filter (0 < ·.position) =
        (tampered.calls entries' .code handler).filter (0 < ·.position) ∧
      (tampered.dispatch entries .code handler).1 =
        (tampered.dispatch entries' .code handler).1 := by
  intro handler rest entries entries'
  have hcalls : tampered.calls entries .code handler = [_, _] := rfl
  have hcalls' : tampered.calls entries' .code handler = [_, _] := rfl
  obtain ⟨-, -, h⟩ := option_isolation .code handler tampered
  obtain ⟨-, -, hbehind⟩ := h [] rest ⟨"tampering", .null⟩ ⟨"tampering", .bool true⟩ rfl
  obtain ⟨hfilter, hanswer, -⟩ := hbehind fun c hc c' hc' hposition hposition' => by
    rw [List.nil_append] at hc hc'
    rw [hcalls] at hc
    rw [hcalls'] at hc'
    simp only [List.mem_cons, List.not_mem_nil, or_false] at hc hc'
    rcases hc with rfl | rfl
    · rcases hc' with rfl | rfl
      · exact ⟨rfl, rfl, rfl, rfl, .inr rfl⟩
      · cases hposition'
    · cases hposition
  refine ⟨?_, hfilter, hanswer⟩
  rw [hcalls, hcalls']
  simp

end Stage

end PluginChain
