import PluginChain.Dispatch
import PluginChain.Proofs.Resolution
set_option autoImplicit false

/-!
# The calls of a hook

Taking a hook through a list of entries comes down to the calls that are made on
the way.  A `Call` says for which place of the list it was made, of which
instance, what the handler was given and what it left.  `Stage.calls` lists them
for a whole dispatch.

What an entry comes to is one of four things (`Stage.Outcome`).  From that, each
call finds the event, the private state and the files as the calls before it left
them (`Stage.before_of_callsFrom`), and the dispatch leaves them as its calls do
(`Stage.leaves_of_visitAll`).
-/

namespace PluginChain

/-- One call of a handler. -/
structure Call (σ ω D : Type) where
  /-- The place in the list of the entry that the call was made for. -/
  position : Nat
  entry : PluginEntry
  /-- The instance whose handler was called. -/
  target : Instance σ ω
  /-- What the handler was given. -/
  before : Scene σ ω D
  result : Except Fault Unit
  /-- What the handler left. -/
  after : Scene σ ω D

namespace Call

variable {σ ω D : Type}

/-- The event as some calls leave it. -/
def eventAfter (seed : Event D) (calls : List (Call σ ω D)) : Event D :=
  match calls.getLast? with
  | none => seed
  | some c => c.after.event

/-- The host as some calls leave it, without its log. -/
def hostAfter (seed : Host ω) (calls : List (Call σ ω D)) : Host ω :=
  match calls.getLast? with
  | none => seed.quiet
  | some c => c.after.host.quiet

/-- The private state of an instance as some calls leave it: as the last call of
that instance left it, or as the resolver had it. -/
def stateAfter (r : Resolver σ ω) (i : Instance σ ω) (calls : List (Call σ ω D)) : σ :=
  match (calls.filter fun c => c.target.id = i.id).getLast? with
  | none => r.stateOf i
  | some c => c.after.state

theorem eventAfter_append (seed : Event D) (a b : List (Call σ ω D)) :
    eventAfter seed (a ++ b) = eventAfter (eventAfter seed a) b := by
  unfold eventAfter
  rw [List.getLast?_append]
  cases b.getLast? <;> rfl

theorem hostAfter_append (seed : Host ω) (a b : List (Call σ ω D)) :
    hostAfter seed (a ++ b) = hostAfter (hostAfter seed a) b := by
  unfold hostAfter
  rw [List.getLast?_append]
  cases b.getLast? with
  | some c => rfl
  | none => cases a.getLast? <;> rfl

/-- Calls that follow on others work on the private states which these left. -/
theorem stateAfter_append {r r' : Resolver σ ω} {i : Instance σ ω} {a : List (Call σ ω D)}
    (h : r'.stateOf i = stateAfter r i a) (b : List (Call σ ω D)) :
    stateAfter r i (a ++ b) = stateAfter r' i b := by
  unfold stateAfter at h ⊢
  rw [List.filter_append, List.getLast?_append, h]
  cases (b.filter fun c => c.target.id = i.id).getLast? <;> rfl

/-- A host of which handlers see nothing else is left alike. -/
theorem hostAfter_congr {h h' : Host ω} (hq : h.quiet = h'.quiet) (calls : List (Call σ ω D)) :
    hostAfter h calls = hostAfter h' calls := by
  unfold hostAfter
  rw [hq]

end Call

namespace Stage

variable {σ ω D : Type}

/-- The call that is made for an entry, where one is made. -/
def call? (hook : Hook) (handler : Plugin σ ω → Handler σ ω D) (position : Nat)
    (entry : PluginEntry) (st : Stage σ ω D) : Option (Call σ ω D) :=
  match st.resolver.instance? entry.name with
  | none => none
  | some i =>
    if i.plugin.handles hook then
      let before : Scene σ ω D :=
        { state := st.resolver.stateOf i, event := st.event.setOption entry.option
          host := st.host.quiet }
      let (result, after) := handler i.plugin before
      some { position, entry, target := i, before, result, after }
    else none

/-- The calls that are made for entries which stand in their list from a position
on. -/
def callsFrom (hook : Hook) (handler : Plugin σ ω → Handler σ ω D) :
    Nat → List PluginEntry → Stage σ ω D → List (Call σ ω D)
  | _, [], _ => []
  | position, entry :: rest, st =>
    (st.call? hook handler position entry).toList ++
      match visit hook handler entry st with
      | (.error _, _) => []
      | (.ok _, st) => callsFrom hook handler (position + 1) rest st

/-- The calls that taking a hook through a list of entries makes, in order. -/
def calls (entries : List PluginEntry) (hook : Hook) (handler : Plugin σ ω → Handler σ ω D)
    (st : Stage σ ω D) : List (Call σ ω D) := callsFrom hook handler 0 entries st

/-- Two stages that differ in their logs alone. -/
structure SameButLog (st st' : Stage σ ω D) : Prop where
  resolver : st.resolver = st'.resolver
  event : st.event = st'.event
  host : st.host.quiet = st'.host.quiet

/-- Two stages that differ in the option of their event and in their logs alone.  No
entry can tell them apart. -/
structure Alike (st st' : Stage σ ω D) : Prop where
  resolver : st.resolver = st'.resolver
  data : st.event.data = st'.event.data
  extra : st.event.extra = st'.event.extra
  host : st.host.quiet = st'.host.quiet

/-- The stage that a call leaves. -/
def leftBy (c : Call σ ω D) (st : Stage σ ω D) : Stage σ ω D :=
  { resolver := (st.resolver.settled c.entry.name).setState c.target c.after.state
    event := c.after.event
    host := c.after.host }

/-- The stage after an entry whose plugin is not called. -/
def passedOver (entry : PluginEntry) (st : Stage σ ω D) : Stage σ ω D :=
  { st with resolver := st.resolver.settled entry.name }

/-! ## What an entry comes to -/

variable {hook : Hook} {handler : Plugin σ ω → Handler σ ω D} {entry : PluginEntry}
  {st : Stage σ ω D}

/-- A call is made exactly for an entry whose plugin handles the hook, and it is the
call of that plugin's handler. -/
theorem call?_eq_some_iff {position : Nat} {c : Call σ ω D} :
    st.call? hook handler position entry = some c ↔
      st.resolver.instance? entry.name = some c.target ∧ c.target.plugin.handles hook = true ∧
      c.position = position ∧ c.entry = entry ∧
      c.before = ⟨st.resolver.stateOf c.target, st.event.setOption entry.option, st.host.quiet⟩ ∧
      (c.result, c.after) = handler c.target.plugin c.before := by
  unfold call?
  cases hi : st.resolver.instance? entry.name with
  | none => simp
  | some i =>
    by_cases hh : i.plugin.handles hook = true
    · simp only [hh, if_true, Option.some.injEq]
      constructor
      · rintro rfl
        exact ⟨rfl, hh, rfl, rfl, rfl, rfl⟩
      · obtain ⟨place, called, target, before, result, after⟩ := c
        dsimp only
        rintro ⟨rfl, -, rfl, rfl, rfl, hcall⟩
        simp [← hcall]
    · simp only [hh, Option.some.injEq]
      constructor
      · intro h
        cases h
      · rintro ⟨rfl, hh', -⟩
        exact absurd hh' hh

theorem call?_eq_none_iff {position : Nat} :
    st.call? hook handler position entry = none ↔
      ∀ i, st.resolver.instance? entry.name = some i → i.plugin.handles hook = false := by
  unfold call?
  cases hi : st.resolver.instance? entry.name with
  | none => simp
  | some i =>
    by_cases hh : i.plugin.handles hook = true <;> simp [hh]

/-- A call finds the stage as it is, but for the option. -/
theorem before_of_call? {position : Nat} {c : Call σ ω D}
    (hc : st.call? hook handler position entry = some c) :
    c.before =
      ⟨st.resolver.stateOf c.target, st.event.setOption c.entry.option, st.host.quiet⟩ := by
  obtain ⟨-, -, -, rfl, hbefore, -⟩ := call?_eq_some_iff.mp hc
  exact hbefore

/-- What an entry comes to: the call that is made for it, if one is, the answer, and
the stage after it. -/
inductive Outcome (hook : Hook) (handler : Plugin σ ω → Handler σ ω D) (entry : PluginEntry)
    (st : Stage σ ω D) : Option (Call σ ω D) → Except Fault Bool → Stage σ ω D → Prop
  /-- It has no plugin. -/
  | unresolved {next : Stage σ ω D} (instance?_eq : st.resolver.instance? entry.name = none)
      (same : SameButLog next st) :
      Outcome hook handler entry st none
        (.error (st.resolver.missing st.host.files entry.name).fault) next
  /-- Its plugin does not handle the hook. -/
  | passed {i : Instance σ ω} {next : Stage σ ω D}
      (instance?_eq : st.resolver.instance? entry.name = some i)
      (unhandled : i.plugin.handles hook = false) (same : SameButLog next (st.passedOver entry)) :
      Outcome hook handler entry st none (.ok false) next
  /-- Its plugin was called. -/
  | called {c : Call σ ω D} {next : Stage σ ω D} (result : c.result = .ok ())
      (same : SameButLog next (st.leftBy c)) : Outcome hook handler entry st (some c) (.ok true) next
  /-- Its plugin was called and failed. -/
  | failed {c : Call σ ω D} {f : Fault} {next : Stage σ ω D} (result : c.result = .error f)
      (same : SameButLog next (st.leftBy c)) :
      Outcome hook handler entry st (some c) (.error (handlerFault hook entry f)) next

/-- An entry for which a call is made comes to what that call comes to. -/
theorem outcome_of_call {position : Nat} {c : Call σ ω D}
    (hc : st.call? hook handler position entry = some c) :
    Outcome hook handler entry st (some c) (visit hook handler entry st).1
      (visit hook handler entry st).2 := by
  obtain ⟨hi, hh, -, hentry, hbefore, hcall⟩ := call?_eq_some_iff.mp hc
  obtain ⟨host, hr, hquiet⟩ := Resolver.resolve_of_some hi st.host
  -- The scene in which the dispatcher calls the handler is the one in the call.
  have hscene : handler c.target.plugin
      ⟨(st.resolver.settled entry.name).stateOf c.target, st.event.setOption entry.option,
        { host with log := [] }⟩ = (c.result, c.after) := by
    rw [hcall, hbefore, Resolver.stateOf_settled, ← hquiet]
    rfl
  rw [visit, hr]
  simp only [hh, if_true, note, Stage.call, Host.note, hscene]
  cases hresult : c.result with
  | ok _ => exact .called hresult ⟨by rw [leftBy, hentry], rfl, rfl⟩
  | error f => exact .failed hresult ⟨by rw [leftBy, hentry], rfl, rfl⟩

/-- Every entry comes to one of the four things. -/
theorem outcome_of_visit (hook : Hook) (handler : Plugin σ ω → Handler σ ω D) (position : Nat)
    (entry : PluginEntry) (st : Stage σ ω D) :
    Outcome hook handler entry st (st.call? hook handler position entry)
      (visit hook handler entry st).1 (visit hook handler entry st).2 := by
  cases hc : st.call? hook handler position entry with
  | some c => exact outcome_of_call hc
  | none =>
    cases hi : st.resolver.instance? entry.name with
    | none =>
      obtain ⟨host, hr, hquiet⟩ := Resolver.resolve_of_none hi st.host
      rw [visit, hr]
      exact .unresolved hi ⟨rfl, rfl, hquiet⟩
    | some i =>
      have hh := call?_eq_none_iff.mp hc i hi
      obtain ⟨host, hr, hquiet⟩ := Resolver.resolve_of_some hi st.host
      rw [visit, hr]
      simp only [hh, Bool.false_eq_true, if_false]
      exact .passed hi hh ⟨rfl, rfl, hquiet⟩

/-- An entry keeps the instances that identifiers stand for. -/
theorem Outcome.instance?_next {call : Option (Call σ ω D)} {answer : Except Fault Bool}
    {next : Stage σ ω D} (h : Outcome hook handler entry st call answer next)
    (identifier : String) :
    next.resolver.instance? identifier = st.resolver.instance? identifier := by
  cases h with
  | unresolved _ same => rw [same.resolver]
  | passed _ _ same => rw [same.resolver, passedOver, Resolver.instance?_settled]
  | called _ same | failed _ same =>
    rw [same.resolver, leftBy, Resolver.instance?_setState, Resolver.instance?_settled]

/-- After an entry the event is as its call left it. -/
theorem Outcome.event_next {call : Option (Call σ ω D)} {answer : Except Fault Bool}
    {next : Stage σ ω D} (h : Outcome hook handler entry st call answer next) :
    next.event = Call.eventAfter st.event call.toList := by
  cases h with
  | unresolved _ same | passed _ _ same | called _ same | failed _ same => exact same.event

/-- After an entry the files and the memory are as its call left them. -/
theorem Outcome.host_next {call : Option (Call σ ω D)} {answer : Except Fault Bool}
    {next : Stage σ ω D} (h : Outcome hook handler entry st call answer next) :
    next.host.quiet = Call.hostAfter st.host call.toList := by
  cases h with
  | unresolved _ same | passed _ _ same | called _ same | failed _ same => exact same.host

/-- After an entry every private state is as its call left it. -/
theorem Outcome.stateOf_next {call : Option (Call σ ω D)} {answer : Except Fault Bool}
    {next : Stage σ ω D} (h : Outcome hook handler entry st call answer next)
    (i : Instance σ ω) :
    next.resolver.stateOf i = Call.stateAfter st.resolver i call.toList := by
  cases h with
  | unresolved _ same => rw [same.resolver]; rfl
  | passed _ _ same => rw [same.resolver, passedOver, Resolver.stateOf_settled]; rfl
  | @called c _ _ same | @failed c _ _ _ same =>
    rw [same.resolver, leftBy]
    by_cases hid : c.target.id = i.id
    · simp [Resolver.stateOf_setState_of_eq _ hid, Call.stateAfter, hid]
    · simp [Resolver.stateOf_setState_of_ne _ hid, Call.stateAfter, hid]

/-! ## What a list of entries comes to -/

variable {position calls : Nat} {rest : List PluginEntry}

/-- An entry that fails ends the list. -/
theorem visitAll_of_error {f : Fault} (h : (visit hook handler entry st).1 = .error f) :
    visitAll hook handler (entry :: rest) calls st = (.error f, (visit hook handler entry st).2) := by
  have hv : visit hook handler entry st = (.error f, (visit hook handler entry st).2) :=
    Prod.ext h rfl
  rw [visitAll, hv]

/-- An entry that does not fail leads on to the others. -/
theorem visitAll_of_ok {called : Bool} (h : (visit hook handler entry st).1 = .ok called) :
    visitAll hook handler (entry :: rest) calls st =
      visitAll hook handler rest (if called then calls + 1 else calls)
        (visit hook handler entry st).2 := by
  have hv : visit hook handler entry st = (.ok called, (visit hook handler entry st).2) :=
    Prod.ext h rfl
  rw [visitAll, hv]

theorem callsFrom_of_error {f : Fault} (h : (visit hook handler entry st).1 = .error f) :
    callsFrom hook handler position (entry :: rest) st =
      (st.call? hook handler position entry).toList := by
  have hv : visit hook handler entry st = (.error f, (visit hook handler entry st).2) :=
    Prod.ext h rfl
  rw [callsFrom, hv]
  exact List.append_nil _

theorem callsFrom_of_ok {called : Bool} (h : (visit hook handler entry st).1 = .ok called) :
    callsFrom hook handler position (entry :: rest) st =
      (st.call? hook handler position entry).toList ++
        callsFrom hook handler (position + 1) rest (visit hook handler entry st).2 := by
  have hv : visit hook handler entry st = (.ok called, (visit hook handler entry st).2) :=
    Prod.ext h rfl
  rw [callsFrom, hv]

/-- The calls for a list are the one for its first entry and, unless that fails, those
for the rest. -/
theorem mem_callsFrom_cons {c : Call σ ω D} :
    c ∈ callsFrom hook handler position (entry :: rest) st ↔
      c ∈ st.call? hook handler position entry ∨
        (∃ called, (visit hook handler entry st).1 = .ok called) ∧
          c ∈ callsFrom hook handler (position + 1) rest (visit hook handler entry st).2 := by
  cases hv : (visit hook handler entry st).1 with
  | error f => simp [callsFrom_of_error hv]
  | ok called => simp [callsFrom_of_ok hv]

/-- An entry counts as a call exactly when one was made for it. -/
theorem length_call? {called : Bool} (h : (visit hook handler entry st).1 = .ok called) :
    (st.call? hook handler position entry).toList.length = if called then 1 else 0 := by
  have hout := outcome_of_visit hook handler position entry st
  rw [h] at hout
  generalize st.call? hook handler position entry = call at hout ⊢
  cases hout <;> rfl

/-- What the entries of a list leave is what the calls made for them leave. -/
theorem leaves_of_visitAll (hook : Hook) (handler : Plugin σ ω → Handler σ ω D)
    (entries : List PluginEntry) (position calls : Nat) (st : Stage σ ω D) :
    (visitAll hook handler entries calls st).2.event =
        Call.eventAfter st.event (callsFrom hook handler position entries st) ∧
      (visitAll hook handler entries calls st).2.host.quiet =
        Call.hostAfter st.host (callsFrom hook handler position entries st) ∧
      ∀ i, (visitAll hook handler entries calls st).2.resolver.stateOf i =
        Call.stateAfter st.resolver i (callsFrom hook handler position entries st) := by
  induction entries generalizing position calls st with
  | nil => exact ⟨rfl, rfl, fun _ => rfl⟩
  | cons entry rest ih =>
    have hout := outcome_of_visit hook handler position entry st
    cases hv : (visit hook handler entry st).1 with
    | error f =>
      rw [visitAll_of_error hv, callsFrom_of_error hv]
      exact ⟨hout.event_next, hout.host_next, hout.stateOf_next⟩
    | ok called =>
      rw [visitAll_of_ok hv, callsFrom_of_ok hv]
      obtain ⟨hevent, hhost, hstate⟩ :=
        ih (position + 1) (if called then calls + 1 else calls) (visit hook handler entry st).2
      refine ⟨?_, ?_, fun i => ?_⟩
      · rw [hevent, Call.eventAfter_append, hout.event_next]
      · rw [hhost, Call.hostAfter_append, ← hout.host_next]
        exact Call.hostAfter_congr rfl _
      · rw [hstate, Call.stateAfter_append (hout.stateOf_next i)]

/-- A call among those for an entry and for the rest of its list is the one for the
entry, or one of the others behind it. -/
theorem eq_or_mem_of_split {call : Option (Call σ ω D)} {tail earlier later : List (Call σ ω D)}
    {c : Call σ ω D} (h : call.toList ++ tail = earlier ++ c :: later) :
    (call = some c ∧ earlier = []) ∨
      ∃ between, earlier = call.toList ++ between ∧ tail = between ++ c :: later := by
  cases call with
  | none => exact .inr ⟨earlier, rfl, h⟩
  | some d =>
    cases earlier with
    | nil =>
      simp only [Option.toList_some, List.singleton_append, List.nil_append, List.cons.injEq] at h
      exact .inl ⟨by rw [h.1], rfl⟩
    | cons e between =>
      simp only [Option.toList_some, List.cons_append, List.cons.injEq] at h
      exact .inr ⟨between, by rw [h.1]; rfl, h.2⟩

/-- Each call finds the event, the private state of its instance, the files and the
memory as the calls before it left them, but for the option, which is that of its
entry. -/
theorem before_of_callsFrom {hook : Hook} {handler : Plugin σ ω → Handler σ ω D}
    {entries : List PluginEntry} {position : Nat} {st : Stage σ ω D}
    {earlier later : List (Call σ ω D)} {c : Call σ ω D}
    (h : callsFrom hook handler position entries st = earlier ++ c :: later) :
    c.before =
      { state := Call.stateAfter st.resolver c.target earlier
        event := (Call.eventAfter st.event earlier).setOption c.entry.option
        host := Call.hostAfter st.host earlier } := by
  induction entries generalizing position st earlier with
  | nil => simp [callsFrom] at h
  | cons entry rest ih =>
    have hout := outcome_of_visit hook handler position entry st
    cases hv : (visit hook handler entry st).1 with
    | error f =>
      rw [callsFrom_of_error hv, ← List.append_nil (Option.toList _)] at h
      rcases eq_or_mem_of_split h with ⟨hc, rfl⟩ | ⟨between, -, htail⟩
      · exact before_of_call? hc
      · simp at htail
    | ok called =>
      rw [callsFrom_of_ok hv] at h
      rcases eq_or_mem_of_split h with ⟨hc, rfl⟩ | ⟨between, hearlier, htail⟩
      · exact before_of_call? hc
      · rw [ih htail, hearlier, Call.stateAfter_append (hout.stateOf_next c.target),
          Call.eventAfter_append, Call.hostAfter_append, hout.event_next, ← hout.host_next]
        congr 1

/-! ## Stages that are alike -/

theorem SameButLog.alike {st st' : Stage σ ω D} (h : SameButLog st st') : Alike st st' :=
  ⟨h.resolver, by rw [h.event], by rw [h.event], h.host⟩

theorem Alike.symm {st st' : Stage σ ω D} (h : Alike st st') : Alike st' st :=
  ⟨h.resolver.symm, h.data.symm, h.extra.symm, h.host.symm⟩

theorem Alike.trans {st st' st'' : Stage σ ω D} (h : Alike st st') (h' : Alike st' st'') :
    Alike st st'' :=
  ⟨h.resolver.trans h'.resolver, h.data.trans h'.data, h.extra.trans h'.extra,
    h.host.trans h'.host⟩

theorem alike_note (st : Stage σ ω D) (r : LogRecord) : Alike (st.note r) st :=
  ⟨rfl, rfl, rfl, rfl⟩

theorem alike_passedOver {st st' : Stage σ ω D} (h : Alike st st') (entry : PluginEntry) :
    Alike (st.passedOver entry) (st'.passedOver entry) :=
  ⟨by rw [passedOver, passedOver, h.resolver], h.data, h.extra, h.host⟩

theorem alike_leftBy {st st' : Stage σ ω D} (h : Alike st st') (c : Call σ ω D) :
    Alike (st.leftBy c) (st'.leftBy c) :=
  ⟨by rw [leftBy, leftBy, h.resolver], rfl, rfl, rfl⟩

/-- The option of an entry takes the place of whatever the event had for one. -/
theorem Alike.setOption_eq {st st' : Stage σ ω D} (h : Alike st st') (option : Json) :
    st.event.setOption option = st'.event.setOption option := by
  simp only [Event.setOption, h.data, h.extra]

/-- The same call is made in stages that are alike. -/
theorem Alike.call?_eq {st st' : Stage σ ω D} (h : Alike st st') (hook : Hook)
    (handler : Plugin σ ω → Handler σ ω D) (position : Nat) (entry : PluginEntry) :
    st.call? hook handler position entry = st'.call? hook handler position entry := by
  unfold call?
  rw [h.resolver, h.setOption_eq, h.host]

/-- An entry comes to the same in stages that are alike, and leaves them alike. -/
theorem Outcome.alike {st st' next next' : Stage σ ω D} {call : Option (Call σ ω D)}
    {answer answer' : Except Fault Bool} (h : Alike st st')
    (hout : Outcome hook handler entry st call answer next)
    (hout' : Outcome hook handler entry st' call answer' next') :
    answer = answer' ∧ Alike next next' := by
  cases hout with
  | unresolved hi same =>
    cases hout' with
    | unresolved _ same' =>
      refine ⟨?_, same.alike.trans (h.trans same'.alike.symm)⟩
      rw [Resolver.missing_congr (by rw [h.resolver]) (Host.files_eq_of_quiet h.host)]
    | passed hi' _ _ => simp [← h.resolver, hi] at hi'
  | passed hi _ same =>
    cases hout' with
    | unresolved hi' _ => simp [← h.resolver, hi] at hi'
    | passed _ _ same' =>
      exact ⟨rfl, same.alike.trans ((alike_passedOver h _).trans same'.alike.symm)⟩
  | called hresult same =>
    cases hout' with
    | called _ same' => exact ⟨rfl, same.alike.trans ((alike_leftBy h _).trans same'.alike.symm)⟩
    | failed hresult' _ => simp [hresult] at hresult'
  | failed hresult same =>
    cases hout' with
    | called hresult' _ => simp [hresult] at hresult'
    | failed hresult' same' =>
      obtain rfl := Except.error.inj (hresult.symm.trans hresult')
      exact ⟨rfl, same.alike.trans ((alike_leftBy h _).trans same'.alike.symm)⟩

/-- A list of entries comes to the same in stages that are alike, by the same calls,
and leaves them alike. -/
theorem Alike.visitAll {st st' : Stage σ ω D} (h : Alike st st') (hook : Hook)
    (handler : Plugin σ ω → Handler σ ω D) (entries : List PluginEntry) (position calls : Nat) :
    callsFrom hook handler position entries st = callsFrom hook handler position entries st' ∧
      (visitAll hook handler entries calls st).1 = (visitAll hook handler entries calls st').1 ∧
      Alike (visitAll hook handler entries calls st).2
        (visitAll hook handler entries calls st').2 := by
  induction entries generalizing position calls st st' with
  | nil => exact ⟨rfl, rfl, h⟩
  | cons entry rest ih =>
    have hcall := h.call?_eq hook handler position entry
    have hout := outcome_of_visit hook handler position entry st
    rw [hcall] at hout
    obtain ⟨hanswer, halike⟩ := hout.alike h (outcome_of_visit hook handler position entry st')
    cases hv : (visit hook handler entry st').1 with
    | error f =>
      rw [hv] at hanswer
      rw [callsFrom_of_error hanswer, callsFrom_of_error hv, visitAll_of_error hanswer,
        visitAll_of_error hv]
      exact ⟨by rw [hcall], rfl, halike⟩
    | ok called =>
      rw [hv] at hanswer
      rw [callsFrom_of_ok hanswer, callsFrom_of_ok hv, visitAll_of_ok hanswer, visitAll_of_ok hv]
      obtain ⟨hcalls, hrest⟩ := ih halike (position + 1) (if called then calls + 1 else calls)
      exact ⟨by rw [hcall, hcalls], hrest⟩

/-- A dispatch goes through its list from a stage that is alike. -/
theorem dispatch_alike (entries : List PluginEntry) (hook : Hook)
    (handler : Plugin σ ω → Handler σ ω D) (st : Stage σ ω D) :
    (st.dispatch entries hook handler).1 = (visitAll hook handler entries 0 st).1 ∧
      Alike (st.dispatch entries hook handler).2 (visitAll hook handler entries 0 st).2 :=
  ((alike_note st _).visitAll hook handler entries 0 0).2

end Stage

end PluginChain
