import PluginChain.Proofs.Answers
import PluginChain.Proofs.Loading
set_option autoImplicit false

/-!
# Entries that a hook passes over

`Woven short inserted long` says that `long` is `short` with the entries of `inserted`
put in anywhere.  A hook goes through the two lists in step: an entry of both comes to
the same in both runs, and an entry that was put in, if its plugin does not handle the
hook, changes nothing but what is loaded.

`Resolver.Beside` is what the two runs keep in common: all private states, and all of
what is loaded but for the identifiers that were put in.  A factory builds from its own
serial number alone, so to load more changes nothing of what an identifier stands for.
-/

namespace PluginChain

/-- A list, further entries, and the list with these put in at any places. -/
inductive Woven : List PluginEntry → List PluginEntry → List PluginEntry → Prop
  | nil : Woven [] [] []
  | kept (entry : PluginEntry) {short inserted long : List PluginEntry}
      (rest : Woven short inserted long) : Woven (entry :: short) inserted (entry :: long)
  | putIn (entry : PluginEntry) {short inserted long : List PluginEntry}
      (rest : Woven short inserted long) : Woven short (entry :: inserted) (entry :: long)

/-- Every list is put into the empty one. -/
theorem Woven.into_nil (entries : List PluginEntry) : Woven [] entries entries := by
  induction entries with
  | nil => exact .nil
  | cons entry rest ih => exact .putIn entry ih

/-- The call wherever in its list its entry stands. -/
def Call.unplaced {σ ω D : Type} (c : Call σ ω D) : Call σ ω D := { c with position := 0 }

/-! ## Resolvers that have loaded more -/

namespace Registry

variable {σ ω : Type}

/-- What becomes of a registration hangs on it alone. -/
theorem get?_create_congr {r r' : Registry σ ω} {identifier : String}
    (h : Keyed.get? identifier r.entries = Keyed.get? identifier r'.entries) :
    Keyed.get? identifier (r.create identifier).2.entries =
      Keyed.get? identifier (r'.create identifier).2.entries := by
  cases hr : Keyed.get? identifier r.entries with
  | none => rw [create_of_none hr, create_of_none (h.symm.trans hr), h]
  | some registration =>
    cases registration with
    | shared i => rw [create_of_shared hr, create_of_shared (h.symm.trans hr), h]
    | factory built make =>
      rw [create_of_factory hr, create_of_factory (h.symm.trans hr)]
      simp only [Keyed.get?_modify_self, h]

end Registry

namespace Resolver

variable {σ ω : Type} {r r' : Resolver σ ω} {ids : List String}

/-- Two resolvers that have the same private states and that are the same but for some
identifiers, of which the second may have loaded more. -/
structure Beside (ids : List String) (r r' : Resolver σ ω) : Prop where
  /-- They agree on what an identifier stands for, also for those. -/
  instance?_eq (identifier : String) : r.instance? identifier = r'.instance? identifier
  states : r.states = r'.states
  localDir : r.localDir = r'.localDir
  cache (identifier : String) (h : identifier ∉ ids) :
    Keyed.get? identifier r.cache = Keyed.get? identifier r'.cache
  registry (identifier : String) (h : identifier ∉ ids) :
    Keyed.get? identifier r.registry.entries = Keyed.get? identifier r'.registry.entries
  /-- What is loaded in the first is so in the second. -/
  loaded {identifier : String} {i : Instance σ ω} (h : Keyed.get? identifier r.cache = some i) :
    Keyed.get? identifier r'.cache = some i

namespace Beside

theorem refl (ids : List String) (r : Resolver σ ω) : Beside ids r r :=
  ⟨fun _ => rfl, rfl, rfl, fun _ _ => rfl, fun _ _ => rfl, fun h => h⟩

theorem stateOf_eq (h : Beside ids r r') (i : Instance σ ω) : r.stateOf i = r'.stateOf i := by
  simp only [stateOf, h.states]

/-- A new private state of an instance is one in both. -/
theorem setState (h : Beside ids r r') (i : Instance σ ω) (s : σ) :
    Beside ids (r.setState i s) (r'.setState i s) where
  instance?_eq := h.instance?_eq
  states := by simp only [Resolver.setState, h.states]
  localDir := h.localDir
  cache := h.cache
  registry := h.registry
  loaded := h.loaded

/-- The registration of an identifier outside of those becomes the same by a resolution
of it. -/
theorem get?_registry_settled_self (h : Beside ids r r') {identifier : String}
    (hid : identifier ∉ ids) :
    Keyed.get? identifier (r.settled identifier).registry.entries =
      Keyed.get? identifier (r'.settled identifier).registry.entries := by
  have hregistry := h.registry identifier hid
  have hcache := h.cache identifier hid
  cases hc : Keyed.get? identifier r.cache with
  | some i =>
    rw [settled_of_cached hc, settled_of_cached (hcache.symm.trans hc), hregistry]
  | none =>
    have hc' := hcache.symm.trans hc
    cases hi : r.instance? identifier with
    | none =>
      rw [settled_of_none hi, settled_of_none ((h.instance?_eq identifier).symm.trans hi),
        hregistry]
    | some i =>
      have hi' := (h.instance?_eq identifier).symm.trans hi
      rw [instance?_of_not_cached hc] at hi
      rw [instance?_of_not_cached hc'] at hi'
      rw [settled_of_created hc hi, settled_of_created hc' hi']
      exact Registry.get?_create_congr hregistry

/-- The same identifier is resolved in both. -/
theorem settled (h : Beside ids r r') (identifier : String) :
    Beside ids (r.settled identifier) (r'.settled identifier) where
  instance?_eq other := by simp only [instance?_settled, h.instance?_eq]
  states := by simp only [states_settled, h.states]
  localDir := by simp only [localDir_settled, h.localDir]
  cache other hother := by
    rw [get?_cache_settled, get?_cache_settled, h.instance?_eq, h.cache other hother]
  registry other hother := by
    by_cases hk : identifier = other
    · subst hk
      exact h.get?_registry_settled_self hother
    · rw [get?_registry_settled_of_ne r hk, get?_registry_settled_of_ne r' hk,
        h.registry other hother]
  loaded {other i} hi := by
    rw [get?_cache_settled] at hi ⊢
    by_cases hk : identifier = other
    · rw [if_pos hk, ← h.instance?_eq]
      rwa [if_pos hk] at hi
    · rw [if_neg hk] at hi ⊢
      exact h.loaded hi

/-- One of those identifiers is resolved in the second alone. -/
theorem settled_right (h : Beside ids r r') {identifier : String} (hid : identifier ∈ ids) :
    Beside ids r (r'.settled identifier) where
  instance?_eq other := by rw [instance?_settled, h.instance?_eq]
  states := by rw [states_settled, h.states]
  localDir := by rw [localDir_settled, h.localDir]
  cache other hother := by
    have hne : identifier ≠ other := fun hk => hother (hk ▸ hid)
    rw [get?_cache_settled, if_neg hne, h.cache other hother]
  registry other hother := by
    have hne : identifier ≠ other := fun hk => hother (hk ▸ hid)
    rw [get?_registry_settled_of_ne r' hne, h.registry other hother]
  loaded hi := get?_cache_settled_of_some identifier (h.loaded hi)

end Beside

end Resolver

/-! ## Two lists in step -/

namespace Stage

variable {σ ω D : Type} {hook : Hook} {handler : Plugin σ ω → Handler σ ω D}
  {entry : PluginEntry} {ids : List String} {st st' : Stage σ ω D}

/-- Two stages that differ in their logs and in what is loaded for some identifiers. -/
structure Beside (ids : List String) (st st' : Stage σ ω D) : Prop where
  resolver : Resolver.Beside ids st.resolver st'.resolver
  event : st.event = st'.event
  host : st.host.quiet = st'.host.quiet

namespace Beside

theorem of_sameButLog {next next' : Stage σ ω D} (h : Beside ids st st')
    (same : SameButLog next st) (same' : SameButLog next' st') : Beside ids next next' where
  resolver := by
    rw [same.resolver, same'.resolver]
    exact h.resolver
  event := same.event.trans (h.event.trans same'.event.symm)
  host := same.host.trans (h.host.trans same'.host.symm)

theorem passedOver (h : Beside ids st st') (entry : PluginEntry) :
    Beside ids (st.passedOver entry) (st'.passedOver entry) :=
  ⟨h.resolver.settled entry.name, h.event, h.host⟩

/-- Calls that differ in their places alone leave the same. -/
theorem leftBy (h : Beside ids st st') {c c' : Call σ ω D} (hc : c.unplaced = c'.unplaced) :
    Beside ids (st.leftBy c) (st'.leftBy c') := by
  have hleft : st.leftBy c = st.leftBy c'.unplaced := by
    rw [← hc]
    rfl
  rw [hleft]
  exact ⟨(h.resolver.settled c'.entry.name).setState c'.target c'.after.state, rfl, rfl⟩

/-- The same call is made for an entry, at whatever places it stands. -/
theorem call?_eq (h : Beside ids st st') (hook : Hook) (handler : Plugin σ ω → Handler σ ω D)
    (position position' : Nat) (entry : PluginEntry) :
    (st.call? hook handler position entry).map (·.unplaced) =
      (st'.call? hook handler position' entry).map (·.unplaced) := by
  unfold call?
  rw [h.resolver.instance?_eq, h.event, h.host]
  cases st'.resolver.instance? entry.name with
  | none => rfl
  | some i =>
    dsimp only
    rw [h.resolver.stateOf_eq]
    split <;> rfl

end Beside

/-- An entry of both lists comes to the same, and leaves the stages as they were to each
other. -/
theorem Outcome.beside {next next' : Stage σ ω D} {call call' : Option (Call σ ω D)}
    {answer answer' : Except Fault Bool} (h : Beside ids st st')
    (hcall : call.map (·.unplaced) = call'.map (·.unplaced))
    (hout : Outcome hook handler entry st call answer next)
    (hout' : Outcome hook handler entry st' call' answer' next') :
    answer = answer' ∧ Beside ids next next' := by
  have hinstance := h.resolver.instance?_eq entry.name
  cases hout with
  | unresolved hi same =>
    cases hout' with
    | unresolved _ same' =>
      refine ⟨?_, h.of_sameButLog same same'⟩
      rw [Resolver.missing_congr h.resolver.localDir (Host.files_eq_of_quiet h.host)]
    | passed hi' _ _ => simp [← hinstance, hi] at hi'
    | called | failed => cases hcall
  | passed hi _ same =>
    cases hout' with
    | unresolved hi' _ => simp [← hinstance, hi] at hi'
    | passed _ _ same' => exact ⟨rfl, (h.passedOver entry).of_sameButLog same same'⟩
    | called | failed => cases hcall
  | called hresult same =>
    cases hout' with
    | unresolved | passed => cases hcall
    | called _ same' =>
      have hc := Option.some.inj hcall
      exact ⟨rfl, (h.leftBy hc).of_sameButLog same same'⟩
    | failed hresult' _ =>
      have hresults := congrArg Call.result (Option.some.inj hcall)
      cases hresult.symm.trans (hresults.trans hresult')
  | failed hresult same =>
    cases hout' with
    | unresolved | passed => cases hcall
    | called hresult' _ =>
      have hresults := congrArg Call.result (Option.some.inj hcall)
      cases hresult.symm.trans (hresults.trans hresult')
    | failed hresult' same' =>
      have hc := Option.some.inj hcall
      have hresults := congrArg Call.result hc
      obtain rfl := Except.error.inj (hresult.symm.trans (hresults.trans hresult'))
      exact ⟨rfl, (h.leftBy hc).of_sameButLog same same'⟩

/-- An entry that a hook passes over makes no call and changes nothing but what is
loaded. -/
theorem Beside.passed (h : Beside ids st st') {i : Instance σ ω} (hid : entry.name ∈ ids)
    (hi : st.resolver.instance? entry.name = some i) (hh : i.plugin.handles hook = false)
    (handler : Plugin σ ω → Handler σ ω D) (position : Nat) :
    st'.call? hook handler position entry = none ∧
      (visit hook handler entry st').1 = .ok false ∧
      Beside ids st (visit hook handler entry st').2 := by
  have hi' : st'.resolver.instance? entry.name = some i :=
    (h.resolver.instance?_eq entry.name).symm.trans hi
  have hcall : st'.call? hook handler position entry = none := by
    rw [call?_eq_none_iff]
    intro j hj
    obtain rfl := Option.some.inj (hi'.symm.trans hj)
    exact hh
  have hout := outcome_of_visit hook handler position entry st'
  rw [hcall] at hout
  refine ⟨hcall, ?_⟩
  generalize (visit hook handler entry st').1 = answer at hout ⊢
  cases hout with
  | unresolved hnone _ => cases hi'.symm.trans hnone
  | passed _ _ same =>
    have hpassed : Beside ids st (st'.passedOver entry) :=
      ⟨h.resolver.settled_right hid, h.event, h.host⟩
    exact ⟨rfl, hpassed.of_sameButLog ⟨rfl, rfl, rfl⟩ same⟩

/-- A list comes to the same, by the same calls, with further entries put in that the hook
passes over. -/
theorem Beside.visitAll {short inserted long : List PluginEntry}
    (hwoven : Woven short inserted long) (h : Beside ids st st')
    (hpassed : ∀ e ∈ inserted, e.name ∈ ids ∧
      ∃ i, st.resolver.instance? e.name = some i ∧ i.plugin.handles hook = false)
    (handler : Plugin σ ω → Handler σ ω D) (position position' calls : Nat) :
    (callsFrom hook handler position short st).map (·.unplaced) =
        (callsFrom hook handler position' long st').map (·.unplaced) ∧
      (Stage.visitAll hook handler short calls st).1 =
        (Stage.visitAll hook handler long calls st').1 ∧
      Beside ids (Stage.visitAll hook handler short calls st).2
        (Stage.visitAll hook handler long calls st').2 := by
  induction hwoven generalizing st st' position position' calls with
  | nil => exact ⟨rfl, rfl, h⟩
  | kept entry _ ih =>
    have hcall := h.call?_eq hook handler position position' entry
    have hout := outcome_of_visit hook handler position entry st
    obtain ⟨hanswer, hnext⟩ :=
      hout.beside h hcall (outcome_of_visit hook handler position' entry st')
    have htoList := congrArg Option.toList hcall
    rw [Option.toList_map, Option.toList_map] at htoList
    cases hv : (visit hook handler entry st').1 with
    | error f =>
      rw [hv] at hanswer
      rw [callsFrom_of_error hanswer, callsFrom_of_error hv, visitAll_of_error hanswer,
        visitAll_of_error hv]
      exact ⟨htoList, rfl, hnext⟩
    | ok called =>
      rw [hv] at hanswer
      rw [callsFrom_of_ok hanswer, callsFrom_of_ok hv, visitAll_of_ok hanswer, visitAll_of_ok hv]
      simp only [← hout.instance?_next] at hpassed
      obtain ⟨hcalls, hrest⟩ := ih hnext hpassed (position + 1) (position' + 1)
        (if called then calls + 1 else calls)
      rw [List.map_append, List.map_append, htoList, hcalls]
      exact ⟨rfl, hrest⟩
  | putIn entry _ ih =>
    obtain ⟨⟨hid, i, hi, hh⟩, hrest⟩ := List.forall_mem_cons.mp hpassed
    obtain ⟨hcall, hanswer, hnext⟩ := h.passed hid hi hh handler position'
    rw [callsFrom_of_ok hanswer, hcall, visitAll_of_ok hanswer]
    exact ih hnext hrest position (position' + 1) calls

/-- The same of a whole dispatch. -/
theorem Beside.dispatch {short inserted long : List PluginEntry}
    (hwoven : Woven short inserted long) (h : Beside ids st st')
    (hpassed : ∀ e ∈ inserted, e.name ∈ ids ∧
      ∃ i, st.resolver.instance? e.name = some i ∧ i.plugin.handles hook = false)
    (handler : Plugin σ ω → Handler σ ω D) :
    (st.calls short hook handler).map (·.unplaced) =
        (st'.calls long hook handler).map (·.unplaced) ∧
      (st.dispatch short hook handler).1 = (st'.dispatch long hook handler).1 ∧
      Beside ids (st.dispatch short hook handler).2 (st'.dispatch long hook handler).2 := by
  obtain ⟨hcalls, hanswer, hleft⟩ := h.visitAll hwoven hpassed handler 0 0 0
  obtain ⟨hshort, hst⟩ := dispatch_sameButLog short hook handler st
  obtain ⟨hlong, hst'⟩ := dispatch_sameButLog long hook handler st'
  exact ⟨hcalls, hshort.trans (hanswer.trans hlong.symm), hleft.of_sameButLog hst hst'⟩

end Stage

/-! ## Two runs -/

namespace Run

variable {σ ω α : Type} {run : Run σ ω} {hook : Hook} {inserted padded : List PluginEntry}

/-- An active list and the same with further entries put in that the hook passes over, in
two dispatches of one event. -/
theorem pass_beside (event : Event (hook.Data ω))
    (hwoven : Woven run.manager.plugins inserted padded)
    (hpassed : ∀ e ∈ inserted, ∃ i, run.manager.resolver.instance? e.name = some i ∧
      i.plugin.handles hook = false) :
    (((run.stage event).calls run.manager.plugins hook fun p => p.handle hook).map
          (·.unplaced) =
        ((run.stage event).calls padded hook fun p => p.handle hook).map (·.unplaced)) ∧
      (run.pass hook run.manager.plugins event).1 = (run.pass hook padded event).1 ∧
      Stage.Beside (inserted.map (·.name)) (run.pass hook run.manager.plugins event).2
        (run.pass hook padded event).2 := by
  have hstart : Stage.Beside (inserted.map (·.name)) (run.stage event) (run.stage event) :=
    ⟨.refl _ _, rfl, rfl⟩
  exact hstart.dispatch hwoven (fun e he => ⟨List.mem_map_of_mem he, hpassed e he⟩) _

/-- A hook answers the same with such entries put in. -/
theorem through_beside (event : Except Fault (Event (hook.Data ω)))
    (result : Event (hook.Data ω) → Except Fault α)
    (hwoven : Woven run.manager.plugins inserted padded)
    (hpassed : ∀ e ∈ inserted, ∃ i, run.manager.resolver.instance? e.name = some i ∧
      i.plugin.handles hook = false) :
    let other := run.withPlugins padded
    (run.through hook event result).1 = (other.through hook event result).1 ∧
      Resolver.Beside (inserted.map (·.name)) (run.through hook event result).2.manager.resolver
        (other.through hook event result).2.manager.resolver ∧
      (run.through hook event result).2.host.quiet =
        (other.through hook event result).2.host.quiet := by
  intro other
  cases event with
  | error f => exact ⟨rfl, .refl _ _, rfl⟩
  | ok event =>
    obtain ⟨-, hanswer, hleft⟩ := pass_beside event hwoven hpassed
    have hother : other.pass hook other.manager.plugins event = run.pass hook padded event := rfl
    rw [fst_through_ok, fst_through_ok, snd_through_ok, snd_through_ok, hother, hanswer,
      hleft.event]
    exact ⟨rfl, hleft.resolver, hleft.host⟩

end Run

namespace Step

variable {σ ω : Type} {s : Step ω} {run : Run σ ω}

/-- The calls that a step makes, wherever in the list their entries stand. -/
def invocations (s : Step ω) (run : Run σ ω) : List ((hook : Hook) × Call σ ω (hook.Data ω)) :=
  (s.calls run).map fun c => ⟨c.1, c.2.unplaced⟩

theorem invocations_of_opening (hlist : s.list? = none) {hook : Hook}
    {event : Event (hook.Data ω)} (hopening : s.opening run.manager = some ⟨hook, .ok event⟩) :
    s.invocations run =
      (((run.stage event).calls run.manager.plugins hook fun p => p.handle hook).map
        (·.unplaced)).map fun c => ⟨hook, c⟩ := by
  rw [invocations, calls_of_opening hopening, hlist, List.map_map, List.map_map]
  rfl

end Step

namespace Run

variable {σ ω : Type}

/-- A hook other than the plugin-list hook passes over the entries whose plugins do not
handle it.  With any number of them put into the active list, at any places, it answers
with the same value or the same error, calls the same handlers with the same events, and
leaves the same private states, files and memory.  It leaves the same cache and the same
registrations too, but for the identifiers of those entries, of which it may have loaded
more. -/
theorem unhandled_entries_skipped (run : Run σ ω) {s : Step ω} (hlist : s.list? = none)
    {hook : Hook} {event : Except Fault (Event (hook.Data ω))}
    (hopening : s.opening run.manager = some ⟨hook, event⟩) {inserted padded : List PluginEntry}
    (hwoven : Woven run.manager.plugins inserted padded)
    (hunhandled : ∀ e ∈ inserted, ∃ i,
      (run.manager.resolver.resolve e.name run.host).1 = .ok i ∧
        i.plugin.handles hook = false) :
    let other := run.withPlugins padded
    (s.answer run).1 = (s.answer other).1 ∧
      s.invocations run = s.invocations other ∧
      Resolver.Beside (inserted.map (·.name)) (s.answer run).2.manager.resolver
        (s.answer other).2.manager.resolver ∧
      (s.answer run).2.host.quiet = (s.answer other).2.host.quiet := by
  intro other
  simp only [Resolver.resolve_eq_ok_iff] at hunhandled
  have hcapabilities : other.manager.capabilities = run.manager.capabilities := rfl
  have hopening' : s.opening other.manager = some ⟨hook, event⟩ :=
    (Step.opening_congr hcapabilities s).trans hopening
  obtain ⟨reading, hreading⟩ := Step.exists_reading hlist hopening
  have hbeside := through_beside event (fun event => (reading event).mapError .ofMismatch)
    hwoven hunhandled
  rw [hreading run rfl, hreading other rfl]
  refine ⟨hbeside.1, ?_, hbeside.2⟩
  cases event with
  | error f =>
    rw [Step.invocations, Step.invocations, Step.calls_of_refused hopening,
      Step.calls_of_refused hopening']
  | ok event =>
    rw [Step.invocations_of_opening hlist hopening, Step.invocations_of_opening hlist hopening',
      (pass_beside event hwoven hunhandled).1]
    rfl

end Run

/-- A plugin that adds to every source text and counts the texts. -/
def Plugin.stamping : Plugin Nat Unit where
  name := "stamping"
  hooks := [.code]
  handle
    | .code => fun scene =>
      let data : CodeData := scene.event.data
      (.ok (),
        { scene with
          state := scene.state + 1
          event := { scene.event with data := { data with code := data.code ++ "!" } } })
    | _ => .skip

/-- A plugin that handles the end alone. -/
def Plugin.closing : Plugin Nat Unit where
  name := "closing"
  hooks := [.complete]
  handle := fun _ => .skip

namespace Run

/-- A run with a plugin that stamps, beside one that does not. -/
def stamped : Run Nat Unit where
  manager :=
    { plugins := [⟨"stamping", .null⟩]
      resolver :=
        { registry :=
            { entries :=
                [("closing", .factory 0 fun _ => (.closing, 0)),
                  ("stamping", .factory 0 fun _ => (.stamping, 0))] } } }
  host := { memory := () }

/-- Two entries around the one that stamps leave the text as that one makes it. -/
theorem unhandled_entries_skipped_stamped :
    let s : Step Unit := .code "text" "a.rs"
    let other := stamped.withPlugins
      [⟨"closing", .null⟩, ⟨"stamping", .null⟩, ⟨"closing", .bool true⟩]
    s.list? = none ∧
      Woven stamped.manager.plugins [⟨"closing", .null⟩, ⟨"closing", .bool true⟩]
        other.manager.plugins ∧
      (s.answer stamped).1 = .ok "text!" ∧ (s.answer other).1 = .ok "text!" ∧
      s.invocations stamped = s.invocations other ∧
      Resolver.Beside ["closing", "closing"] (s.answer stamped).2.manager.resolver
        (s.answer other).2.manager.resolver := by
  intro s other
  have hwoven : Woven stamped.manager.plugins [⟨"closing", .null⟩, ⟨"closing", .bool true⟩]
      other.manager.plugins := .putIn _ (.kept _ (.putIn _ .nil))
  have hunhandled : ∀ e ∈ [PluginEntry.mk "closing" .null, ⟨"closing", .bool true⟩], ∃ i,
      (stamped.manager.resolver.resolve e.name stamped.host).1 = .ok i ∧
        i.plugin.handles .code = false := by
    simp only [List.forall_mem_cons]
    refine ⟨⟨⟨.built "closing" 1, .closing, 0⟩, rfl, rfl⟩,
      ⟨⟨.built "closing" 1, .closing, 0⟩, rfl, rfl⟩, fun e he => ?_⟩
    cases he
  obtain ⟨hanswer, hcalls, hbeside, -⟩ :=
    unhandled_entries_skipped stamped (s := s) rfl rfl hwoven hunhandled
  have hstamped : (s.answer stamped).1 = .ok "text!" := rfl
  exact ⟨rfl, hwoven, hstamped, hanswer.symm.trans hstamped, hcalls, hbeside⟩

end Run

end PluginChain
