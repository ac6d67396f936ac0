import PluginChain.Proofs.CallOrder
set_option autoImplicit false

/-!
# How often an instance is called

In one hook an instance is called once for each entry that stands for it, up to the first
entry that fails (`Stage.countP_callsFrom`).  The induction runs over the list, as that of
the order of the calls does.
-/

namespace PluginChain

variable {σ ω : Type}

/-- Whether an entry stands for an instance. -/
def Resolver.standsFor (r : Resolver σ ω) (i : Instance σ ω) (e : PluginEntry) : Bool :=
  (r.instance? e.name).any fun j => j.id = i.id

/-- Whether an instance shares its identity with no other. -/
def Resolver.Alone (r : Resolver σ ω) (i : Instance σ ω) : Prop :=
  ∀ identifier j, r.instance? identifier = some j → j.id = i.id → j = i

/-- What factories build bears the identifier for which it is built, so it is not mistaken
for anything else. -/
theorem Resolver.alone_of_factories {r : Resolver σ ω} (hcache : r.cache = [])
    (hfactories : ∀ identifier i, Keyed.get? identifier r.registry.entries ≠ some (.shared i))
    {identifier : String} {i : Instance σ ω} (hi : r.instance? identifier = some i) :
    r.Alone i := by
  have hbuilt (identifier : String) (j : Instance σ ω) (hj : r.instance? identifier = some j) :
      ∃ serial, j.id = .built identifier serial := by
    rw [instance?_of_not_cached (by rw [hcache]; rfl)] at hj
    cases hget : Keyed.get? identifier r.registry.entries with
    | none =>
      rw [Registry.create_of_none hget] at hj
      cases hj
    | some registration =>
      cases registration with
      | shared k => exact absurd hget (hfactories identifier k)
      | factory built make =>
        rw [Registry.create_of_factory hget] at hj
        cases hj
        exact ⟨built + 1, rfl⟩
  intro other j hj hid
  obtain ⟨serial, hserial⟩ := hbuilt identifier i hi
  obtain ⟨serial', hserial'⟩ := hbuilt other j hj
  rw [hserial, hserial'] at hid
  obtain ⟨rfl, -⟩ := InstanceId.built.inj hid
  exact Option.some.inj (hj.symm.trans hi)

/-- A call finds an empty log. -/
theorem Call.log_hostAfter {D : Type} (seed : Host ω) (calls : List (Call σ ω D)) :
    (Call.hostAfter seed calls).log = [] := by
  unfold Call.hostAfter
  cases calls.getLast? <;> rfl

namespace Stage

variable {D : Type} {hook : Hook} {handler : Plugin σ ω → Handler σ ω D} {st : Stage σ ω D}
  {i : Instance σ ω} {entries : List PluginEntry} {entry : PluginEntry} {position n : Nat}

/-- Where an instance that handles the hook shares its identity with no other, it is called
exactly for an entry that stands for it. -/
theorem countP_call? (hhandles : i.plugin.handles hook = true) (halone : st.resolver.Alone i) :
    (st.call? hook handler position entry).toList.countP (fun c => c.target.id = i.id) =
      if st.resolver.standsFor i entry then 1 else 0 := by
  unfold Resolver.standsFor
  cases hc : st.call? hook handler position entry with
  | some c =>
    rw [(call?_eq_some_iff.mp hc).1]
    simp
  | none =>
    cases hi : st.resolver.instance? entry.name with
    | none => rfl
    | some j =>
      have hne : j.id ≠ i.id := by
        intro hid
        have hunhandled := call?_eq_none_iff.mp hc j hi
        rw [halone _ j hi hid, hhandles] at hunhandled
        cases hunhandled
      simp [hne]

/-- Such an instance is called once for each entry that stands for it, up to the first that
fails. -/
theorem countP_callsFrom (hhandles : i.plugin.handles hook = true)
    (halone : st.resolver.Alone i)
    (hfirst : ∀ l < n, ¬ FailsFrom hook handler position entries st l)
    (hend : entries.length ≤ n ∨ FailsFrom hook handler position entries st n ∧
      ∀ e, entries[n]? = some e → st.resolver.standsFor i e = false) :
    (callsFrom hook handler position entries st).countP (fun c => c.target.id = i.id) =
      (entries.take n).countP (st.resolver.standsFor i) := by
  induction entries generalizing position n st with
  | nil =>
    rw [List.take_nil]
    rfl
  | cons entry rest ih =>
    have hfirstCall :
        (st.call? hook handler position entry).toList.countP (fun c => c.target.id = i.id) = _ :=
      countP_call? hhandles halone
    cases hv : (visit hook handler entry st).1 with
    | error f =>
      -- The entry fails, so it is the one at which the list ends.
      have hfails : FailsFrom hook handler position (entry :: rest) st 0 :=
        failsFrom_zero_of_error hv
      cases n with
      | succ n => exact absurd hfails (hfirst 0 n.succ_pos)
      | zero =>
        have hother : st.resolver.standsFor i entry = false := by
          rcases hend with hshort | ⟨-, hother⟩
          · cases hshort
          · exact hother entry rfl
        rw [callsFrom_of_error hv, hfirstCall, hother]
        rfl
    | ok called =>
      have hnot : ¬ FailsFrom hook handler position (entry :: rest) st 0 :=
        not_failsFrom_zero_of_ok hv
      cases n with
      | zero =>
        rcases hend with hshort | ⟨hfails, -⟩
        · cases hshort
        · exact absurd hfails hnot
      | succ n =>
        have hsame := (outcome_of_visit hook handler position entry st).instance?_next
        have hstands : (visit hook handler entry st).2.resolver.standsFor i =
            st.resolver.standsFor i := by
          funext e
          rw [Resolver.standsFor, Resolver.standsFor, hsame]
        have hrest := @ih (visit hook handler entry st).2 (position + 1) n
          (fun identifier j hj => halone identifier j (hsame identifier ▸ hj))
          (fun l hl => (not_congr (failsFrom_succ hv l)).mp (hfirst (l + 1) (Nat.succ_lt_succ hl)))
          (by
            rw [hstands]
            refine hend.imp Nat.le_of_succ_le_succ fun hfails => ?_
            exact ⟨(failsFrom_succ hv n).mp hfails.1, fun e he => hfails.2 e he⟩)
        rw [callsFrom_of_ok hv, List.countP_append, hfirstCall, hrest, hstands,
          List.take_succ_cons, List.countP_cons, Nat.add_comm]

end Stage

end PluginChain
