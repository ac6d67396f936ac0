import PluginChain.Proofs.CallOrder
import PluginChain.Proofs.InstanceIdentity
set_option autoImplicit false

/-!
# What is loaded after a list of entries

A history of resolutions loads what its identifiers stand for and leaves all other
identifiers alone, in the cache and in the registry (`Resolver.Leads.get?_cache`,
`Resolver.Leads.get?_registry_of_not_mem`).  A list of entries is resolved entry by
entry up to the first that fails, so its history names the first entries of the list
(`Stage.prefix_identifiers`), and all of them where none fails.
-/

namespace PluginChain

namespace Resolver

variable {σ ω : Type} {r r' : Resolver σ ω} {history : List (Resolution σ ω)}

theorem SameLoaded.instance?_eq (h : SameLoaded r r') (identifier : String) :
    r.instance? identifier = r'.instance? identifier := by
  unfold instance?
  rw [h.registry, h.cache]

/-- After a history, the cache has the instances that its identifiers stand for, and for
all other identifiers what it had before. -/
theorem Leads.get?_cache (hleads : Leads r history r') (identifier : String) :
    Keyed.get? identifier r'.cache =
      if identifier ∈ history.map (·.identifier) then r.instance? identifier
      else Keyed.get? identifier r.cache := by
  induction hleads with
  | nil same => simp [same.cache]
  | @cons r r' q rest same _ ih =>
    rw [ih, q.after_eq_settled, instance?_settled, get?_cache_settled, ← same.instance?_eq,
      ← same.instance?_eq, ← same.cache, List.map_cons]
    by_cases hrest : identifier ∈ rest.map (·.identifier)
    · simp [hrest]
    · by_cases hq : q.identifier = identifier
      · simp [hrest, hq]
      · simp [hrest, hq, Ne.symm hq]

/-- A history leaves the registrations of all other identifiers as they were. -/
theorem Leads.get?_registry_of_not_mem (hleads : Leads r history r') {identifier : String}
    (h : identifier ∉ history.map (·.identifier)) :
    Keyed.get? identifier r'.registry.entries = Keyed.get? identifier r.registry.entries := by
  induction hleads with
  | nil same => rw [same.registry]
  | @cons r r' q rest same _ ih =>
    rw [List.map_cons, List.mem_cons, not_or] at h
    rw [ih h.2, q.after_eq_settled, get?_registry_settled_of_ne _ (Ne.symm h.1), ← same.registry]

/-- A history of what was loaded before it leaves the registry and the cache as they
were. -/
theorem Leads.sameLoaded (hleads : Leads r history r')
    (h : ∀ q ∈ history, r.isLoaded q.identifier = true) : SameLoaded r r' := by
  induction hleads with
  | nil same => exact same
  | @cons r r' q rest same _ ih =>
    obtain ⟨hq, hrest⟩ := List.forall_mem_cons.mp h
    have hafter : q.after = q.before := by
      rw [isLoaded_eq, same.cache, Option.isSome_iff_exists] at hq
      obtain ⟨i, hi⟩ := hq
      rw [q.after_eq_settled, settled_of_cached hi]
    rw [hafter] at ih
    refine same.trans (ih fun e he => ?_)
    rw [isLoaded_eq, ← same.cache]
    exact hrest e he

/-- What was loaded stays so. -/
theorem Leads.isLoaded_of_isLoaded (hleads : Leads r history r') {identifier : String}
    (h : r.isLoaded identifier = true) : r'.isLoaded identifier = true :=
  (isLoaded_of_leads hleads identifier).mpr (.inl h)

/-- What is loaded stands for an instance. -/
theorem instance?_ne_none_of_isLoaded {identifier : String} (h : r.isLoaded identifier = true) :
    r.instance? identifier ≠ none := by
  obtain ⟨i, hi⟩ := Option.isSome_iff_exists.mp h
  simp [instance?_of_cached hi]

@[simp] theorem localDir_settled (r : Resolver σ ω) (identifier : String) :
    (r.settled identifier).localDir = r.localDir := by
  rcases settled_cases r identifier with ⟨h, -⟩ | ⟨i, -, h⟩ <;> rw [h]

end Resolver

namespace Stage

variable {σ ω D : Type} {hook : Hook} {handler : Plugin σ ω → Handler σ ω D}
  {entry : PluginEntry} {rest entries : List PluginEntry} {calls n : Nat} {st : Stage σ ω D}

theorem resolutions_of_error {f : Fault} (h : (visit hook handler entry st).1 = .error f) :
    resolutions hook handler (entry :: rest) st = [⟨entry.name, st.resolver, st.host⟩] := by
  have hv : visit hook handler entry st = (.error f, (visit hook handler entry st).2) :=
    Prod.ext h rfl
  rw [resolutions, hv]

theorem resolutions_of_ok {called : Bool} (h : (visit hook handler entry st).1 = .ok called) :
    resolutions hook handler (entry :: rest) st =
      ⟨entry.name, st.resolver, st.host⟩ ::
        resolutions hook handler rest (visit hook handler entry st).2 := by
  have hv : visit hook handler entry st = (.ok called, (visit hook handler entry st).2) :=
    Prod.ext h rfl
  rw [resolutions, hv]

/-- The resolutions of a list are those of its first entries, in their order. -/
theorem prefix_identifiers (hook : Hook) (handler : Plugin σ ω → Handler σ ω D)
    (entries : List PluginEntry) (st : Stage σ ω D) :
    (resolutions hook handler entries st).map (·.identifier) <+: entries.map (·.name) := by
  induction entries generalizing st with
  | nil => exact List.prefix_rfl
  | cons entry rest ih =>
    cases hv : (visit hook handler entry st).1 with
    | error f =>
      rw [resolutions_of_error hv]
      exact List.prefix_append [entry.name] _
    | ok called =>
      rw [resolutions_of_ok hv]
      exact (List.prefix_cons_inj _).mpr (ih _)

/-- Where no entry of a list fails, each is resolved. -/
theorem identifiers_of_visitAll_ok (h : (visitAll hook handler entries calls st).1 = .ok n) :
    (resolutions hook handler entries st).map (·.identifier) = entries.map (·.name) := by
  induction entries generalizing calls st with
  | nil => rfl
  | cons entry rest ih =>
    cases hv : (visit hook handler entry st).1 with
    | error f =>
      rw [visitAll_of_error hv] at h
      cases h
    | ok called =>
      rw [visitAll_of_ok hv] at h
      rw [resolutions_of_ok hv, List.map_cons, List.map_cons, ih h]

/-- Where no entry of a list fails, each stands for an instance. -/
theorem instance?_ne_none_of_visitAll_ok
    (h : (visitAll hook handler entries calls st).1 = .ok n) :
    ∀ e ∈ entries, st.resolver.instance? e.name ≠ none := by
  intro e he hnone
  obtain ⟨k, hk⟩ := List.mem_iff_getElem?.mp he
  have hfails := ((visitAll_eq_ok_iff hook handler entries 0 calls st n).mp h).1 k
  exact hfails ⟨e, hk, .inl hnone⟩

/-- Where no entry of a list fails, all of them are loaded. -/
theorem isLoaded_of_visitAll_ok (h : (visitAll hook handler entries calls st).1 = .ok n) :
    ∀ e ∈ entries,
      (visitAll hook handler entries calls st).2.resolver.isLoaded e.name = true := by
  intro e he
  have hleads := leads_visitAll hook handler entries calls st
  have hmem : e.name ∈ (resolutions hook handler entries st).map (·.identifier) := by
    rw [identifiers_of_visitAll_ok h]
    exact List.mem_map_of_mem he
  rw [Resolver.isLoaded_eq, hleads.get?_cache, if_pos hmem]
  exact Option.isSome_iff_ne_none.mpr (instance?_ne_none_of_visitAll_ok h e he)

end Stage

end PluginChain
