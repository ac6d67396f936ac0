import PluginChain.Proofs.History
import PluginChain.Proofs.Offers
set_option autoImplicit false

/-!
# One instance for an identifier

A resolver that starts with a registry of offers gives, for an identifier, the one
instance that the accepted offer gave when it was first asked, and asks it no second
time.  The invariant is `Resolver.Grounded`: a source counts as asked exactly if its
identifier is in the cache, and there is its instance.  No resolution breaks it, and
what is between resolutions does not touch it.
-/

namespace PluginChain

open Resolver (Leads SameLoaded)

namespace Resolver

variable {σ ω : Type} {offers : List (Offer σ ω)} {r r' : Resolver σ ω}
  {history : List (Resolution σ ω)} {identifier other : String}

/-- A resolver that has not resolved anything. -/
def fresh (offers : List (Offer σ ω)) (localDir : String) : Resolver σ ω :=
  { registry := .offered offers, localDir }

/-- The state of a resolver whose registry was made by offers. -/
structure Grounded (offers : List (Offer σ ω)) (r : Resolver σ ω) : Prop where
  /-- The registry has the sources of the offers, and those were asked that are
  loaded. -/
  registered (identifier : String) :
    Keyed.get? identifier r.registry.entries =
      (Registry.firstSource? identifier offers).map fun source =>
        if r.isLoaded identifier then source.spent else source.registration
  /-- The cache has what the sources gave. -/
  cached (identifier : String) (i : Instance σ ω) (h : Keyed.get? identifier r.cache = some i) :
    (Registry.firstSource? identifier offers).map (·.first identifier) = some i
  /-- The cache is in order. -/
  sorted : r.loaded.Pairwise (· < ·)

theorem isLoaded_eq (r : Resolver σ ω) (identifier : String) :
    r.isLoaded identifier = (Keyed.get? identifier r.cache).isSome := rfl

theorem grounded_fresh (offers : List (Offer σ ω)) (localDir : String) :
    Grounded offers (fresh offers localDir) := by
  refine ⟨fun identifier => ?_, fun identifier i h => ?_, List.Pairwise.nil⟩
  · exact Registry.get?_offered offers identifier
  · cases h

theorem Grounded.of_same (h : Grounded offers r) (same : SameLoaded r r') :
    Grounded offers r' := by
  obtain ⟨hregistered, hcached, hsorted⟩ := h
  refine ⟨fun identifier => ?_, fun identifier i hi => ?_, ?_⟩
  · have hloaded : r'.isLoaded identifier = r.isLoaded identifier := by
      rw [isLoaded_eq, isLoaded_eq, same.cache]
    rw [← same.registry, hloaded]
    exact hregistered identifier
  · rw [← same.cache] at hi
    exact hcached identifier i hi
  · unfold loaded at hsorted ⊢
    rw [← same.cache]
    exact hsorted

/-! ## What an identifier stands for -/

/-- What has not been loaded is created from a source that was never asked. -/
theorem Grounded.create_eq (h : Grounded offers r)
    (hc : Keyed.get? identifier r.cache = none) :
    (r.registry.create identifier).1 =
        (Registry.firstSource? identifier offers).map (·.first identifier) ∧
      Keyed.get? identifier (r.registry.create identifier).2.entries =
        (Registry.firstSource? identifier offers).map (·.spent) := by
  have hregistered := h.registered identifier
  rw [isLoaded_eq, hc] at hregistered
  cases hsource : Registry.firstSource? identifier offers with
  | none =>
    rw [hsource] at hregistered
    rw [Registry.create_of_none hregistered]
    exact ⟨rfl, hregistered⟩
  | some source =>
    rw [hsource] at hregistered
    cases source with
    | factory make =>
      rw [Registry.create_of_factory hregistered]
      refine ⟨rfl, ?_⟩
      rw [Keyed.get?_modify_self, hregistered]
      rfl
    | shared i =>
      rw [Registry.create_of_shared hregistered]
      exact ⟨rfl, hregistered⟩

/-- An identifier stands for what its source gave, or would give, when first asked. -/
theorem Grounded.instance?_eq (h : Grounded offers r) (identifier : String) :
    r.instance? identifier =
      (Registry.firstSource? identifier offers).map (·.first identifier) := by
  cases hc : Keyed.get? identifier r.cache with
  | some i => rw [instance?_of_cached hc, h.cached identifier i hc]
  | none => rw [instance?_of_not_cached hc, (h.create_eq hc).1]

/-! ## Single resolutions -/

/-- A resolution loads its own identifier, if that stands for an instance. -/
theorem isLoaded_settled (r : Resolver σ ω) (identifier other : String) :
    (r.settled identifier).isLoaded other =
      (r.isLoaded other || (identifier = other && (r.instance? identifier).isSome)) := by
  rw [isLoaded_eq, isLoaded_eq, get?_cache_settled]
  by_cases hk : identifier = other
  · subst hk
    cases hc : Keyed.get? identifier r.cache with
    | some i => simp [instance?_of_cached hc]
    | none => simp
  · simp [hk]

/-- A resolution keeps what was loaded. -/
theorem get?_cache_settled_of_some {i : Instance σ ω} (identifier : String)
    (h : Keyed.get? other r.cache = some i) :
    Keyed.get? other (r.settled identifier).cache = some i := by
  rw [get?_cache_settled]
  by_cases hk : identifier = other
  · rw [if_pos hk, hk, instance?_of_cached h]
  · rw [if_neg hk, h]

/-- A resolution asks the source of its own identifier, if it was not loaded. -/
theorem Grounded.get?_registry_settled (h : Grounded offers r) (identifier other : String) :
    Keyed.get? other (r.settled identifier).registry.entries =
      (Registry.firstSource? other offers).map fun source =>
        if (r.settled identifier).isLoaded other then source.spent else source.registration := by
  by_cases hk : identifier = other
  · subst hk
    cases hc : Keyed.get? identifier r.cache with
    | some i =>
      rw [settled_of_cached hc]
      exact h.registered identifier
    | none =>
      obtain ⟨hfirst, hspent⟩ := h.create_eq hc
      cases hsource : Registry.firstSource? identifier offers with
      | none =>
        have hnone : r.instance? identifier = none := by
          rw [h.instance?_eq, hsource]
          rfl
        rw [settled_of_none hnone, h.registered identifier, hsource]
      | some source =>
        rw [hsource] at hfirst hspent
        have hloaded : (r.settled identifier).isLoaded identifier = true := by
          rw [isLoaded_settled, h.instance?_eq, hsource]
          simp
        rw [hloaded, settled_of_created hc hfirst, hspent]
        rfl
  · have hloaded : (r.settled identifier).isLoaded other = r.isLoaded other := by
      rw [isLoaded_settled]
      simp [hk]
    rw [get?_registry_settled_of_ne r hk, hloaded]
    exact h.registered other

/-- A resolution keeps the cache in order. -/
theorem loaded_settled_sorted (h : r.loaded.Pairwise (· < ·)) (identifier : String) :
    (r.settled identifier).loaded.Pairwise (· < ·) := by
  rcases settled_cases r identifier with ⟨hsame, -⟩ | ⟨i, -, hcreated⟩
  · rwa [hsame]
  · rw [hcreated]
    exact Keyed.pairwise_keys_insert identifier i h

/-- No resolution breaks the invariant. -/
theorem Grounded.settled (h : Grounded offers r) (identifier : String) :
    Grounded offers (r.settled identifier) := by
  refine ⟨h.get?_registry_settled identifier, fun other i hi => ?_,
    loaded_settled_sorted h.sorted identifier⟩
  rw [get?_cache_settled] at hi
  by_cases hk : identifier = other
  · rw [if_pos hk, hk, h.instance?_eq] at hi
    exact hi
  · rw [if_neg hk] at hi
    exact h.cached other i hi

/-! ## Histories -/

/-- No history breaks the invariant. -/
theorem Grounded.leads (h : Grounded offers r) (hleads : Leads r history r') :
    Grounded offers r' := by
  induction hleads with
  | nil same => exact h.of_same same
  | @cons r r' q rest same _ ih =>
    apply ih
    rw [q.after_eq_settled]
    exact (h.of_same same).settled q.identifier

/-- What a history has loaded is what was loaded before it and what it has resolved. -/
theorem isLoaded_of_leads (hleads : Leads r history r') (identifier : String) :
    r'.isLoaded identifier = true ↔
      r.isLoaded identifier = true ∨
        ∃ q ∈ history, q.identifier = identifier ∧ ∃ i, q.answer = .ok i := by
  induction hleads with
  | nil same => simp [isLoaded_eq, same.cache]
  | @cons r r' q rest same _ ih =>
    have hq : (q.before.instance? q.identifier).isSome = true ↔ ∃ i, q.answer = .ok i := by
      simp only [q.answer_eq_ok_iff, Option.isSome_iff_exists]
    rw [ih, q.after_eq_settled, isLoaded_settled]
    have hsame : r.isLoaded identifier = q.before.isLoaded identifier := by
      rw [isLoaded_eq, isLoaded_eq, same.cache]
    rw [hsame]
    simp only [Bool.or_eq_true, Bool.and_eq_true, decide_eq_true_eq, hq, List.mem_cons,
      exists_eq_or_imp, or_assoc]

/-- A history keeps what was loaded. -/
theorem get?_cache_of_leads (hleads : Leads r history r') {i : Instance σ ω}
    (h : Keyed.get? identifier r.cache = some i) : Keyed.get? identifier r'.cache = some i := by
  induction hleads with
  | nil same => rwa [← same.cache]
  | @cons r r' q rest same _ ih =>
    apply ih
    rw [q.after_eq_settled]
    rw [same.cache] at h
    exact get?_cache_settled_of_some q.identifier h

/-! ## Calls of factories -/

/-- The factory of an identifier has been called once if the identifier is loaded, and
not at all before. -/
theorem Grounded.built_eq (h : Grounded offers r) (identifier : String) :
    r.registry.built identifier =
      match Registry.firstSource? identifier offers with
      | some (.factory _) => if r.isLoaded identifier then 1 else 0
      | _ => 0 := by
  rw [Registry.built, h.registered identifier]
  cases Registry.firstSource? identifier offers with
  | none => rfl
  | some source =>
    cases source with
    | factory make => cases r.isLoaded identifier <;> rfl
    | shared i => cases r.isLoaded identifier <;> rfl

/-- What a source was offered for is loaded as soon as it has been resolved. -/
theorem Grounded.isLoaded_iff_mem (h : Grounded offers r) (hleads : Leads r history r')
    (hfree : r.isLoaded identifier = false) {source : Source σ ω}
    (hsource : Registry.firstSource? identifier offers = some source) :
    r'.isLoaded identifier = true ↔ ∃ q ∈ history, q.identifier = identifier := by
  rw [isLoaded_of_leads hleads, hfree]
  constructor
  · rintro (hfalse | ⟨q, hq, hidentifier, -⟩)
    · cases hfalse
    · exact ⟨q, hq, hidentifier⟩
  · rintro ⟨q, hq, rfl⟩
    obtain ⟨earlier, later, hsplit⟩ := List.append_of_mem hq
    rw [hsplit] at hleads
    have hgrounded := h.leads hleads.split.1
    refine .inr ⟨q, hq, rfl, source.first q.identifier, ?_⟩
    rw [q.answer_eq_ok_iff, hgrounded.instance?_eq, hsource]
    rfl

/-! ## From a fresh resolver on -/

variable {localDir : String} {q : Resolution σ ω} {earlier : List (Resolution σ ω)}

/-- A factory is called once at most, and has been called exactly if its identifier has
been resolved. -/
theorem built_of_leads (hleads : Leads (fresh offers localDir) history r)
    (identifier : String) :
    r.registry.built identifier ≤ 1 ∧
      (r.registry.built identifier = 1 ↔
        (∃ make, Registry.firstSource? identifier offers = some (.factory make)) ∧
          ∃ q ∈ history, q.identifier = identifier) := by
  have hfresh := grounded_fresh offers localDir
  rw [(hfresh.leads hleads).built_eq]
  cases hsource : Registry.firstSource? identifier offers with
  | none => simp
  | some source =>
    have hmem := hfresh.isLoaded_iff_mem hleads rfl hsource
    cases source with
    | shared i => simp
    | factory make =>
      rw [← hmem]
      cases r.isLoaded identifier <;> simp

/-- A resolution leads on from what it finds. -/
theorem Leads.snoc (hleads : Leads r earlier q.before) : Leads r (earlier ++ [q]) q.after :=
  hleads.append (.cons (.refl _) (.nil (.refl _)))

/-- A factory is called by the first resolution of its identifier alone. -/
theorem first_of_built_ne (hleads : Leads (fresh offers localDir) earlier q.before)
    (hne : q.after.registry.built identifier ≠ q.before.registry.built identifier) :
    q.identifier = identifier ∧ ∀ e ∈ earlier, e.identifier ≠ identifier := by
  obtain ⟨hbefore, hbefore_iff⟩ := built_of_leads hleads identifier
  obtain ⟨hafter, hafter_iff⟩ := built_of_leads hleads.snoc identifier
  have hone : q.after.registry.built identifier = 1 := by
    by_cases hb : q.before.registry.built identifier = 1
    · obtain ⟨hfactory, e, he, hidentifier⟩ := hbefore_iff.mp hb
      exact hafter_iff.mpr ⟨hfactory, e, List.mem_append_left _ he, hidentifier⟩
    · omega
  obtain ⟨hfactory, hresolved⟩ := hafter_iff.mp hone
  have hnot : ∀ e ∈ earlier, e.identifier ≠ identifier := by
    intro e he hidentifier
    have := hbefore_iff.mpr ⟨hfactory, e, he, hidentifier⟩
    omega
  obtain ⟨e, he, hidentifier⟩ := hresolved
  rcases List.mem_append.mp he with he | he
  · exact absurd hidentifier (hnot e he)
  · rw [List.mem_singleton] at he
    exact ⟨he ▸ hidentifier, hnot⟩

/-- A resolution gives what the accepted offer of its identifier gave, and fails where
there is none. -/
theorem answer_of_leads (hleads : Leads (fresh offers localDir) earlier q.before)
    (i : Instance σ ω) :
    q.answer = .ok i ↔
      (Registry.firstSource? q.identifier offers).map (·.first q.identifier) = some i := by
  rw [q.answer_eq_ok_iff, ((grounded_fresh offers localDir).leads hleads).instance?_eq]

/-- A resolution that fails loads nothing. -/
theorem cache_after_of_error {f : Fault} (h : q.answer = .error f) :
    q.after.cache = q.before.cache := by
  have hnone : q.before.instance? q.identifier = none := resolve_eq_error_iff.mp ⟨f, h⟩
  rw [q.after_eq_settled, settled_of_none hnone]

/-- Take any offers to a registry and any history of resolutions in hosts that may
change in any way.  Each factory is called once at most, by the first resolution of its
identifier; each resolution gives the instance of the accepted offer, so the same one
ever after; one that fails loads nothing, and what is loaded stays.  The loaded
identifiers are exactly those that have been resolved, in increasing order.  Every
session is such a history, whatever hooks it goes through. -/
theorem instance_identity (offers : List (Offer σ ω)) (localDir : String) :
    (∀ history final, Leads (fresh offers localDir) history final →
      (∀ identifier, final.registry.built identifier ≤ 1 ∧
        (final.registry.built identifier = 1 ↔
          (∃ make, Registry.firstSource? identifier offers = some (.factory make)) ∧
            ∃ q ∈ history, q.identifier = identifier)) ∧
      final.loaded.Pairwise (· < ·) ∧
      (∀ identifier, identifier ∈ final.loaded ↔
        ∃ q ∈ history, q.identifier = identifier ∧ ∃ i, q.answer = .ok i) ∧
      ∀ earlier q later, history = earlier ++ q :: later →
        (∀ identifier,
          q.after.registry.built identifier ≠ q.before.registry.built identifier →
            q.identifier = identifier ∧ ∀ e ∈ earlier, e.identifier ≠ identifier) ∧
        (∀ i, q.answer = .ok i ↔
          ∃ before source after, offers = before ++ ⟨q.identifier, source⟩ :: after ∧
            Registry.Accepts before ⟨q.identifier, source⟩ ∧ i = source.first q.identifier) ∧
        (∀ e ∈ earlier, e.identifier = q.identifier → ∀ i, e.answer = .ok i →
          q.answer = .ok i) ∧
        (∀ f, q.answer = .error f → q.after.cache = q.before.cache) ∧
        ∀ identifier i, Keyed.get? identifier q.before.cache = some i →
          Keyed.get? identifier q.after.cache = some i ∧
            Keyed.get? identifier final.cache = some i) ∧
    ∀ (steps : List (Step ω)) (run : Run σ ω),
      Leads run.manager.resolver (run.history steps) (run.performAll steps).manager.resolver := by
  refine ⟨?_, Run.leads_performAll⟩
  intro history final hleads
  have hfresh : Grounded offers (fresh offers localDir) := grounded_fresh offers localDir
  refine ⟨built_of_leads hleads, (hfresh.leads hleads).sorted, ?_, ?_⟩
  · intro identifier
    have hmem : identifier ∈ final.loaded ↔ final.isLoaded identifier = true :=
      Keyed.contains_iff_mem_keys.symm
    have hfree : (fresh offers localDir).isLoaded identifier = false := rfl
    rw [hmem, isLoaded_of_leads hleads, hfree]
    simp
  · rintro earlier q later rfl
    obtain ⟨hbefore, hafter⟩ := hleads.split
    refine ⟨fun identifier hne => first_of_built_ne hbefore hne, fun i => ?_, ?_,
      fun f => cache_after_of_error, fun identifier i hi => ?_⟩
    · rw [answer_of_leads hbefore, Option.map_eq_some_iff]
      simp only [Registry.firstSource?_eq_some_iff]
      constructor
      · rintro ⟨source, ⟨before, after, hoffers, haccepts⟩, rfl⟩
        exact ⟨before, source, after, hoffers, haccepts, rfl⟩
      · rintro ⟨before, source, after, hoffers, haccepts, rfl⟩
        exact ⟨source, ⟨before, after, hoffers, haccepts⟩, rfl⟩
    · intro e he hidentifier i hi
      obtain ⟨first, between, hsplit⟩ := List.append_of_mem he
      have hearlier := hbefore
      rw [hsplit] at hearlier
      rw [answer_of_leads hearlier.split.1, hidentifier] at hi
      exact (answer_of_leads hbefore i).mpr hi
    · have hkept : Keyed.get? identifier q.after.cache = some i := by
        rw [q.after_eq_settled]
        exact get?_cache_settled_of_some q.identifier hi
      exact ⟨hkept, get?_cache_of_leads hafter hkept⟩

end Resolver

end PluginChain
