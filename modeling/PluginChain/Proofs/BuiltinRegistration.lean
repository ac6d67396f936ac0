import PluginChain.Builtin.All
set_option autoImplicit false

/-!
# Registering several plugins

A registration that is accepted adds one identifier and leaves the others as they are
(`Registry.gains_of_register`), and gains add up (`Registry.Gains.trans`).  So plugins that are
registered one after the other, each under an identifier of its own, are registered up to the
first whose identifier was taken before, and those in front of it stay
(`Registry.registerAll_splits`).

The built-in plugins are registered like that.  They come all together if none of their
identifiers is taken, and none of them comes exactly if the first identifier is taken; with
another one taken, some of them come and stay.
-/

namespace PluginChain

/-- A value under a new key makes the list longer by one. -/
theorem Keyed.length_insert_of_not_contains {α : Type} {m : Keyed α} {key : String}
    (h : contains key m = false) (value : α) :
    (insert key value m).length = m.length + 1 := by
  induction m with
  | nil => rfl
  | cons p rest ih =>
    obtain ⟨k, v⟩ := p
    have hk : k ≠ key := by
      rintro rfl
      simp [contains, get?] at h
    rw [insert, if_neg hk]
    split
    · rfl
    · rw [contains, get?, if_neg hk] at h
      rw [List.length_cons, ih h, List.length_cons]

namespace Registry

variable {σ ω : Type} {r r' r'' : Registry σ ω} {added later : Keyed (Registration σ ω)}
  {identifier : String}

/-- What one registry holds besides what another does: registrations under identifiers that
were free.  Everything else is as it was. -/
structure Gains (r r' : Registry σ ω) (added : Keyed (Registration σ ω)) : Prop where
  free : ∀ identifier ∈ Keyed.keys added, r.contains identifier = false
  stands : ∀ p ∈ added, Keyed.get? p.1 r'.entries = some p.2
  kept : ∀ identifier ∉ Keyed.keys added,
    Keyed.get? identifier r'.entries = Keyed.get? identifier r.entries
  size : r'.size = r.size + added.length

theorem Gains.refl (r : Registry σ ω) : Gains r r [] := ⟨nofun, nofun, fun _ _ => rfl, rfl⟩

/-- What was registered before stays as it was. -/
theorem Gains.earlier (h : Gains r r' added) (hregistered : r.contains identifier = true) :
    Keyed.get? identifier r'.entries = Keyed.get? identifier r.entries := by
  refine h.kept identifier fun hmem => ?_
  rw [h.free identifier hmem] at hregistered
  cases hregistered

/-- An identifier that was not added is registered if it was before. -/
theorem Gains.contains_eq (h : Gains r r' added) (hother : identifier ∉ Keyed.keys added) :
    r'.contains identifier = r.contains identifier := by
  rw [contains, contains, Keyed.contains, Keyed.contains, h.kept identifier hother]

theorem Gains.contains_of_mem (h : Gains r r' added) (hmem : identifier ∈ Keyed.keys added) :
    r'.contains identifier = true := by
  obtain ⟨p, hp, rfl⟩ := List.mem_map.mp hmem
  rw [contains, Keyed.contains, h.stands p hp]
  rfl

/-- Gains one after the other. -/
theorem Gains.trans (h : Gains r r' added) (h' : Gains r' r'' later) :
    Gains r r'' (added ++ later) := by
  -- What is added later was free until then, so it is nothing that was added earlier.
  have hapart : ∀ identifier ∈ Keyed.keys later, identifier ∉ Keyed.keys added := by
    intro identifier hlater hadded
    have hfree := h'.free identifier hlater
    rw [h.contains_of_mem hadded] at hfree
    cases hfree
  have hkeys : Keyed.keys (added ++ later) = Keyed.keys added ++ Keyed.keys later :=
    List.map_append
  constructor
  · intro identifier hmem
    rw [hkeys, List.mem_append] at hmem
    rcases hmem with hadded | hlater
    · exact h.free identifier hadded
    · rw [← h.contains_eq (hapart identifier hlater)]
      exact h'.free identifier hlater
  · intro p hp
    rcases List.mem_append.mp hp with hadded | hlater
    · rw [h'.earlier (h.contains_of_mem (List.mem_map_of_mem hadded))]
      exact h.stands p hadded
    · exact h'.stands p hlater
  · intro identifier hother
    rw [hkeys, List.mem_append, not_or] at hother
    rw [h'.kept identifier hother.2, h.kept identifier hother.1]
  · rw [h'.size, h.size, List.length_append, Nat.add_assoc]

/-- A registration that is accepted adds its identifier. -/
theorem gains_of_register {registration : Registration σ ω}
    (h : r.register identifier registration = .ok r') :
    Gains r r' [(identifier, registration)] := by
  obtain ⟨hfree, rfl⟩ := register_eq_ok_iff.mp h
  constructor
  · intro other hother
    rw [List.mem_singleton.mp hother]
    exact hfree
  · intro p hp
    rw [List.mem_singleton.mp hp]
    exact Keyed.get?_insert_self _ _ _
  · intro other hother
    exact Keyed.get?_insert_of_ne (Ne.symm (mt List.mem_singleton.mpr hother)) _ _
  · exact Keyed.length_insert_of_not_contains hfree registration

/-- How far the registration of several plugins has come: to the end, or to an identifier that
was taken before. -/
inductive Stops (r : Registry σ ω) : List (String × Registration σ ω) → Except Fault Unit → Prop
  | done : Stops r [] (.ok ())
  | taken {identifier : String} {registration : Registration σ ω}
      {rest : List (String × Registration σ ω)} (taken : r.contains identifier = true) :
      Stops r ((identifier, registration) :: rest) (.error (takenFault identifier))

theorem Stops.eq_ok_iff {rest : List (String × Registration σ ω)} {answer : Except Fault Unit}
    (h : Stops r rest answer) : answer = .ok () ↔ rest = [] := by
  cases h <;> simp

theorem Stops.taken_first {p : String × Registration σ ω}
    {rest : List (String × Registration σ ω)} {answer : Except Fault Unit}
    (h : Stops r (p :: rest) answer) : r.contains p.1 = true := by
  cases h
  assumption

/-- What stops the registration was taken before, unless it has just been added. -/
theorem Stops.of_gains {rest : List (String × Registration σ ω)} {answer : Except Fault Unit}
    (h : Stops r' rest answer) (hgains : Gains r r' added)
    (hapart : ∀ identifier ∈ Keyed.keys rest, identifier ∉ Keyed.keys added) :
    Stops r rest answer := by
  cases h with
  | done => exact .done
  | taken htaken =>
    rw [hgains.contains_eq (hapart _ List.mem_cons_self)] at htaken
    exact .taken htaken

/-- Plugins with identifiers of their own are registered up to the first whose identifier was
taken, and those in front of it stay. -/
theorem registerAll_splits {plugins : List (String × Registration σ ω)}
    (hnodup : (Keyed.keys plugins).Nodup) (r : Registry σ ω) (log : List LogRecord) :
    ∃ before rest, plugins = before ++ rest ∧ Gains r (registerAll plugins r log).2.1 before ∧
      Stops r rest (registerAll plugins r log).1 := by
  induction plugins generalizing r log with
  | nil => exact ⟨[], [], rfl, .refl r, .done⟩
  | cons p rest ih =>
    obtain ⟨identifier, registration⟩ := p
    obtain ⟨hnew, hnodup⟩ := List.nodup_cons.mp hnodup
    cases hfirst : r.contains identifier with
    | true =>
      rw [registerAll, register, if_pos hfirst]
      exact ⟨[], _, rfl, .refl r, .taken hfirst⟩
    | false =>
      have hregister := register_eq_ok_iff.mpr
        ⟨hfirst, (rfl : Registry.mk (Keyed.insert identifier registration r.entries) = _)⟩
      have hgains := gains_of_register hregister
      rw [registerAll, hregister]
      obtain ⟨before, behind, hrest, hmore, hstops⟩ :=
        ih hnodup _ (log ++ [registeringRecord identifier])
      refine ⟨(identifier, registration) :: before, behind, congrArg (_ :: ·) hrest,
        hgains.trans hmore, hstops.of_gains hgains fun other hother hmem => hnew ?_⟩
      rw [← List.mem_singleton.mp hmem, hrest, List.map_append]
      exact List.mem_append_right _ hother

end Registry

namespace Builtin

variable {σ ω : Type}

open Registry (Gains Stops takenFault)

theorem nodup_keys_registrations (counters : Slot σ RunStats.Counters) (initial : σ) :
    (Keyed.keys (registrations (ω := ω) counters initial)).Nodup := by
  rw [Keyed.keys, keys_registrations]
  decide

/-- What is logged makes no difference to how far the registration comes. -/
theorem register_eq (counters : Slot σ RunStats.Counters) (initial : σ) (r : Registry σ ω)
    (log : List LogRecord) :
    (register counters initial r log).1 =
        (Registry.registerAll (registrations counters initial) r log).1 ∧
      (register counters initial r log).2.1 =
        (Registry.registerAll (registrations counters initial) r log).2.1 := by
  unfold register
  split <;> simp [*]

/-- The built-in plugins are registered in their order, up to the first whose identifier was
taken.  Where one was, the failure names it, and the registry holds what it held and the
built-in plugins in front of that one: nothing more exactly if the first identifier was taken.
Where none was taken, all of them are added.  Either way, what was registered before stays as it
was. -/
theorem registers_up_to_first_taken (counters : Slot σ RunStats.Counters) (initial : σ)
    (r : Registry σ ω) (log : List LogRecord) :
    let answer := (register counters initial r log).1
    let after := (register counters initial r log).2.1
    (∃ before rest, registrations counters initial = before ++ rest ∧ Gains r after before ∧
      Stops r rest answer) ∧
    (answer = .ok () ↔ ∀ identifier ∈ identifiers, r.contains identifier = false) ∧
    (answer = .ok () → Gains r after (registrations counters initial)) ∧
    (after = r ↔ r.contains ExcludePrivate.identifier = true) ∧
    ∀ identifier, r.contains identifier = true →
      Keyed.get? identifier after.entries = Keyed.get? identifier r.entries := by
  intro answer after
  obtain ⟨hanswer, hafter⟩ := register_eq counters initial r log
  obtain ⟨before, rest, hsplit, hgains, hstops⟩ :=
    Registry.registerAll_splits (nodup_keys_registrations counters initial) r log
  rw [← hafter] at hgains
  rw [← hanswer] at hstops
  have hkeys : identifiers = Keyed.keys before ++ Keyed.keys rest := by
    rw [← keys_registrations counters initial, hsplit]
    exact List.map_append
  refine ⟨⟨before, rest, hsplit, hgains, hstops⟩, hstops.eq_ok_iff.trans ⟨?_, ?_⟩, fun hok => ?_,
    ⟨?_, ?_⟩, fun identifier => hgains.earlier⟩
  · rintro rfl
    rw [hkeys, Keyed.keys, Keyed.keys, List.map_nil, List.append_nil]
    exact hgains.free
  · intro hfree
    cases rest with
    | nil => rfl
    | cons p rest =>
      have htaken := hstops.taken_first
      rw [hfree p.1 (hkeys ▸ List.mem_append_right _ List.mem_cons_self)] at htaken
      cases htaken
  · rw [hsplit, hstops.eq_ok_iff.mp hok, List.append_nil]
    exact hgains
  · intro hsame
    have hsize := hgains.size
    rw [show (register counters initial r log).2.1 = r from hsame] at hsize
    obtain rfl := List.eq_nil_of_length_eq_zero (Nat.left_eq_add.mp hsize)
    rw [List.nil_append] at hsplit
    rw [← hsplit] at hstops
    exact hstops.taken_first
  · intro htaken
    show (register counters initial r log).2.1 = r
    rw [hafter, registrations, Registry.registerAll, Registry.register, if_pos htaken]

/-- Where a plugin with the identifier of a built-in one was registered, the registration of the
built-in plugins fails, and one of them has come to stay. -/
theorem registers_some_and_fails :
    let registered : Registry RunStats.Counters Unit :=
      { entries := [("inject-script", fresh InjectScript.plugin {})] }
    Registry.empty.register "inject-script" (fresh InjectScript.plugin {}) = .ok registered ∧
      (register (.whole _) {} registered []).1 = .error (takenFault "inject-script") ∧
      registered.identifiers = ["inject-script"] ∧
      (register (.whole _) {} registered []).2.1.identifiers =
        ["exclude-private", "inject-script"] := by
  intro registered
  exact ⟨rfl, rfl, rfl, rfl⟩

end Builtin

end PluginChain
