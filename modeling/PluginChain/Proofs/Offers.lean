import PluginChain.Proofs.Resolution
set_option autoImplicit false

/-!
# Offers to a registry

A registry is filled by a sequence of offers: a factory or an instance under an
identifier each.  An offer is accepted exactly if no earlier one has its identifier,
so what a registry has for an identifier is its first offer
(`Registry.get?_offered`).
-/

namespace PluginChain

/-- What is offered under an identifier. -/
inductive Source (σ ω : Type) where
  | factory (make : Nat → Plugin σ ω × σ)
  | shared (i : Instance σ ω)

namespace Source

variable {σ ω : Type}

/-- The source as it is registered. -/
def registration : Source σ ω → Registration σ ω
  | factory make => .factory 0 make
  | shared i => .shared i

/-- The source after it was asked once for an instance. -/
def spent : Source σ ω → Registration σ ω
  | factory make => .factory 1 make
  | shared i => .shared i

/-- The instance that the source gives when it is first asked. -/
def first (identifier : String) : Source σ ω → Instance σ ω
  | factory make => ⟨.built identifier 1, (make 1).1, (make 1).2⟩
  | shared i => i

/-- How often a factory is called to give one instance. -/
def calls : Source σ ω → Nat
  | factory _ => 1
  | shared _ => 0

end Source

/-- A plugin that is offered to a registry. -/
structure Offer (σ ω : Type) where
  identifier : String
  source : Source σ ω

namespace Registry

variable {σ ω : Type}

/-- The registry after an offer, which is refused if the identifier is taken. -/
def offer (r : Registry σ ω) (o : Offer σ ω) : Registry σ ω :=
  match r.register o.identifier o.source.registration with
  | .ok r => r
  | .error _ => r

/-- The registry that a sequence of offers makes. -/
def offered (offers : List (Offer σ ω)) : Registry σ ω := offers.foldl offer .empty

/-- Whether an offer is accepted behind others. -/
def Accepts (earlier : List (Offer σ ω)) (o : Offer σ ω) : Prop :=
  ∃ r, (offered earlier).register o.identifier o.source.registration = .ok r

/-- The source of the first offer of an identifier. -/
def firstSource? (identifier : String) (offers : List (Offer σ ω)) : Option (Source σ ω) :=
  (offers.find? fun o => o.identifier = identifier).map (·.source)

theorem contains_eq_isSome (r : Registry σ ω) (identifier : String) :
    r.contains identifier = (Keyed.get? identifier r.entries).isSome := rfl

/-- An offer is added where the identifier is free, and changes nothing else. -/
theorem get?_offer (r : Registry σ ω) (o : Offer σ ω) (identifier : String) :
    Keyed.get? identifier (r.offer o).entries =
      match Keyed.get? identifier r.entries with
      | some registration => some registration
      | none => if o.identifier = identifier then some o.source.registration else none := by
  have hcontains := contains_eq_isSome r o.identifier
  unfold offer register
  by_cases hk : o.identifier = identifier
  · subst hk
    cases hr : Keyed.get? o.identifier r.entries with
    | some registration =>
      rw [hr] at hcontains
      simp [hcontains, hr]
    | none =>
      rw [hr] at hcontains
      simp [hcontains, Keyed.get?_insert_self]
  · cases r.contains o.identifier with
    | true =>
      cases hr : Keyed.get? identifier r.entries <;> simp [hk, hr]
    | false =>
      cases hr : Keyed.get? identifier r.entries <;> simp [hk, hr, Keyed.get?_insert_of_ne hk]

/-- Offers are laid behind what a registry has. -/
theorem get?_foldl_offer (offers : List (Offer σ ω)) (r : Registry σ ω) (identifier : String) :
    Keyed.get? identifier (offers.foldl offer r).entries =
      match Keyed.get? identifier r.entries with
      | some registration => some registration
      | none => (firstSource? identifier offers).map (·.registration) := by
  induction offers generalizing r with
  | nil => cases h : Keyed.get? identifier r.entries <;> simp [firstSource?, h]
  | cons o rest ih =>
    rw [List.foldl_cons, ih, get?_offer]
    cases Keyed.get? identifier r.entries with
    | some registration => rfl
    | none => by_cases hk : o.identifier = identifier <;> simp [firstSource?, hk]

/-- A registry has, for an identifier, the source of its first offer. -/
theorem get?_offered (offers : List (Offer σ ω)) (identifier : String) :
    Keyed.get? identifier (offered offers).entries =
      (firstSource? identifier offers).map (·.registration) :=
  get?_foldl_offer offers .empty identifier

/-- An offer is accepted exactly if no earlier one has its identifier. -/
theorem accepts_iff (earlier : List (Offer σ ω)) (o : Offer σ ω) :
    Accepts earlier o ↔ ∀ e ∈ earlier, e.identifier ≠ o.identifier := by
  have hfree : Accepts earlier o ↔ firstSource? o.identifier earlier = none := by
    simp [Accepts, register_eq_ok_iff, contains_eq_isSome, get?_offered]
  rw [hfree]
  simp [firstSource?]

/-- The first offer of an identifier is the one that is accepted. -/
theorem firstSource?_eq_some_iff (offers : List (Offer σ ω)) (identifier : String)
    (source : Source σ ω) :
    firstSource? identifier offers = some source ↔
      ∃ earlier later, offers = earlier ++ ⟨identifier, source⟩ :: later ∧
        Accepts earlier ⟨identifier, source⟩ := by
  simp only [firstSource?, Option.map_eq_some_iff, List.find?_eq_some_iff_append, accepts_iff]
  constructor
  · rintro ⟨⟨name, found⟩, ⟨hname, earlier, later, hsplit, hearlier⟩, rfl⟩
    obtain rfl : name = identifier := by simpa using hname
    exact ⟨earlier, later, hsplit, by simpa using hearlier⟩
  · rintro ⟨earlier, later, hsplit, hearlier⟩
    exact ⟨⟨identifier, source⟩, ⟨by simp, earlier, later, hsplit, by simpa using hearlier⟩, rfl⟩

end Registry

end PluginChain
