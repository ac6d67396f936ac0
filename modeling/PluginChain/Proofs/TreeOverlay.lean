import PluginChain.Proofs.CopyExtent
set_option autoImplicit false

/-!
# Trees laid over others

`Node.overlay` lays a tree over what stood in its place: a file takes that place, and a
directory keeps what it has no name for.  What shows in it at a place is told by the two
trees (`Node.shown_overlay`), as long as they do not take one place for things of two kinds;
and a tree whose directories are in order is told by what shows in it
(`Node.eq_of_content`).
-/

namespace PluginChain

namespace Keyed

/-- Lists in order are the same if they have the same value under every key. -/
theorem eq_of_get? {α : Type} {m m' : Keyed α} (h : (keys m).Pairwise (· < ·))
    (h' : (keys m').Pairwise (· < ·)) (hget : ∀ key, get? key m = get? key m') : m = m' := by
  have hmem (p : String × α) : p ∈ m ↔ p ∈ m' := by
    obtain ⟨key, value⟩ := p
    constructor
    · intro hp
      exact mem_of_get? ((hget key).symm.trans (get?_of_mem h hp))
    · intro hp
      exact mem_of_get? ((hget key).trans (get?_of_mem h' hp))
  have hpairs := List.pairwise_map.mp h
  have hpairs' := List.pairwise_map.mp h'
  have hnodup : m.Nodup := hpairs.imp fun hlt heq => String.ne_of_lt hlt (congrArg Prod.fst heq)
  have hnodup' : m'.Nodup := hpairs'.imp fun hlt heq => String.ne_of_lt hlt (congrArg Prod.fst heq)
  refine List.Perm.eq_of_pairwise (fun p q _ _ hpq hqp => ?_) hpairs hpairs'
    ((List.perm_ext_iff_of_nodup hnodup hnodup').mpr hmem)
  exact absurd hqp (String.lt_asymm hpq)

end Keyed

namespace Node

mutual

/-- A tree laid over what stood in its place, if anything. -/
def overlay : Node → Option Node → Node
  | .file bytes, _ => .file bytes
  | .dir children, old? => .dir (overlayEach children (old?.getD emptyDir).entries)

/-- Children laid over those that a directory had. -/
def overlayEach : List (String × Node) → List (String × Node) → List (String × Node)
  | [], held => held
  | (name, c) :: rest, held =>
    Keyed.insert name (c.overlay (Keyed.get? name held)) (overlayEach rest held)

end

mutual

/-- The places at which a tree has something. -/
def places : Node → List (List String)
  | .file _ => [[]]
  | .dir children => [] :: placesEach children

/-- The places at which children have something, below their names. -/
def placesEach : List (String × Node) → List (List String)
  | [] => []
  | (name, c) :: rest => c.places.map (name :: ·) ++ placesEach rest

end

variable {n m : Node} {old? : Option Node}

/-! ## What is seen of a tree -/

theorem mem_placesEach {children : List (String × Node)} {name : String} {c : Node}
    {p : List String} (hc : Keyed.get? name children = some c) (hp : p ∈ c.places) :
    name :: p ∈ placesEach children := by
  induction children with
  | nil => cases hc
  | cons first rest ih =>
    obtain ⟨s, d⟩ := first
    rw [Keyed.get?] at hc
    rw [placesEach, List.mem_append]
    split_ifs at hc with hs
    · obtain rfl := Option.some.inj hc
      exact .inl (List.mem_map.mpr ⟨p, hp, by rw [hs]⟩)
    · exact .inr (ih hc)

theorem mem_places {p : List String} (h : n.at? p = some m) : p ∈ n.places := by
  induction p generalizing n with
  | nil => cases n <;> exact List.mem_cons_self
  | cons name rest ih =>
    cases n with
    | file bytes => cases h
    | dir children =>
      rw [at?_cons] at h
      obtain ⟨c, hc, hrest⟩ := Option.bind_eq_some_iff.mp h
      exact List.mem_cons_of_mem _ (mem_placesEach hc (ih hrest))

/-- Where two trees both have something, it is of one kind. -/
def Agrees (n : Node) (old? : Option Node) : Prop :=
  ∀ p m k, n.at? p = some m → old?.bind (·.at? p) = some k → m.isDir = k.isDir

theorem isDir_eq_of_content (h : n.content? = m.content?) : n.isDir = m.isDir := by
  cases n <;> cases m <;> first | rfl | cases h

/-- A tree whose directories are in order is told by what shows in it.  The induction is on
the size of the tree, as a child is found under its name. -/
theorem eq_of_content (hn : n.Ordered) (hm : m.Ordered)
    (h : ∀ p, (n.at? p).map content? = (m.at? p).map content?) : n = m := by
  induction hsize : n.size using Nat.strong_induction_on generalizing n m with
  | h size ih =>
    have hhere := h []
    rw [at?_nil, at?_nil, Option.map_some, Option.map_some, Option.some.injEq] at hhere
    cases n with
    | file bytes =>
      cases m with
      | file bytes' => exact congrArg file (Option.some.inj hhere)
      | dir children' => cases hhere
    | dir children =>
      cases m with
      | file bytes' => cases hhere
      | dir children' =>
        refine congrArg dir (Keyed.eq_of_get? hn.entries hm.entries fun key => ?_)
        change Keyed.get? key (dir children).entries = Keyed.get? key (dir children').entries
        rw [← at?_singleton, ← at?_singleton]
        have hkey := h [key]
        cases hc : (dir children).at? [key] with
        | none =>
          rw [hc, Option.map_none, eq_comm, Option.map_eq_none_iff] at hkey
          exact hkey.symm
        | some c =>
          rw [hc, Option.map_some, eq_comm, Option.map_eq_some_iff] at hkey
          obtain ⟨c', hc', -⟩ := hkey
          have hsmaller := length_add_size_le hc
          rw [List.length_singleton] at hsmaller
          rw [hc']
          refine congrArg some (ih c.size (by omega) (hn.at? hc) (hm.at? hc') (fun p => ?_) rfl)
          have hbelow := h ([key] ++ p)
          rwa [at?_append, at?_append, hc, hc'] at hbelow

/-! ## What is seen of a tree laid over another -/

/-- Under a name of the upper children stands the child laid over what it was there; under
any other, what was there. -/
theorem get?_overlayEach (name : String) (children held : List (String × Node)) :
    Keyed.get? name (overlayEach children held) =
      ((Keyed.get? name children).map fun c => c.overlay (Keyed.get? name held)).or
        (Keyed.get? name held) := by
  induction children with
  | nil => rfl
  | cons first rest ih =>
    obtain ⟨s, c⟩ := first
    rw [overlayEach, Keyed.get?]
    by_cases hs : s = name
    · rw [if_pos hs, hs, Keyed.get?_insert_self]
      rfl
    · rw [if_neg hs, Keyed.get?_insert_of_ne hs]
      exact ih

/-- The same for a place below a directory. -/
theorem at?_overlay_dir (name : String) (rest : List String) (children : List (String × Node))
    (old? : Option Node) :
    ((dir children).overlay old?).at? (name :: rest) =
      (((Keyed.get? name children).map fun c =>
        c.overlay (old?.bind (·.at? [name]))).or (old?.bind (·.at? [name]))).bind (·.at? rest) := by
  have hheld : Keyed.get? name (old?.getD emptyDir).entries = old?.bind (·.at? [name]) := by
    cases old? with
    | none => rfl
    | some old => exact (at?_singleton old name).symm
  rw [← List.singleton_append, at?_append, at?_singleton]
  congr 1
  rw [overlay, entries, get?_overlayEach, hheld]

/-- What shows in a tree laid over another is what shows in the upper one, and where that
has nothing, what shows in the lower one. -/
theorem shown_overlay (hagrees : n.Agrees old?) (p : List String) :
    ((n.overlay old?).at? p).map content? =
      ((n.at? p).or (old?.bind (·.at? p))).map content? := by
  induction p generalizing n old? with
  | nil =>
    rw [at?_nil, at?_nil]
    cases n <;> rfl
  | cons name rest ih =>
    cases n with
    | file bytes =>
      -- A file has nothing below it, and neither has what stood in its place.
      have hold : old?.bind (·.at? (name :: rest)) = none := by
        cases old? with
        | none => rfl
        | some old =>
          have hkind := hagrees [] (file bytes) old (at?_nil _) (at?_nil old)
          cases old with
          | file bytes' => rfl
          | dir children => cases hkind
      rw [hold, overlay]
      rfl
    | dir children =>
      have hupper : (dir children).at? (name :: rest) =
          (Keyed.get? name children).bind (·.at? rest) := at?_cons _ _ _
      have hlower : old?.bind (·.at? (name :: rest)) =
          (old?.bind (·.at? [name])).bind (·.at? rest) := by
        cases old? with
        | none => rfl
        | some old => exact at?_append old [name] rest
      rw [at?_overlay_dir, hupper, hlower]
      cases hc : Keyed.get? name children with
      | none => rfl
      | some c =>
        refine ih fun q m k hm hk => hagrees (name :: q) m k ?_ ?_
        · rw [at?_cons, child?, hc]
          exact hm
        · cases old? with
          | none => cases hk
          | some old =>
            rw [← hk]
            exact at?_append old [name] q

/-- A tree laid over one whose directories are in order has its own in order. -/
theorem ordered_overlay (n : Node) (hold : ∀ old ∈ old?, old.Ordered) :
    (n.overlay old?).Ordered := by
  intro p
  induction p generalizing n old? with
  | nil =>
    intro children hp
    rw [at?_nil, Option.some.injEq] at hp
    cases n with
    | file bytes => cases hp
    | dir upper =>
      have hheld : (Keyed.keys (old?.getD emptyDir).entries).Pairwise (· < ·) := by
        cases old? with
        | none => exact List.Pairwise.nil
        | some old => exact (hold old rfl).entries
      rw [Node.overlay] at hp
      obtain rfl := dir.inj hp
      clear hp
      induction upper with
      | nil => exact hheld
      | cons first rest ih => exact Keyed.pairwise_keys_insert _ _ ih
  | cons name rest ih =>
    intro children hp
    cases n with
    | file bytes => cases hp
    | dir upper =>
      have hbelow : ∀ old ∈ old?.bind (·.at? [name]), old.Ordered := by
        intro c hc
        obtain ⟨old, hold', hc⟩ := Option.bind_eq_some_iff.mp hc
        exact (hold old hold').at? hc
      rw [at?_overlay_dir] at hp
      cases hc : Keyed.get? name upper with
      | none =>
        rw [hc] at hp
        obtain ⟨c, hc, hp⟩ := Option.bind_eq_some_iff.mp hp
        exact hbelow c hc rest children hp
      | some c =>
        rw [hc] at hp
        exact ih c hbelow children hp

end Node

end PluginChain
