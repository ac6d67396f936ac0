import PluginChain.Json.Parse
import PluginChain.Proofs.Records
set_option autoImplicit false

/-!
# Names of objects that are read

The names of every object that is read from a text increase, at every depth, so that each
occurs once (`Json.ordered_of_parse`).  Members are put into an object by `Keyed.insert`
alone; what stands below is of the same kind at each level, by induction on the depth that
is allowed.
-/

namespace PluginChain

namespace Keyed

variable {α β : Type} {kind : α → Prop} {m : Keyed α} {key : String} {value : α}

/-- Values of one kind under keys that increase. -/
def Ordered (kind : α → Prop) (m : Keyed α) : Prop :=
  (keys m).Pairwise (· < ·) ∧ ∀ p ∈ m, kind p.2

theorem ordered_nil : Ordered kind ([] : Keyed α) := by
  refine ⟨List.Pairwise.nil, ?_⟩
  intro p hp
  cases hp

theorem mem_of_mem_insert {p : String × α} (h : p ∈ insert key value m) :
    p = (key, value) ∨ p ∈ m := by
  induction m with
  | nil => exact .inl (List.mem_singleton.mp h)
  | cons q rest ih =>
    obtain ⟨k, v⟩ := q
    rw [insert] at h
    split_ifs at h
    · rcases List.mem_cons.mp h with rfl | hp
      · exact .inl rfl
      · exact .inr (List.mem_cons_of_mem _ hp)
    · exact List.mem_cons.mp h
    · rcases List.mem_cons.mp h with rfl | hp
      · exact .inr List.mem_cons_self
      · rcases ih hp with rfl | hp
        · exact .inl rfl
        · exact .inr (List.mem_cons_of_mem _ hp)

theorem Ordered.insert (h : Ordered kind m) (hvalue : kind value) :
    Ordered kind (Keyed.insert key value m) := by
  refine ⟨pairwise_keys_insert key value h.1, ?_⟩
  intro p hp
  rcases mem_of_mem_insert hp with rfl | hp
  · exact hvalue
  · exact h.2 p hp

/-- What is not among the keys has no value. -/
theorem get?_eq_none_of_not_mem (h : key ∉ keys m) : get? key m = none := by
  cases hget : get? key m with
  | none => rfl
  | some value => exact absurd (List.mem_map.mpr ⟨_, mem_of_get? hget, rfl⟩) h

theorem Ordered.of_get? (h : Ordered kind m) (hvalue : get? key m = some value) : kind value :=
  h.2 _ (mem_of_get? hvalue)

theorem Ordered.map {kind' : β → Prop} {f : α → β} (h : Ordered kind m)
    (hf : ∀ a, kind a → kind' (f a)) : Ordered kind' (m.map fun p => (p.1, f p.2)) := by
  refine ⟨?_, ?_⟩
  · have hkeys : keys (m.map fun p => (p.1, f p.2)) = keys m := by simp [keys]
    rw [hkeys]
    exact h.1
  · intro p hp
    obtain ⟨q, hq, rfl⟩ := List.mem_map.mp hp
    exact hf _ (h.2 q hq)

end Keyed

/-! ## JSON -/

namespace Json

/-- A value in which the names of every object increase. -/
inductive Ordered : Json → Prop
  | null : Ordered .null
  | bool (b : Bool) : Ordered (.bool b)
  | int (n : Int) : Ordered (.int n)
  | float (x : Binary64) : Ordered (.float x)
  | str (s : String) : Ordered (.str s)
  | arr {items : List Json} (h : ∀ v ∈ items, Ordered v) : Ordered (.arr items)
  | obj {fields : List (String × Json)} (hkeys : (Keyed.keys fields).Pairwise (· < ·))
      (h : ∀ p ∈ fields, Ordered p.2) : Ordered (.obj fields)

/-- A reader that gives values of one kind. -/
def Step.Yields {α : Type} (step : Step α) (kind : α → Prop) : Prop :=
  ∀ c a c', step c = .ok (a, c') → kind a

theorem Cursor.fail_ne_ok {α : Type} {c : Cursor} {p : JsonProblem} {a : α} :
    c.fail p ≠ .ok a := by
  intro h
  cases h

theorem Cursor.failAtNext_ne_ok {α : Type} {c : Cursor} {p : JsonProblem} {a : α} :
    c.failAtNext p ≠ .ok a := by
  intro h
  unfold Cursor.failAtNext at h
  split at h <;> cases h

section

variable {negative : Bool} {significand : Nat} {exponent : Int} {c c' : Cursor} {v : Json}

theorem ordered_of_finishFloat (h : finishFloat negative significand exponent c = .ok (v, c')) :
    v.Ordered := by
  unfold finishFloat at h
  split at h
  · cases h
    exact .float _
  · exact absurd h Cursor.fail_ne_ok

theorem ordered_of_takeExponent (h : takeExponent negative significand exponent c = .ok (v, c')) :
    v.Ordered := by
  unfold takeExponent at h
  split at h
  split at h
  · exact absurd h Cursor.fail_ne_ok
  · split at h
    · exact absurd h Cursor.failAtNext_ne_ok
    · dsimp only at h
      split at h
      · split at h
        · exact absurd h Cursor.fail_ne_ok
        · cases h
          exact .float _
      · exact ordered_of_finishFloat h

theorem ordered_of_takeScale (h : takeScale negative significand exponent c = .ok (v, c')) :
    v.Ordered := by
  unfold takeScale at h
  split at h
  · exact ordered_of_takeExponent h
  · exact ordered_of_takeExponent h
  · exact ordered_of_finishFloat h

theorem ordered_of_takeFraction (h : takeFraction negative significand exponent c = .ok (v, c')) :
    v.Ordered := by
  unfold takeFraction at h
  split at h
  · split at h
    · exact absurd h Cursor.fail_ne_ok
    · exact absurd h Cursor.failAtNext_ne_ok
  · exact ordered_of_takeScale h

theorem ordered_of_afterDigits (h : takeNumber.afterDigits negative significand c = .ok (v, c')) :
    v.Ordered := by
  unfold takeNumber.afterDigits at h
  split at h
  · exact ordered_of_takeFraction h
  · exact ordered_of_takeExponent h
  · exact ordered_of_takeExponent h
  · split_ifs at h
    · cases h
      exact .int _
    · cases h
      exact .float _
    · cases h
      exact .int _

theorem ordered_of_takeNumber (h : takeNumber negative c = .ok (v, c')) : v.Ordered := by
  unfold takeNumber at h
  split at h
  · exact absurd h Cursor.fail_ne_ok
  · dsimp only at h
    split at h
    · split_ifs at h
      · exact absurd h Cursor.failAtNext_ne_ok
      · exact ordered_of_afterDigits h
    · exact ordered_of_afterDigits h
  · split_ifs at h
    · exact absurd h Cursor.failAtNext_ne_ok
    · dsimp only at h
      split_ifs at h
      · exact ordered_of_afterDigits h
      · split at h
        · exact ordered_of_takeFraction h
        · exact ordered_of_takeScale h

end

section

variable {item : Step Json} {kind : Json → Prop} {c c' : Cursor}

/-- The elements that are read are of the kind that each is read as. -/
theorem kind_of_takeItems {fuel : Nat} {taken items : List Json} (hitem : item.Yields kind)
    (h : takeItems item fuel taken c = .ok (items, c')) (htaken : ∀ v ∈ taken, kind v) :
    ∀ v ∈ items, kind v := by
  induction fuel generalizing taken c with
  | zero => exact absurd h Cursor.fail_ne_ok
  | succ fuel ih =>
    have hmore {c c'' : Cursor} {w : Json} (hw : item c = .ok (w, c'')) :
        ∀ v ∈ w :: taken, kind v := by
      intro v hv
      rcases List.mem_cons.mp hv with rfl | hv
      · exact hitem _ _ _ hw
      · exact htaken v hv
    unfold takeItems at h
    dsimp only at h
    split at h
    · exact absurd h Cursor.failAtNext_ne_ok
    · cases h
      intro v hv
      exact htaken v (List.mem_reverse.mp hv)
    · split_ifs at h
      · obtain ⟨⟨w, c''⟩, hw, hrest⟩ := Except.bind_eq_ok_iff.mp h
        exact ih hrest (hmore hw)
      · split at h
        · exact absurd h Cursor.failAtNext_ne_ok
        · exact absurd h Cursor.failAtNext_ne_ok
        · obtain ⟨⟨w, c''⟩, hw, hrest⟩ := Except.bind_eq_ok_iff.mp h
          exact ih hrest (hmore hw)
      · exact absurd h Cursor.failAtNext_ne_ok

theorem kind_of_takeMember {p : String × Json} (hitem : item.Yields kind)
    (h : takeMember item c = .ok (p, c')) : kind p.2 := by
  unfold takeMember at h
  split at h
  · obtain ⟨⟨name, c₁⟩, -, h⟩ := Except.bind_eq_ok_iff.mp h
    dsimp only at h
    split at h
    · obtain ⟨⟨w, c₂⟩, hw, h⟩ := Except.bind_eq_ok_iff.mp h
      cases h
      exact hitem _ _ _ hw
    · exact absurd h Cursor.failAtNext_ne_ok
    · exact absurd h Cursor.failAtNext_ne_ok
  · exact absurd h Cursor.failAtNext_ne_ok

/-- The names of the members that are read increase. -/
theorem ordered_of_takeMembers {fuel : Nat} {isFirst : Bool} {taken fields : Keyed Json}
    (hitem : item.Yields kind) (h : takeMembers item fuel isFirst taken c = .ok (fields, c'))
    (htaken : taken.Ordered kind) : fields.Ordered kind := by
  induction fuel generalizing taken c isFirst with
  | zero => exact absurd h Cursor.fail_ne_ok
  | succ fuel ih =>
    unfold takeMembers at h
    dsimp only at h
    split at h
    · exact absurd h Cursor.failAtNext_ne_ok
    · cases h
      exact htaken
    · split_ifs at h
      · obtain ⟨⟨p, c''⟩, hp, hrest⟩ := Except.bind_eq_ok_iff.mp h
        exact ih hrest (htaken.insert (kind_of_takeMember hitem hp))
      · split at h
        · exact absurd h Cursor.failAtNext_ne_ok
        · exact absurd h Cursor.failAtNext_ne_ok
        · obtain ⟨⟨p, c''⟩, hp, hrest⟩ := Except.bind_eq_ok_iff.mp h
          exact ih hrest (htaken.insert (kind_of_takeMember hitem hp))
      · exact absurd h Cursor.failAtNext_ne_ok

end

/-- The names of every object that is read increase. -/
theorem yields_takeValue (depth : Nat) : (takeValue depth).Yields Ordered := by
  induction depth using Nat.strongRecOn with
  | ind depth ih =>
    intro c v c' h
    unfold takeValue at h
    dsimp only at h
    split at h
    · exact absurd h Cursor.failAtNext_ne_ok
    · split at h
      · obtain ⟨c₁, -, h⟩ := Except.bind_eq_ok_iff.mp h
        cases h
        exact .null
      · obtain ⟨c₁, -, h⟩ := Except.bind_eq_ok_iff.mp h
        cases h
        exact .bool _
      · obtain ⟨c₁, -, h⟩ := Except.bind_eq_ok_iff.mp h
        cases h
        exact .bool _
      · exact ordered_of_takeNumber h
      · obtain ⟨⟨s, c₁⟩, -, h⟩ := Except.bind_eq_ok_iff.mp h
        cases h
        exact .str _
      · split at h
        · exact absurd h Cursor.failAtNext_ne_ok
        · obtain ⟨⟨items, c₁⟩, hitems, h⟩ := Except.bind_eq_ok_iff.mp h
          cases h
          apply Ordered.arr
          apply kind_of_takeItems (ih _ (Nat.lt_succ_self _)) hitems
          intro v hv
          cases hv
      · split at h
        · exact absurd h Cursor.failAtNext_ne_ok
        · obtain ⟨⟨fields, c₁⟩, hfields, h⟩ := Except.bind_eq_ok_iff.mp h
          cases h
          have hordered := ordered_of_takeMembers (ih _ (Nat.lt_succ_self _)) hfields
            Keyed.ordered_nil
          exact .obj hordered.1 hordered.2
      · split at h
        · exact ordered_of_takeNumber h
        · exact absurd h Cursor.failAtNext_ne_ok

/-- The names of every object of a text increase. -/
theorem ordered_of_parse {s : String} {v : Json} (h : parse s = .ok v) : v.Ordered := by
  unfold parse at h
  obtain ⟨⟨w, c⟩, hw, h⟩ := Except.bind_eq_ok_iff.mp h
  dsimp only at h
  split at h
  · cases h
    exact yields_takeValue depthLimit _ _ _ hw
  · exact absurd h Cursor.failAtNext_ne_ok

end Json

end PluginChain
