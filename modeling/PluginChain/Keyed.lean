set_option autoImplicit false

/-!
# Lists of values under text keys

`Keyed α` is a list of pairs, read through `Keyed.get?`: the first pair with a
key counts.  `Keyed.insert` keeps the keys in increasing order by code point,
which is also the order of their UTF-8 bytes, and replaces the value of a key
that is there already; a list built by it alone has each key once.  The laws say
what each operation does to `get?` and to the keys.
-/

namespace PluginChain

/-- Values under text keys. -/
abbrev Keyed (α : Type) := List (String × α)

namespace Keyed

variable {α β : Type}

/-- The value under a key. -/
def get? (key : String) : Keyed α → Option α
  | [] => none
  | (k, v) :: rest => if k = key then some v else get? key rest

/-- Whether the key occurs. -/
def contains (key : String) (m : Keyed α) : Bool := (get? key m).isSome

/-- The keys, in the order of the list. -/
def keys (m : Keyed α) : List String := m.map (·.1)

/-- Puts a value under a key, before the first greater key. -/
def insert (key : String) (value : α) : Keyed α → Keyed α
  | [] => [(key, value)]
  | (k, v) :: rest =>
    if k = key then (key, value) :: rest
    else if key < k then (key, value) :: (k, v) :: rest
    else (k, v) :: insert key value rest

/-- Drops the pairs with a key. -/
def erase (key : String) (m : Keyed α) : Keyed α := m.filter fun p => p.1 != key

/-- Replaces the value under a key, where the key occurs. -/
def modify (key : String) (f : α → α) : Keyed α → Keyed α
  | [] => []
  | (k, v) :: rest => if k = key then (k, f v) :: rest else (k, v) :: modify key f rest

/-- The pairs put one after the other into an empty list: of two with one key the
later counts. -/
def ofList (pairs : List (String × α)) : Keyed α :=
  pairs.foldl (fun m p => insert p.1 p.2 m) []

/-! ## Laws -/

@[simp] theorem get?_nil (key : String) : get? key ([] : Keyed α) = none := rfl

theorem get?_insert_self (key : String) (value : α) (m : Keyed α) :
    get? key (insert key value m) = some value := by
  induction m with
  | nil => simp [insert, get?]
  | cons p rest ih =>
    obtain ⟨k, v⟩ := p
    by_cases hk : k = key
    · simp [insert, get?, hk]
    · by_cases hlt : key < k
      · simp [insert, get?, hk, hlt]
      · simpa [insert, get?, hk, hlt] using ih

theorem get?_insert_of_ne {key other : String} (h : key ≠ other) (value : α) (m : Keyed α) :
    get? other (insert key value m) = get? other m := by
  induction m with
  | nil => simp [insert, get?, h]
  | cons p rest ih =>
    obtain ⟨k, v⟩ := p
    by_cases hk : k = key
    · subst hk
      simp [insert, get?, h]
    · by_cases hlt : key < k
      · simp [insert, get?, hk, hlt, h]
      · simp [insert, get?, hk, hlt, ih]

theorem get?_modify_self (key : String) (f : α → α) (m : Keyed α) :
    get? key (modify key f m) = (get? key m).map f := by
  induction m with
  | nil => rfl
  | cons p rest ih =>
    obtain ⟨k, v⟩ := p
    by_cases hk : k = key
    · simp [modify, get?, hk]
    · simp [modify, get?, hk, ih]

theorem get?_modify_of_ne {key other : String} (h : key ≠ other) (f : α → α) (m : Keyed α) :
    get? other (modify key f m) = get? other m := by
  induction m with
  | nil => rfl
  | cons p rest ih =>
    obtain ⟨k, v⟩ := p
    by_cases hk : k = key
    · subst hk
      simp [modify, get?, h]
    · simp [modify, get?, hk, ih]

theorem keys_modify (key : String) (f : α → α) (m : Keyed α) :
    keys (modify key f m) = keys m := by
  induction m with
  | nil => rfl
  | cons p rest ih =>
    obtain ⟨k, v⟩ := p
    by_cases hk : k = key
    · simp [modify, keys, hk]
    · simpa [modify, keys, hk] using ih

/-- A key is in the list after an insertion if it was there or is the new one. -/
theorem mem_keys_insert {key other : String} {value : α} {m : Keyed α} :
    other ∈ keys (insert key value m) ↔ other = key ∨ other ∈ keys m := by
  induction m with
  | nil => simp [insert, keys]
  | cons p rest ih =>
    obtain ⟨k, v⟩ := p
    by_cases hk : k = key
    · simp [insert, keys, hk]
    · by_cases hlt : key < k
      · simp [insert, keys, hk, hlt]
      · simp only [keys] at ih
        simp only [insert, hk, hlt, if_false, keys, List.map_cons, List.mem_cons, ih]
        exact or_left_comm

/-- A key has a value exactly when it occurs among the keys. -/
theorem contains_iff_mem_keys {key : String} {m : Keyed α} :
    contains key m = true ↔ key ∈ keys m := by
  induction m with
  | nil => simp [contains, keys]
  | cons p rest ih =>
    obtain ⟨k, v⟩ := p
    simp only [contains, keys] at ih
    by_cases hk : k = key
    · simp [contains, get?, keys, hk]
    · simp only [contains, get?, hk, if_false, keys, List.map_cons, List.mem_cons, ih]
      simp [Ne.symm hk]

/-- What is found under a key is in the list. -/
theorem mem_of_get? {key : String} {value : α} {m : Keyed α} (h : get? key m = some value) :
    (key, value) ∈ m := by
  induction m with
  | nil => cases h
  | cons p rest ih =>
    obtain ⟨k, v⟩ := p
    by_cases hk : k = key
    · rw [get?, if_pos hk, Option.some.injEq] at h
      rw [← hk, ← h]
      exact List.mem_cons_self
    · rw [get?, if_neg hk] at h
      exact List.mem_cons_of_mem _ (ih h)

/-- Insertion keeps the keys strictly increasing. -/
theorem pairwise_keys_insert (key : String) (value : α) {m : Keyed α}
    (h : (keys m).Pairwise (· < ·)) : (keys (insert key value m)).Pairwise (· < ·) := by
  induction m with
  | nil => simp [insert, keys]
  | cons p rest ih =>
    obtain ⟨k, v⟩ := p
    simp only [keys, List.map_cons, List.pairwise_cons] at h
    by_cases hk : k = key
    · subst hk
      simpa [insert, keys] using h
    · by_cases hlt : key < k
      · simp only [insert, hk, hlt, if_false, if_true, keys, List.map_cons, List.pairwise_cons]
        refine ⟨?_, h⟩
        intro x hx
        rcases List.mem_cons.mp hx with rfl | hx
        · exact hlt
        · exact String.lt_trans hlt (h.1 x hx)
      · simp only [insert, hk, hlt, if_false, keys, List.map_cons, List.pairwise_cons]
        refine ⟨?_, ih h.2⟩
        intro x hx
        rcases mem_keys_insert.mp hx with rfl | hx
        · have hle : k ≤ x := String.not_lt.mp hlt
          by_cases hkx : k < x
          · exact hkx
          · exact absurd (String.le_antisymm hle (String.not_lt.mp hkx)) hk
        · exact h.1 x hx

/-! ## Lists that are in order -/

/-- A pair of a list in order is the one that is found under its key. -/
theorem get?_of_mem {key : String} {value : α} {m : Keyed α} (h : (keys m).Pairwise (· < ·))
    (hmem : (key, value) ∈ m) : get? key m = some value := by
  induction m with
  | nil => cases hmem
  | cons first rest ih =>
    obtain ⟨hfirst, hrest⟩ := List.pairwise_cons.mp h
    rcases List.mem_cons.mp hmem with rfl | hmem
    · rw [get?, if_pos rfl]
    · have hlt := hfirst key (List.mem_map_of_mem hmem)
      rw [get?, if_neg (fun heq => String.lt_irrefl _ (heq ▸ hlt))]
      exact ih hrest hmem

@[simp] theorem insert_nil (key : String) (value : α) : insert key value [] = [(key, value)] := rfl

/-- A value under a key less than the first one stands in front. -/
theorem insert_cons_of_lt {key k : String} (h : key < k) (value v : α) (rest : Keyed α) :
    insert key value ((k, v) :: rest) = (key, value) :: (k, v) :: rest := by
  have hk : k ≠ key := by
    rintro rfl
    exact String.lt_irrefl _ h
  rw [insert, if_neg hk, if_pos h]

/-- A value under a key greater than the first one stands somewhere behind it. -/
theorem insert_cons_of_gt {key k : String} (h : k < key) (value v : α) (rest : Keyed α) :
    insert key value ((k, v) :: rest) = (k, v) :: insert key value rest := by
  have hk : k ≠ key := by
    rintro rfl
    exact String.lt_irrefl _ h
  rw [insert, if_neg hk, if_neg (String.lt_asymm h)]

/-- A value under a key greater than all others stands at the end. -/
theorem insert_eq_append {key : String} {m : Keyed α} (h : ∀ k ∈ keys m, k < key) (value : α) :
    insert key value m = m ++ [(key, value)] := by
  induction m with
  | nil => rfl
  | cons p rest ih =>
    obtain ⟨k, v⟩ := p
    rw [insert_cons_of_gt (h k List.mem_cons_self), List.cons_append,
      ih fun l hl => h l (List.mem_cons_of_mem k hl)]

/-- Pairs whose keys increase are put into a list as they stand. -/
theorem ofList_eq_self {m : Keyed α} (h : (keys m).Pairwise (· < ·)) : ofList m = m := by
  have step : ∀ (rest done : Keyed α), (keys (done ++ rest)).Pairwise (· < ·) →
      rest.foldl (fun m p => insert p.1 p.2 m) done = done ++ rest := by
    intro rest
    induction rest with
    | nil => intro done _; simp
    | cons p rest ih =>
      intro done hd
      have last : ∀ k ∈ keys done, k < p.1 := by
        intro k hk
        rw [keys, List.map_append, List.pairwise_append] at hd
        exact hd.2.2 k hk p.1 (by simp)
      rw [List.foldl_cons, insert_eq_append last, ih]
      · simp
      · simpa using hd
  exact step m [] h

end Keyed

end PluginChain
