import Mathlib.Logic.Basic
import Mathlib.Tactic.SplitIfs
import PluginChain.ConfigFile
set_option autoImplicit false

/-!
# Settings below keys

Where a setting stands below keys, it is what was set there last: a setting laid over
something else leaves it alone, as soon as the two ways part at a key (`Place.Apart`).  Two
trees of settings that differ below some keys only still do so after the same settings were
laid over both (`Setting.Beside`), which is how the rest of a configuration is seen to stay
when one variable is added.
-/

namespace PluginChain

/-- Whether a place and a way of keys part at a key. -/
def Place.Apart : Place → List String → Prop
  | .key a :: place, b :: keys => a ≠ b ∨ Place.Apart place keys
  | _, _ => False

/-- The place below keys. -/
def Place.ofKeys (keys : List String) : Place := keys.map .key

namespace Setting

variable {place : Place} {key other : String} {keys : List String} {s s' new old : Setting}

/-- The setting below keys. -/
def at? : List String → Setting → Option Setting
  | [], s => some s
  | key :: rest, s => (s.get? key).bind (at? rest)

@[simp] theorem get?_nothing (key : String) : nothing.get? key = none := rfl

theorem get_of_get? {v : Setting} (h : s.get? key = some v) : s.get key = v := by
  rw [get, h, Option.getD_some]

theorem get_eq (h : s.get? key = s'.get? key) : s.get key = s'.get key := by
  unfold get
  rw [h]

/-- Below a key, absent settings look as if there were nothing. -/
theorem at?_get (hkeys : keys ≠ []) : at? keys (s.get key) = at? (key :: keys) s := by
  rw [at?]
  cases hget : s.get? key with
  | some v => simp [get, hget]
  | none =>
    obtain ⟨first, rest, rfl⟩ := List.exists_cons_of_ne_nil hkeys
    simp [get, hget, at?]

theorem ne_nil_of_apart (h : place.Apart keys) : keys ≠ [] := by
  rintro rfl
  cases place with
  | nil => exact h
  | cons step rest => cases step <;> exact h

/-- A setting at a place leaves those alone whose way parts from it. -/
theorem at?_set_of_apart (h : place.Apart keys) : at? keys (Place.set place new old) = at? keys old := by
  induction place generalizing keys old with
  | nil => exact h.elim
  | cons step place ih =>
    cases step with
    | index i => cases keys <;> exact h.elim
    | key a =>
      cases keys with
      | nil => exact h.elim
      | cons b keys =>
        rcases eq_or_ne a b with rfl | hne
        · have hrest : Place.Apart place keys := h.resolve_left (· rfl)
          rw [Place.set, at?, get?_withField_self, Option.bind_some, ih hrest,
            at?_get (ne_nil_of_apart hrest)]
        · rw [Place.set, at?, get?_withField_of_ne hne, at?]

/-- A single value stands where it was set. -/
theorem at?_set_self (keys : List String) (origin? : Option String) (v : Scalar) (old : Setting) :
    at? keys (Place.set (.ofKeys keys) (.scalar origin? v) old) = some (.scalar origin? v) := by
  induction keys generalizing old with
  | nil => exact congrArg some (overlay_scalar origin? v old)
  | cons key rest ih =>
    rw [Place.ofKeys, List.map_cons, Place.set, at?, get?_withField_self, Option.bind_some]
    exact ih _

/-- Two settings that differ below some keys at most. -/
def Beside : List String → Setting → Setting → Prop
  | [], _, _ => True
  | key :: rest, s, s' =>
    (∀ other, other ≠ key → s'.get? other = s.get? other) ∧ Beside rest (s.get key) (s'.get key)

theorem beside_set (keys : List String) (new s : Setting) :
    Beside keys s (Place.set (.ofKeys keys) new s) := by
  induction keys generalizing s with
  | nil => trivial
  | cons key rest ih =>
    rw [Place.ofKeys, List.map_cons, Place.set]
    refine ⟨?_, ?_⟩
    · intro other hother
      exact get?_withField_of_ne hother.symm _ _
    · rw [get_of_get? (get?_withField_self _ _ _)]
      exact ih _

/-- The same setting laid over both keeps them beside each other. -/
theorem Beside.set (h : Beside keys s s') (hapart : place.Apart keys) :
    Beside keys (Place.set place new s) (Place.set place new s') := by
  induction place generalizing keys s s' with
  | nil => exact hapart.elim
  | cons step place ih =>
    cases step with
    | index i => cases keys <;> exact hapart.elim
    | key a =>
      cases keys with
      | nil => exact hapart.elim
      | cons b keys =>
        obtain ⟨hothers, hbelow⟩ := h
        rw [Place.set, Place.set]
        rcases eq_or_ne a b with rfl | hne
        · refine ⟨?_, ?_⟩
          · intro other hother
            rw [get?_withField_of_ne hother.symm, get?_withField_of_ne hother.symm,
              hothers other hother]
          · rw [get_of_get? (get?_withField_self _ _ _), get_of_get? (get?_withField_self _ _ _)]
            exact ih hbelow (hapart.resolve_left (· rfl))
        · refine ⟨?_, ?_⟩
          · intro other hother
            rcases eq_or_ne a other with rfl | hne'
            · rw [get?_withField_self, get?_withField_self, get_eq (hothers a hother)]
            · rw [get?_withField_of_ne hne', get?_withField_of_ne hne', hothers other hother]
          · rw [get_eq (get?_withField_of_ne hne _ _), get_eq (get?_withField_of_ne hne _ _)]
            exact hbelow

/-! ## Tables at the root -/

/-- Whether a setting is a table. -/
def IsTable : Setting → Prop
  | .table _ _ => True
  | _ => False

instance : DecidablePred IsTable
  | .table _ _ => .isTrue trivial
  | .scalar _ _ => .isFalse id
  | .list _ _ => .isFalse id

theorem IsTable.exists_eq (h : s.IsTable) : ∃ origin? fields, s = .table origin? fields := by
  cases s with
  | table origin? fields => exact ⟨origin?, fields, rfl⟩
  | scalar => exact h.elim
  | list => exact h.elim

/-- What holds a field is a table. -/
theorem isTable_of_get? {v : Setting} (h : s.get? key = some v) : s.IsTable := by
  cases s with
  | table => trivial
  | scalar => cases h
  | list => cases h

/-- What stands at a place that begins with a key stands in a table. -/
theorem isTable_set (name : String) (rest : Place) (new old : Setting) :
    (Place.set (.key name :: rest) new old).IsTable := by
  rw [Place.set]
  trivial

end Setting

namespace Place

/-- The steps that are read in a key, or behind a point, begin with a key. -/
theorem exists_key_of_readFrom {read cs : List Char} {place : Place}
    (h : readFrom (.key read) cs = some place) : ∃ name rest, place = .key name :: rest := by
  induction cs generalizing read with
  | nil =>
    rw [readFrom] at h
    split_ifs at h
    exact ⟨_, [], (Option.some.inj h).symm⟩
  | cons c cs ih =>
    rw [readFrom] at h
    split_ifs at h
    · exact ih h
    · obtain ⟨rest, -, rfl⟩ := Option.map_eq_some_iff.mp h
      exact ⟨_, rest, rfl⟩
    · obtain ⟨rest, -, rfl⟩ := Option.map_eq_some_iff.mp h
      exact ⟨_, rest, rfl⟩

/-- A place that a text stands for begins with a key. -/
theorem exists_key_of_ofText (s : String) : ∃ name rest, ofText s = .key name :: rest := by
  unfold ofText
  cases hplace : ofText? s with
  | none => exact ⟨s, [], rfl⟩
  | some place => exact exists_key_of_readFrom hplace

theorem readFrom_of_plain {read cs : List Char} {place : Place} (hpoint : '.' ∉ cs)
    (hbracket : '[' ∉ cs) (h : readFrom (.key read) cs = some place) :
    place = [.key (String.ofList (read.reverse ++ cs))] := by
  induction cs generalizing read with
  | nil =>
    rw [readFrom] at h
    split_ifs at h
    rw [List.append_nil]
    exact (Option.some.inj h).symm
  | cons c cs ih =>
    rw [List.mem_cons, not_or] at hpoint hbracket
    rw [readFrom] at h
    split_ifs at h with hkey hempty hdot hopen
    · rw [ih hpoint.2 hbracket.2 h, List.reverse_cons, List.append_assoc, List.singleton_append]
    · exact absurd hdot.symm hpoint.1
    · exact absurd hopen.symm hbracket.1

/-- A key without points and brackets stands for itself. -/
theorem ofText_of_plain {s : String} (hpoint : '.' ∉ s.toList) (hbracket : '[' ∉ s.toList) :
    ofText s = [.key s] := by
  unfold ofText
  cases hplace : ofText? s with
  | none => rfl
  | some place =>
    rw [Option.getD_some, readFrom_of_plain hpoint hbracket hplace, List.reverse_nil,
      List.nil_append, String.ofList_toList]

end Place

/-! ## Environments -/

namespace Environment

open Setting (at? Beside IsTable)

variable {env : Environment} {keys : List String} {s s' : Setting}

/-- Whether the settings of an environment all stand apart from a way of keys. -/
def Apart (env : Environment) (keys : List String) : Prop :=
  ∀ v ∈ env, ∀ place, place? v.1 = some place → place.Apart keys

theorem Apart.tail {v : String × String} (h : Apart (v :: env) keys) : Apart env keys := by
  intro w hw
  exact h w (List.mem_cons_of_mem _ hw)

theorem Apart.head {name value : String} {place : Place} (h : Apart ((name, value) :: env) keys)
    (hplace : place? name = some place) : place.Apart keys :=
  h _ List.mem_cons_self place hplace

/-- An environment apart from keys leaves the setting below them alone. -/
theorem at?_overlay_of_apart (h : env.Apart keys) : at? keys (env.overlay s) = at? keys s := by
  induction env generalizing s with
  | nil => rfl
  | cons v rest ih =>
    obtain ⟨name, value⟩ := v
    rw [overlay]
    cases hplace : place? name with
    | none => exact ih h.tail
    | some place => exact (ih h.tail).trans (Setting.at?_set_of_apart (h.head hplace))

theorem beside_overlay (h : Beside keys s s') (hapart : env.Apart keys) :
    Beside keys (env.overlay s) (env.overlay s') := by
  induction env generalizing s s' with
  | nil => exact h
  | cons v rest ih =>
    obtain ⟨name, value⟩ := v
    rw [overlay, overlay]
    cases hplace : place? name with
    | none => exact ih h hapart.tail
    | some place => exact ih (h.set (hapart.head hplace)) hapart.tail

theorem overlay_append (before after : Environment) (s : Setting) :
    overlay (before ++ after) s = after.overlay (before.overlay s) := by
  induction before generalizing s with
  | nil => rfl
  | cons v rest ih =>
    obtain ⟨name, value⟩ := v
    rw [List.cons_append, overlay, overlay]
    cases place? name with
    | none => exact ih s
    | some place => exact ih _

theorem exists_key_of_place? {name : String} {place : Place} (h : place? name = some place) :
    ∃ first rest, place = .key first :: rest := by
  unfold place? at h
  dsimp only at h
  split_ifs at h
  obtain ⟨first, rest, hplace⟩ := Place.exists_key_of_ofText _
  exact ⟨first, rest, (Option.some.inj h).symm.trans hplace⟩

theorem isTable_overlay (h : s.IsTable) : (env.overlay s).IsTable := by
  induction env generalizing s with
  | nil => exact h
  | cons v rest ih =>
    obtain ⟨name, value⟩ := v
    rw [overlay]
    cases hplace : place? name with
    | none => exact ih h
    | some place =>
      obtain ⟨first, below, rfl⟩ := exists_key_of_place? hplace
      exact ih (Setting.isTable_set first below _ s)

/-- Only the variables that are settings count. -/
theorem overlay_filter (env : Environment) (s : Setting) :
    overlay (env.filter fun v => (place? v.1).isSome) s = overlay env s := by
  induction env generalizing s with
  | nil => rfl
  | cons v rest ih =>
    obtain ⟨name, value⟩ := v
    rw [List.filter_cons]
    cases hplace : place? name with
    | none =>
      rw [overlay_cons_of_not_setting hplace, ← ih]
      rfl
    | some place =>
      simp only [hplace, Option.isSome_some, if_true, overlay]
      exact ih _

end Environment

/-- The settings of a file make up a table. -/
theorem ConfigFile.isTable_overlay {fields : List (String × Setting)} {s : Setting}
    (h : s.IsTable) : (ConfigFile.overlay fields s).IsTable := by
  induction fields generalizing s with
  | nil => exact h
  | cons p rest ih =>
    obtain ⟨key, v⟩ := p
    rw [ConfigFile.overlay]
    obtain ⟨first, below, hplace⟩ := Place.exists_key_of_ofText key
    rw [hplace]
    exact ih (Setting.isTable_set first below v s)

end PluginChain
