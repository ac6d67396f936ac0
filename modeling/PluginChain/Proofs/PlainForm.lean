import PluginChain.Event
set_option autoImplicit false

/-!
# JSON that is copied member by member

A value that is JSON already is its own plain form.  This module says why that is what
the copy comes to: a JSON value is written out as any other data is, null by null and
member by member (`Serial.ofJson`), and it is built again from its plain form in the same
way (`Json.rebuilt`).  For a well-formed value, of any depth, both give the value itself.
-/

namespace PluginChain

namespace Json

mutual

/-- A value as it comes from text or from data: its integers are in range, its floats are
finite, and the names of every object increase. -/
def WellFormed : Json → Prop
  | .int n => minInt ≤ n ∧ n ≤ maxInt
  | .float x => x.isFinite = true
  | .arr items => WellFormedItems items
  | .obj fields => (Keyed.keys fields).Pairwise (· < ·) ∧ WellFormedFields fields
  | .null | .bool _ | .str _ => True

/-- Elements that are well-formed. -/
def WellFormedItems : List Json → Prop
  | [] => True
  | v :: rest => WellFormed v ∧ WellFormedItems rest

/-- Members whose values are well-formed. -/
def WellFormedFields : List (String × Json) → Prop
  | [] => True
  | (_, v) :: rest => WellFormed v ∧ WellFormedFields rest

end

mutual

/-- The value built again from its parts: elements in their order, and members put one
after the other into an empty object. -/
def rebuilt : Json → Json
  | .null => .null
  | .bool b => .bool b
  | .int n => .int n
  | .float x => .float x
  | .str s => .str s
  | .arr items => .arr (rebuiltItems items)
  | .obj fields => ofFields (rebuiltFields fields)

/-- Elements built again. -/
def rebuiltItems : List Json → List Json
  | [] => []
  | v :: rest => rebuilt v :: rebuiltItems rest

/-- Members built again. -/
def rebuiltFields : List (String × Json) → List (String × Json)
  | [] => []
  | (name, v) :: rest => (name, rebuilt v) :: rebuiltFields rest

end

mutual

/-- A well-formed value is built again as it was. -/
theorem rebuilt_eq_self : ∀ {v : Json}, v.WellFormed → v.rebuilt = v
  | .null, _ | .bool _, _ | .int _, _ | .float _, _ | .str _, _ => rfl
  | .arr items, h => by
    rw [rebuilt, rebuiltItems_eq_self h]
  | .obj fields, h => by
    rw [rebuilt, rebuiltFields_eq_self h.2, ofFields_eq_obj h.1]

theorem rebuiltItems_eq_self : ∀ {items : List Json}, WellFormedItems items →
    rebuiltItems items = items
  | [], _ => rfl
  | v :: rest, h => by
    rw [rebuiltItems, rebuilt_eq_self h.1, rebuiltItems_eq_self h.2]

theorem rebuiltFields_eq_self : ∀ {fields : List (String × Json)}, WellFormedFields fields →
    rebuiltFields fields = fields
  | [], _ => rfl
  | (name, v) :: rest, h => by
    rw [rebuiltFields, rebuilt_eq_self h.1, rebuiltFields_eq_self h.2]

end

end Json

namespace Serial

mutual

/-- A JSON value as data, member by member. -/
def ofJson : Json → Serial
  | .null => .nothing
  | .bool b => .bool b
  | .int n => .int n
  | .float x => .float x
  | .str s => .str s
  | .arr items => .seq (ofItems items)
  | .obj fields => .map (ofFields fields)

/-- Elements as data. -/
def ofItems : List Json → List Serial
  | [] => []
  | v :: rest => ofJson v :: ofItems rest

/-- Members as the entries of a map under text keys. -/
def ofFields : List (String × Json) → List (Serial × Serial)
  | [] => []
  | (name, v) :: rest => (.str name, ofJson v) :: ofFields rest

end

mutual

/-- A well-formed value that is written out member by member has itself as its plain
form. -/
theorem toJson_ofJson : ∀ {v : Json}, v.WellFormed → (ofJson v).toJson = .ok v
  | .null, _ | .bool _, _ | .str _, _ => by simp [ofJson, toJson]
  | .int n, h => by
    have hrange : Json.minInt ≤ n ∧ n ≤ Json.maxInt := h
    rw [ofJson, toJson, if_pos hrange]
  | .float x, h => by
    have hfinite : x.isFinite = true := h
    rw [ofJson, toJson, if_pos hfinite]
  | .arr items, h => by
    rw [ofJson, toJson, itemsToJson_ofItems h]
  | .obj fields, h => by
    rw [ofJson, toJson, entriesToJson_ofFields h.2]
    dsimp only
    rw [Json.ofFields_eq_obj h.1]

theorem itemsToJson_ofItems : ∀ {items : List Json}, Json.WellFormedItems items →
    itemsToJson (ofItems items) = .ok items
  | [], _ => by simp [ofItems, itemsToJson]
  | v :: rest, h => by
    rw [ofItems, itemsToJson, toJson_ofJson h.1]
    dsimp only
    rw [itemsToJson_ofItems h.2]

theorem entriesToJson_ofFields : ∀ {fields : List (String × Json)},
    Json.WellFormedFields fields → entriesToJson (ofFields fields) = .ok fields
  | [], _ => by simp [ofFields, entriesToJson]
  | (name, v) :: rest, h => by
    rw [ofFields, entriesToJson, key, toJson_ofJson h.1]
    dsimp only
    rw [entriesToJson_ofFields h.2]

end

end Serial

end PluginChain
