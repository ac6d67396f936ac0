import PluginChain.Settings.Scalar
import PluginChain.Toml.Value
set_option autoImplicit false

/-!
# Settings

A tree of settings in which every value may know the source it comes from.
`Setting.overlay` lays one tree over another: tables are merged key by key, and
anything else takes the place of what was there.
-/

namespace PluginChain

/-- A value, a list or a table, with its source. -/
inductive Setting where
  | scalar (origin? : Option String) (v : Scalar)
  | list (origin? : Option String) (items : List Setting)
  | table (origin? : Option String) (fields : List (String × Setting))
  deriving Inhabited

namespace Setting

/-- An absent setting. -/
def nothing : Setting := .scalar none .nothing

/-- An empty table without a source. -/
def emptyTable : Setting := .table none []

/-- The source of a setting. -/
def origin? : Setting → Option String
  | .scalar origin? _ => origin?
  | .list origin? _ => origin?
  | .table origin? _ => origin?

/-- The fields of a table; anything else has none. -/
def fields : Setting → Keyed Setting
  | .table _ fields => fields
  | _ => []

/-- The elements of a list; anything else has none. -/
def items : Setting → List Setting
  | .list _ items => items
  | _ => []

/-- The source of a table; anything else is replaced by a table without one. -/
def tableOrigin? : Setting → Option String
  | .table origin? _ => origin?
  | _ => none

/-- The source of a list; anything else is replaced by a list without one. -/
def listOrigin? : Setting → Option String
  | .list origin? _ => origin?
  | _ => none

/-- The table with a field. -/
def withField (s : Setting) (key : String) (v : Setting) : Setting :=
  .table s.tableOrigin? (Keyed.insert key v s.fields)

/-- The setting under a key of a table. -/
def get? (key : String) (s : Setting) : Option Setting := Keyed.get? key s.fields

/-- The setting under a key of a table, absent where there is none. -/
def get (key : String) (s : Setting) : Setting := (s.get? key).getD nothing

mutual

/-- A setting laid over another. -/
def overlay : Setting → Setting → Setting
  | .table _ fields, old => overlayFields fields (.table old.tableOrigin? old.fields)
  | .scalar origin? v, _ => .scalar origin? v
  | .list origin? items, _ => .list origin? items

/-- Fields laid over those of a table. -/
def overlayFields : List (String × Setting) → Setting → Setting
  | [], old => old
  | (key, v) :: rest, old => overlayFields rest (old.withField key (overlay v (old.get key)))

end

mutual

/-- The settings of a TOML value from a source. -/
def ofToml (origin : String) : Toml → Setting
  | .scalar v => .scalar (some origin) v
  | .array items => .list (some origin) (ofTomlItems origin items)
  | .table fields => .table (some origin) (ofTomlFields origin fields)

/-- The settings of the elements of an array. -/
def ofTomlItems (origin : String) : List Toml → List Setting
  | [] => []
  | v :: rest => ofToml origin v :: ofTomlItems origin rest

/-- The settings of the fields of a table. -/
def ofTomlFields (origin : String) : List (String × Toml) → List (String × Setting)
  | [] => []
  | (key, v) :: rest => (key, ofToml origin v) :: ofTomlFields origin rest

end

mutual

/-- The settings of a JSON value from a source.  Its integers stay integers, those beyond the
signed ones of 64 bits too. -/
def ofJson (origin : String) : Json → Setting
  | .null => .scalar (some origin) .nothing
  | .bool b => .scalar (some origin) (.bool b)
  | .int n => .scalar (some origin) (.int n)
  | .float x => .scalar (some origin) (.float x)
  | .str s => .scalar (some origin) (.str s)
  | .arr items => .list (some origin) (ofJsonItems origin items)
  | .obj fields => .table (some origin) (ofJsonFields origin fields)

/-- The settings of the elements of a list. -/
def ofJsonItems (origin : String) : List Json → List Setting
  | [] => []
  | v :: rest => ofJson origin v :: ofJsonItems origin rest

/-- The settings of the members of an object. -/
def ofJsonFields (origin : String) : List (String × Json) → List (String × Setting)
  | [] => []
  | (key, v) :: rest => (key, ofJson origin v) :: ofJsonFields origin rest

end

mutual

/-- A setting in plain JSON form. -/
def toJson : Setting → Json
  | .scalar _ v => v.toJson
  | .list _ items => .arr (itemsToJson items)
  | .table _ fields => Json.ofFields (fieldsToJson fields)

/-- The elements of a list in plain JSON form. -/
def itemsToJson : List Setting → List Json
  | [] => []
  | s :: rest => toJson s :: itemsToJson rest

/-- The fields of a table in plain JSON form. -/
def fieldsToJson : List (String × Setting) → List (String × Json)
  | [] => []
  | (key, s) :: rest => (key, toJson s) :: fieldsToJson rest

end

/-! ## Laws -/

theorem get?_withField_self (key : String) (v s : Setting) :
    (s.withField key v).get? key = some v := by
  simp [withField, get?, fields, Keyed.get?_insert_self]

theorem get?_withField_of_ne {key other : String} (h : key ≠ other) (v s : Setting) :
    (s.withField key v).get? other = s.get? other := by
  simp [withField, get?, fields, Keyed.get?_insert_of_ne h]

/-- A single value takes the place of anything. -/
@[simp] theorem overlay_scalar (origin? : Option String) (v : Scalar) (old : Setting) :
    overlay (.scalar origin? v) old = .scalar origin? v := by
  simp [overlay]

/-- A list takes the place of anything. -/
@[simp] theorem overlay_list (origin? : Option String) (items : List Setting) (old : Setting) :
    overlay (.list origin? items) old = .list origin? items := by
  simp [overlay]

/-- A key that is not among those laid over a table keeps its setting. -/
theorem get?_overlayFields_of_not_mem {fields : List (String × Setting)} {key : String}
    (h : key ∉ Keyed.keys fields) (old : Setting) :
    (overlayFields fields old).get? key = old.get? key := by
  induction fields generalizing old with
  | nil => simp [overlayFields]
  | cons p rest ih =>
    obtain ⟨k, v⟩ := p
    simp only [Keyed.keys, List.map_cons, List.mem_cons, not_or] at h
    rw [overlayFields, ih h.2, get?_withField_of_ne (Ne.symm h.1)]

end Setting

end PluginChain
