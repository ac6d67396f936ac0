import PluginChain.Event
set_option autoImplicit false

/-!
# Copies into events

An event that is started by copying holds just what was copied: data is read back
from its plain form as it was.  So no such event is refused.
-/

namespace PluginChain

/-- A list is read back where each of its elements is. -/
theorem Format.readItems_map {V E α : Type} [Format V E] {read : V → Except E α} {write : α → V}
    (h : ∀ a, read (write a) = .ok a) (i : Nat) (l : List α) :
    Format.readItems read i (l.map write) = .ok l := by
  induction l generalizing i with
  | nil => rfl
  | cons a rest ih => simp [Format.readItems, h, ih]

namespace Event

variable {D : Type} {read : Json → Except Mismatch D} {seed : Serial}

/-- An event is a copy exactly if its data is read from the plain form of the seed, and
nothing else is in it. -/
theorem copied_eq_ok_iff {e : Event D} :
    copied read seed = .ok e ↔
      ∃ v, seed.toJson = .ok v ∧ ∃ data, read v = .ok data ∧ e = assigned data := by
  unfold copied toPlain
  cases seed.toJson with
  | error m => simp
  | ok v =>
    simp only [Except.ok.injEq, exists_eq_left']
    cases read v with
    | error m => simp
    | ok data =>
      simp only [Except.ok.injEq, exists_eq_left']
      exact eq_comm

/-- Data that is read back from its plain form is copied as it is. -/
theorem copied_eq {v : Json} {data : D} (hv : seed.toJson = .ok v) (hread : read v = .ok data) :
    copied read seed = .ok (assigned data) :=
  copied_eq_ok_iff.mpr ⟨v, hv, data, hread, rfl⟩

/-- An event that is refused is so for its data. -/
theorem kind_of_copied_error {f : Fault} (h : copied read seed = .error f) :
    f.kind = .serialization := by
  unfold copied toPlain at h
  cases hplain : seed.toJson with
  | error m =>
    rw [hplain] at h
    cases h
    rfl
  | ok v =>
    rw [hplain] at h
    dsimp only at h
    cases hread : read v with
    | error m =>
      rw [hread] at h
      cases h
      rfl
    | ok data =>
      rw [hread] at h
      cases h

end Event

/-- A field that is there is read. -/
theorem Parts.read_of_get? {V E α : Type} [Format V E] {t : RecordType} {p : Parts V}
    {field : String} {v : V} {reader : V → Except E α} {a : α} (hv : p.get? t field = some v)
    (ha : reader v = .ok a) : p.read t field reader = .ok (some a) := by
  rw [Parts.read, hv]
  dsimp only
  rw [ha]

/-- An entry is read back from its plain form, with any option. -/
theorem PluginEntry.ofJson_toJson (e : PluginEntry) : PluginEntry.ofJson e.toJson = .ok e := by
  rfl

/-- A plugin list is read back from its plain form. -/
theorem PluginsData.ofJson_toJson (d : PluginsData) : PluginsData.ofJson d.toJson = .ok d := by
  have hlist : PluginEntry.listOfJson (.arr (d.plugins.map PluginEntry.toJson)) = .ok d.plugins :=
    Format.readItems_map PluginEntry.ofJson_toJson 0 d.plugins
  have hread : Parts.read recordType (.named [("plugins", .arr (d.plugins.map PluginEntry.toJson))])
      "plugins" PluginEntry.listOfJson = .ok (some d.plugins) := Parts.read_of_get? rfl hlist
  have hparts : Format.parts recordType d.toJson =
      .ok (.named [("plugins", .arr (d.plugins.map PluginEntry.toJson))]) := rfl
  rw [ofJson, hparts]
  change (Parts.read _ _ _ _ >>= _) = _
  rw [hread]
  rfl

/-- A plugin list is copied as it is. -/
theorem PluginsData.copied_toSerial (d : PluginsData) :
    Event.copied PluginsData.ofJson d.toSerial = .ok (.assigned d) :=
  Event.copied_eq (PluginsData.toJson_toSerial d) (PluginsData.ofJson_toJson d)

/-! ## The other data that is copied -/

/-- A configuration travels as its plain form. -/
theorem ConfigData.copied_seed {config : Serial} {v : Json} (h : config.toJson = .ok v) :
    Event.copied ConfigData.ofJson (ConfigData.seed config) = .ok (.assigned ⟨v⟩) := by
  have hplain : (seed config).toJson = .ok (toJson ⟨v⟩) := by
    simp [seed, toJson, Serial.toJson, Serial.fieldsToJson, h, Json.ofFields, Keyed.ofList]
  have hread : ofJson (toJson ⟨v⟩) = .ok ⟨v⟩ := rfl
  exact Event.copied_eq hplain hread

/-- Documentation records are read back from their plain form. -/
theorem DocsData.ofJson_toJson (d : DocsData) : DocsData.ofJson d.toJson = .ok d := by
  have hlist : Json.readList (.arr d.docs) = .ok d.docs := by
    have h := Format.readItems_map (fun v : Json => (rfl : Except.ok (id v) = .ok v)) 0 d.docs
    rwa [List.map_id] at h
  have hread : Parts.read recordType (.named [("docs", .arr d.docs)]) "docs" Json.readList =
      .ok (some d.docs) := Parts.read_of_get? rfl hlist
  have hparts : Format.parts recordType d.toJson = .ok (.named [("docs", .arr d.docs)]) := rfl
  rw [ofJson, hparts]
  change (Parts.read _ _ _ _ >>= _) = _
  rw [hread]
  rfl

/-- Documentation records are copied as they are. -/
theorem DocsData.copied_toSerial (d : DocsData) :
    Event.copied DocsData.ofJson d.toSerial = .ok (.assigned d) :=
  Event.copied_eq d.toJson_toSerial d.ofJson_toJson

/-- A rendered file is copied as it is. -/
theorem ContentData.copied_toSerial (d : ContentData) :
    Event.copied ContentData.ofJson d.toSerial = .ok (.assigned d) := by
  have hread : ofJson d.toJson = .ok d := rfl
  exact Event.copied_eq d.toJson_toSerial hread

/-- The members of a configuration in plain form. -/
def Config.members (c : Config) : List (String × Json) :=
  [("logging", .obj [("format", .str c.logging.format), ("level", .str c.logging.level)]),
    ("plugin", .obj [("directory", .str c.plugin.directory)]),
    ("plugins", .arr (c.plugins.map PluginEntry.toJson))]

/-- A configuration is read back from its plain form, with any plugin list. -/
theorem Config.read_toJson (c : Config) : Config.read c.toJson = .ok c := by
  have hlist : Format.list PluginEntry.read (Json.arr (c.plugins.map PluginEntry.toJson)) =
      .ok c.plugins := Format.readItems_map PluginEntry.ofJson_toJson 0 c.plugins
  have hread : Parts.read recordType (.named c.members) "plugins"
      (Format.list PluginEntry.read) = .ok (some c.plugins) := Parts.read_of_get? rfl hlist
  have hparts : Format.parts recordType c.toJson = .ok (.named c.members) := rfl
  rw [read, hparts]
  simp only [bind, Except.bind]
  rw [hread]
  rfl

end PluginChain
