import PluginChain.Proofs.Copying
import PluginChain.Proofs.Spellings
set_option autoImplicit false

/-!
# What is copied into events

Four hooks copy their data from a seed in plain form.  The data that they copy is that which
the seed spells (`CopiedData.read_eq_ok_iff`), field by field, and so all spellings of the
same fields give the same event.  What was copied spells itself, and so to copy it once more
changes nothing (`CopiedData.copies_normalize`).
-/

namespace PluginChain

/-! ## Records whose fields are required -/

section

variable {α β : Type} {t : RecordType} {p : Parts Json} {field : String}
  {reader : Json → Except Mismatch α} {make : α → β} {v : Json} {a : α}

/-- How a record with one field that has no default is read. -/
def readSole (t : RecordType) (field : String) (reader : Json → Except Mismatch α)
    (make : α → β) (v : Json) : Except Mismatch β := do
  let parts ← Format.parts t v
  let held ← parts.read t field reader
  let held ← parts.require t field held
  parts.finish t
  return make held

/-- Such a record is read exactly if it has the field and the value of that is read. -/
theorem readSole_eq_ok_iff (hmake : make.Injective) :
    readSole t field reader make v = .ok (make a) ↔
      v.IsRecord t ∧ ∃ w, v.part? t field = some w ∧ reader w = .ok a := by
  unfold readSole
  simp only [Except.bind_eq_ok_iff, pure, Except.pure, Except.ok.injEq, hmake.eq_iff]
  constructor
  · rintro ⟨p, hp, o, ho, b, hb, ⟨⟩, hfinish, rfl⟩
    refine ⟨Json.isRecord_of_parts hp hfinish, ?_⟩
    rw [← Json.get?_of_parts hp]
    exact Parts.required_iff.mp ⟨o, ho, hb⟩
  · rintro ⟨hrecord, hfield⟩
    obtain ⟨p, hp, hfinish⟩ := hrecord.exists_parts
    rw [← Json.get?_of_parts hp] at hfield
    obtain ⟨o, ho, ha⟩ := Parts.required_iff.mpr hfield
    exact ⟨p, hp, o, ho, a, ha, (), hfinish, rfl⟩

end

/-- A plugin list is read from the entries that it is spelled by. -/
theorem PluginsData.ofJson_eq_ok_iff {v : Json} {d : PluginsData} :
    ofJson v = .ok d ↔
      v.IsRecord recordType ∧ ∃ w, v.part? recordType "plugins" = some w ∧
        w.SpellsEntries d.plugins := by
  have hsole : ofJson v = readSole recordType "plugins" PluginEntry.listOfJson mk v := rfl
  rw [hsole, readSole_eq_ok_iff fun _ _ => PluginsData.mk.inj]
  exact and_congr_right fun _ => exists_congr fun w => and_congr_right fun _ =>
    Json.list_entries_iff

/-- A configuration is read from any value. -/
theorem ConfigData.ofJson_eq_ok_iff {v : Json} {d : ConfigData} :
    ofJson v = .ok d ↔
      v.IsRecord recordType ∧ ∃ w, v.part? recordType "config" = some w ∧ w = d.config := by
  have hsole : ofJson v =
      readSole recordType "config" (fun v => .ok (Format.plain v)) mk v := rfl
  rw [hsole, readSole_eq_ok_iff fun _ _ => ConfigData.mk.inj]
  simp only [Except.ok.injEq]
  rfl

/-- Documentation records are read from the list of them. -/
theorem DocsData.ofJson_eq_ok_iff {v : Json} {d : DocsData} :
    ofJson v = .ok d ↔
      v.IsRecord recordType ∧ ∃ w, v.part? recordType "docs" = some w ∧ w = .arr d.docs := by
  have hsole : ofJson v = readSole recordType "docs" Json.readList mk v := rfl
  rw [hsole, readSole_eq_ok_iff fun _ _ => DocsData.mk.inj]
  simp only [Json.readList_iff]

/-- A rendered file is read from its two texts. -/
theorem ContentData.ofJson_eq_ok_iff {v : Json} {d : ContentData} :
    ofJson v = .ok d ↔
      v.IsRecord recordType ∧ (∃ w, v.part? recordType "content" = some w ∧ w = .str d.content) ∧
        ∃ w, v.part? recordType "file_name" = some w ∧ w = .str d.fileName := by
  unfold ofJson
  simp only [Except.bind_eq_ok_iff, Parts.settle_eq_ok_iff, List.append_eq_nil_iff,
    Parts.failure_eq_nil_iff, pure, Except.pure, Except.ok.injEq, ← Json.readText_iff]
  constructor
  · rintro ⟨p, hp, -, -, o, ho, content, hcontent, o', ho', fileName, hfileName, ⟨⟩, hfinish,
      rfl⟩
    rw [← Json.get?_of_parts hp, ← Json.get?_of_parts hp]
    exact ⟨Json.isRecord_of_parts hp hfinish, Parts.required_iff.mp ⟨o, ho, hcontent⟩,
      Parts.required_iff.mp ⟨o', ho', hfileName⟩⟩
  · rintro ⟨hrecord, hcontent, hfileName⟩
    obtain ⟨p, hp, hfinish⟩ := hrecord.exists_parts
    rw [← Json.get?_of_parts hp] at hcontent hfileName
    obtain ⟨o, ho, hcontent⟩ := Parts.required_iff.mpr hcontent
    obtain ⟨o', ho', hfileName⟩ := Parts.required_iff.mpr hfileName
    exact ⟨p, hp, (), ⟨⟨o, ho⟩, ⟨o', ho'⟩⟩, o, ho, d.content, hcontent, o', ho', d.fileName,
      hfileName, (), hfinish, rfl⟩

/-! ## The data that is copied -/

/-- The kinds of data that are copied into events. -/
inductive CopiedData where
  | plugins
  | config
  | docs
  | content
  deriving DecidableEq, Repr

namespace CopiedData

/-- The data of a kind. -/
def Data : CopiedData → Type
  | .plugins => PluginsData
  | .config => ConfigData
  | .docs => DocsData
  | .content => ContentData

/-- The data as a record. -/
def recordType : CopiedData → RecordType
  | .plugins => PluginsData.recordType
  | .config => ConfigData.recordType
  | .docs => DocsData.recordType
  | .content => ContentData.recordType

/-- Reads the data from its plain form. -/
def read : (k : CopiedData) → Json → Except Mismatch k.Data
  | .plugins => PluginsData.ofJson
  | .config => ConfigData.ofJson
  | .docs => DocsData.ofJson
  | .content => ContentData.ofJson

/-- The data as a seed. -/
def toSerial : (k : CopiedData) → k.Data → Serial
  | .plugins, d => PluginsData.toSerial d
  | .config, d => ConfigData.seed (.plain (ConfigData.config d))
  | .docs, d => DocsData.toSerial d
  | .content, d => ContentData.toSerial d

variable {k : CopiedData} {d : k.Data} {v w : Json}

/-- Whether a value spells a field of the data. -/
def FieldSpells : (k : CopiedData) → k.Data → String → Json → Prop
  | .plugins, d, _, w => w.SpellsEntries (PluginsData.plugins d)
  | .config, d, _, w => w = ConfigData.config d
  | .docs, d, _, w => w = .arr (DocsData.docs d)
  | .content, d, field, w =>
    w = .str (if field = "content" then ContentData.content d else ContentData.fileName d)

/-- Whether a value spells the data: a record that has every field of it. -/
structure Spells (k : CopiedData) (v : Json) (d : k.Data) : Prop where
  record : v.IsRecord k.recordType
  fields : ∀ field ∈ k.recordType.fields, ∃ w, v.part? k.recordType field = some w ∧
    k.FieldSpells d field w

/-- Data with one field is spelled by that field. -/
theorem spells_of_sole {field : String} (hfields : k.recordType.fields = [field]) :
    k.Spells v d ↔ v.IsRecord k.recordType ∧ ∃ w, v.part? k.recordType field = some w ∧
      k.FieldSpells d field w := by
  constructor
  · rintro ⟨hrecord, hspells⟩
    exact ⟨hrecord, hspells field (by rw [hfields]; exact .head _)⟩
  · rintro ⟨hrecord, hspells⟩
    refine ⟨hrecord, ?_⟩
    rw [hfields, List.forall_mem_singleton]
    exact hspells

/-- Data is read from a value exactly if the value spells it. -/
theorem read_eq_ok_iff : k.read v = .ok d ↔ k.Spells v d := by
  cases k with
  | plugins => exact PluginsData.ofJson_eq_ok_iff.trans (spells_of_sole (k := .plugins) rfl).symm
  | config => exact ConfigData.ofJson_eq_ok_iff.trans (spells_of_sole (k := .config) rfl).symm
  | docs => exact DocsData.ofJson_eq_ok_iff.trans (spells_of_sole (k := .docs) rfl).symm
  | content =>
    refine ContentData.ofJson_eq_ok_iff.trans ?_
    constructor
    · rintro ⟨hrecord, hcontent, hfileName⟩
      refine ⟨hrecord, ?_⟩
      intro field hfield
      rcases List.mem_cons.mp hfield with rfl | hfield
      · exact hcontent
      · obtain rfl := List.mem_singleton.mp hfield
        exact hfileName
    · rintro ⟨hrecord, hspells⟩
      exact ⟨hrecord, hspells "content" (.head _), hspells "file_name" (.tail _ (.head _))⟩

/-- Data is copied from what it is as a seed. -/
theorem copied_toSerial : ∀ (k : CopiedData) (d : k.Data),
    Event.copied k.read (k.toSerial d) = .ok (.assigned d)
  | .plugins, d => PluginsData.copied_toSerial d
  | .config, d => ConfigData.copied_seed (Serial.toJson_plain (ConfigData.config d))
  | .docs, d => DocsData.copied_toSerial d
  | .content, d => ContentData.copied_toSerial d

/-! ## Spellings of the same data -/

/-- Whether two values spell a field alike: the entries of a plugin list can be spelled in
two ways each, and anything else in one. -/
def SameField : CopiedData → Json → Json → Prop
  | .plugins => Json.SameEntries
  | .config | .docs | .content => Eq

/-- Whether two values spell data alike: as records whose fields are the same but for how
they are spelled. -/
structure Same (k : CopiedData) (v w : Json) : Prop where
  left : v.IsRecord k.recordType
  right : w.IsRecord k.recordType
  fields : ∀ field ∈ k.recordType.fields,
    Option.Rel k.SameField (v.part? k.recordType field) (w.part? k.recordType field)

theorem SameField.refl (k : CopiedData) (v : Json) : k.SameField v v := by
  cases k with
  | plugins => exact Json.SameEntries.refl v
  | config | docs | content => rfl

theorem SameField.fieldSpells_iff {field : String} (h : k.SameField v w) :
    k.FieldSpells d field v ↔ k.FieldSpells d field w := by
  cases k with
  | plugins => exact Json.SameEntries.spellsEntries_iff h
  | config | docs | content =>
    obtain rfl : v = w := h
    rfl

/-- Values that spell data alike spell the same data. -/
theorem Same.spells_iff (h : k.Same v w) : k.Spells v d ↔ k.Spells w d := by
  have hfield (field : String) (hfield : field ∈ k.recordType.fields) :
      (∃ u, v.part? k.recordType field = some u ∧ k.FieldSpells d field u) ↔
        ∃ u, w.part? k.recordType field = some u ∧ k.FieldSpells d field u := by
    have hparts := h.fields field hfield
    generalize v.part? k.recordType field = part at hparts
    generalize w.part? k.recordType field = part' at hparts
    cases hparts with
    | none => rfl
    | some hsame => simp [SameField.fieldSpells_iff hsame]
  constructor
  · rintro ⟨-, hspells⟩
    exact ⟨h.right, fun field hmem => (hfield field hmem).mp (hspells field hmem)⟩
  · rintro ⟨-, hspells⟩
    exact ⟨h.left, fun field hmem => (hfield field hmem).mpr (hspells field hmem)⟩

/-- A list of the fields in the order of their declaration spells what an object does that
has them, whatever else is in that. -/
theorem same_of_listed {fields : List (String × Json)} {items : List Json}
    (h : k.recordType.fields.map (Keyed.get? · fields) = items.map some) :
    k.Same (.obj fields) (.arr items) where
  left := trivial
  right := by
    have hlength := congrArg List.length h
    rw [List.length_map, List.length_map] at hlength
    exact Nat.le_of_eq hlength.symm
  fields := by
    intro field hfield
    have hindex := List.idxOf_lt_length_of_mem hfield
    have hat := congrArg (·[k.recordType.fields.idxOf field]?) h
    simp only [List.getElem?_map, List.getElem?_eq_getElem hindex, List.getElem_idxOf,
      Option.map_some] at hat
    obtain ⟨item, hitem, hsome⟩ := Option.map_eq_some_iff.mp hat.symm
    have hobject : Json.part? k.recordType field (.obj fields) = some item := hsome.symm
    have hlist : Json.part? k.recordType field (.arr items) = some item := hitem
    rw [hobject, hlist]
    exact .some (SameField.refl k item)

/-! ## Copies -/

/-- A value is copied as the data that it spells. -/
theorem copied_plain_iff {e : Event k.Data} :
    Event.copied k.read (.plain v) = .ok e ↔ ∃ d, k.Spells v d ∧ e = .assigned d := by
  simp [Event.copied_eq_ok_iff, read_eq_ok_iff]

/-- Copying brings data into one form.  A value is copied as the data that it spells, into
an event with a null option and nothing added, and that event is its own copy.  Values that
spell the same fields give the same event, among them an object with any more members and a
list in the order of declaration.  All data is copied as it is, and a value that spells none
is refused for its data. -/
theorem copies_normalize (k : CopiedData) :
    (∀ v e, Event.copied k.read (.plain v) = .ok e ↔ ∃ d, k.Spells v d ∧ e = .assigned d) ∧
    (∀ seed e, Event.copied k.read seed = .ok e →
      e.option = .null ∧ e.extra = [] ∧ Event.copied k.read (k.toSerial e.data) = .ok e) ∧
    (∀ v w, k.Same v w → ∀ e,
      Event.copied k.read (.plain v) = .ok e ↔ Event.copied k.read (.plain w) = .ok e) ∧
    (∀ fields items, k.recordType.fields.map (Keyed.get? · fields) = items.map some → ∀ e,
      Event.copied k.read (.plain (.obj fields)) = .ok e ↔
        Event.copied k.read (.plain (.arr items)) = .ok e) ∧
    (∀ d, Event.copied k.read (k.toSerial d) = .ok (.assigned d)) ∧
    ∀ v, (∀ d, ¬ k.Spells v d) →
      ∃ f, Event.copied k.read (.plain v) = .error f ∧ f.kind = .serialization := by
  have hsame (v w : Json) (h : k.Same v w) (e : Event k.Data) :
      Event.copied k.read (.plain v) = .ok e ↔ Event.copied k.read (.plain w) = .ok e := by
    simp only [copied_plain_iff, h.spells_iff]
  refine ⟨fun v e => copied_plain_iff, fun seed e he => ?_, hsame,
    fun fields items h => hsame _ _ (same_of_listed h), k.copied_toSerial, fun v hv => ?_⟩
  · obtain ⟨-, -, d, -, rfl⟩ := Event.copied_eq_ok_iff.mp he
    exact ⟨rfl, rfl, k.copied_toSerial d⟩
  · cases hcopied : Event.copied k.read (.plain v) with
    | ok e =>
      obtain ⟨d, hd, -⟩ := copied_plain_iff.mp hcopied
      exact absurd hd (hv d)
    | error f => exact ⟨f, rfl, Event.kind_of_copied_error hcopied⟩

/-- A plugin list in an object with more members, in which the entry has more members too,
and in a list, in which the entry is one as well, is the same; a null is none. -/
theorem copies_normalize_respelled :
    let named : Json := .obj [("more", .int 1),
      ("plugins", .arr [.obj [("more", .null), ("name", .str "toc")]])]
    let listed : Json := .arr [.arr [.arr [.str "toc"]]]
    let e : Event PluginsData := .assigned { plugins := [⟨"toc", .null⟩] }
    Event.copied PluginsData.ofJson (.plain named) = .ok e ∧
      Event.copied PluginsData.ofJson (.plain listed) = .ok e ∧
      Event.copied PluginsData.ofJson (PluginsData.toSerial e.data) = .ok e ∧
      ∃ f, Event.copied PluginsData.ofJson (.plain .null) = .error f ∧
        f.kind = .serialization := by
  intro named listed e
  obtain ⟨-, hagain, hsame, -, -, hrefused⟩ := copies_normalize .plugins
  have hentry : Json.SameParts PluginEntry.recordType
      (.obj [("more", .null), ("name", .str "toc")]) (.arr [.str "toc"]) := by
    refine .inr ⟨trivial, Nat.le_succ 1, ?_⟩
    simp [PluginEntry.recordType, Json.part?, Keyed.get?]
  have hspelled : Same .plugins named listed := by
    refine ⟨trivial, Nat.le_refl 1, ?_⟩
    intro field hfield
    obtain rfl := List.mem_singleton.mp hfield
    exact .some (.cons hentry .nil)
  have hnamed : Event.copied PluginsData.ofJson (.plain named) = .ok e := by
    rfl
  have hnone : ∀ d, ¬ Spells .plugins .null d := fun d h => h.record
  exact ⟨hnamed, (hsame named listed hspelled e).mp hnamed, (hagain _ e hnamed).2.2,
    hrefused .null hnone⟩

end CopiedData

end PluginChain
