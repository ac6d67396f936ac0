import PluginChain.Proofs.Records
set_option autoImplicit false

/-!
# Spellings of records in JSON

A record is spelled in two ways: as an object, in which its fields have names and all other
members count for nothing, or as a list of its fields in the order of their declaration, which
may break off early but not be longer than the record.  Either way it comes down to its parts
(`Json.part?`), and those are all that a reader sees (`Json.get?_of_parts`).  So two spellings
with the same parts are read alike (`Json.SameParts`).
-/

namespace PluginChain

namespace Json

/-- Whether a value can spell a record: an object, or a list that is not longer than the
record. -/
def IsRecord (t : RecordType) : Json → Prop
  | .obj _ => True
  | .arr items => items.length ≤ t.fields.length
  | _ => False

/-- A part of a record, by the name of its field or by its position. -/
def part? (t : RecordType) (field : String) : Json → Option Json
  | .obj fields => Keyed.get? field fields
  | .arr items => items[t.fields.idxOf field]?
  | _ => none

variable {α : Type} {t : RecordType} {p : Parts Json} {field : String} {v w : Json}

/-! ## Parts as readers see them -/

/-- A list offers a reader what it has, as long as it is not too long. -/
theorem finish_listed_iff {items : List Json} :
    (Parts.listed items).finish t = .ok () ↔ items.length ≤ t.fields.length := by
  unfold Parts.finish
  dsimp only
  split
  · next hlong => simpa [Format.surplus] using hlong
  · next hshort => simpa using hshort

/-- What a reader takes for the parts of a record are the parts of the value. -/
theorem get?_of_parts (hp : Format.parts t v = .ok p) (field : String) :
    p.get? t field = v.part? t field := by
  cases v with
  | obj fields =>
    obtain rfl := Except.ok.inj hp
    rfl
  | arr items =>
    obtain rfl := Except.ok.inj hp
    rfl
  | _ => cases hp

theorem isRecord_of_parts (hp : Format.parts t v = .ok p) (hfinish : p.finish t = .ok ()) :
    v.IsRecord t := by
  cases v with
  | obj fields => trivial
  | arr items =>
    obtain rfl := Except.ok.inj hp
    exact finish_listed_iff.mp hfinish
  | _ => cases hp

/-- A value that can spell a record has parts for a reader. -/
theorem IsRecord.exists_parts (h : v.IsRecord t) :
    ∃ p, Format.parts t v = .ok p ∧ p.finish t = .ok () := by
  cases v with
  | obj fields => exact ⟨.named fields, rfl, rfl⟩
  | arr items => exact ⟨.listed items, rfl, finish_listed_iff.mpr h⟩
  | _ => exact h.elim

/-- What an optional part says: what its value spells, or a default where it is absent. -/
def Says (spells : Json → α → Prop) (default : α) : Option Json → α → Prop
  | none, a => a = default
  | some v, a => spells v a

section

variable {spells : Json → α → Prop} {reader : Json → Except Mismatch α} {default a : α}

/-- A field comes to what its part says, if its reader reads what is spelled. -/
theorem gives_iff_part (hreader : ∀ v a, reader v = .ok a ↔ spells v a)
    (hp : Format.parts t v = .ok p) :
    p.Gives t field reader default a ↔ Says spells default (v.part? t field) a := by
  unfold Parts.Gives
  rw [get?_of_parts hp]
  cases v.part? t field with
  | none => exact Iff.rfl
  | some w => exact hreader w a

/-- Something is said exactly if the part is absent or spells something. -/
theorem exists_says_iff {part : Option Json} :
    (∃ a, Says spells default part a) ↔ ∀ w, part = some w → ∃ a, spells w a := by
  cases part with
  | none =>
    refine iff_of_true ⟨default, rfl⟩ ?_
    intro w hw
    cases hw
  | some w =>
    constructor
    · intro hsaid w' hw'
      rw [← Option.some.inj hw']
      exact hsaid
    · intro hspells
      exact hspells w rfl

/-- Parts that are related say the same, if related values spell the same. -/
theorem says_congr {same : Json → Json → Prop} {part part' : Option Json}
    (hsame : ∀ v w, same v w → (spells v a ↔ spells w a)) (h : Option.Rel same part part') :
    Says spells default part a ↔ Says spells default part' a := by
  cases h with
  | none => exact Iff.rfl
  | some h => exact hsame _ _ h

end

/-! ## Texts and lists -/

/-- A text is read from its string alone. -/
theorem text_eq_ok_iff {text : String} : Format.text v = .ok text ↔ v = .str text := by
  cases v <;> simp [Format.text]

theorem readText_iff {text : String} : v.readText = .ok text ↔ v = .str text := text_eq_ok_iff

theorem items?_eq_some_iff {items : List Json} :
    Format.items? v = some items ↔ v = .arr items := by
  cases v <;> simp [Format.items?]

/-- A list of any values is read from itself. -/
theorem readList_iff {items : List Json} : v.readList = .ok items ↔ v = .arr items := by
  have hself (given : List Json) :
      List.Forall₂ (fun w a => (.ok w : Except Mismatch Json) = .ok a) given items ↔
        given = items := by
    simp only [Except.ok.injEq]
    rw [List.forall₂_eq_eq_eq]
  simp only [readList, Format.list_eq_ok_iff, items?_eq_some_iff, hself]
  exact exists_eq_right

/-! ## Entries of a plugin list -/

/-- Whether a value spells an entry: a record with a name that is a text, and with any option,
which is null where it is absent. -/
structure SpellsEntry (v : Json) (e : PluginEntry) : Prop where
  record : v.IsRecord PluginEntry.recordType
  name : v.part? PluginEntry.recordType "name" = some (.str e.name)
  option : e.option = (v.part? PluginEntry.recordType "option").getD .null

/-- Whether a value spells a plugin list: a list of values that spell its entries. -/
def SpellsEntries (v : Json) (entries : List PluginEntry) : Prop :=
  ∃ items, v = .arr items ∧ List.Forall₂ SpellsEntry items entries

/-- An entry is read exactly if it is spelled. -/
theorem read_entry_iff {e : PluginEntry} : PluginEntry.read v = .ok e ↔ v.SpellsEntry e := by
  rw [PluginEntry.read_eq_ok_iff]
  constructor
  · rintro ⟨p, hp, ⟨name, hname, htext⟩, hoption, hfinish⟩
    rw [get?_of_parts hp] at hname hoption
    rw [text_eq_ok_iff.mp htext] at hname
    refine ⟨isRecord_of_parts hp hfinish, hname, hoption.trans ?_⟩
    cases v.part? PluginEntry.recordType "option" <;> rfl
  · intro h
    obtain ⟨p, hp, hfinish⟩ := h.record.exists_parts
    refine ⟨p, hp, ⟨.str e.name, ?_, rfl⟩, h.option.trans ?_, hfinish⟩
    · rw [get?_of_parts hp]
      exact h.name
    · rw [get?_of_parts hp]
      cases v.part? PluginEntry.recordType "option" <;> rfl

/-- A plugin list is read exactly if it is spelled. -/
theorem list_entries_iff {entries : List PluginEntry} :
    Format.list PluginEntry.read v = .ok entries ↔ v.SpellsEntries entries := by
  simp only [Format.list_eq_ok_iff, items?_eq_some_iff, read_entry_iff]
  rfl

/-! ## Spellings of the same record -/

/-- Whether two values spell a record alike: they are the same value, or both can spell the
record and have the same parts. -/
def SameParts (t : RecordType) (v w : Json) : Prop :=
  v = w ∨ (v.IsRecord t ∧ w.IsRecord t ∧ ∀ field ∈ t.fields, v.part? t field = w.part? t field)

/-- Whether two values spell a plugin list alike, entry by entry. -/
def SameEntries : Json → Json → Prop
  | .arr items, .arr items' => List.Forall₂ (SameParts PluginEntry.recordType) items items'
  | v, w => v = w

theorem SameEntries.refl (v : Json) : SameEntries v v := by
  unfold SameEntries
  split
  · exact List.forall₂_same.mpr fun _ _ => .inl rfl
  · rfl

theorem SameParts.symm (h : SameParts t v w) : SameParts t w v := by
  rcases h with rfl | ⟨hv, hw, hparts⟩
  · exact .inl rfl
  · exact .inr ⟨hw, hv, fun field hfield => (hparts field hfield).symm⟩

theorem SameParts.spellsEntry {e : PluginEntry} (h : SameParts PluginEntry.recordType v w)
    (hv : v.SpellsEntry e) : w.SpellsEntry e := by
  rcases h with rfl | ⟨-, hw, hparts⟩
  · exact hv
  · refine ⟨hw, ?_, ?_⟩
    · rw [← hparts "name" (.head _)]
      exact hv.name
    · rw [← hparts "option" (.tail _ (.head _))]
      exact hv.option

/-- Entries that are spelled alike are the same. -/
theorem SameParts.spellsEntry_iff {e : PluginEntry} (h : SameParts PluginEntry.recordType v w) :
    v.SpellsEntry e ↔ w.SpellsEntry e :=
  ⟨h.spellsEntry, h.symm.spellsEntry⟩

/-- Plugin lists that are spelled alike are the same. -/
theorem SameEntries.spellsEntries_iff {entries : List PluginEntry} (h : SameEntries v w) :
    v.SpellsEntries entries ↔ w.SpellsEntries entries := by
  have hlists {items items' : List Json}
      (hitems : List.Forall₂ (SameParts PluginEntry.recordType) items items') :
      List.Forall₂ SpellsEntry items entries ↔ List.Forall₂ SpellsEntry items' entries := by
    induction hitems generalizing entries with
    | nil => exact Iff.rfl
    | cons hfirst _ ih =>
      simp only [List.forall₂_cons_left_iff, hfirst.spellsEntry_iff, ih]
  unfold SameEntries at h
  split at h
  · simp only [SpellsEntries, Json.arr.injEq, exists_eq_left']
    exact hlists h
  · rw [h]

end Json

end PluginChain
