import PluginChain.Proofs.AssetTargets
import PluginChain.Proofs.PublicDocs
import PluginChain.Proofs.Scripts
set_option autoImplicit false

/-!
# Options are checked first

The option of a built-in plugin has a shape: it is null, or a record whose parts, as far as they
are there, are of the kinds of its fields (`OptionShape.Fits`).  The options that fit are those
that are read (`ReadsOption`).  As a plugin reads its option before anything else, one that does
not fit is refused with the event and the host as they were, and two spellings of the same parts
have the same effect (`Checks`).
-/

namespace PluginChain

/-- A null spells no record. -/
theorem Json.IsRecord.ne_null {t : RecordType} {v : Json} (h : v.IsRecord t) : v ≠ .null := by
  rintro rfl
  exact h

/-- The scene with another option. -/
def Scene.under {σ ω D : Type} (scene : Scene σ ω D) (option : Json) : Scene σ ω D :=
  { scene with event := scene.event.setOption option }

namespace Builtin

/-! ## Shapes -/

/-- What the field of an option holds. -/
inductive FieldKind where
  /-- A truth value. -/
  | truth
  /-- A list of texts. -/
  | texts
  /-- A path, or null for none. -/
  | path
  deriving DecidableEq, Repr

/-- Whether a value is of a kind. -/
def FieldKind.Fits : FieldKind → Json → Prop
  | .truth, v => ∃ b, v = .bool b
  | .texts, v => ∃ texts : List String, v = .arr (texts.map .str)
  | .path, v => v = .null ∨ ∃ path, v = .str path

/-- The fields of an option, under the name of its type. -/
structure OptionShape where
  name : String
  fields : List (String × FieldKind)
  deriving Repr

namespace OptionShape

/-- The option as a record. -/
def recordType (s : OptionShape) : RecordType := ⟨s.name, s.fields.map (·.1)⟩

/-- Whether a value has the shape: it is null, or a record in which each part is of the kind of
its field. -/
def Fits (s : OptionShape) (v : Json) : Prop :=
  v = .null ∨ (v.IsRecord s.recordType ∧
    ∀ field ∈ s.fields, ∀ w, v.part? s.recordType field.1 = some w → field.2.Fits w)

/-- A value that speaks of no field: a null, an empty list, or an object that has other members
only, or none. -/
inductive Blank (s : OptionShape) : Json → Prop
  | null : Blank s .null
  | empty : Blank s (.arr [])
  | others {fields : List (String × Json)}
      (absent : ∀ field ∈ s.fields, Keyed.get? field.1 fields = none) : Blank s (.obj fields)

end OptionShape

variable {σ ω α β : Type}

/-! ## Reading -/

/-- Whether the options of a shape are those that are read: all values that fit and no others,
with a standard option for what speaks of no field, and alike for spellings of the same parts. -/
structure ReadsOption [Inhabited α] (identifier : String) (read : Json → Except Mismatch α)
    (shape : OptionShape) (standard : α) : Prop where
  fits_iff : ∀ v, (∃ a, readOption identifier read v = .ok a) ↔ shape.Fits v
  blank : ∀ v, shape.Blank v → readOption identifier read v = .ok standard
  alike : ∀ v w, Json.SameParts shape.recordType v w →
    ∀ a, readOption identifier read v = .ok a ↔ readOption identifier read w = .ok a

section

variable {field name : String} {kind : FieldKind} {spells : Json → α → Prop} {default a : α}
  {v w : Json}

/-- An option of one field asks for the default, for being null, or for what its part says. -/
theorem spellsField_iff_part (name : String) :
    SpellsField field default spells v a ↔ v = .null ∧ a = default ∨
      v.IsRecord ⟨name, [field]⟩ ∧ Json.Says spells default (v.part? ⟨name, [field]⟩ field) a := by
  have hlisted (items : List Json) : (Json.arr items).part? ⟨name, [field]⟩ field = items.head? :=
    get?_listed rfl items
  constructor
  · intro h
    cases h with
    | null => exact .inl ⟨rfl, rfl⟩
    | absent habsent =>
      refine .inr ⟨trivial, ?_⟩
      rw [Json.part?, habsent]
      rfl
    | named hpresent hvalue =>
      refine .inr ⟨trivial, ?_⟩
      rw [Json.part?, hpresent]
      exact hvalue
    | empty => exact .inr ⟨Nat.zero_le 1, rfl⟩
    | listed hvalue =>
      refine .inr ⟨Nat.le_refl 1, ?_⟩
      rw [hlisted]
      exact hvalue
  · rintro (⟨rfl, rfl⟩ | ⟨hrecord, hsays⟩)
    · exact .null
    · cases v with
      | obj fields =>
        rw [Json.part?] at hsays
        cases hget : Keyed.get? field fields with
        | none =>
          rw [hget] at hsays
          exact hsays ▸ .absent hget
        | some w =>
          rw [hget] at hsays
          exact .named hget hsays
      | arr items =>
        rw [hlisted] at hsays
        match items, hrecord with
        | [], _ => exact hsays ▸ .empty
        | [w], _ => exact .listed hsays
      | _ => exact hrecord.elim

/-- An option of one field asks for something exactly if it fits. -/
theorem exists_spellsField_iff (hkind : ∀ w, kind.Fits w ↔ ∃ a, spells w a) :
    (∃ a, SpellsField field default spells v a) ↔
      OptionShape.Fits ⟨name, [(field, kind)]⟩ v := by
  have hsays : (∃ a, Json.Says spells default (v.part? ⟨name, [field]⟩ field) a) ↔ _ :=
    Json.exists_says_iff
  simp only [spellsField_iff_part name, exists_or, exists_and_left, exists_eq, and_true, hsays,
    ← hkind, OptionShape.Fits, List.forall_mem_singleton]
  rfl

/-- Spellings of the same parts ask for the same. -/
theorem spellsField_congr (h : Json.SameParts ⟨name, [field]⟩ v w) :
    SpellsField field default spells v a ↔ SpellsField field default spells w a := by
  rcases h with rfl | ⟨hv, hw, hparts⟩
  · exact Iff.rfl
  · have hpart := hparts field List.mem_cons_self
    simp only [spellsField_iff_part name, hv.ne_null, hw.ne_null, hv, hw, hpart, false_and,
      true_and]

/-- What speaks of no field asks for the default. -/
theorem spellsField_of_blank (h : OptionShape.Blank ⟨name, [(field, kind)]⟩ v) :
    SpellsField field default spells v default := by
  cases h with
  | null => exact .null
  | empty => exact .empty
  | others habsent => exact .absent (habsent _ List.mem_cons_self)

end

/-- Options of one field are those that are read, if what is read is what they ask for. -/
theorem readsOption_of_spellsField [Inhabited β] {identifier name field : String}
    {read : Json → Except Mismatch β} {kind : FieldKind} {spells : Json → α → Prop} {default : α}
    {standard : β} (only : β → α) (honly : only.Surjective) (hstandard : only standard = default)
    (hkind : ∀ w, kind.Fits w ↔ ∃ a, spells w a)
    (hread : ∀ v b, readOption identifier read v = .ok b ↔
      SpellsField field default spells v (only b)) :
    ReadsOption identifier read ⟨name, [(field, kind)]⟩ standard := by
  constructor
  · intro v
    simp only [hread, ← honly.exists (p := fun a => SpellsField field default spells v a)]
    exact exists_spellsField_iff hkind
  · intro v hblank
    rw [hread, hstandard]
    exact spellsField_of_blank hblank
  · intro v w hsame b
    rw [hread, hread]
    exact spellsField_congr hsame

/-! ## Plugins -/

/-- How a plugin checks its option at a hook.  What it does is what it does with the option
that is read, so an option that fits is never refused for what it is.  One that does not fit is
refused as a configuration, without a cause, and nothing changes.  Spellings of the same parts
leave the same state, event and host behind, but for the option itself, and with the same answer
if they fit; if they do not, they are both refused. -/
structure Checks [Inhabited α] (hook : Hook) (p : Plugin σ ω) (read : Json → Except Mismatch α)
    (act : α → Handler σ ω (hook.Data ω)) (shape : OptionShape) (standard : α) : Prop where
  reads : ReadsOption p.name read shape standard
  acts : ∀ scene a, readOption p.name read scene.event.option = .ok a →
    p.handle hook scene = act a scene
  refuses : ∀ scene : Scene σ ω (hook.Data ω), ¬ shape.Fits scene.event.option →
    ∃ f, p.handle hook scene = (.error f, scene) ∧ f.kind = .configuration ∧ f.causes = []
  alike : ∀ v w, Json.SameParts shape.recordType v w → ∀ scene : Scene σ ω (hook.Data ω),
    (p.handle hook (scene.under w)).2 = (p.handle hook (scene.under v)).2.under w ∧
      (shape.Fits v → (p.handle hook (scene.under w)).1 = (p.handle hook (scene.under v)).1)

/-- A plugin checks its option if it reads it first and does not look at it again. -/
theorem checks_of_withOption [Inhabited α] {hook : Hook} {p : Plugin σ ω}
    {read : Json → Except Mismatch α} {act : α → Handler σ ω (hook.Data ω)} {shape : OptionShape}
    {standard : α} (hreads : ReadsOption p.name read shape standard)
    (hhandle : p.handle hook = withOption p.name read act)
    (hsteady : ∀ a scene v, act a (scene.under v) = ((act a scene).1, (act a scene).2.under v)) :
    Checks hook p read act shape standard := by
  have hacts (scene : Scene σ ω (hook.Data ω)) (a : α)
      (ha : readOption p.name read scene.event.option = .ok a) :
      p.handle hook scene = act a scene := by
    rw [hhandle]
    exact withOption_of_ok ha
  have hrefuses (scene : Scene σ ω (hook.Data ω)) (hunfit : ¬ shape.Fits scene.event.option) :
      ∃ f, p.handle hook scene = (.error f, scene) ∧ f.kind = .configuration ∧ f.causes = [] := by
    rcases readOption_eq_ok_or p.name read scene.event.option with hread | ⟨m, hm⟩
    · exact absurd ((hreads.fits_iff _).mp hread) hunfit
    · refine ⟨optionFault p.name m, ?_, rfl, rfl⟩
      rw [hhandle]
      exact withOption_of_error hm
  refine ⟨hreads, hacts, hrefuses, fun v w hsame scene => ?_⟩
  by_cases hfits : shape.Fits v
  · obtain ⟨a, ha⟩ := (hreads.fits_iff v).mpr hfits
    have hv : p.handle hook (scene.under v) = act a (scene.under v) := hacts _ a ha
    have hw : p.handle hook (scene.under w) = act a (scene.under w) :=
      hacts _ a ((hreads.alike v w hsame a).mp ha)
    rw [hw, hv, hsteady a scene w, hsteady a scene v]
    exact ⟨rfl, fun _ => rfl⟩
  · have hunfit : ¬ shape.Fits w := by
      rw [← hreads.fits_iff] at hfits ⊢
      simpa only [hreads.alike v w hsame] using hfits
    obtain ⟨f, hv, -⟩ := hrefuses (scene.under v) hfits
    obtain ⟨f', hw, -⟩ := hrefuses (scene.under w) hunfit
    rw [hv, hw]
    exact ⟨rfl, fun h => absurd h hfits⟩

/-! ## Built-in plugins -/

/-- The options of `exclude-private`. -/
def ExcludePrivate.shape : OptionShape := ⟨"ExcludeOption", [("protected", .truth)]⟩

/-- The options of `inject-script`. -/
def InjectScript.shape : OptionShape := ⟨"InjectOption", [("scripts", .texts)]⟩

/-- The options of `copy-assets`. -/
def CopyAssets.shape : OptionShape := ⟨"CopyOption", [("src", .path), ("dest", .path)]⟩

theorem ExcludePrivate.readsOption : ReadsOption identifier Options.ofJson shape ⟨false⟩ :=
  readsOption_of_spellsField Options.protectedToo (fun b => ⟨⟨b⟩, rfl⟩) rfl (fun _ => Iff.rfl)
    fun _ _ => readOption_eq_ok_iff

theorem InjectScript.readsOption : ReadsOption identifier Options.ofJson shape ⟨[]⟩ :=
  readsOption_of_spellsField Options.scripts (fun sources => ⟨⟨sources⟩, rfl⟩) rfl (fun _ => Iff.rfl)
    fun _ _ => readOption_eq_ok_iff.trans spellsScripts_iff

namespace CopyAssets

variable {v w : Json} {options : Options}

theorem fits_path_iff : FieldKind.path.Fits v ↔ ∃ path?, SpellsPath v path? := by
  constructor
  · rintro (rfl | ⟨path, rfl⟩)
    · exact ⟨none, .null⟩
    · exact ⟨some path, .text path⟩
  · rintro ⟨path?, _ | path⟩
    · exact .inl rfl
    · exact .inr ⟨path, rfl⟩

/-- Paths are asked for by a null, or by what the parts of a record say. -/
theorem spellsPaths_iff_parts :
    SpellsPaths v options ↔ v = .null ∧ options = ⟨none, none⟩ ∨
      v.IsRecord Options.recordType ∧
        Json.Says SpellsPath none (v.part? Options.recordType "src") options.source? ∧
        Json.Says SpellsPath none (v.part? Options.recordType "dest") options.target? := by
  constructor
  · rintro (_ | ⟨hrecord, hsource, htarget⟩)
    · exact .inl ⟨rfl, rfl⟩
    · exact .inr ⟨hrecord, hsource, htarget⟩
  · rintro (⟨rfl, rfl⟩ | ⟨hrecord, hsource, htarget⟩)
    · exact .null
    · exact .record hrecord hsource htarget

/-- Paths are asked for exactly if the option fits. -/
theorem exists_spellsPaths_iff : (∃ options, SpellsPaths v options) ↔ shape.Fits v := by
  have hboth (source target : Option Json) :
      (∃ options : Options, Json.Says SpellsPath none source options.source? ∧
        Json.Says SpellsPath none target options.target?) ↔
      (∀ w, source = some w → FieldKind.path.Fits w) ∧
        ∀ w, target = some w → FieldKind.path.Fits w := by
    have hsays (part : Option Json) : (∃ path?, Json.Says SpellsPath none part path?) ↔
        ∀ w, part = some w → FieldKind.path.Fits w := by
      simp only [fits_path_iff]
      exact Json.exists_says_iff
    rw [← hsays, ← hsays]
    constructor
    · rintro ⟨options, hsource, htarget⟩
      exact ⟨⟨_, hsource⟩, ⟨_, htarget⟩⟩
    · rintro ⟨⟨source, hsource⟩, ⟨target, htarget⟩⟩
      exact ⟨⟨source, target⟩, hsource, htarget⟩
  simp only [spellsPaths_iff_parts, exists_or, exists_and_left, exists_eq, and_true, hboth,
    OptionShape.Fits, shape, List.forall_mem_cons, List.not_mem_nil, false_imp_iff, implies_true]
  rfl

/-- Spellings of the same parts ask for the same paths. -/
theorem spellsPaths_congr (h : Json.SameParts Options.recordType v w) :
    SpellsPaths v options ↔ SpellsPaths w options := by
  rcases h with rfl | ⟨hv, hw, hparts⟩
  · exact Iff.rfl
  · simp only [spellsPaths_iff_parts, hv.ne_null, hw.ne_null, hv, hw, hparts "src" (.head _),
      hparts "dest" (.tail _ (.head _)), false_and, true_and]

/-- What speaks of no path asks for none. -/
theorem spellsPaths_of_blank (h : shape.Blank v) : SpellsPaths v ⟨none, none⟩ := by
  cases h with
  | null => exact .null
  | empty => exact .record (Nat.zero_le 2) rfl rfl
  | others habsent =>
    refine .record trivial ?_ ?_
    · rw [Json.part?, habsent ("src", .path) (.head _)]
      rfl
    · rw [Json.part?, habsent ("dest", .path) (.tail _ (.head _))]
      rfl

theorem readsOption : ReadsOption identifier Options.ofJson shape ⟨none, none⟩ := by
  constructor
  · intro v
    simp only [readOption_eq_ok_iff]
    exact exists_spellsPaths_iff
  · intro v hblank
    exact readOption_eq_ok_iff.mpr (spellsPaths_of_blank hblank)
  · intro v w hsame options
    rw [readOption_eq_ok_iff, readOption_eq_ok_iff]
    exact spellsPaths_congr hsame

/-- The copy does not look at the option of the event. -/
theorem copy_under (options : Options) (scene : Scene σ ω (PublishData ω)) (v : Json) :
    copy options (scene.under v) =
      ((copy options scene).1, (copy options scene).2.under v) := by
  cases hpaths : paths options with
  | error f => rw [copy_of_error hpaths, copy_of_error hpaths]
  | ok both =>
    have hdata : (scene.under v).event.data = scene.event.data := rfl
    have hhost : (scene.under v).host = scene.host := rfl
    rw [copy_of_ok hpaths, copy_of_ok hpaths, hdata, hhost]
    rcases scene.event.data.copyDir.part both.1 both.2 scene.host with ⟨f | ⟨⟩, left⟩ <;> rfl

end CopyAssets

/-- The built-in plugins that have an option check it before they do anything else: whatever
the state, the event and the host, an option that does not fit leaves all three as they were, and
none of the operations is called that the publish hook lends. -/
theorem bad_options_change_nothing (σ ω : Type) :
    Checks .docs (ExcludePrivate.plugin : Plugin σ ω) ExcludePrivate.Options.ofJson
        ExcludePrivate.drop ExcludePrivate.shape ⟨false⟩ ∧
      Checks .content (InjectScript.plugin : Plugin σ ω) InjectScript.Options.ofJson
        InjectScript.inject InjectScript.shape ⟨[]⟩ ∧
      Checks .publish (CopyAssets.plugin : Plugin σ ω) CopyAssets.Options.ofJson
        CopyAssets.copy CopyAssets.shape ⟨none, none⟩ ∧
      ∀ scene : Scene σ ω (PublishData ω), ¬ CopyAssets.shape.Fits scene.event.option →
        ∃ f, f.kind = .configuration ∧ f.causes = [] ∧
          Publishes (fun _ => CopyAssets.plugin) scene [] (.error f) scene := by
  refine ⟨checks_of_withOption ExcludePrivate.readsOption rfl fun _ _ _ => rfl,
    checks_of_withOption InjectScript.readsOption rfl fun _ _ _ => rfl,
    checks_of_withOption CopyAssets.readsOption rfl CopyAssets.copy_under,
    fun scene hunfit => ?_⟩
  rw [← CopyAssets.exists_spellsPaths_iff] at hunfit
  obtain ⟨m, hrefused⟩ := CopyAssets.refuses_of_not_spells hunfit
  exact ⟨_, rfl, rfl, hrefused⟩

end Builtin

end PluginChain
