import PluginChain.Builtin.CopyAssets
import PluginChain.Proofs.Spellings
set_option autoImplicit false

/-!
# Options of `copy-assets`

The option of `copy-assets` is a record of two paths, either of which may be absent or null.
`SpellsPaths` says which values are such options and what they ask for; these are the options
that are read (`CopyAssets.readOption_eq_ok_iff`).
-/

namespace PluginChain

/-- A part that may lack twice, for being absent and for being null, comes to nothing either
way. -/
theorem Parts.gives_join_iff {V E α : Type} [Format V E] {t : RecordType} {p : Parts V}
    {field : String} {reader : V → Except E (Option α)} {a : Option α} :
    p.Gives t field reader none a ↔ ∃ o, p.read t field reader = .ok o ∧ o.join = a := by
  rw [gives_iff]
  refine exists_congr fun o => and_congr_right fun _ => ?_
  cases o <;> rfl

namespace Builtin.CopyAssets

variable {v : Json} {options : Options}

/-- What a value asks for in the place of a path. -/
inductive SpellsPath : Json → Option String → Prop
  | null : SpellsPath .null none
  | text (path : String) : SpellsPath (.str path) (some path)

theorem readPath?_eq_ok_iff {path? : Option String} :
    v.readPath? = .ok path? ↔ SpellsPath v path? := by
  constructor
  · intro h
    cases v with
    | null =>
      obtain rfl := Except.ok.inj h
      exact .null
    | str path =>
      obtain rfl := Except.ok.inj h
      exact .text path
    | _ => cases h
  · rintro (_ | path) <;> rfl

/-- What an option asks for: a null asks for nothing, and a record for the paths that its parts
spell, or for none where they are absent. -/
inductive SpellsPaths : Json → Options → Prop
  | null : SpellsPaths .null ⟨none, none⟩
  | record {v : Json} {options : Options} (record : v.IsRecord Options.recordType)
      (source : Json.Says SpellsPath none (v.part? Options.recordType "src") options.source?)
      (target : Json.Says SpellsPath none (v.part? Options.recordType "dest") options.target?) :
      SpellsPaths v options

/-- A record is read exactly if its parts spell paths. -/
theorem ofJson_eq_ok_iff :
    Options.ofJson v = .ok options ↔ v.IsRecord Options.recordType ∧
      Json.Says SpellsPath none (v.part? Options.recordType "src") options.source? ∧
      Json.Says SpellsPath none (v.part? Options.recordType "dest") options.target? := by
  have hparts : Options.ofJson v = .ok options ↔
      ∃ p, Format.parts Options.recordType v = .ok p ∧
        p.Gives Options.recordType "src" Json.readPath? none options.source? ∧
        p.Gives Options.recordType "dest" Json.readPath? none options.target? ∧
        p.finish Options.recordType = .ok () := by
    unfold Options.ofJson
    simp only [Except.bind_eq_ok_iff, Parts.gives_join_iff, Parts.settle_eq_ok_iff,
      List.append_eq_nil_iff, Parts.failure_eq_nil_iff, pure, Except.pure, Except.ok.injEq]
    constructor
    · rintro ⟨p, hp, -, -, source, hsource, target, htarget, ⟨⟩, hfinish, rfl⟩
      exact ⟨p, hp, ⟨source, hsource, rfl⟩, ⟨target, htarget, rfl⟩, hfinish⟩
    · rintro ⟨p, hp, ⟨source, hsource, hs⟩, ⟨target, htarget, ht⟩, hfinish⟩
      refine ⟨p, hp, (), ⟨⟨source, hsource⟩, ⟨target, htarget⟩⟩, source, hsource, target, htarget,
        (), hfinish, ?_⟩
      rw [hs, ht]
  rw [hparts]
  constructor
  · rintro ⟨p, hp, hsource, htarget, hfinish⟩
    exact ⟨Json.isRecord_of_parts hp hfinish,
      (Json.gives_iff_part (fun _ _ => readPath?_eq_ok_iff) hp).mp hsource,
      (Json.gives_iff_part (fun _ _ => readPath?_eq_ok_iff) hp).mp htarget⟩
  · rintro ⟨hrecord, hsource, htarget⟩
    obtain ⟨p, hp, hfinish⟩ := hrecord.exists_parts
    exact ⟨p, hp, (Json.gives_iff_part (fun _ _ => readPath?_eq_ok_iff) hp).mpr hsource,
      (Json.gives_iff_part (fun _ _ => readPath?_eq_ok_iff) hp).mpr htarget, hfinish⟩

/-- The values that are read are those that spell paths. -/
theorem readOption_eq_ok_iff :
    readOption identifier Options.ofJson v = .ok options ↔ SpellsPaths v options := by
  unfold readOption
  cases hnull : v.isNull with
  | true =>
    obtain rfl := Json.isNull_iff.mp hnull
    rw [if_pos rfl, Except.ok.injEq]
    constructor
    · rintro rfl
      exact .null
    · rintro (_ | ⟨hrecord, -, -⟩)
      · rfl
      · exact hrecord.elim
  | false =>
    have hread : SpellsPaths v options ↔ Options.ofJson v = .ok options := by
      rw [ofJson_eq_ok_iff]
      constructor
      · rintro (_ | ⟨hrecord, hsource, htarget⟩)
        · cases hnull
        · exact ⟨hrecord, hsource, htarget⟩
      · rintro ⟨hrecord, hsource, htarget⟩
        exact .record hrecord hsource htarget
    rw [if_neg Bool.false_ne_true, hread]
    cases Options.ofJson v <;> simp

end Builtin.CopyAssets

end PluginChain
