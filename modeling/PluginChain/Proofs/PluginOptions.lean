import PluginChain.Builtin.Option
import PluginChain.Proofs.Spellings
set_option autoImplicit false

/-!
# Options of one field

The option of a plugin is often a record of one field.  It may be null, or spelled by the
name of the field or as a list of one element, and where the field is absent it has its
default (`SpellsField`).  Such an option is read exactly if it spells something
(`readOption_eq_ok_iff_spellsField`).
-/

namespace PluginChain.Builtin

variable {α β : Type} {field : String} {default a : α}

/-- What an option of one field asks for: the default where it is null or has no such field,
and else what the value of the field spells. -/
inductive SpellsField (field : String) (default : α) (spells : Json → α → Prop) :
    Json → α → Prop
  | null : SpellsField field default spells .null default
  | absent {fields : List (String × Json)} (absent : Keyed.get? field fields = none) :
      SpellsField field default spells (.obj fields) default
  | named {fields : List (String × Json)} {v : Json} {a : α}
      (present : Keyed.get? field fields = some v) (value : spells v a) :
      SpellsField field default spells (.obj fields) a
  | empty : SpellsField field default spells (.arr []) default
  | listed {v : Json} {a : α} (value : spells v a) : SpellsField field default spells (.arr [v]) a

variable {t : RecordType} {reader : Json → Except Mismatch α} {v : Json}

/-- A record of one field that is a list has at most one element. -/
theorem finish_listed_eq_ok_iff (ht : t.fields = [field]) {items : List Json} :
    (Parts.listed items).finish t = .ok () ↔ items.length ≤ 1 := by
  rw [Json.finish_listed_iff, ht, List.length_singleton]

/-- A list offers its first element as the only field. -/
theorem get?_listed (ht : t.fields = [field]) (items : List Json) :
    (Parts.listed items).get? t field = items.head? := by
  show items[t.fields.idxOf field]? = _
  rw [ht, List.idxOf_cons_self, List.head?_eq_getElem?]

/-- A record of one field is read exactly if it spells something, other than by being null. -/
theorem parts_only_iff (ht : t.fields = [field]) :
    (∃ p, Format.parts t v = .ok p ∧ p.Gives t field reader default a ∧ p.finish t = .ok ()) ↔
      v ≠ .null ∧ SpellsField field default (fun w a => reader w = .ok a) v a := by
  constructor
  · rintro ⟨p, hp, hgives, hfinish⟩
    unfold Parts.Gives at hgives
    cases v with
    | obj fields =>
      obtain rfl := Except.ok.inj hp
      refine ⟨Json.noConfusion, ?_⟩
      cases hget : Keyed.get? field fields with
      | none =>
        rw [Parts.get?, hget] at hgives
        exact hgives ▸ .absent hget
      | some w =>
        rw [Parts.get?, hget] at hgives
        exact .named hget hgives
    | arr items =>
      obtain rfl := Except.ok.inj hp
      rw [get?_listed ht] at hgives
      refine ⟨Json.noConfusion, ?_⟩
      match items, (finish_listed_eq_ok_iff ht).mp hfinish with
      | [], _ => exact hgives ▸ .empty
      | [w], _ => exact .listed hgives
    | _ => cases hp
  · rintro ⟨hnull, hspells⟩
    cases hspells with
    | null => exact absurd rfl hnull
    | absent habsent =>
      refine ⟨.named _, rfl, ?_, rfl⟩
      rw [Parts.Gives, Parts.get?, habsent]
    | named hpresent hvalue =>
      refine ⟨.named _, rfl, ?_, rfl⟩
      rwa [Parts.Gives, Parts.get?, hpresent]
    | empty =>
      refine ⟨.listed [], rfl, ?_, (finish_listed_eq_ok_iff ht).mpr (Nat.zero_le 1)⟩
      rw [Parts.Gives, get?_listed ht, List.head?_nil]
    | @listed w _ hvalue =>
      refine ⟨.listed [w], rfl, ?_, (finish_listed_eq_ok_iff ht).mpr (Nat.le_refl 1)⟩
      rwa [Parts.Gives, get?_listed ht, List.head?_cons]

/-- How an option of one field is read. -/
def readOnly (t : RecordType) (field : String) (reader : Json → Except Mismatch α) (default : α)
    (make : α → β) (v : Json) : Except Mismatch β := do
  let parts ← Format.parts t v
  let held ← parts.read t field reader
  parts.finish t
  return make (held.getD default)

/-- An option of one field is read exactly if it spells something. -/
theorem readOption_eq_ok_iff_spellsField [Inhabited β] (ht : t.fields = [field]) {make : α → β}
    (hmake : make.Injective) (hdefault : make default = Inhabited.default)
    (identifier : String) :
    readOption identifier (readOnly t field reader default make) v = .ok (make a) ↔
      SpellsField field default (fun w a => reader w = .ok a) v a := by
  have hread : readOnly t field reader default make v = .ok (make a) ↔
      v ≠ .null ∧ SpellsField field default (fun w a => reader w = .ok a) v a := by
    rw [← parts_only_iff ht]
    unfold readOnly
    simp only [Except.bind_eq_ok_iff, Parts.gives_iff, pure, Except.pure, Except.ok.injEq]
    constructor
    · rintro ⟨p, hp, held, hheld, ⟨⟩, hfinish, hmade⟩
      exact ⟨p, hp, ⟨held, hheld, hmake hmade⟩, hfinish⟩
    · rintro ⟨p, hp, ⟨held, hheld, rfl⟩, hfinish⟩
      exact ⟨p, hp, held, hheld, (), hfinish, rfl⟩
  unfold readOption
  cases hnull : v.isNull with
  | true =>
    obtain rfl := Json.isNull_iff.mp hnull
    rw [if_pos rfl, Except.ok.injEq, ← hdefault, hmake.eq_iff]
    constructor
    · rintro rfl
      exact .null
    · intro hspells
      cases hspells
      rfl
  | false =>
    have hother : v ≠ .null := fun h => by
      rw [Json.isNull_iff.mpr h] at hnull
      cases hnull
    rw [if_neg Bool.false_ne_true, ← and_iff_right (b := SpellsField ..) hother, ← hread]
    cases readOnly t field reader default make v <;> simp

end PluginChain.Builtin
