import Mathlib.Data.List.Forall2
import PluginChain.Config
set_option autoImplicit false

/-!
# What records are read from

A record is read exactly if its parts are, and then is made up of them: a part that is
there is read by its own reader, and one that is absent has its default.  Which of several
failures is reported makes no difference to that, and so the order in which the fields are
read leaves no trace in these laws (`Config.read_eq_ok_iff`).
-/

namespace PluginChain

/-- A step that hands on its value succeeds if both of its parts do. -/
theorem Except.bind_eq_ok_iff {E α β : Type} {x : Except E α} {f : α → Except E β} {b : β} :
    (x >>= f) = .ok b ↔ ∃ a, x = .ok a ∧ f a = .ok b := by
  cases x with
  | error e => simp [bind, Except.bind]
  | ok a => simp [bind, Except.bind]

/-- A step of which a value is left has given that value. -/
theorem Except.eq_ok_of_toOption {E α : Type} {x : Except E α} {a : α}
    (h : x.toOption = some a) : x = .ok a := by
  cases x with
  | error e => cases h
  | ok b => exact congrArg Except.ok (Option.some.inj h)

section

variable {V E α : Type} [Format V E] {t : RecordType} {p : Parts V} {field : String}
  {reader : V → Except E α} {default a : α}

namespace Format

/-- A list is read exactly if each of its elements is, in their order. -/
theorem readItems_eq_ok_iff {i : Nat} {items : List V} {l : List α} :
    readItems reader i items = .ok l ↔ List.Forall₂ (fun v a => reader v = .ok a) items l := by
  induction items generalizing i l with
  | nil => simp [readItems, eq_comm]
  | cons v rest ih =>
    rw [readItems, List.forall₂_cons_left_iff]
    cases hv : reader v with
    | error e => simp
    | ok b =>
      dsimp only
      cases hrest : readItems reader (i + 1) rest with
      | error e =>
        simp only [reduceCtorEq, false_iff, not_exists, not_and]
        rintro c l' - hl' -
        rw [← ih (i := i + 1), hrest] at hl'
        cases hl'
      | ok l' =>
        simp only [Except.ok.injEq]
        constructor
        · intro h
          exact ⟨b, l', rfl, ih.mp hrest, h.symm⟩
        · rintro ⟨c, l'', rfl, hl'', rfl⟩
          rw [← ih (i := i + 1), hrest] at hl''
          rw [Except.ok.inj hl'']

/-- A value is read as a list exactly if it is one and each of its elements is read. -/
theorem list_eq_ok_iff {v : V} {l : List α} :
    list reader v = .ok l ↔
      ∃ items, items? v = some items ∧ List.Forall₂ (fun v a => reader v = .ok a) items l := by
  unfold list
  cases items? v with
  | none => simp
  | some items => simp [readItems_eq_ok_iff]

end Format

namespace Parts

/-- What a field comes to: what its value is read as, or a default where it is absent. -/
def Gives (t : RecordType) (p : Parts V) (field : String) (reader : V → Except E α)
    (default a : α) : Prop :=
  match p.get? t field with
  | none => a = default
  | some v => reader v = .ok a

/-- A field that is read comes to what was read, or to the default where nothing was. -/
theorem gives_iff :
    p.Gives t field reader default a ↔
      ∃ o, p.read t field reader = .ok o ∧ o.getD default = a := by
  unfold Gives read
  cases p.get? t field with
  | none => simp [eq_comm]
  | some v =>
    dsimp only
    cases reader v <;> simp

/-- A field without a default is read exactly if it is there and its value is read. -/
theorem required_iff :
    (∃ o, p.read t field reader = .ok o ∧ p.require t field o = .ok a) ↔
      ∃ v, p.get? t field = some v ∧ reader v = .ok a := by
  unfold read
  cases p.get? t field with
  | none => cases p <;> simp [require]
  | some v =>
    dsimp only
    cases hv : reader v <;> simp [require, hv]

/-- The readings of a record report no failure exactly if none has failed. -/
theorem failure_eq_nil_iff {result : Except E α} :
    failure field result = [] ↔ ∃ a, result = .ok a := by
  cases result <;> simp [failure]

theorem leastNamed_eq_none_iff {failures : List (String × E)} :
    leastNamed failures = none ↔ failures = [] := by
  cases failures with
  | nil => simp [leastNamed]
  | cons q rest =>
    rw [leastNamed]
    split
    · split <;> simp
    · simp

theorem settle_eq_ok_iff {V E : Type} {p : Parts V} {failures : List (String × E)} {u : Unit} :
    p.settle failures = .ok u ↔ failures = [] := by
  unfold settle
  cases p with
  | named fields =>
    dsimp only
    rw [← leastNamed_eq_none_iff]
    cases leastNamed failures <;> simp
  | listed items => cases failures <;> simp

end Parts

end

section

variable {V E : Type} [Format V E] {v : V}

/-- Plugin settings are read exactly if their directory is, where it is there. -/
theorem PluginSettings.read_eq_ok_iff {s : PluginSettings} :
    read v = .ok s ↔
      ∃ p, Format.parts recordType v = .ok p ∧
        p.Gives recordType "directory" Format.text ({} : PluginSettings).directory s.directory ∧
        p.finish recordType = .ok () := by
  unfold read
  simp only [Except.bind_eq_ok_iff, Parts.gives_iff, pure, Except.pure, Except.ok.injEq]
  constructor
  · rintro ⟨p, hp, directory, hdirectory, ⟨⟩, hfinish, rfl⟩
    exact ⟨p, hp, ⟨directory, hdirectory, rfl⟩, hfinish⟩
  · rintro ⟨p, hp, ⟨directory, hdirectory, heq⟩, hfinish⟩
    refine ⟨p, hp, directory, hdirectory, (), hfinish, ?_⟩
    rw [heq]

/-- Log settings are read exactly if level and format are, where they are there. -/
theorem LogSettings.read_eq_ok_iff {s : LogSettings} :
    read v = .ok s ↔
      ∃ p, Format.parts recordType v = .ok p ∧
        p.Gives recordType "level" Format.text ({} : LogSettings).level s.level ∧
        p.Gives recordType "format" Format.text ({} : LogSettings).format s.format ∧
        p.finish recordType = .ok () := by
  unfold read
  simp only [Except.bind_eq_ok_iff, Parts.gives_iff, Parts.settle_eq_ok_iff, List.append_eq_nil_iff,
    Parts.failure_eq_nil_iff, pure, Except.pure, Except.ok.injEq]
  constructor
  · rintro ⟨p, hp, -, -, level, hlevel, format, hformat, ⟨⟩, hfinish, rfl⟩
    exact ⟨p, hp, ⟨level, hlevel, rfl⟩, ⟨format, hformat, rfl⟩, hfinish⟩
  · rintro ⟨p, hp, ⟨level, hlevel, hleveled⟩, ⟨format, hformat, hformatted⟩, hfinish⟩
    refine ⟨p, hp, (), ⟨⟨level, hlevel⟩, ⟨format, hformat⟩⟩, level, hlevel, format, hformat, (),
      hfinish, ?_⟩
    rw [hleveled, hformatted]

/-- A configuration is read exactly if each of its parts is, where it is there. -/
theorem Config.read_eq_ok_iff {c : Config} :
    read v = .ok c ↔
      ∃ p, Format.parts recordType v = .ok p ∧
        p.Gives recordType "plugins" (Format.list PluginEntry.read) [] c.plugins ∧
        p.Gives recordType "plugin" PluginSettings.read {} c.plugin ∧
        p.Gives recordType "logging" LogSettings.read {} c.logging ∧
        p.finish recordType = .ok () := by
  unfold read
  simp only [Except.bind_eq_ok_iff, Parts.gives_iff, Parts.settle_eq_ok_iff, List.append_eq_nil_iff,
    Parts.failure_eq_nil_iff, pure, Except.pure, Except.ok.injEq]
  constructor
  · rintro ⟨p, hp, -, -, plugins, hplugins, plugin, hplugin, logging, hlogging, ⟨⟩, hfinish,
      rfl⟩
    exact ⟨p, hp, ⟨plugins, hplugins, rfl⟩, ⟨plugin, hplugin, rfl⟩, ⟨logging, hlogging, rfl⟩,
      hfinish⟩
  · rintro ⟨p, hp, ⟨plugins, hplugins, hlisted⟩, ⟨plugin, hplugin, hplaced⟩,
      ⟨logging, hlogging, hlogged⟩, hfinish⟩
    refine ⟨p, hp, (), ⟨⟨⟨plugins, hplugins⟩, ⟨plugin, hplugin⟩⟩, ⟨logging, hlogging⟩⟩, plugins,
      hplugins, plugin, hplugin, logging, hlogging, (), hfinish, ?_⟩
    rw [hlisted, hplaced, hlogged]

/-- An entry is read exactly if it has a name that is a text.  Its option may be anything,
and is null where it is absent. -/
theorem PluginEntry.read_eq_ok_iff {e : PluginEntry} :
    read v = .ok e ↔
      ∃ p, Format.parts recordType v = .ok p ∧
        (∃ name, p.get? recordType "name" = some name ∧ Format.text name = .ok e.name) ∧
        e.option = ((p.get? recordType "option").map Format.plain).getD .null ∧
        p.finish recordType = .ok () := by
  have hoption (p : Parts V) (o : Option Json) :
      p.read recordType "option" (fun v => Except.ok (Format.plain v)) = .ok o ↔
        o = (p.get? recordType "option").map Format.plain := by
    unfold Parts.read
    cases p.get? recordType "option" <;> simp [eq_comm]
  unfold read
  simp only [Except.bind_eq_ok_iff, Parts.settle_eq_ok_iff, List.append_eq_nil_iff,
    Parts.failure_eq_nil_iff, pure, Except.pure, Except.ok.injEq]
  constructor
  · rintro ⟨p, hp, -, -, o, ho, text, htext, ⟨⟩, hfinish, option, hread, rfl⟩
    refine ⟨p, hp, Parts.required_iff.mp ⟨o, ho, htext⟩, ?_, hfinish⟩
    rw [(hoption p option).mp hread]
  · rintro ⟨p, hp, hgiven, heq, hfinish⟩
    obtain ⟨o, ho, htext⟩ := Parts.required_iff.mpr hgiven
    have hread := (hoption p _).mpr rfl
    refine ⟨p, hp, (), ⟨⟨o, ho⟩, ⟨_, hread⟩⟩, o, ho, e.name, htext, (), hfinish, _, hread, ?_⟩
    rw [← heq]

end

end PluginChain
