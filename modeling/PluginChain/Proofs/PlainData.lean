import PluginChain.Proofs.Answers
import PluginChain.Proofs.History
set_option autoImplicit false

/-!
# Data that has a plain form

Data has a plain form exactly if, at every depth, its map keys can be written as texts and
its integers are numbers of JSON (`Serial.exists_toJson_iff`).  Where the event of a hook
cannot be made, for data without a plain form or for want of parsers, the hook answers with
a fault before it looks at any entry of its list: no identifier is resolved, no plugin is
called, and the run is left as it was (`Run.refusals_leave_run`).
-/

namespace PluginChain

namespace Serial

variable {s t : Serial} {items : List Serial} {entries : List (Serial × Serial)}
  {fields : List (String × Serial)}

/-! ## What stands inside data -/

/-- Whether data can be a map key: a text, a character, a truth value, an integer, a finite
float, a member of an enumeration, a JSON value of these kinds, or one of these behind a
type of its own. -/
def IsKey : Serial → Prop
  | .str _ | .char _ | .bool _ | .int _ | .variant _ => True
  | .float x => x.isFinite = true
  | .wrapped inner => inner.IsKey
  | .plain (.str _) | .plain (.bool _) | .plain (.int _) | .plain (.float _) => True
  | _ => False

/-- Whether data stands inside other data, at any depth.  What stands in a map key does not
count, and JSON values hold no other data. -/
inductive Inside (t : Serial) : Serial → Prop
  | here : Inside t t
  | wrapped {s : Serial} (h : Inside t s) : Inside t (.wrapped s)
  | item {s : Serial} {items : List Serial} (hs : s ∈ items) (h : Inside t s) :
      Inside t (.seq items)
  | value {p : Serial × Serial} {entries : List (Serial × Serial)} (hp : p ∈ entries)
      (h : Inside t p.2) : Inside t (.map entries)
  | field {p : String × Serial} {fields : List (String × Serial)} (hp : p ∈ fields)
      (h : Inside t p.2) : Inside t (.record fields)

/-- Whether data has what a plain form asks for: at every depth, map keys that can be
written as texts, and integers that are numbers of JSON. -/
structure Representable (s : Serial) : Prop where
  keys : ∀ entries, Inside (.map entries) s → ∀ p ∈ entries, p.1.IsKey
  integers : ∀ n, Inside (.int n) s → Json.minInt ≤ n ∧ n ≤ Json.maxInt

theorem Inside.trans {u : Serial} (hts : Inside t s) (hsu : Inside s u) : Inside t u := by
  induction hsu with
  | here => exact hts
  | wrapped _ ih => exact .wrapped ih
  | item hs _ ih => exact .item hs ih
  | value hp _ ih => exact .value hp ih
  | field hp _ ih => exact .field hp ih

/-- What stands inside representable data is representable. -/
theorem Representable.of_inside (h : s.Representable) (hts : Inside t s) : t.Representable where
  keys entries hentries := h.keys entries (hentries.trans hts)
  integers n hn := h.integers n (hn.trans hts)

/-- Data that holds no other is representable, unless it is an integer out of range. -/
theorem representable_of_leaf (hinside : ∀ t, Inside t s → t = s)
    (hmap : ∀ entries, s ≠ .map entries)
    (hinteger : ∀ n, s = .int n → Json.minInt ≤ n ∧ n ≤ Json.maxInt) : s.Representable where
  keys entries hentries := absurd (hinside _ hentries).symm (hmap entries)
  integers n hn := hinteger n (hinside _ hn).symm

theorem representable_int_iff {n : Int} :
    (Serial.int n).Representable ↔ Json.minInt ≤ n ∧ n ≤ Json.maxInt := by
  constructor
  · intro h
    exact h.integers n .here
  · intro h
    refine representable_of_leaf (fun t ht => ?_) nofun fun m hm => ?_
    · cases ht
      rfl
    · cases hm
      exact h

theorem representable_wrapped_iff : (Serial.wrapped s).Representable ↔ s.Representable := by
  constructor
  · intro h
    exact h.of_inside (.wrapped .here)
  · intro h
    refine ⟨fun entries hentries => ?_, fun n hn => ?_⟩
    · cases hentries with
      | wrapped hentries => exact h.keys entries hentries
    · cases hn with
      | wrapped hn => exact h.integers n hn

theorem representable_seq_iff :
    (Serial.seq items).Representable ↔ ∀ s ∈ items, s.Representable := by
  constructor
  · intro h s hs
    exact h.of_inside (.item hs .here)
  · intro h
    refine ⟨fun entries hentries => ?_, fun n hn => ?_⟩
    · cases hentries with
      | item hs hentries => exact (h _ hs).keys entries hentries
    · cases hn with
      | item hs hn => exact (h _ hs).integers n hn

theorem representable_map_iff :
    (Serial.map entries).Representable ↔ ∀ p ∈ entries, p.1.IsKey ∧ p.2.Representable := by
  constructor
  · intro h p hp
    exact ⟨h.keys entries .here p hp, h.of_inside (.value hp .here)⟩
  · intro h
    refine ⟨fun others hothers p hp => ?_, fun n hn => ?_⟩
    · cases hothers with
      | here => exact (h p hp).1
      | value hq hothers => exact (h _ hq).2.keys others hothers p hp
    · cases hn with
      | value hp hn => exact (h _ hp).2.integers n hn

theorem representable_record_iff :
    (Serial.record fields).Representable ↔ ∀ p ∈ fields, p.2.Representable := by
  constructor
  · intro h p hp
    exact h.of_inside (.field hp .here)
  · intro h
    refine ⟨fun entries hentries => ?_, fun n hn => ?_⟩
    · cases hentries with
      | field hp hentries => exact (h _ hp).keys entries hentries
    · cases hn with
      | field hp hn => exact (h _ hp).integers n hn

/-! ## Plain forms -/

/-- Data has a text as a map key exactly if it can be one. -/
theorem exists_key_iff : ∀ s : Serial, (∃ name, s.key = .ok name) ↔ s.IsKey
  | .str _ | .char _ | .bool _ | .int _ | .variant _ => by simp [key, IsKey]
  | .nothing | .seq _ | .map _ | .record _ => by simp [key, IsKey]
  | .float x => by
    rw [key, IsKey]
    split <;> simp [*]
  | .wrapped inner => by
    rw [key, IsKey]
    exact exists_key_iff inner
  | .plain v => by cases v <;> simp [key, keyOfJson, IsKey]

mutual

/-- Data has a plain form exactly if it is representable. -/
theorem exists_toJson_iff : ∀ s : Serial, (∃ v, s.toJson = .ok v) ↔ s.Representable
  | .nothing | .bool _ | .float _ | .char _ | .str _ | .variant _ | .plain _ => by
    refine iff_of_true ⟨_, by rw [toJson]⟩ ?_
    refine representable_of_leaf (fun t ht => ?_) nofun nofun
    cases ht
    rfl
  | .int n => by
    rw [toJson, representable_int_iff]
    split <;> simp [*]
  | .wrapped inner => by
    rw [toJson, representable_wrapped_iff]
    exact exists_toJson_iff inner
  | .seq items => by
    rw [toJson, representable_seq_iff, ← exists_itemsToJson_iff items]
    cases itemsToJson items <;> simp
  | .map entries => by
    rw [toJson, representable_map_iff, ← exists_entriesToJson_iff entries]
    cases entriesToJson entries <;> simp
  | .record fields => by
    rw [toJson, representable_record_iff, ← exists_fieldsToJson_iff fields]
    cases fieldsToJson fields <;> simp

theorem exists_itemsToJson_iff : ∀ items : List Serial,
    (∃ vs, itemsToJson items = .ok vs) ↔ ∀ s ∈ items, s.Representable
  | [] => by simp [itemsToJson]
  | s :: rest => by
    rw [itemsToJson, List.forall_mem_cons, ← exists_toJson_iff s, ← exists_itemsToJson_iff rest]
    cases toJson s <;> cases itemsToJson rest <;> simp

theorem exists_entriesToJson_iff : ∀ entries : List (Serial × Serial),
    (∃ fields, entriesToJson entries = .ok fields) ↔
      ∀ p ∈ entries, p.1.IsKey ∧ p.2.Representable
  | [] => by simp [entriesToJson]
  | (k, s) :: rest => by
    rw [entriesToJson, List.forall_mem_cons, ← exists_key_iff k, ← exists_toJson_iff s,
      ← exists_entriesToJson_iff rest]
    cases key k <;> cases toJson s <;> cases entriesToJson rest <;> simp

theorem exists_fieldsToJson_iff : ∀ fields : List (String × Serial),
    (∃ members, fieldsToJson fields = .ok members) ↔ ∀ p ∈ fields, p.2.Representable
  | [] => by simp [fieldsToJson]
  | (name, s) :: rest => by
    rw [fieldsToJson, List.forall_mem_cons, ← exists_toJson_iff s, ← exists_fieldsToJson_iff rest]
    cases toJson s <;> cases fieldsToJson rest <;> simp

end

end Serial

/-! ## Events that cannot be made -/

namespace Event

variable {s : Serial}

theorem exists_toPlain_iff : (∃ v, toPlain s = .ok v) ↔ s.Representable := by
  rw [← Serial.exists_toJson_iff, toPlain]
  cases s.toJson <;> simp

/-- Data without a plain form is not copied. -/
theorem exists_fault_of_copied {D : Type} (read : Json → Except Mismatch D)
    (h : ¬ s.Representable) : ∃ f, f.kind = .serialization ∧ copied read s = .error f := by
  cases hcopied : copied read s with
  | ok e =>
    obtain ⟨v, hv, -⟩ := copied_eq_ok_iff.mp hcopied
    exact absurd ((Serial.exists_toJson_iff s).mp ⟨v, hv⟩) h
  | error f => exact ⟨f, kind_of_copied_error hcopied, rfl⟩

end Event

/-- A configuration travels inside a record, which is representable if it is. -/
theorem ConfigData.representable_seed_iff {s : Serial} :
    (seed s).Representable ↔ s.Representable := by
  rw [seed, Serial.representable_record_iff, List.forall_mem_singleton]

namespace Step

variable {σ ω : Type} {s : Step ω} {run : Run σ ω}

/-- A step that is refused before it gets to any entry: it answers with a fault of a kind,
resolves no identifier, calls no plugin, and leaves the run as it was. -/
structure Refused (s : Step ω) (run : Run σ ω) (kind : FaultKind) : Prop where
  answer : ∃ f, f.kind = kind ∧ s.answer run = (.error f, run)
  unresolved : s.resolutions run = []
  uncalled : s.calls run = []

/-- A hook whose event cannot be made is refused for that fault. -/
theorem refused_of_opening (hlist : s.list? = none) {hook : Hook} {f : Fault}
    (hopening : s.opening run.manager = some ⟨hook, .error f⟩) : s.Refused run f.kind where
  answer := by
    obtain ⟨reading, hanswer⟩ := exists_reading hlist hopening
    refine ⟨f, rfl, ?_⟩
    rw [hanswer run rfl, Run.through_error]
  unresolved := by
    rw [resolutions, hopening]
  uncalled := calls_of_refused hopening

end Step

namespace Run

/-- Data has a plain form exactly if it is representable.  The configuration hook refuses a
configuration that is not, and the hook that chooses factories refuses all in a host without
parsers, each with a fault of its kind; whatever the active list is, nothing is resolved or
called then, and the run is left as it was. -/
theorem refusals_leave_run {σ ω : Type} :
    (∀ s : Serial, (∃ v, Event.toPlain s = .ok v) ↔ s.Representable) ∧
    ∀ run : Run σ ω,
      (∀ (α : Type) [Portable α] (config : α), ¬ (Portable.toSerial config).Representable →
        (Step.config α config).Refused run .serialization) ∧
      (run.manager.capabilities = none → ∀ kind factory,
        (Step.docClass kind factory).Refused run .internal) := by
  refine ⟨fun s => Event.exists_toPlain_iff, fun run => ⟨fun α _ config h => ?_, ?_⟩⟩
  · obtain ⟨f, hkind, hcopied⟩ := Event.exists_fault_of_copied ConfigData.ofJson
      (mt ConfigData.representable_seed_iff.mp h)
    have hopening : (Step.config α config).opening run.manager = some ⟨.config, .error f⟩ :=
      congrArg (fun event : Except Fault (Event (Hook.config.Data ω)) =>
        some (⟨.config, event⟩ : (hook : Hook) × Except Fault (Event (hook.Data ω)))) hcopied
    rw [← hkind]
    exact Step.refused_of_opening rfl hopening
  · intro hnone kind factory
    have hopening : (Step.docClass kind factory).opening run.manager =
        some ⟨.docClass, .error capabilitiesFault⟩ := by
      rw [Step.opening, Step.docClassEvent, hnone]
    exact Step.refused_of_opening rfl hopening

/-- Data can be a configuration, and is read back as the value that it became. -/
instance : Portable Serial := ⟨id, fun v => .ok (.plain v)⟩

/-- A run whose only plugin is nowhere, in a host without parsers. -/
def stranded : Run Nat Unit where
  manager :=
    { plugins := [⟨"nowhere", .null⟩]
      resolver := { registry := { entries := [] } } }
  host := { memory := () }

/-- A map whose key is a pair, deep inside the configuration, is found before the plugin is
looked for, and so is the want of parsers. -/
theorem refusals_leave_run_stranded :
    let pairKeyed : Serial := .map [(.seq [.int 1, .int 2], .nothing)]
    let config : Serial := .record [("grid", .wrapped (.seq [.nothing, pairKeyed]))]
    (∃ f, f.kind = .serialization ∧ stranded.handleConfig config = (.error f, stranded)) ∧
      ∃ f, f.kind = .internal ∧ stranded.handleDocClass "class" ⟨7, default⟩ =
        (.error f, stranded) := by
  intro pairKeyed config
  have hinside : Serial.Inside pairKeyed config :=
    .field (.head _) (.wrapped (.item (.tail _ (.head _)) .here))
  have hconfig : ¬ (Portable.toSerial config).Representable := by
    intro h
    exact h.keys _ hinside _ (.head _)
  obtain ⟨hserialized, hparsed⟩ := refusals_leave_run.2 stranded
  exact ⟨(hserialized Serial config hconfig).answer, (hparsed rfl "class" ⟨7, default⟩).answer⟩

end Run

end PluginChain
