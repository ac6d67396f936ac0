import PluginChain.Proofs.CallCounts
import PluginChain.Proofs.Provision
import PluginChain.Proofs.SessionCalls
set_option autoImplicit false

/-!
# Records that are not public

Of the built-in plugins, `exclude-private` alone works on documentation records.  Each of its
entries drops the records of its own option, so a record stays exactly if no entry drops it
(`undropped`).  This hangs on nothing but which entries there are, whatever their order and
number, and what was left once is left again.

At least one entry drops the private records, and if one is asked to, the protected ones are
dropped as well (`Kept`).
-/

namespace PluginChain.Builtin.ExcludePrivate

variable {σ ω : Type} {counters : Slot σ RunStats.Counters}

/-! ## Options -/

/-- Whether an option asks for protected records to be dropped: a null asks for nothing, and
a record for what its only field says, or for nothing where that is absent. -/
def SpellsProtected (option : Json) (protectedToo : Bool) : Prop :=
  SpellsField "protected" false (fun v b => v = .bool b) option protectedToo

theorem readBool_eq_ok_iff {v : Json} {b : Bool} : v.readBool = .ok b ↔ v = .bool b := by
  cases v <;> simp [Json.readBool]

/-- The values that are read are those that spell something. -/
theorem readOption_eq_ok_iff {v : Json} {options : Options} :
    readOption identifier Options.ofJson v = .ok options ↔
      SpellsProtected v options.protectedToo := by
  have hfield : readOption identifier Options.ofJson v = .ok ⟨options.protectedToo⟩ ↔
      SpellsField "protected" false (fun w b => w.readBool = .ok b) v options.protectedToo :=
    readOption_eq_ok_iff_spellsField rfl (fun _ _ => congrArg Options.protectedToo) rfl identifier
  simp only [readBool_eq_ok_iff] at hfield
  rw [SpellsProtected, ← hfield]

/-- What an entry asks for, if it asks for anything. -/
def asked (e : PluginEntry) : Options :=
  (readOption identifier Options.ofJson e.option).toOption.getD default

theorem asked_of_spells {e : PluginEntry} {protectedToo : Bool}
    (h : SpellsProtected e.option protectedToo) : asked e = ⟨protectedToo⟩ := by
  have hread : readOption identifier Options.ofJson e.option = .ok ⟨protectedToo⟩ :=
    readOption_eq_ok_iff.mpr h
  rw [asked, hread]
  rfl

/-- An entry that asks for something asks for one thing. -/
theorem spellsProtected_iff {e : PluginEntry}
    (h : ∃ protectedToo, SpellsProtected e.option protectedToo) {b : Bool} :
    SpellsProtected e.option b ↔ (asked e).protectedToo = b := by
  constructor
  · intro hb
    rw [asked_of_spells hb]
  · obtain ⟨protectedToo, hspells⟩ := h
    rw [asked_of_spells hspells]
    rintro rfl
    exact hspells

/-! ## Records -/

/-- Whether a record is an object whose access is a word. -/
def hasAccess (word : String) : Json → Bool
  | .obj fields =>
    match Keyed.get? "access" fields with
    | some (.str access) => access = word
    | _ => false
  | _ => false

theorem hasAccess_eq (word : String) (doc : Json) :
    hasAccess word doc = (access? doc == some word) := by
  unfold hasAccess access?
  cases doc with
  | obj fields =>
    have hget : (Json.obj fields).get? "access" = Keyed.get? "access" fields := rfl
    rw [hget]
    dsimp only
    cases Keyed.get? "access" fields with
    | none => rfl
    | some v => cases v <;> rfl
  | _ => rfl

/-- A record is dropped for being private or, on demand, for being protected. -/
theorem isExcluded_eq (options : Options) (doc : Json) :
    isExcluded options doc =
      (hasAccess "private" doc || (hasAccess "protected" doc && options.protectedToo)) := by
  rw [hasAccess_eq, hasAccess_eq, isExcluded]
  cases access? doc <;> rfl

/-- Some options together drop what one of them drops, and protected records if any of them
does. -/
theorem all_not_isExcluded {α : Type} {l : List α} (hl : l ≠ []) (options : α → Options)
    (doc : Json) :
    (l.all fun a => !isExcluded (options a) doc) =
      !isExcluded ⟨l.any fun a => (options a).protectedToo⟩ doc := by
  simp only [isExcluded_eq]
  cases hasAccess "private" doc with
  | true => simpa using List.exists_mem_of_ne_nil l hl
  | false =>
    cases hasAccess "protected" doc with
    | true => simp [List.not_any_eq_all_not]
    | false => simp

/-- Options one after the other leave the records that none of them drops. -/
theorem foldl_remaining {α : Type} (options : α → Options) (l : List α) (d : DocsData) :
    l.foldl (fun d a => { docs := remaining (options a) d.docs }) d =
      { docs := d.docs.filter fun doc => l.all fun a => !isExcluded (options a) doc } := by
  induction l generalizing d with
  | nil => exact congrArg DocsData.mk (List.filter_true d.docs).symm
  | cons a rest ih =>
    rw [List.foldl_cons, ih, remaining, List.filter_filter]
    simp only [List.all_cons, Bool.and_comm]

/-! ## Entries -/

/-- The entries of a list that drop records. -/
def excluding (entries : List PluginEntry) : List PluginEntry :=
  entries.filter fun e => e.name = identifier

/-- The records that no entry of a list drops. -/
def undropped (entries : List PluginEntry) (docs : List Json) : List Json :=
  docs.filter fun doc => (excluding entries).all fun e => !isExcluded (asked e) doc

variable {entries others : List PluginEntry} {docs kept : List Json}

/-- Order and repetition of the entries make no difference. -/
theorem undropped_congr (h : ∀ e, e ∈ excluding others ↔ e ∈ excluding entries) :
    undropped others = undropped entries := by
  funext docs
  unfold undropped
  congr 1
  funext doc
  rw [Bool.eq_iff_iff, List.all_eq_true, List.all_eq_true]
  exact forall_congr' fun e => imp_congr_left (h e)

/-- What no entry drops is not dropped later either. -/
theorem undropped_undropped (entries : List PluginEntry) (docs : List Json) :
    undropped entries (undropped entries docs) = undropped entries docs := by
  unfold undropped
  rw [List.filter_filter]
  simp only [Bool.and_self]

/-- What entries leave of some records: all of them where there is no entry, and else those
that are not private and, where an entry asks for that, not protected either. -/
structure Kept (entries : List PluginEntry) (docs kept : List Json) : Prop where
  all : excluding entries = [] → kept = docs
  notPrivate : excluding entries ≠ [] → (¬ ∃ e ∈ excluding entries, SpellsProtected e.option true) →
    kept = docs.filter fun doc => !hasAccess "private" doc
  notProtected : (∃ e ∈ excluding entries, SpellsProtected e.option true) →
    kept = docs.filter fun doc => !(hasAccess "private" doc || hasAccess "protected" doc)

/-- At least one entry drops private records, and protected ones if any entry does. -/
theorem undropped_of_ne_nil (h : excluding entries ≠ []) (docs : List Json) :
    undropped entries docs =
      remaining ⟨(excluding entries).any fun e => (asked e).protectedToo⟩ docs :=
  List.filter_congr fun doc _ => all_not_isExcluded h asked doc

/-- Entries with options that spell something leave the records that none of them drops. -/
theorem kept_undropped
    (hspells : ∀ e ∈ excluding entries, ∃ protectedToo, SpellsProtected e.option protectedToo)
    (docs : List Json) : Kept entries docs (undropped entries docs) := by
  have hany : ((excluding entries).any fun e => (asked e).protectedToo) = true ↔
      ∃ e ∈ excluding entries, SpellsProtected e.option true := by
    rw [List.any_eq_true]
    refine exists_congr fun e => and_congr_right fun he => ?_
    exact (spellsProtected_iff (hspells e he)).symm
  constructor
  · intro hnone
    unfold undropped
    rw [hnone]
    exact List.filter_true docs
  · intro hsome hnever
    rw [undropped_of_ne_nil hsome, Bool.eq_false_iff.mpr (mt hany.mp hnever)]
    simp only [remaining, isExcluded_eq, Bool.and_false, Bool.or_false]
  · intro hasking
    have hsome : excluding entries ≠ [] := by
      obtain ⟨e, he, -⟩ := hasking
      exact List.ne_nil_of_mem he
    rw [undropped_of_ne_nil hsome, hany.mpr hasking]
    simp only [remaining, isExcluded_eq, Bool.and_true]

/-! ## Calls -/

theorem mem_plugins (counters : Slot σ RunStats.Counters) :
    (plugin : Plugin σ ω) ∈ plugins counters := List.mem_cons_self

/-- No other built-in plugin works on documentation records. -/
theorem turns_id_of_ne (q : Plugin σ ω) (hq : q ∈ plugins counters)
    (hname : q.name ≠ (plugin : Plugin σ ω).name) (option : Json) : q.Turns .docs option id :=
  turns_id hq (fun _ => hname) Hook.noConfusion Hook.noConfusion option

/-- Under an option that spells something, a call drops records, says how many, and does
nothing else. -/
theorem handle_of_spells {scene : Scene σ ω DocsData} {protectedToo : Bool}
    (hspells : SpellsProtected scene.event.option protectedToo) :
    let docs := scene.event.data.docs
    let kept := remaining ⟨protectedToo⟩ docs
    (plugin : Plugin σ ω).handle .docs scene =
      (.ok (),
        { scene with
          event := { scene.event with data := { docs := kept } }
          host := scene.host.note (excludedRecord docs.length kept.length) }) :=
  withOption_of_ok (readOption_eq_ok_iff.mpr hspells)

theorem turns_docs {option : Json} {protectedToo : Bool}
    (h : SpellsProtected option protectedToo) :
    (plugin : Plugin σ ω).Turns .docs option
      fun d => { docs := remaining ⟨protectedToo⟩ d.docs } := by
  refine ⟨fun scene hoption => ?_, nofun⟩
  have hcall : plugin.handle .docs scene = _ := handle_of_spells (hoption ▸ h)
  rw [hcall]
  exact ⟨rfl, rfl⟩

/-- A built-in plugin handles the hook for documentation records if it is the one that works
there. -/
theorem handles_docs {p : Plugin σ ω} (hp : p ∈ plugins counters) :
    p.handles .docs = decide (p.name = identifier) := by
  unfold plugins at hp
  simp only [List.mem_cons, List.not_mem_nil, or_false] at hp
  rcases hp with rfl | rfl | rfl | rfl <;> rfl

/-- Whether a call reports, in one record, how many of the records that it was given it has
dropped and how many it has left. -/
def Accounts (c : Call σ ω DocsData) : Prop :=
  ∃ removed remaining : Nat,
    c.after.host.log =
      [.debug .excludePrivate "Excluded non-public docs"
        [("removed", .int removed), ("remaining", .int remaining)]] ∧
    removed + remaining = c.before.event.data.docs.length ∧
    remaining = c.after.event.data.docs.length

section

variable {run : Run σ ω}
  (hbuiltin : ∀ e ∈ run.manager.plugins, Provides counters run.manager.resolver e.name)
  (hspells : ∀ e ∈ excluding run.manager.plugins,
    ∃ protectedToo, SpellsProtected e.option protectedToo)

include hspells in
theorem turns_asked : ∀ e ∈ excluding run.manager.plugins,
    (plugin : Plugin σ ω).Turns .docs e.option
      fun d => { docs := remaining (asked e) d.docs } := by
  intro e he
  obtain ⟨protectedToo, hb⟩ := hspells e he
  rw [asked_of_spells hb]
  exact turns_docs hb

include hbuiltin hspells

/-- The hook for documentation records leaves those that no entry drops. -/
theorem handleDocs_of_provides (docs : List Json) :
    (run.handleDocs docs).1 = .ok (undropped run.manager.plugins docs) := by
  have htake := through_of_worker hbuiltin (mem_plugins counters) turns_id_of_ne
    (turns_asked hspells) (.assigned { docs }) fun d => .ok d.docs
  rw [Run.handleDocs_eq, htake]
  exact congrArg (fun d : DocsData => Except.ok d.docs) (foldl_remaining asked _ _)

/-- It makes a call for each entry that drops records. -/
theorem entries_hookCalls (docs : List Json) :
    (run.hookCalls .docs (.assigned { docs })).map (·.entry) = excluding run.manager.plugins := by
  obtain ⟨⟨n, hanswer⟩, -⟩ := Run.pass_of_turns
    (turns_of_worker hbuiltin (mem_plugins counters) turns_id_of_ne (turns_asked hspells))
    (.assigned { docs })
  refine (Stage.entries_calls hanswer).trans (List.filter_congr fun e he => ?_)
  obtain ⟨-, i, hi, hplugin, hname⟩ := hbuiltin e he
  show (run.manager.resolver.instance? e.name).any (fun i => i.plugin.handles .docs) = _
  rw [hi, Option.any_some, handles_docs hplugin, hname]

/-- Each call reports what it does. -/
theorem accounts_of_mem {docs : List Json} {c : Call σ ω DocsData}
    (hc : c ∈ run.hookCalls .docs (.assigned { docs })) : Accounts c := by
  obtain ⟨earlier, later, hsplit⟩ := List.append_of_mem hc
  have hbefore := Stage.before_of_callsFrom hsplit
  obtain ⟨-, -, -, hi, hcall⟩ := Stage.call_of_mem hc
  have hentry : c.entry ∈ excluding run.manager.plugins := by
    rw [← entries_hookCalls hbuiltin hspells docs]
    exact List.mem_map_of_mem hc
  obtain ⟨he, hname⟩ := List.mem_filter.mp hentry
  obtain ⟨i, hstands, hplugin⟩ :=
    (hbuiltin c.entry he).instance_of_name (mem_plugins counters) (of_decide_eq_true hname)
  obtain rfl : i = c.target := Option.some.inj (hstands.symm.trans hi)
  obtain ⟨protectedToo, hb⟩ := hspells c.entry hentry
  -- The call is given the option of its entry and an empty log, so its record is all there is.
  have hoption : c.before.event.option = c.entry.option := by
    rw [hbefore]
    exact Event.option_setOption _ _
  have hlog : c.before.host.log = [] := by
    rw [hbefore]
    exact Call.log_hostAfter _ _
  rw [hplugin, handle_of_spells (hoption.symm ▸ hb)] at hcall
  obtain ⟨-, hafter⟩ := Prod.mk.inj hcall
  let given := DocsData.docs c.before.event.data
  have hle : (remaining ⟨protectedToo⟩ given).length ≤ given.length := length_remaining_le _ _
  refine ⟨_, _, ?_, Nat.sub_add_cancel hle, ?_⟩
  · rw [hafter]
    show c.before.host.log ++ [_] = _
    rw [hlog]
    rfl
  · rw [hafter]

end

/-- Of some records, entries that ask for something keep those that none of them drops: the
private ones are dropped if there is an entry, the protected ones if an entry asks for that.
The other built-in plugins make no difference, nor do order and repetition of the entries, and
what was kept is kept again, by the same run or another.  There is one call for each entry,
and it reports in one record how many of the records it was given it has dropped and left;
the log has these reports and no others. -/
theorem public_docs_kept {run : Run σ ω}
    (hbuiltin : ∀ e ∈ run.manager.plugins, Provides counters run.manager.resolver e.name)
    (hspells : ∀ e ∈ excluding run.manager.plugins,
      ∃ protectedToo, SpellsProtected e.option protectedToo) (docs : List Json) :
    let left := run.handleDocs docs
    let calls := run.hookCalls .docs (.assigned { docs })
    ∃ kept, left.1 = .ok kept ∧ Kept run.manager.plugins docs kept ∧
      (left.2.handleDocs kept).1 = .ok kept ∧
      (∀ other : Run σ ω,
        (∀ e ∈ other.manager.plugins, Provides counters other.manager.resolver e.name) →
        (∀ e, e ∈ excluding other.manager.plugins ↔ e ∈ excluding run.manager.plugins) →
        (other.handleDocs docs).1 = .ok kept ∧ (other.handleDocs kept).1 = .ok kept) ∧
      calls.map (·.entry) = excluding run.manager.plugins ∧
      left.2.host.recordsOf .excludePrivate =
        run.host.recordsOf .excludePrivate ++ Stage.writtenBy .excludePrivate calls ∧
      ∀ c ∈ calls, Accounts c := by
  intro left calls
  have hother (other : Run σ ω)
      (hentries : ∀ e ∈ other.manager.plugins, Provides counters other.manager.resolver e.name)
      (hsame : ∀ e, e ∈ excluding other.manager.plugins ↔ e ∈ excluding run.manager.plugins)
      (docs : List Json) :
      (other.handleDocs docs).1 = .ok (undropped run.manager.plugins docs) := by
    rw [handleDocs_of_provides hentries (fun e he => hspells e ((hsame e).mp he)),
      undropped_congr hsame]
  have hleft : left = run.through .docs (.ok (.assigned { docs })) fun event => .ok event.data.docs :=
    Run.handleDocs_eq docs run
  have hplugins : left.2.manager.plugins = run.manager.plugins :=
    hleft ▸ Run.plugins_through _ _ _ run
  have hprovided : ∀ e ∈ left.2.manager.plugins,
      Provides counters left.2.manager.resolver e.name := by
    intro e he
    rw [hplugins] at he
    exact hleft ▸ (hbuiltin e he).of_through _ _ _
  refine ⟨undropped run.manager.plugins docs, handleDocs_of_provides hbuiltin hspells docs,
    kept_undropped hspells docs, ?_, fun other hentries hsame => ⟨?_, ?_⟩,
    entries_hookCalls hbuiltin hspells docs, ?_, fun c => accounts_of_mem hbuiltin hspells⟩
  · rw [handleDocs_of_provides hprovided (hplugins.symm ▸ hspells), hplugins, undropped_undropped]
  · exact hother other hentries hsame docs
  · rw [hother other hentries hsame, undropped_undropped]
  · rw [hleft, Run.snd_through_ok]
    exact Stage.records_dispatch (by decide) _ _ _ _

/-- A run with all built-in plugins and a list of entries. -/
def published (plugins : List PluginEntry) : Run RunStats.Counters Unit where
  manager :=
    { plugins, resolver := { registry := (register (.whole _) {} .empty []).2.1 } }
  host := { memory := () }

theorem provides_published {plugins : List PluginEntry} (h : ∀ e ∈ plugins, e.name ∈ identifiers) :
    ∀ e ∈ (published plugins).manager.plugins,
      Provides (.whole _) (published plugins).manager.resolver e.name := by
  obtain ⟨registry, log, hregister, hprovides⟩ :=
    provides_of_register (ω := Unit) (.whole RunStats.Counters) {} []
  intro e he
  have hregistry : (register (ω := Unit) (.whole RunStats.Counters) {} .empty []).2.1 = registry := by
    rw [hregister]
  show Provides _ { registry := (register (.whole _) {} .empty []).2.1, .. } e.name
  rw [hregistry]
  exact hprovides _ e.name (h e he)

/-- Of three entries with different options one drops protected records.  What has its access
in a list, or is no object, stays. -/
theorem public_docs_kept_protected :
    let run := published
      [⟨"exclude-private", .null⟩, ⟨"run-stats", .int 7⟩, ⟨"exclude-private", .arr [.bool true]⟩,
        ⟨"exclude-private", .obj []⟩]
    let withAccess (v : Json) : Json := .obj [("access", v)]
    (∀ e ∈ run.manager.plugins, Provides (.whole _) run.manager.resolver e.name) ∧
      (∀ e ∈ excluding run.manager.plugins,
        ∃ protectedToo, SpellsProtected e.option protectedToo) ∧
      (run.handleDocs
          [withAccess (.str "private"), .str "private", withAccess (.str "protected"),
            withAccess (.arr [.str "private"]), withAccess (.str "public"), .str "private"]).1 =
        .ok [.str "private", withAccess (.arr [.str "private"]), withAccess (.str "public"),
          .str "private"] := by
  intro run withAccess
  have hprovides : ∀ e ∈ run.manager.plugins,
      Provides (.whole _) run.manager.resolver e.name := provides_published (by decide)
  have hentries : excluding run.manager.plugins =
      [⟨"exclude-private", .null⟩, ⟨"exclude-private", .arr [.bool true]⟩,
        ⟨"exclude-private", .obj []⟩] := rfl
  have hspells : ∀ e ∈ excluding run.manager.plugins,
      ∃ protectedToo, SpellsProtected e.option protectedToo := by
    rw [hentries]
    simp only [List.forall_mem_cons]
    exact ⟨⟨false, .null⟩, ⟨true, .listed rfl⟩, ⟨false, .absent rfl⟩, nofun⟩
  obtain ⟨kept, hanswer, hkept, -⟩ := public_docs_kept hprovides hspells _
  refine ⟨hprovides, hspells, hanswer.trans ?_⟩
  rw [hkept.notProtected ⟨⟨"exclude-private", .arr [.bool true]⟩, .tail _ (.head _), .listed rfl⟩]
  rfl

end PluginChain.Builtin.ExcludePrivate
