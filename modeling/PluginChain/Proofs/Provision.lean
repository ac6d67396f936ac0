import Mathlib.Data.List.Nodup
import PluginChain.Builtin.All
import PluginChain.Proofs.Scripts
import PluginChain.Proofs.Turns
set_option autoImplicit false

/-!
# The built-in plugins at work

Registered in an empty registry, each built-in plugin stands under its own identifier
(`Builtin.provides_of_register`), and so it does after any history of resolutions
(`Builtin.Provides.of_leads`).

All of them let the data of a hook pass as it is, but for three hooks on which one of them
works (`Builtin.turns_id`).  What such a hook gives back is what the entries of that one
plugin make of the data, one after the other (`Builtin.through_of_worker`).  At the hook for
rendered files this is `inject-script`: it puts in the scripts that its option asks for, and
refuses an option that asks for nothing it could put in
(`Builtin.InjectScript.turns_content`, `Builtin.InjectScript.refuses_content`).
-/

namespace PluginChain

open Resolver (Leads SameLoaded)

namespace Registry

variable {σ ω : Type}

/-- Plugins with identifiers of their own, none of which is taken, are all registered. -/
theorem registerAll_of_free {plugins : List (String × Registration σ ω)} {r : Registry σ ω}
    (log : List LogRecord) (hnodup : (Keyed.keys plugins).Nodup)
    (hfree : ∀ identifier ∈ Keyed.keys plugins, r.contains identifier = false) :
    ∃ r' log', registerAll plugins r log = (.ok (), r', log') ∧
      (∀ p ∈ plugins, Keyed.get? p.1 r'.entries = some p.2) ∧
      ∀ identifier ∉ Keyed.keys plugins,
        Keyed.get? identifier r'.entries = Keyed.get? identifier r.entries := by
  induction plugins generalizing r log with
  | nil => exact ⟨r, log, rfl, nofun, fun _ _ => rfl⟩
  | cons p rest ih =>
    obtain ⟨identifier, registration⟩ := p
    obtain ⟨hnew, hnodup⟩ := List.nodup_cons.mp hnodup
    obtain ⟨hunused, hfree⟩ := List.forall_mem_cons.mp hfree
    have hregister := register_eq_ok_iff.mpr
      ⟨hunused, (rfl : Registry.mk (Keyed.insert identifier registration r.entries) = _)⟩
    have hkept : ∀ other ∈ Keyed.keys rest,
        (Registry.mk (Keyed.insert identifier registration r.entries)).contains other = false := by
      intro other hother
      have hne : identifier ≠ other := fun heq => hnew (heq ▸ hother)
      rw [contains, Keyed.contains, Keyed.get?_insert_of_ne hne]
      exact hfree other hother
    obtain ⟨r', log', hall, hregistered, hothers⟩ :=
      ih (log ++ [registeringRecord identifier]) hnodup hkept
    refine ⟨r', log', ?_, ?_, ?_⟩
    · rw [registerAll, hregister]
      exact hall
    · refine List.forall_mem_cons.mpr ⟨?_, hregistered⟩
      rw [hothers identifier hnew]
      exact Keyed.get?_insert_self _ _ _
    · intro other hother
      obtain ⟨hne, hrest⟩ := not_or.mp fun hmem => hother (List.mem_cons.mpr hmem)
      rw [hothers other hrest]
      exact Keyed.get?_insert_of_ne (Ne.symm hne) _ _

end Registry

namespace Resolver

variable {σ ω : Type} {r r' : Resolver σ ω} {history : List (Resolution σ ω)}

/-- No history changes which instance an identifier stands for. -/
theorem Leads.instance?_eq (hleads : Leads r history r') (identifier : String) :
    r'.instance? identifier = r.instance? identifier := by
  induction hleads with
  | nil same => exact (same.instance?_eq identifier).symm
  | @cons r r' q rest same _ ih =>
    rw [ih, q.after_eq_settled, instance?_settled, same.instance?_eq]

/-- A resolution keeps the identifiers of the registry. -/
theorem contains_settled (r : Resolver σ ω) (identifier other : String) :
    (r.settled identifier).registry.contains other = r.registry.contains other := by
  rcases settled_cases r identifier with ⟨hsame, -⟩ | ⟨i, -, hcreated⟩
  · rw [hsame]
  · rw [hcreated, Bool.eq_iff_iff]
    unfold Registry.contains
    rw [Keyed.contains_iff_mem_keys, Keyed.contains_iff_mem_keys]
    exact iff_of_eq (congrArg (other ∈ ·) (Registry.identifiers_create r.registry identifier))

/-- No history changes the identifiers of the registry. -/
theorem Leads.contains_eq (hleads : Leads r history r') (identifier : String) :
    r'.registry.contains identifier = r.registry.contains identifier := by
  induction hleads with
  | nil same => rw [same.registry]
  | @cons r r' q rest same _ ih => rw [ih, q.after_eq_settled, contains_settled, same.registry]

end Resolver

namespace Builtin

variable {σ ω : Type} {counters : Slot σ RunStats.Counters}

/-- The built-in plugins, in the order of registration. -/
def plugins (counters : Slot σ RunStats.Counters) : List (Plugin σ ω) :=
  [ExcludePrivate.plugin, InjectScript.plugin, CopyAssets.plugin, RunStats.plugin.within counters]

theorem names_plugins (counters : Slot σ RunStats.Counters) :
    (plugins (ω := ω) counters).map (·.name) = identifiers := rfl

/-- Whether an identifier stands for the built-in plugin of that name. -/
structure Provides (counters : Slot σ RunStats.Counters) (r : Resolver σ ω)
    (identifier : String) : Prop where
  registered : r.registry.contains identifier = true
  resolves : ∃ i, r.instance? identifier = some i ∧ i.plugin ∈ plugins counters ∧
    i.plugin.name = identifier

/-- What has been provided stays so. -/
theorem Provides.of_leads {r r' : Resolver σ ω} {history : List (Resolution σ ω)}
    {identifier : String} (h : Provides counters r identifier) (hleads : Leads r history r') :
    Provides counters r' identifier := by
  obtain ⟨hregistered, i, hi, hbuiltin⟩ := h
  refine ⟨?_, i, ?_, hbuiltin⟩
  · rw [hleads.contains_eq, hregistered]
  · rw [hleads.instance?_eq, hi]

/-- So it does after a hook, whether that fails or not. -/
theorem Provides.of_through {run : Run σ ω} {identifier : String} {α : Type}
    (h : Provides counters run.manager.resolver identifier) (hook : Hook)
    (event : Except Fault (Event (hook.Data ω)))
    (result : Event (hook.Data ω) → Except Fault α) :
    Provides counters (run.through hook event result).2.manager.resolver identifier := by
  cases event with
  | error f => exact h
  | ok event =>
    rw [Run.snd_through_ok]
    exact h.of_leads ((run.stage event).leads_dispatch run.manager.plugins hook _)

theorem nodup_identifiers : identifiers.Nodup := by decide

/-- Under each built-in identifier, the plugin of that name is registered. -/
theorem exists_registration (counters : Slot σ RunStats.Counters) (initial : σ) :
    ∀ identifier ∈ identifiers, ∃ p ∈ plugins (ω := ω) counters, p.name = identifier ∧
      ∃ state, (identifier, fresh p state) ∈ registrations counters initial := by
  simp only [identifiers, List.forall_mem_cons]
  refine ⟨⟨_, .head _, rfl, _, .head _⟩, ⟨_, .tail _ (.head _), rfl, _, .tail _ (.head _)⟩,
    ⟨_, .tail _ (.tail _ (.head _)), rfl, _, .tail _ (.tail _ (.head _))⟩, ?_, nofun⟩
  exact ⟨_, .tail _ (.tail _ (.tail _ (.head _))), rfl, _, .tail _ (.tail _ (.tail _ (.head _)))⟩

/-- In an empty registry, all built-in plugins are registered and provided. -/
theorem provides_of_register (counters : Slot σ RunStats.Counters) (initial : σ)
    (log : List LogRecord) :
    ∃ (registry : Registry σ ω) (log' : List LogRecord),
      register counters initial .empty log = (.ok (), registry, log') ∧
        ∀ localDir : String, ∀ identifier ∈ identifiers,
          Provides counters { registry, localDir } identifier := by
  have hnodup : (Keyed.keys (registrations (ω := ω) counters initial)).Nodup := nodup_identifiers
  obtain ⟨registry, log', hall, hregistered, -⟩ :=
    Registry.registerAll_of_free (r := .empty) log hnodup fun _ _ => rfl
  refine ⟨registry, log' ++ [registeredRecord registry.size], ?_, ?_⟩
  · rw [register, hall]
  · intro localDir identifier hidentifier
    obtain ⟨p, hp, hname, state, hmem⟩ :=
      exists_registration (ω := ω) counters initial identifier hidentifier
    have hget : Keyed.get? identifier registry.entries = some (fresh p state) :=
      hregistered _ hmem
    refine ⟨?_, ⟨.built identifier 1, p, state⟩, ?_, hp, hname⟩
    · unfold Registry.contains Keyed.contains
      rw [hget]
      rfl
    · rw [Resolver.instance?_of_not_cached rfl, Registry.create_of_factory hget]

/-! ## What the built-in plugins do -/

theorem ExcludePrivate.handle_of_ne {hook : Hook} (h : hook ≠ .docs) :
    (plugin (σ := σ) (ω := ω)).handle hook = Handler.skip := by
  cases hook <;> first | rfl | exact absurd rfl h

theorem InjectScript.handle_of_ne {hook : Hook} (h : hook ≠ .content) :
    (plugin (σ := σ) (ω := ω)).handle hook = Handler.skip := by
  cases hook <;> first | rfl | exact absurd rfl h

theorem CopyAssets.handle_of_ne {hook : Hook} (h : hook ≠ .publish) :
    (plugin (σ := σ) (ω := ω)).handle hook = Handler.skip := by
  cases hook <;> first | rfl | exact absurd rfl h

/-- Counting leaves the data of every hook as it is. -/
theorem RunStats.turns_id (counters : Slot σ RunStats.Counters) (hook : Hook) (option : Json) :
    (plugin.within counters : Plugin σ ω).Turns hook option id := by
  refine ⟨fun scene _ => ?_, fun _ _ => rfl⟩
  cases hook <;> exact ⟨rfl, rfl⟩

variable {p : Plugin σ ω} {option : Json}

/-- A built-in plugin lets the data of a hook pass, unless it is the one that works there. -/
theorem turns_id (hp : p ∈ plugins counters) {hook : Hook}
    (hdocs : hook = .docs → p.name ≠ ExcludePrivate.identifier)
    (hcontent : hook = .content → p.name ≠ InjectScript.identifier)
    (hpublish : hook = .publish → p.name ≠ CopyAssets.identifier) (option : Json) :
    p.Turns hook option id := by
  unfold plugins at hp
  rcases List.mem_cons.mp hp with rfl | hp
  · exact Plugin.turns_of_skip (ExcludePrivate.handle_of_ne fun h => hdocs h rfl) option
  rcases List.mem_cons.mp hp with rfl | hp
  · exact Plugin.turns_of_skip (InjectScript.handle_of_ne fun h => hcontent h rfl) option
  rcases List.mem_cons.mp hp with rfl | hp
  · exact Plugin.turns_of_skip (CopyAssets.handle_of_ne fun h => hpublish h rfl) option
  · obtain rfl := List.mem_singleton.mp hp
    exact RunStats.turns_id counters hook option

/-- Of two built-in plugins, no name is that of both. -/
theorem eq_of_name_eq {q : Plugin σ ω} (hp : p ∈ plugins counters) (hq : q ∈ plugins counters)
    (hname : p.name = q.name) : p = q :=
  List.inj_on_of_nodup_map (names_plugins (ω := ω) counters ▸ nodup_identifiers) hp hq hname

/-- An entry with the name of a built-in plugin stands for it. -/
theorem Provides.instance_of_name {r : Resolver σ ω} {identifier : String}
    (h : Provides counters r identifier) (hp : p ∈ plugins counters)
    (hname : identifier = p.name) : ∃ i, r.instance? identifier = some i ∧ i.plugin = p := by
  obtain ⟨-, i, hi, hbuiltin, hnamed⟩ := h
  exact ⟨i, hi, eq_of_name_eq hbuiltin hp (hnamed.trans hname)⟩

section

variable {hook : Hook} {entries : List PluginEntry} {r : Resolver σ ω}
  {turn : PluginEntry → hook.Data ω → hook.Data ω}

/-- At a hook at which one built-in plugin works, its entries turn the data, and the others
do not. -/
theorem turns_of_worker (hentries : ∀ e ∈ entries, Provides counters r e.name)
    (hp : p ∈ plugins counters)
    (hothers : ∀ q : Plugin σ ω, q ∈ plugins counters → q.name ≠ p.name →
      ∀ option, q.Turns hook option id)
    (hturns : ∀ e ∈ entries.filter (fun e => e.name = p.name), p.Turns hook e.option (turn e)) :
    ∀ e ∈ entries, ∃ i, r.instance? e.name = some i ∧
      i.plugin.Turns hook e.option fun data => if e.name = p.name then turn e data else data := by
  intro e he
  by_cases hname : e.name = p.name
  · obtain ⟨i, hi, hplugin⟩ := (hentries e he).instance_of_name hp hname
    refine ⟨i, hi, ?_⟩
    simp only [hname, if_true, hplugin]
    exact hturns e (List.mem_filter.mpr ⟨he, decide_eq_true hname⟩)
  · obtain ⟨-, i, hi, hbuiltin, hnamed⟩ := hentries e he
    refine ⟨i, hi, ?_⟩
    simp only [hname, if_false]
    exact hothers i.plugin hbuiltin (hnamed ▸ hname) e.option

/-- Such a hook gives back what is taken from the data as the entries of that plugin turn it,
one after the other. -/
theorem through_of_worker {run : Run σ ω} {α : Type}
    (hentries : ∀ e ∈ run.manager.plugins, Provides counters run.manager.resolver e.name)
    (hp : p ∈ plugins counters)
    (hothers : ∀ q : Plugin σ ω, q ∈ plugins counters → q.name ≠ p.name →
      ∀ option, q.Turns hook option id)
    (hturns : ∀ e ∈ run.manager.plugins.filter (fun e => e.name = p.name),
      p.Turns hook e.option (turn e))
    (event : Event (hook.Data ω)) (take : hook.Data ω → Except Fault α) :
    (run.through hook (.ok event) fun event => take event.data).1 =
      take ((run.manager.plugins.filter fun e => e.name = p.name).foldl
        (fun data e => turn e data) event.data) := by
  rw [Run.through_of_turns (turns_of_worker hentries hp hothers hturns) event take,
    List.foldl_filter]
  simp only [decide_eq_true_eq]

end

namespace InjectScript

variable {sources : List String}

theorem mem_plugins (counters : Slot σ RunStats.Counters) :
    (plugin : Plugin σ ω) ∈ plugins counters := List.mem_cons_of_mem _ List.mem_cons_self

/-- No other built-in plugin works on rendered files. -/
theorem turns_id_of_ne (q : Plugin σ ω) (hq : q ∈ plugins counters)
    (hname : q.name ≠ (plugin : Plugin σ ω).name) (option : Json) : q.Turns .content option id :=
  turns_id hq Hook.noConfusion (fun _ => hname) Hook.noConfusion option

/-- Under an option that spells sources, a call puts in their tags and does nothing else. -/
theorem handle_of_spells {scene : Scene σ ω ContentData}
    (hspells : SpellsScripts scene.event.option sources) :
    (plugin : Plugin σ ω).handle .content scene =
      (.ok (),
        { scene with
          event :=
            { scene.event with
              data :=
                { scene.event.data with content := withScripts sources scene.event.data } } }) :=
  withOption_of_ok (readOption_eq_ok_iff.mpr hspells)

/-- Under such an option, the scripts are put into the file. -/
theorem turns_content (h : SpellsScripts option sources) :
    (plugin : Plugin σ ω).Turns .content option
      fun d => { d with content := withScripts sources d } := by
  refine ⟨fun scene hoption => ?_, nofun⟩
  have hcall : plugin.handle .content scene = _ := handle_of_spells (hoption ▸ h)
  rw [hcall]
  exact ⟨rfl, rfl⟩

/-- Any other option is refused, whatever the name of the file. -/
theorem refuses_content (h : ¬ ∃ sources, SpellsScripts option sources) :
    (plugin : Plugin σ ω).Refuses .content option := by
  refine ⟨rfl, fun scene hoption => ?_⟩
  cases hread : readOption identifier Options.ofJson scene.event.option with
  | ok options =>
    rw [hoption] at hread
    exact absurd ⟨options.scripts, readOption_eq_ok_iff.mp hread⟩ h
  | error f =>
    have hcall : plugin.handle .content scene = (.error f, scene) := withOption_of_error hread
    rw [hcall]
    exact ⟨f, rfl⟩

end InjectScript

end Builtin

end PluginChain
