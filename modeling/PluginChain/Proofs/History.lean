import PluginChain.Proofs.ActiveList
set_option autoImplicit false

/-!
# Histories of resolutions

Hooks resolve the entries of their list one after the other.  `Run.history` lists
the resolutions of a session, those in hooks and the direct ones, each with the
resolver and the host that it finds.  Nothing else touches the registry and the
cache: the resolutions of a session lead from its first resolver to its last
(`Run.leads_performAll`).
-/

namespace PluginChain

/-- One resolution, with what it finds. -/
structure Resolution (σ ω : Type) where
  identifier : String
  before : Resolver σ ω
  host : Host ω

namespace Resolution

variable {σ ω : Type}

/-- What the resolution gives. -/
def answer (q : Resolution σ ω) : Except Fault (Instance σ ω) :=
  (q.before.resolve q.identifier q.host).1

/-- The resolver that the resolution leaves. -/
def after (q : Resolution σ ω) : Resolver σ ω := (q.before.resolve q.identifier q.host).2.1

theorem after_eq_settled (q : Resolution σ ω) : q.after = q.before.settled q.identifier :=
  Resolver.resolve_settled q.before q.identifier q.host

theorem answer_eq_ok_iff (q : Resolution σ ω) {i : Instance σ ω} :
    q.answer = .ok i ↔ q.before.instance? q.identifier = some i :=
  Resolver.resolve_eq_ok_iff

end Resolution

namespace Resolver

variable {σ ω : Type}

/-- Whether two resolvers have the same registry and have loaded the same.  They may
differ in the private states. -/
structure SameLoaded (r r' : Resolver σ ω) : Prop where
  registry : r.registry = r'.registry
  cache : r.cache = r'.cache

theorem SameLoaded.refl (r : Resolver σ ω) : SameLoaded r r := ⟨rfl, rfl⟩

theorem SameLoaded.trans {r r' r'' : Resolver σ ω} (h : SameLoaded r r')
    (h' : SameLoaded r' r'') : SameLoaded r r'' :=
  ⟨h.registry.trans h'.registry, h.cache.trans h'.cache⟩

/-- Whether resolutions lead from one resolver to another, each in a host of its own,
with nothing in between that touches the registry or the cache. -/
inductive Leads : Resolver σ ω → List (Resolution σ ω) → Resolver σ ω → Prop
  | nil {r r' : Resolver σ ω} (same : SameLoaded r r') : Leads r [] r'
  | cons {r r' : Resolver σ ω} {q : Resolution σ ω} {rest : List (Resolution σ ω)}
      (same : SameLoaded r q.before) (tail : Leads q.after rest r') : Leads r (q :: rest) r'

theorem Leads.of_same {r r' r'' : Resolver σ ω} {history : List (Resolution σ ω)}
    (h : SameLoaded r r') (h' : Leads r' history r'') : Leads r history r'' := by
  cases h' with
  | nil same => exact .nil (h.trans same)
  | cons same tail => exact .cons (h.trans same) tail

/-- Resolutions after resolutions. -/
theorem Leads.append {r r' r'' : Resolver σ ω} {earlier later : List (Resolution σ ω)}
    (h : Leads r earlier r') (h' : Leads r' later r'') : Leads r (earlier ++ later) r'' := by
  induction h with
  | nil same => exact .of_same same h'
  | cons same _ ih => exact .cons same (ih h')

/-- The resolutions before one lead to what it finds, and those behind it lead on from
what it leaves. -/
theorem Leads.split {r r' : Resolver σ ω} {earlier later : List (Resolution σ ω)}
    {q : Resolution σ ω} (h : Leads r (earlier ++ q :: later) r') :
    Leads r earlier q.before ∧ Leads q.after later r' := by
  induction earlier generalizing r with
  | nil =>
    cases h with
    | cons same tail => exact ⟨.nil same, tail⟩
  | cons e rest ih =>
    cases h with
    | cons same tail =>
      obtain ⟨hbefore, hafter⟩ := ih tail
      exact ⟨.cons same hbefore, hafter⟩

end Resolver

open Resolver (Leads SameLoaded)

/-! ## The resolutions of a dispatch -/

namespace Stage

variable {σ ω D : Type}

/-- The resolutions of a list of entries. -/
def resolutions (hook : Hook) (handler : Plugin σ ω → Handler σ ω D) :
    List PluginEntry → Stage σ ω D → List (Resolution σ ω)
  | [], _ => []
  | entry :: rest, st =>
    ⟨entry.name, st.resolver, st.host⟩ ::
      match visit hook handler entry st with
      | (.error _, _) => []
      | (.ok _, st) => resolutions hook handler rest st

/-- An entry leaves what its resolution leaves: a call sets private states alone. -/
theorem sameLoaded_visit (hook : Hook) (handler : Plugin σ ω → Handler σ ω D)
    (entry : PluginEntry) (st : Stage σ ω D) :
    SameLoaded (st.resolver.settled entry.name) (visit hook handler entry st).2.resolver := by
  have hout := outcome_of_visit hook handler 0 entry st
  cases hc : st.call? hook handler 0 entry with
  | none =>
    rw [hc] at hout
    generalize (visit hook handler entry st).1 = answer at hout
    cases hout with
    | unresolved hi same =>
      rw [same.resolver, Resolver.settled_of_none hi]
      exact .refl _
    | passed _ _ same =>
      rw [same.resolver]
      exact .refl _
  | some c =>
    obtain ⟨-, -, -, rfl, -, -⟩ := call?_eq_some_iff.mp hc
    rw [hc] at hout
    generalize (visit hook handler c.entry st).1 = answer at hout
    cases hout with
    | called _ same =>
      rw [same.resolver]
      exact ⟨rfl, rfl⟩
    | failed _ same =>
      rw [same.resolver]
      exact ⟨rfl, rfl⟩

/-- The resolutions of a list lead to the resolver that its entries leave. -/
theorem leads_visitAll (hook : Hook) (handler : Plugin σ ω → Handler σ ω D)
    (entries : List PluginEntry) (calls : Nat) (st : Stage σ ω D) :
    Leads st.resolver (resolutions hook handler entries st)
      (visitAll hook handler entries calls st).2.resolver := by
  induction entries generalizing calls st with
  | nil => exact .nil (.refl _)
  | cons entry rest ih =>
    have hsame := sameLoaded_visit hook handler entry st
    rw [← Resolver.resolve_settled st.resolver entry.name st.host] at hsame
    rw [resolutions, visitAll]
    rcases hv : visit hook handler entry st with ⟨f | called, next⟩ <;> rw [hv] at hsame
    · exact .cons (.refl _) (.nil hsame)
    · exact .cons (.refl _) (.of_same hsame (ih _ next))

/-- The resolutions of a list lead to the resolver that its dispatch leaves. -/
theorem leads_dispatch (entries : List PluginEntry) (hook : Hook)
    (handler : Plugin σ ω → Handler σ ω D) (st : Stage σ ω D) :
    Leads st.resolver (resolutions hook handler entries st)
      (st.dispatch entries hook handler).2.resolver := by
  rw [(dispatch_alike entries hook handler st).2.resolver]
  exact leads_visitAll hook handler entries 0 st

end Stage

/-! ## The resolutions of a session -/

namespace Step

variable {σ ω : Type}

/-- The identifier that a step resolves outside of any hook. -/
def direct? : Step ω → Option String
  | resolve identifier => some identifier
  | _ => none

/-- The resolutions of a step: those of its dispatch, or its own. -/
def resolutions (s : Step ω) (run : Run σ ω) : List (Resolution σ ω) :=
  match s.opening run.manager with
  | some ⟨hook, .ok event⟩ =>
    (run.stage event).resolutions hook (fun p => p.handle hook)
      (s.list?.getD run.manager.plugins)
  | some ⟨_, .error _⟩ => []
  | none => s.direct?.toList.map fun identifier => ⟨identifier, run.manager.resolver, run.host⟩

/-- A direct resolution leaves the resolver that it leads to. -/
theorem resolver_perform_resolve (identifier : String) (run : Run σ ω) :
    ((resolve identifier).perform run).2.manager.resolver =
      (run.manager.resolver.resolve identifier run.host).2.1 := by
  simp only [perform, Operation.discard, Operation.andThen, Run.resolve]
  rcases run.manager.resolver.resolve identifier run.host with ⟨_ | _, _, _⟩ <;> rfl

/-- The resolutions of a step lead to the resolver that it leaves. -/
theorem leads_perform (s : Step ω) (run : Run σ ω) :
    Leads run.manager.resolver (s.resolutions run) (s.perform run).2.manager.resolver := by
  cases hopening : s.opening run.manager with
  | some opening =>
    obtain ⟨hook, event⟩ := opening
    cases event with
    | error f =>
      rw [resolutions, hopening, perform_of_refused hopening]
      exact .nil (.refl _)
    | ok event =>
      obtain ⟨hresolver, -, -⟩ := leaves_of_opening hopening
      rw [resolutions, hopening, hresolver]
      exact (run.stage event).leads_dispatch _ hook _
  | none =>
    rw [resolutions, hopening]
    cases s with
    | resolve identifier =>
      rw [resolver_perform_resolve]
      exact .cons (.refl _) (.nil (.refl _))
    | outside host => exact .nil (.refl _)
    | _ => cases hopening

end Step

namespace Run

variable {σ ω : Type}

/-- The resolutions of a session, in order. -/
def history : List (Step ω) → Run σ ω → List (Resolution σ ω)
  | [], _ => []
  | s :: rest, run => s.resolutions run ++ history rest (s.perform run).2

/-- The resolutions of a session lead to the resolver that it leaves. -/
theorem leads_performAll (steps : List (Step ω)) (run : Run σ ω) :
    Leads run.manager.resolver (run.history steps) (run.performAll steps).manager.resolver := by
  induction steps generalizing run with
  | nil => exact .nil (.refl _)
  | cons s rest ih => exact (s.leads_perform run).append (ih (s.perform run).2)

end Run

end PluginChain
