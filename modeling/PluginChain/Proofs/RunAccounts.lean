import Mathlib.Algebra.Ring.Nat
import Mathlib.Data.List.DropRight
import PluginChain.Proofs.CallCounts
import PluginChain.Proofs.Provision
import PluginChain.Proofs.SessionCalls
set_option autoImplicit false

/-!
# What `run-stats` reports

The counters of an instance of `run-stats` are a tally of the source texts with which it
has been called since it was last called for a start (`RunStats.textsSince`).  The step
lemma is that for one call (`RunStats.tally_snoc`); a dispatch, a step and a session follow
from it by induction over their calls, as no call but those of the instance touches its
private state.

How often an instance is called in one hook is a question of the list: once for each entry
that stands for it, up to the first entry that fails (`Stage.countP_calls`).
-/

namespace PluginChain

variable {σ ω : Type}

namespace Builtin.RunStats

variable {slot : Slot σ Counters} {i : Instance σ ω}

/-! ## Tallies -/

/-- The counters after some source texts. -/
def tally (texts : List String) : Counters := texts.foldl Counters.count {}

theorem tally_snoc_text (texts : List String) (text : String) :
    tally (texts ++ [text]) = (tally texts).count text :=
  List.foldl_append

/-- The number of the texts, as far as a word holds it. -/
theorem toNat_files_tally (texts : List String) :
    (tally texts).files.toNat = texts.length % UInt64.size := by
  induction texts using List.reverseRecOn with
  | nil => rfl
  | append_singleton texts text ih =>
    rw [tally_snoc_text, Counters.toNat_files_count, ih, Nat.mod_add_mod, List.length_append,
      List.length_singleton]

/-- The length of the texts in bytes, as far as a word holds it. -/
theorem toNat_bytes_tally (texts : List String) :
    (tally texts).bytes.toNat = (texts.map String.utf8ByteSize).sum % UInt64.size := by
  induction texts using List.reverseRecOn with
  | nil => rfl
  | append_singleton texts text ih =>
    rw [tally_snoc_text, Counters.toNat_bytes_count, ih, Nat.mod_add_mod, List.map_append,
      List.sum_append, List.map_singleton, List.sum_singleton]

/-- The record about some source texts. -/
def summary (texts : List String) : LogRecord :=
  .info .runStats "Run complete"
    [("files", .int (texts.length % UInt64.size : Nat)),
      ("bytes", .int ((texts.map String.utf8ByteSize).sum % UInt64.size : Nat))]

theorem completeRecord_tally (texts : List String) :
    completeRecord (tally texts) = summary texts := by
  rw [completeRecord, toNat_files_tally, toNat_bytes_tally, summary]

/-! ## The source texts of a session -/

/-- The source text that a call was given. -/
def text? : HookCall σ ω → Option String
  | ⟨.code, c⟩ => some (CodeData.code c.before.event.data)
  | _ => none

/-- Whether a call is made for a start. -/
def atStart (c : HookCall σ ω) : Bool := c.1 = .start

/-- Whether a call is one of an instance. -/
def isOf (i : Instance σ ω) (c : HookCall σ ω) : Bool := c.2.target.id = i.id

/-- The source texts with which an instance has been called since it was last called for a
start. -/
def textsSince (i : Instance σ ω) (calls : List (HookCall σ ω)) : List String :=
  ((calls.filter (isOf i)).rtakeWhile fun c => !atStart c).filterMap text?

variable {calls new : List (HookCall σ ω)} {c : HookCall σ ω}

/-- Calls of other instances do not matter. -/
theorem textsSince_append_of_others (h : ∀ c ∈ new, isOf i c = false) :
    textsSince i (calls ++ new) = textsSince i calls := by
  have hnone : new.filter (isOf i) = [] :=
    List.filter_eq_nil_iff.mpr fun c hc => Bool.eq_false_iff.mp (h c hc)
  rw [textsSince, List.filter_append, hnone, List.append_nil, textsSince]

theorem textsSince_snoc_of_other (h : isOf i c = false) :
    textsSince i (calls ++ [c]) = textsSince i calls :=
  textsSince_append_of_others (by simpa using h)

theorem filter_isOf_snoc (hof : isOf i c = true) :
    (calls ++ [c]).filter (isOf i) = calls.filter (isOf i) ++ [c] := by
  rw [List.filter_append, List.filter_singleton, hof, cond_true]

/-- A start leaves nothing. -/
theorem textsSince_snoc_of_start (hof : isOf i c = true) (h : atStart c = true) :
    textsSince i (calls ++ [c]) = [] := by
  rw [textsSince, filter_isOf_snoc hof, List.rtakeWhile_concat_neg]
  · rfl
  · simp [h]

/-- Any other call adds the source text that it was given, if any. -/
theorem textsSince_snoc_of_behind (hof : isOf i c = true) (h : atStart c = false) :
    textsSince i (calls ++ [c]) = textsSince i calls ++ (text? c).toList := by
  rw [textsSince, filter_isOf_snoc hof, List.rtakeWhile_concat_pos, List.filterMap_append]
  · cases htext : text? c <;> simp [textsSince, htext]
  · simp [h]

/-! ## Single calls -/

/-- The counters after a call. -/
def Counters.after : HookCall σ ω → Counters → Counters
  | ⟨.start, _⟩, _ => {}
  | ⟨.code, c⟩, counters => counters.count (CodeData.code c.before.event.data)
  | _, counters => counters

/-- A call takes the tally of the source texts before it to that after it. -/
theorem tally_snoc (calls : List (HookCall σ ω)) (hof : isOf i c = true) :
    tally (textsSince i (calls ++ [c])) = Counters.after c (tally (textsSince i calls)) := by
  obtain ⟨hook, c⟩ := c
  cases hook with
  | start => rw [textsSince_snoc_of_start hof rfl]; rfl
  | code =>
    rw [textsSince_snoc_of_behind hof rfl]
    exact tally_snoc_text _ _
  | _ =>
    rw [textsSince_snoc_of_behind hof rfl]
    exact congrArg tally (List.append_nil _)

/-- A call of the plugin never fails, sets the counters, and writes into the log at the end
of a run alone. -/
theorem of_call {hook : Hook} {c : Call σ ω (hook.Data ω)}
    (hc : (c.result, c.after) = (plugin.within slot : Plugin σ ω).handle hook c.before) :
    c.result = .ok () ∧
      slot.get c.after.state = Counters.after ⟨hook, c⟩ (slot.get c.before.state) ∧
      c.after.host.log =
        c.before.host.log ++ if hook = .complete then [completeRecord (slot.get c.before.state)]
          else [] := by
  obtain ⟨hresult, hafter⟩ := Prod.mk.inj hc
  rw [hresult, hafter]
  cases hook with
  | complete => exact ⟨rfl, slot.get_set _ _, rfl⟩
  | _ => exact ⟨rfl, slot.get_set _ _, (List.append_nil _).symm⟩

/-! ## The calls of a session -/

/-- An instance of `run-stats` that shares its identity with no other. -/
structure Stands (slot : Slot σ Counters) (i : Instance σ ω) (r : Resolver σ ω) : Prop where
  plugin_eq : i.plugin = plugin.within slot
  alone : r.Alone i

/-- No history of resolutions gives it a double. -/
theorem Stands.of_leads {r r' : Resolver σ ω} {history : List (Resolution σ ω)}
    (h : Stands slot i r) (hleads : Resolver.Leads r history r') : Stands slot i r' := by
  refine ⟨h.plugin_eq, fun identifier j hj => ?_⟩
  rw [hleads.instance?_eq] at hj
  exact h.alone identifier j hj

section

variable {hook : Hook} {entries : List PluginEntry} {st : Stage σ ω (hook.Data ω)}
  {earlier later : List (Call σ ω (hook.Data ω))} {c : Call σ ω (hook.Data ω)}

/-- A call on its identity is a call of its handler. -/
theorem Stands.of_mem (h : Stands slot i st.resolver)
    (hc : c ∈ st.calls entries hook fun p => p.handle hook) (hid : c.target.id = i.id) :
    c.target = i ∧ c.result = .ok () ∧
      slot.get c.after.state = Counters.after ⟨hook, c⟩ (slot.get c.before.state) ∧
      c.after.host.log =
        c.before.host.log ++ if hook = .complete then [completeRecord (slot.get c.before.state)]
          else [] := by
  obtain ⟨-, -, -, htarget, hcall⟩ := Stage.call_of_mem hc
  have heq := h.alone _ _ htarget hid
  rw [heq, h.plugin_eq] at hcall
  exact ⟨heq, of_call hcall⟩

/-- The private state of an instance after one more call. -/
theorem stateAfter_snoc (r : Resolver σ ω) (i : Instance σ ω)
    (earlier : List (Call σ ω (hook.Data ω))) (c : Call σ ω (hook.Data ω)) :
    Call.stateAfter r i (earlier ++ [c]) =
      if c.target.id = i.id then c.after.state else Call.stateAfter r i earlier := by
  unfold Call.stateAfter
  by_cases hid : c.target.id = i.id <;> simp [hid]

/-- In a dispatch the counters stay a tally.  The induction is on the calls made so far, the
last of which found the private state as those before it left it. -/
theorem Stands.tally_calls (h : Stands slot i st.resolver) {calls : List (HookCall σ ω)}
    (hstate : slot.get (st.resolver.stateOf i) = tally (textsSince i calls))
    (hmade : (st.calls entries hook fun p => p.handle hook) = earlier ++ later) :
    slot.get (Call.stateAfter st.resolver i earlier) =
      tally (textsSince i (calls ++ earlier.map (Sigma.mk hook))) := by
  induction earlier using List.reverseRecOn generalizing later with
  | nil => rwa [List.map_nil, List.append_nil]
  | append_singleton earlier c ih =>
    rw [List.append_assoc, List.singleton_append] at hmade
    have hmem : c ∈ st.calls entries hook fun p => p.handle hook := by simp [hmade]
    rw [stateAfter_snoc, List.map_append, List.map_singleton, ← List.append_assoc]
    by_cases hid : c.target.id = i.id
    · obtain ⟨heq, -, hcounters, -⟩ := h.of_mem hmem hid
      have hbefore : c.before.state = Call.stateAfter st.resolver i earlier := by
        rw [Stage.before_of_callsFrom hmade, heq]
      rw [if_pos hid, hcounters, hbefore, ih hmade, tally_snoc _ (by simpa [isOf] using hid)]
    · rw [if_neg hid, ih hmade, textsSince_snoc_of_other (by simpa [isOf] using hid)]

end

/-- A step keeps the counters a tally. -/
theorem Stands.tally_perform {run : Run σ ω} (h : Stands slot i run.manager.resolver)
    {calls : List (HookCall σ ω)}
    (hstate : slot.get (run.manager.resolver.stateOf i) = tally (textsSince i calls))
    (s : Step ω) :
    slot.get ((s.perform run).2.manager.resolver.stateOf i) =
      tally (textsSince i (calls ++ s.calls run)) := by
  cases hopening : s.opening run.manager with
  | some opening =>
    obtain ⟨hook, f | event⟩ := opening
    · rw [Step.perform_of_refused hopening, Step.calls_of_refused hopening, List.append_nil]
      exact hstate
    · obtain ⟨hresolver, -, -⟩ := Step.leaves_of_opening hopening
      have hleft := Stage.leaves_of_dispatch (s.list?.getD run.manager.plugins) hook
        (fun p => p.handle hook) (run.stage event)
      rw [hresolver, Step.calls_of_opening hopening, Step.pass, Run.pass, hleft.2.2 i]
      have hstage : Stands slot i (run.stage event).resolver := h
      exact hstage.tally_calls hstate (List.append_nil _).symm
  | none =>
    have hcalls : s.calls run = [] := by rw [Step.calls, hopening]
    rw [hcalls, List.append_nil]
    cases s with
    | resolve identifier =>
      rw [Step.resolver_perform_resolve, Resolver.resolve_settled, Resolver.stateOf_settled]
      exact hstate
    | outside host => exact hstate
    | _ => cases hopening

/-- A session keeps the counters a tally. -/
theorem Stands.tally_performAll {run : Run σ ω} (h : Stands slot i run.manager.resolver)
    {calls : List (HookCall σ ω)}
    (hstate : slot.get (run.manager.resolver.stateOf i) = tally (textsSince i calls))
    (steps : List (Step ω)) :
    slot.get ((run.performAll steps).manager.resolver.stateOf i) =
      tally (textsSince i (calls ++ run.sessionCalls steps)) := by
  induction steps generalizing run calls with
  | nil => rwa [Run.sessionCalls, List.append_nil]
  | cons s rest ih =>
    rw [Run.performAll_cons, Run.sessionCalls, ← List.append_assoc]
    exact ih (h.of_leads (s.leads_perform run)) (h.tally_perform hstate s)

/-! ## Single hooks -/

section

variable {run : Run σ ω} {calls : List (HookCall σ ω)} {hook : Hook} {event : Event (hook.Data ω)}

/-- The texts that the calls of the hook for source text add. -/
theorem textsSince_append_code (calls : List (HookCall σ ω))
    (made : List (Call σ ω (Hook.code.Data ω))) :
    textsSince i (calls ++ made.map (Sigma.mk .code)) =
      textsSince i calls ++
        (made.filter fun c => c.target.id = i.id).map fun c =>
          CodeData.code c.before.event.data := by
  induction made using List.reverseRecOn with
  | nil => simp
  | append_singleton made c ih =>
    rw [List.map_append, List.map_singleton, ← List.append_assoc]
    by_cases hid : c.target.id = i.id
    · rw [textsSince_snoc_of_behind (by simpa [isOf] using hid) rfl, ih]
      simp [hid, text?]
    · rw [textsSince_snoc_of_other (by simpa [isOf] using hid), ih]
      simp [hid]

/-- The calls of the hook at the start leave no texts, if one of them is of the instance. -/
theorem textsSince_append_start (calls : List (HookCall σ ω))
    {made : List (Call σ ω (Hook.start.Data ω))} (h : ∃ c ∈ made, c.target.id = i.id) :
    textsSince i (calls ++ made.map (Sigma.mk .start)) = [] := by
  induction made using List.reverseRecOn with
  | nil =>
    obtain ⟨c, hc, -⟩ := h
    cases hc
  | append_singleton made c ih =>
    rw [List.map_append, List.map_singleton, ← List.append_assoc]
    by_cases hid : c.target.id = i.id
    · exact textsSince_snoc_of_start (by simpa [isOf] using hid) rfl
    · rw [textsSince_snoc_of_other (by simpa [isOf] using hid)]
      apply ih
      obtain ⟨d, hd, hdid⟩ := h
      rcases List.mem_append.mp hd with hd | hd
      · exact ⟨d, hd, hdid⟩
      · rw [List.mem_singleton.mp hd] at hdid
        exact absurd hdid hid

/-- The calls of any other hook leave the texts. -/
theorem textsSince_append_other (hstart : hook ≠ .start) (hcode : hook ≠ .code)
    (calls : List (HookCall σ ω)) (made : List (Call σ ω (hook.Data ω))) :
    textsSince i (calls ++ made.map (Sigma.mk hook)) = textsSince i calls := by
  induction made using List.reverseRecOn with
  | nil => simp
  | append_singleton made c ih =>
    rw [List.map_append, List.map_singleton, ← List.append_assoc]
    cases hof : isOf i ⟨hook, c⟩ with
    | false => rw [textsSince_snoc_of_other hof, ih]
    | true =>
      have htext : text? (⟨hook, c⟩ : HookCall σ ω) = none := by
        cases hook <;> first | rfl | exact absurd rfl hcode
      rw [textsSince_snoc_of_behind hof (by simpa [atStart] using hstart), ih, htext]
      exact List.append_nil _

/-- An entry that stands for the instance does not fail. -/
theorem Stands.standsFor_of_fails (h : Stands slot i run.manager.resolver) {n : Nat}
    (hfails : (run.stage event).Fails run.manager.plugins hook (fun p => p.handle hook) n)
    {e : PluginEntry} (he : run.manager.plugins[n]? = some e) :
    run.manager.resolver.standsFor i e = false := by
  obtain ⟨entry, hentry, hfails⟩ := hfails
  obtain rfl := Option.some.inj (hentry.symm.trans he)
  rcases hfails with hunresolved | ⟨c, hc, hposition, f, hresult⟩
  · have hnone : run.manager.resolver.instance? entry.name = none :=
      Resolver.resolve_eq_error_iff.mp hunresolved
    rw [Resolver.standsFor, hnone]
    rfl
  · obtain ⟨k, hk, hplace, htarget, -⟩ := Stage.call_of_mem hc
    have hsame : c.entry = entry := by
      obtain rfl : n = k := by omega
      exact Option.some.inj (hplace.symm.trans hentry)
    have hinstance : run.manager.resolver.instance? entry.name = some c.target := hsame ▸ htarget
    rw [Resolver.standsFor, hinstance, Option.any_some, decide_eq_false_iff_not]
    intro hid
    have hstage : Stands slot i (run.stage event).resolver := h
    obtain ⟨-, hok, -⟩ := hstage.of_mem hc hid
    rw [hok] at hresult
    cases hresult

/-- The instance is called for the entries before the first that fails. -/
theorem Stands.countP_hookCalls (h : Stands slot i run.manager.resolver)
    (hhandles : (plugin (ω := ω)).handles hook = true) {n : Nat}
    (hfirst : ∀ l < n,
      ¬ (run.stage event).Fails run.manager.plugins hook (fun p => p.handle hook) l)
    (hend : run.manager.plugins.length ≤ n ∨
      (run.stage event).Fails run.manager.plugins hook (fun p => p.handle hook) n) :
    (run.hookCalls hook event).countP (fun c => c.target.id = i.id) =
      (run.manager.plugins.take n).countP (run.manager.resolver.standsFor i) := by
  have hhandles : i.plugin.handles hook = true := by
    rw [h.plugin_eq]
    exact hhandles
  have halone : (run.stage event).resolver.Alone i := h.alone
  refine Stage.countP_callsFrom hhandles halone
    (fun l hl => Stage.fails_iff_failsFrom.not.mp (hfirst l hl)) (hend.imp_right fun hfails => ?_)
  exact ⟨Stage.fails_iff_failsFrom.mp hfails, fun e he => h.standsFor_of_fails hfails he⟩

/-- Where no entry fails, it is called for each entry that stands for it. -/
theorem Stands.countP_of_unfailing (h : Stands slot i run.manager.resolver)
    (hhandles : (plugin (ω := ω)).handles hook = true)
    (hnone : ∀ k, ¬ (run.stage event).Fails run.manager.plugins hook (fun p => p.handle hook) k) :
    (run.hookCalls hook event).countP (fun c => c.target.id = i.id) =
      run.manager.plugins.countP (run.manager.resolver.standsFor i) := by
  have hcount := h.countP_hookCalls hhandles (fun l _ => hnone l) (.inl (Nat.le_refl _))
  rwa [List.take_length] at hcount

/-- A step that succeeds goes over a list of which no entry fails. -/
theorem not_fails_of_ok {s : Step ω} (hlist : s.list? = none)
    (hopening : s.opening run.manager = some ⟨hook, .ok event⟩)
    (hok : (s.perform run).1 = .ok ()) (k : Nat) :
    ¬ (run.stage event).Fails run.manager.plugins hook (fun p => p.handle hook) k := by
  obtain ⟨-, -, hfails⟩ := Step.leaves_of_opening hopening
  rw [Step.pass, hlist, Option.getD_none] at hfails
  cases hpass : (run.pass hook run.manager.plugins event).1 with
  | error f =>
    rw [hfails f hpass] at hok
    cases hok
  | ok n => exact ((Stage.dispatch_eq_ok_iff _ _ _ _ n).mp hpass).1 k

/-! ## A fixed list -/

/-- How often a session has taken the hook for source text since it last took that for a
start. -/
def filesSince (steps : List (Step ω)) : Nat :=
  (steps.rtakeWhile fun s => s.hook? ≠ some .start).countP fun s => s.hook? = some .code

variable {steps : List (Step ω)} {s : Step ω}

theorem filesSince_snoc_of_start (h : s.hook? = some .start) : filesSince (steps ++ [s]) = 0 := by
  rw [filesSince, List.rtakeWhile_concat_neg]
  · rfl
  · simp [h]

theorem filesSince_snoc_of_behind (h : s.hook? ≠ some .start) :
    filesSince (steps ++ [s]) = filesSince steps + if s.hook? = some .code then 1 else 0 := by
  rw [filesSince, List.rtakeWhile_concat_pos, List.countP_append, List.countP_singleton]
  · simp [filesSince]
  · simp [h]

/-- The calls of a step that takes a hook over the active list. -/
theorem calls_eq_hookCalls (hlist : s.list? = none)
    (hopening : s.opening run.manager = some ⟨hook, .ok event⟩) :
    s.calls run = (run.hookCalls hook event).map (Sigma.mk hook) := by
  rw [Step.calls_of_opening hopening, hlist]
  rfl

/-- A step that takes neither the hook at the start nor that for source text leaves the
texts. -/
theorem textsSince_append_calls (hstart : s.hook? ≠ some .start) (hcode : s.hook? ≠ some .code)
    (calls : List (HookCall σ ω)) (run : Run σ ω) :
    textsSince i (calls ++ s.calls run) = textsSince i calls := by
  rw [s.hook?_eq_opening run.manager] at hstart hcode
  cases hopening : s.opening run.manager with
  | none =>
    rw [Step.calls, hopening]
    simp
  | some opening =>
    obtain ⟨hook, f | event⟩ := opening
    · rw [Step.calls_of_refused hopening, List.append_nil]
    · rw [hopening] at hstart hcode
      rw [Step.calls_of_opening hopening]
      exact textsSince_append_other (fun h => hstart (congrArg some h))
        (fun h => hcode (congrArg some h)) calls _

/-- Over a fixed list, and where no entry fails at the start or for source text, there are
as many texts as files for each entry that stands for the instance. -/
theorem Stands.length_textsSince (h : Stands slot i run.manager.resolver)
    (hlist : ∀ s ∈ steps, s.list? = none)
    (hok : ∀ before s after, steps = before ++ s :: after →
      s.hook? = some .start ∨ s.hook? = some .code →
        (s.perform (run.performAll before)).1 = .ok ()) :
    (textsSince i (run.sessionCalls steps)).length =
      run.manager.plugins.countP (run.manager.resolver.standsFor i) * filesSince steps := by
  induction steps using List.reverseRecOn with
  | nil => rfl
  | append_singleton steps s ih =>
    have hbefore : ∀ t ∈ steps, t.list? = none :=
      fun t ht => hlist t (List.mem_append_left _ ht)
    have hs : s.list? = none := hlist s (List.mem_append_right _ (List.mem_singleton_self s))
    have hlength := ih hbefore fun before t after ht =>
      hok before t (after ++ [s]) (by rw [ht, List.append_assoc, List.cons_append])
    have hoks := hok steps s [] rfl
    have hleads := run.leads_performAll steps
    have hstands := h.of_leads hleads
    have hnow : (run.performAll steps).manager.plugins.countP
        ((run.performAll steps).manager.resolver.standsFor i) =
          run.manager.plugins.countP (run.manager.resolver.standsFor i) := by
      rw [Run.plugins_performAll hbefore]
      congr 1
      funext e
      rw [Resolver.standsFor, Resolver.standsFor, hleads.instance?_eq]
    rw [Run.sessionCalls_snoc]
    cases s with
    | start =>
      have hopening : (Step.start : Step ω).opening (run.performAll steps).manager =
          some ⟨.start, .ok (.assigned ())⟩ := rfl
      have hcount := hstands.countP_of_unfailing rfl
        (not_fails_of_ok rfl hopening (hoks (.inl rfl)))
      rw [calls_eq_hookCalls rfl hopening, filesSince_snoc_of_start rfl, Nat.mul_zero,
        List.length_eq_zero_iff]
      by_cases hcalled : ∃ c ∈ (run.performAll steps).hookCalls .start (.assigned ()),
          c.target.id = i.id
      · exact textsSince_append_start _ hcalled
      · -- The instance does not stand in the list, so there were no texts before either.
        have hothers : ∀ c ∈ (run.performAll steps).hookCalls .start (.assigned ()),
            ¬ c.target.id = i.id := fun c hc hid => hcalled ⟨c, hc, hid⟩
        have hzero : ((run.performAll steps).hookCalls .start (.assigned ())).countP
            (fun c => c.target.id = i.id) = 0 :=
          List.countP_eq_zero.mpr fun c hc => by simpa using hothers c hc
        rw [← hnow, ← hcount, hzero, Nat.zero_mul, List.length_eq_zero_iff] at hlength
        rw [textsSince_append_of_others, hlength]
        intro c hc
        obtain ⟨d, hd, rfl⟩ := List.mem_map.mp hc
        simpa [isOf] using hothers d hd
    | code text path =>
      have hopening : (Step.code text path : Step ω).opening (run.performAll steps).manager =
          some ⟨.code, .ok (.assigned { code := text, filePath := path })⟩ := rfl
      have hcount := hstands.countP_of_unfailing rfl
        (not_fails_of_ok rfl hopening (hoks (.inr rfl)))
      rw [calls_eq_hookCalls rfl hopening, textsSince_append_code, List.length_append,
        List.length_map, ← List.countP_eq_length_filter, hcount, hnow, hlength,
        filesSince_snoc_of_behind (by simp [Step.hook?])]
      rfl
    | _ =>
      rw [textsSince_append_calls (by simp [Step.hook?]) (by simp [Step.hook?]), hlength,
        filesSince_snoc_of_behind (by simp [Step.hook?])]
      simp [Step.hook?]

/-! ## Whole sessions -/

/-- A call of the instance never fails, and writes into the log at the end of a run alone:
the record about the texts of the calls before it. -/
theorem Stands.of_sessionCalls (h : Stands slot i run.manager.resolver)
    (hnew : slot.get (run.manager.resolver.stateOf i) = {})
    {earlier later : List (HookCall σ ω)} {c : HookCall σ ω}
    (hcalls : run.sessionCalls steps = earlier ++ c :: later) (hof : c.2.target.id = i.id) :
    c.2.result = .ok () ∧
      c.2.after.host.log = if c.1 = .complete then [summary (textsSince i earlier)] else [] := by
  obtain ⟨before, s, after, inner, rest, -, rfl, hstep⟩ := Run.sessionCalls_split hcalls
  have hnow := h.of_leads (run.leads_performAll before)
  have htally : slot.get ((run.performAll before).manager.resolver.stateOf i) =
      tally (textsSince i (run.sessionCalls before)) := by
    have hfrom : slot.get (run.manager.resolver.stateOf i) = tally (textsSince i []) := hnew
    rw [h.tally_performAll hfrom before, List.nil_append]
  cases hopening : s.opening (run.performAll before).manager with
  | none =>
    rw [Step.calls, hopening] at hstep
    exact absurd hstep.symm (by simp)
  | some opening =>
    obtain ⟨hook, f | event⟩ := opening
    · rw [Step.calls_of_refused hopening] at hstep
      exact absurd hstep.symm (by simp)
    · rw [Step.calls_of_opening hopening, List.map_eq_append_iff] at hstep
      obtain ⟨made, others, hmade, rfl, hothers⟩ := hstep
      obtain ⟨d, others, rfl, rfl, -⟩ := List.map_eq_cons_iff.mp hothers
      have hbefore := Stage.before_of_callsFrom hmade
      have hstage : Stands slot i ((run.performAll before).stage event).resolver := hnow
      have hd : d ∈ Stage.calls _ hook _ ((run.performAll before).stage event) :=
        hmade ▸ List.mem_append_right made List.mem_cons_self
      obtain ⟨heq, hresult, -, hlog⟩ := hstage.of_mem hd hof
      have hcounters := hstage.tally_calls htally hmade
      rw [hbefore, heq, hcounters, Call.log_hostAfter, List.nil_append,
        completeRecord_tally] at hlog
      exact ⟨hresult, hlog⟩

/-- The texts with which the hook for source text calls the instance are added, and each is
what the calls before it in the hook have left. -/
theorem texts_of_code (run : Run σ ω) (steps : List (Step ω)) (text path : String) :
    let now := run.performAll steps
    let event : Event (Hook.code.Data ω) := .assigned (CodeData.mk text path)
    let made := now.hookCalls .code event
    textsSince i (run.sessionCalls (steps ++ [.code text path])) =
      textsSince i (run.sessionCalls steps) ++
        (made.filter fun c => c.target.id = i.id).map (fun c =>
          CodeData.code c.before.event.data) ∧
    ∀ (earlier : List (Call σ ω (Hook.code.Data ω))) (c : Call σ ω (Hook.code.Data ω))
      (later : List (Call σ ω (Hook.code.Data ω))), made = earlier ++ c :: later →
      now.manager.plugins[c.position]? = some c.entry ∧
        c.before.event.data = (Call.eventAfter event earlier).data := by
  intro now event made
  constructor
  · have hopening : (Step.code text path : Step ω).opening now.manager =
        some ⟨.code, .ok event⟩ := rfl
    rw [Run.sessionCalls_snoc, calls_eq_hookCalls rfl hopening]
    exact textsSince_append_code _ _
  · intro earlier c later hmade
    have hmem : c ∈ made := hmade ▸ List.mem_append_right earlier List.mem_cons_self
    refine ⟨Stage.getElem?_position hmem, ?_⟩
    rw [Stage.before_of_callsFrom hmade]
    rfl

/-- Take a run with an instance of `run-stats` that shares its identity with no other and
has not counted anything, and any session, over any lists and with any other plugins.

* A call of the instance never fails.  At the end of a run it writes one record: how many
  source texts it has been called with since it was last called for a start, and their
  length in bytes, both as far as a word of 64 bits holds them.  At no other hook does it
  write any.  So the records of its part of the program in the log are these and what other
  plugins write there.
* The hook for source text adds the texts with which it calls the instance, each as the
  calls before it in the hook have left it.  It calls the instance once for each entry that
  stands for it, or where an entry fails, for those before the first that does: a text that
  a later plugin refuses is counted, one that an earlier plugin refuses is not.
* The hook at the start leaves no texts, if it comes to the instance.
* Over a fixed list, and where no entry fails, there are as many texts as the list has
  entries for the instance, times the hooks for source text since the last start. -/
theorem run_accounts {run : Run σ ω} (h : Stands slot i run.manager.resolver)
    (hnew : slot.get (run.manager.resolver.stateOf i) = {}) (steps : List (Step ω)) :
    let now := run.performAll steps
    let calls := run.sessionCalls steps
    let standing := run.manager.resolver.standsFor i
    ((∀ (earlier : List (HookCall σ ω)) (c : HookCall σ ω) (later : List (HookCall σ ω)),
        calls = earlier ++ c :: later → c.2.target.id = i.id →
        c.2.result = .ok () ∧
          c.2.after.host.log =
            if c.1 = .complete then [summary (textsSince i earlier)] else []) ∧
      (∀ texts, texts.length < UInt64.size → summary texts =
        .info .runStats "Run complete"
          [("files", .int texts.length),
            ("bytes", .int ((texts.map String.utf8ByteSize).sum % UInt64.size : Nat))]) ∧
      ((∀ s ∈ steps, ¬ s.IsOutside) →
        now.host.recordsOf .runStats =
          run.host.recordsOf .runStats ++ Step.writtenBy .runStats calls)) ∧
    (∀ text path,
      let event : Event (Hook.code.Data ω) := .assigned (CodeData.mk text path)
      let made := now.hookCalls .code event
      let fails := (now.stage event).Fails now.manager.plugins .code fun p => p.handle .code
      (textsSince i (run.sessionCalls (steps ++ [.code text path])) =
          textsSince i calls ++
            (made.filter fun c => c.target.id = i.id).map (fun c =>
              CodeData.code c.before.event.data) ∧
        ∀ (earlier : List (Call σ ω (Hook.code.Data ω))) (c : Call σ ω (Hook.code.Data ω))
          (later : List (Call σ ω (Hook.code.Data ω))), made = earlier ++ c :: later →
          now.manager.plugins[c.position]? = some c.entry ∧
            c.before.event.data = (Call.eventAfter event earlier).data) ∧
      ((∀ k, ¬ fails k) →
        made.countP (fun c => c.target.id = i.id) = now.manager.plugins.countP standing) ∧
      ∀ k, fails k → (∀ l < k, ¬ fails l) →
        made.countP (fun c => c.target.id = i.id) =
          (now.manager.plugins.take k).countP standing) ∧
    ((∃ c ∈ now.hookCalls .start (.assigned ()), c.target.id = i.id) →
      textsSince i (run.sessionCalls (steps ++ [.start])) = []) ∧
    ((∀ s ∈ steps, s.list? = none) →
      (∀ (before : List (Step ω)) (s : Step ω) (after : List (Step ω)),
          steps = before ++ s :: after →
        s.hook? = some .start ∨ s.hook? = some .code →
          (s.perform (run.performAll before)).1 = .ok ()) →
      (textsSince i calls).length =
        run.manager.plugins.countP standing * filesSince steps) := by
  intro now calls standing
  have hleads := run.leads_performAll steps
  have hnow : Stands slot i now.manager.resolver := h.of_leads hleads
  have hstanding : now.manager.resolver.standsFor i = standing := by
    funext e
    rw [Resolver.standsFor, hleads.instance?_eq]
    rfl
  refine ⟨⟨fun earlier c later => h.of_sessionCalls hnew, fun texts hlength => ?_,
    fun houtside => Run.records_performAll (by decide) houtside run⟩, fun text path => ?_,
    fun hstart => ?_, h.length_textsSince⟩
  · rw [summary, Nat.mod_eq_of_lt hlength]
  · refine ⟨texts_of_code run steps text path, fun hnone => ?_, fun k hk hfirst => ?_⟩
    · rw [← hstanding]
      exact hnow.countP_of_unfailing rfl hnone
    · rw [← hstanding]
      exact hnow.countP_hookCalls rfl hfirst (.inr hk)
  · have hopening : (Step.start : Step ω).opening now.manager =
        some ⟨.start, .ok (.assigned ())⟩ := rfl
    rw [Run.sessionCalls_snoc, calls_eq_hookCalls rfl hopening]
    exact textsSince_append_start _ hstart

end

/-- A plugin that adds a letter to source texts. -/
def adding : Plugin Counters Unit where
  name := "add"
  hooks := [.code]
  handle
    | .code => fun scene =>
      let data : CodeData := { scene.event.data with code := scene.event.data.code ++ "é" }
      (.ok (), { scene with event := { scene.event with data } })
    | _ => Handler.skip

/-- A plugin that refuses one source text. -/
def refusing : Plugin Counters Unit where
  name := "refuse"
  hooks := [.code]
  handle
    | .code => fun scene =>
      if scene.event.data.code = "xé" then (.error (.new .handler "refused"), scene)
      else (.ok (), scene)
    | _ => Handler.skip

/-- The instance of `run-stats` in the run below. -/
def counting : Instance Counters Unit := ⟨.built "run-stats" 1, plugin.within (.whole _), {}⟩

/-- A run with two entries for `run-stats` around one that adds a letter, and a last one that
refuses a text. -/
def counted : Run Counters Unit where
  manager :=
    { plugins := [⟨"run-stats", .null⟩, ⟨"add", .null⟩, ⟨"run-stats", .null⟩, ⟨"refuse", .null⟩]
      resolver :=
        { registry :=
            { entries :=
                [("add", .factory 0 fun _ => (adding, {})),
                  ("refuse", .factory 0 fun _ => (refusing, {})),
                  ("run-stats", .factory 0 fun _ => (plugin.within (.whole _), {}))] } } }
  host := { memory := () }

theorem stands_counted : Stands (.whole _) counting counted.manager.resolver := by
  have hstands : counted.manager.resolver.instance? "run-stats" = some counting := rfl
  refine ⟨rfl, Resolver.alone_of_factories rfl (fun identifier i hshared => ?_) hstands⟩
  simp only [counted, Keyed.get?] at hshared
  split_ifs at hshared <;> cases hshared

/-- Two source texts, the second of which is refused by the last entry. -/
def worked : List (Step Unit) := [.code "ab" "a.rs", .code "x" "b.rs"]

/-- Without a first start, both texts are counted, before and after the letter is added. -/
theorem run_accounts_twice :
    Stands (.whole _) counting counted.manager.resolver ∧
      counted.manager.resolver.stateOf counting = {} ∧
      textsSince counting (counted.sessionCalls worked) = ["ab", "abé", "x", "xé"] ∧
      ∃ earlier c later, counted.sessionCalls (worked ++ [.complete]) = earlier ++ c :: later ∧
        c.2.after.host.log =
          [.info .runStats "Run complete" [("files", .int 4), ("bytes", .int 10)]] := by
  have htexts : textsSince counting (counted.sessionCalls worked) =
      ["ab", "abé", "x", "xé"] := by decide +kernel
  obtain ⟨c, later, hcalls, hcomplete, hof⟩ : ∃ c later,
      Step.complete.calls (counted.performAll worked) = c :: later ∧ c.1 = .complete ∧
        c.2.target.id = counting.id := ⟨_, _, rfl, rfl, rfl⟩
  have hsplit : counted.sessionCalls (worked ++ [.complete]) =
      counted.sessionCalls worked ++ c :: later := by
    rw [Run.sessionCalls_snoc, hcalls]
  obtain ⟨⟨hreports, -, -⟩, -, -, -⟩ :=
    run_accounts stands_counted rfl (worked ++ [.complete])
  obtain ⟨-, hlog⟩ := hreports _ c later hsplit hof
  rw [if_pos hcomplete, htexts] at hlog
  exact ⟨stands_counted, rfl, htexts, _, c, later, hsplit, hlog⟩

end Builtin.RunStats

end PluginChain
