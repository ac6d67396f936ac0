import PluginChain.Resolver
set_option autoImplicit false

/-!
# Dispatching a hook

A hook goes through a list of entries in order.  Each entry is resolved; a plugin
that does not handle the hook is passed over, and the event stays as it is; for
one that does, the event gets the option of the entry and the handler is called.
The first entry that cannot be resolved or whose handler fails ends the hook.

The three things that a hook works on travel together as a `Stage`.  The data and
the added fields of the event, the private states and the files are for each
handler as the one before it left them.
-/

namespace PluginChain

/-- What a hook works on while it goes through its list. -/
structure Stage (σ ω D : Type) where
  resolver : Resolver σ ω
  event : Event D
  host : Host ω

namespace Stage

variable {σ ω D : Type}

/-- The stage with one more record in the log. -/
def note (st : Stage σ ω D) (r : LogRecord) : Stage σ ω D := { st with host := st.host.note r }

/-- Calls a handler on behalf of an instance.  It works on the private state of
the instance and on a log of its own, which is then added to that of the host. -/
def call (handler : Handler σ ω D) (i : Instance σ ω) (st : Stage σ ω D) :
    Except Fault Unit × Stage σ ω D :=
  let scene : Scene σ ω D :=
    { state := st.resolver.stateOf i, event := st.event, host := { st.host with log := [] } }
  let (result, scene) := handler scene
  (result,
    { resolver := st.resolver.setState i scene.state
      event := scene.event
      host := { scene.host with log := st.host.log ++ scene.host.log } })

/-- The fault of a handler, as the hook reports it. -/
def handlerFault (hook : Hook) (entry : PluginEntry) (f : Fault) : Fault :=
  .wrap .handler ("Plugin '" ++ entry.name ++ "' failed in " ++ hook.name ++ ": " ++ f.message) f

/-- One entry of a list: whether its plugin was called. -/
def visit (hook : Hook) (handler : Plugin σ ω → Handler σ ω D) (entry : PluginEntry)
    (st : Stage σ ω D) : Except Fault Bool × Stage σ ω D :=
  match st.resolver.resolve entry.name st.host with
  | (.error f, resolver, host) => (.error f, { st with resolver, host })
  | (.ok i, resolver, host) =>
    let st := { st with resolver, host }
    if i.plugin.handles hook then
      let st := { st with event := st.event.setOption entry.option }
      let st := st.note (.debug .dispatcher "Invoking plugin handler"
        [("hook", .str hook.name), ("plugin", .str entry.name)])
      match st.call (handler i.plugin) i with
      | (.ok (), st) => (.ok true, st)
      | (.error f, st) =>
        (.error (handlerFault hook entry f),
          st.note (.error .dispatcher "Plugin handler failed"
            [("hook", .str hook.name), ("plugin", .str entry.name), ("error", .str f.display)]))
    else (.ok false, st)

/-- The entries of a list in order, counting on from the calls made before. -/
def visitAll (hook : Hook) (handler : Plugin σ ω → Handler σ ω D) :
    List PluginEntry → Nat → Stage σ ω D → Except Fault Nat × Stage σ ω D
  | [], calls, st => (.ok calls, st)
  | entry :: rest, calls, st =>
    match visit hook handler entry st with
    | (.error f, st) => (.error f, st)
    | (.ok called, st) => visitAll hook handler rest (if called then calls + 1 else calls) st

/-- Takes a hook through a list of entries: the number of calls made. -/
def dispatch (entries : List PluginEntry) (hook : Hook) (handler : Plugin σ ω → Handler σ ω D)
    (st : Stage σ ω D) : Except Fault Nat × Stage σ ω D :=
  visitAll hook handler entries 0 (st.note (.debug .dispatcher "Dispatching hook"
    [("hook", .str hook.name), ("plugin_count", .int entries.length)]))

/-! ## Laws -/

@[simp] theorem visitAll_nil (hook : Hook) (handler : Plugin σ ω → Handler σ ω D) (calls : Nat)
    (st : Stage σ ω D) : visitAll hook handler [] calls st = (.ok calls, st) := rfl

/-- A list in two parts is visited part by part. -/
theorem visitAll_append (hook : Hook) (handler : Plugin σ ω → Handler σ ω D)
    (before after : List PluginEntry) (calls : Nat) (st : Stage σ ω D) :
    visitAll hook handler (before ++ after) calls st =
      match visitAll hook handler before calls st with
      | (.error f, st) => (.error f, st)
      | (.ok calls, st) => visitAll hook handler after calls st := by
  induction before generalizing calls st with
  | nil => rfl
  | cons entry rest ih =>
    simp only [List.cons_append, visitAll]
    rcases hv : visit hook handler entry st with ⟨_ | called, st'⟩
    · rfl
    · exact ih _ _

end Stage

end PluginChain
