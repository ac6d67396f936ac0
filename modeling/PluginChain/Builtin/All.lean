import PluginChain.Builtin.CopyAssets
import PluginChain.Builtin.ExcludePrivate
import PluginChain.Builtin.InjectScript
import PluginChain.Builtin.RunStats
import PluginChain.Registry
set_option autoImplicit false

/-!
# The built-in plugins

All plugins that come with the library, and their registration.  The state type of
a host needs a slot for the counters of `run-stats`; the other three plugins keep
nothing from one call to the next.
-/

namespace PluginChain.Builtin

variable {σ ω : Type}

/-- The identifiers of the built-in plugins, in the order of registration. -/
def identifiers : List String :=
  [ExcludePrivate.identifier, InjectScript.identifier, CopyAssets.identifier,
    RunStats.identifier]

/-- The registration of a plugin all of whose instances start from one state. -/
def fresh (p : Plugin σ ω) (initial : σ) : Registration σ ω := .factory 0 fun _ => (p, initial)

/-- The built-in plugins as they are registered. -/
def registrations (counters : Slot σ RunStats.Counters) (initial : σ) :
    List (String × Registration σ ω) := [
  (ExcludePrivate.identifier, fresh ExcludePrivate.plugin initial),
  (InjectScript.identifier, fresh InjectScript.plugin initial),
  (CopyAssets.identifier, fresh CopyAssets.plugin initial),
  (RunStats.identifier, fresh (RunStats.plugin.within counters) (counters.set {} initial))]

/-- The record of a registration of all built-in plugins. -/
def registeredRecord (count : Nat) : LogRecord :=
  .debug .builtins "Built-in plugins registered" [("count", .int count)]

/-- Registers all built-in plugins, up to the first whose identifier is taken. -/
def register (counters : Slot σ RunStats.Counters) (initial : σ) (r : Registry σ ω)
    (log : List LogRecord) : Except Fault Unit × Registry σ ω × List LogRecord :=
  match Registry.registerAll (registrations counters initial) r log with
  | (.ok (), r, log) => (.ok (), r, log ++ [registeredRecord r.size])
  | (.error f, r, log) => (.error f, r, log)

theorem keys_registrations (counters : Slot σ RunStats.Counters) (initial : σ) :
    (registrations (ω := ω) counters initial).map (·.1) = identifiers := rfl

end PluginChain.Builtin
