import PluginChain.Json.Value
set_option autoImplicit false

/-!
# Log records

What the plugin chain reports while it works: a level, the part of the program that
reports, a message, and named values.  A log is a list of records in the order in which
they were written; `LogRecord.upTo` keeps those of a level or worse.
-/

namespace PluginChain

/-- How much a record matters, the gravest first. -/
inductive Level where
  | error
  | warn
  | info
  | debug
  deriving DecidableEq, Repr, Inhabited

namespace Level

/-- The rank of a level: the greater, the less it matters. -/
def rank : Level → Nat
  | .error => 1
  | .warn => 2
  | .info => 3
  | .debug => 4

/-- The level as it stands in a record. -/
def label : Level → String
  | .error => "ERROR"
  | .warn => "WARN"
  | .info => "INFO"
  | .debug => "DEBUG"

end Level

/-- The parts of the program that write records. -/
inductive LogSource where
  | configuration
  | registry
  | resolver
  | dispatcher
  | manager
  | builtins
  | excludePrivate
  | copyAssets
  | runStats
  | commands
  | output
  deriving DecidableEq, Repr, Inhabited

namespace LogSource

/-- The path of a part: the names from the whole to the part, two colons between
them.  A filter chooses records by how this path begins. -/
def path : LogSource → String
  | .configuration => "docpipe_core::config"
  | .registry => "docpipe_plugin::registry"
  | .resolver => "docpipe_plugin::resolver"
  | .dispatcher => "docpipe_plugin::hooks::dispatcher"
  | .manager => "docpipe_plugin::manager"
  | .builtins => "docpipe_plugins"
  | .excludePrivate => "docpipe_plugins::exclude_private"
  | .copyAssets => "docpipe_plugins::copy_assets"
  | .runStats => "docpipe_plugins::run_stats"
  | .commands => "docpipe::commands"
  | .output => "docpipe::io"

end LogSource

/-- One record of a log. -/
structure LogRecord where
  level : Level
  source : LogSource
  message : String
  fields : List (String × Json)
  deriving Inhabited

namespace LogRecord

/-- The record that something worth a developer's attention happened. -/
def debug (source : LogSource) (message : String) (fields : List (String × Json)) : LogRecord :=
  ⟨.debug, source, message, fields⟩

/-- The record that a step was completed. -/
def info (source : LogSource) (message : String) (fields : List (String × Json)) : LogRecord :=
  ⟨.info, source, message, fields⟩

/-- The record that something may be wrong. -/
def warn (source : LogSource) (message : String) (fields : List (String × Json)) : LogRecord :=
  ⟨.warn, source, message, fields⟩

/-- The record that something failed. -/
def error (source : LogSource) (message : String) (fields : List (String × Json)) : LogRecord :=
  ⟨.error, source, message, fields⟩

/-- The records of a rank or a lower one. -/
def upTo (rank : Nat) (log : List LogRecord) : List LogRecord :=
  log.filter fun r => r.level.rank ≤ rank

end LogRecord

end PluginChain
