import PluginChain.Fault
import PluginChain.Log
import PluginChain.Files.FileSystem
set_option autoImplicit false

/-!
# The host of a run

What plugins and the plugin chain work in: the files, a memory that the host keeps
for purposes of its own, and the log.  An `Effect` is an operation of the host:
it may fail, and what it has done until then stays done.
-/

namespace PluginChain

/-- The files, the memory of the host, and the log, oldest record first. -/
structure Host (ω : Type) where
  files : FileSystem := {}
  memory : ω
  log : List LogRecord := []

namespace Host

variable {ω : Type}

/-- The host with one more record in its log. -/
def note (h : Host ω) (r : LogRecord) : Host ω := { h with log := h.log ++ [r] }

@[simp] theorem files_note (h : Host ω) (r : LogRecord) : (h.note r).files = h.files := rfl

@[simp] theorem memory_note (h : Host ω) (r : LogRecord) : (h.note r).memory = h.memory := rfl

@[simp] theorem log_note (h : Host ω) (r : LogRecord) : (h.note r).log = h.log ++ [r] := rfl

end Host

/-- An operation of the host. -/
abbrev Effect (ω α : Type) := Host ω → Except Fault α × Host ω

end PluginChain
