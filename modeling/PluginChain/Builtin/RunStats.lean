import PluginChain.Plugin
set_option autoImplicit false

/-!
# Statistics of a run

`run-stats` counts the source files that pass and their bytes.  The counters are
words of 64 bits and wrap around.  The start of a run resets them, and its end
reports them.
-/

namespace PluginChain.Builtin.RunStats

variable {ω : Type}

/-- The identifier of the plugin. -/
def identifier : String := "run-stats"

/-- What has been counted since the start of the run. -/
structure Counters where
  files : UInt64 := 0
  bytes : UInt64 := 0
  deriving DecidableEq, Repr, Inhabited

namespace Counters

/-- The counters after one more file. -/
def count (c : Counters) (code : String) : Counters :=
  { files := c.files + 1, bytes := c.bytes + UInt64.ofNat code.utf8ByteSize }

theorem toNat_files_count (c : Counters) (code : String) :
    (c.count code).files.toNat = (c.files.toNat + 1) % UInt64.size := by
  simp [count, UInt64.toNat_add, UInt64.size]

theorem toNat_bytes_count (c : Counters) (code : String) :
    (c.count code).bytes.toNat = (c.bytes.toNat + code.utf8ByteSize) % UInt64.size := by
  simp [count, UInt64.toNat_add, UInt64.size]

end Counters

/-- The record at the end of a run. -/
def completeRecord (c : Counters) : LogRecord :=
  .info .runStats "Run complete" [("files", .int c.files.toNat), ("bytes", .int c.bytes.toNat)]

/-- Resets the counters. -/
def reset : Handler Counters ω Unit := fun scene => (.ok (), { scene with state := {} })

/-- Counts the source text of the event. -/
def count : Handler Counters ω CodeData := fun scene =>
  (.ok (), { scene with state := scene.state.count scene.event.data.code })

/-- Reports the counters. -/
def report : Handler Counters ω Unit := fun scene =>
  (.ok (), { scene with host := scene.host.note (completeRecord scene.state) })

/-- The plugin. -/
def plugin : Plugin Counters ω where
  name := identifier
  hooks := [.start, .code, .complete]
  handle
    | .start => reset
    | .code => count
    | .complete => report
    | _ => Handler.skip

end PluginChain.Builtin.RunStats
