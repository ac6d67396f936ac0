import PluginChain.Builtin.All
import PluginChain.Cli.Listing
import PluginChain.ConfigFile
import PluginChain.Manager
import PluginChain.OutputDir
set_option autoImplicit false

/-!
# Executing a request

Every command reads its input, sets up a run with the built-in plugins and the
plugin list of the configuration, takes its hooks through, and only then has a text
to print.  So a command that fails prints nothing.

Printing is no effect of these steps: a command has one text, which it hands on as its
result when nothing is left that could fail, so that the text need not be an action of its
own among the others.
-/

namespace PluginChain.Cli

/-- The run of a command.  Its plugins are the built-in ones, and the host keeps no
memory of its own. -/
abbrev CommandRun := Run Builtin.RunStats.Counters Unit

/-- An operation of such a run. -/
abbrev CommandOperation (α : Type) := Operation Builtin.RunStats.Counters Unit α

/-- The record of a run that has been set up. -/
def readyRecord (plugins : Nat) : LogRecord :=
  .debug .commands "Plugin manager ready" [("plugins", .int plugins)]

/-- Sets up a run with the plugin list of a configuration. -/
def setUp (config : Config) (host : Host Unit) : Except Fault Unit × CommandRun :=
  let (registered, registry, log) :=
    Builtin.register (Slot.whole _) {} Registry.empty host.log
  let run : CommandRun :=
    { manager := { resolver := { registry, localDir := config.plugin.directory } }
      host := { host with log } }
  match registered with
  | .error f => (.error f, run)
  | .ok () =>
    match run.init config.plugins with
    | (.error f, run) => (.error f, run)
    | (.ok (), run) =>
      (.ok (), { run with host := run.host.note (readyRecord run.manager.plugins.length) })

/-- Sets up a run and carries out an operation. -/
def execute {α : Type} (config : Config) (operation : CommandOperation α) (host : Host Unit) :
    Except Fault α × Host Unit :=
  match setUp config host with
  | (.error f, run) => (.error f, run.host)
  | (.ok (), run) =>
    let (result, run) := operation run
    (result, run.host)

/-- An operation between the start and the end of a run. -/
def whole {α : Type} (operation : CommandOperation α) : CommandOperation α :=
  Operation.andThen Run.start fun _ =>
    operation.andThen fun a => Operation.andThen Run.complete fun _ run => (.ok a, run)

/-- The text of an input file. -/
def readInput (path : String) (fs : FileSystem) : Except Fault String :=
  match fs.readText path with
  | .ok text => .ok text
  | .error e => .error (OutputDir.fileFault "read" path e)

/-! ## Commands -/

/-- Describes the plugins of a list, each of which is resolved. -/
def describeAll : List PluginEntry → CommandOperation (List PluginRow)
  | [], run => (.ok [], run)
  | entry :: rest, run =>
    let source := run.manager.resolver.source entry.name
    match run.resolve entry.name with
    | (.error f, run) => (.error f, run)
    | (.ok i, run) =>
      match describeAll rest run with
      | (.error f, run) => (.error f, run)
      | (.ok rows, run) =>
        (.ok ({ identifier := entry.name, name := i.plugin.name, source, hooks := i.plugin.hooks,
                option := entry.option } :: rows), run)

/-- Lists the active plugins. -/
def plugins (config : Config) (format : OutputFormat) (host : Host Unit) :
    Except Fault String × Host Unit :=
  execute config
    (Operation.andThen (fun run => describeAll run.manager.plugins run)
      fun rows run => (.ok (PluginRow.print rows format), run)) host

/-- Takes a source file through the hook for source text. -/
def code (config : Config) (file : String) (host : Host Unit) : Except Fault String × Host Unit :=
  match readInput file host.files with
  | .error f => (.error f, host)
  | .ok text => execute config (whole (Run.handleCode text file)) host

/-- The name under which a file is rendered: the given one, or the last name in its
path. -/
def reportedName (file : String) (name? : Option String) : String :=
  name?.getD ((Path.fileName? file).getD "")

/-- Takes a rendered file through its hook. -/
def content (config : Config) (file : String) (name? : Option String) (host : Host Unit) :
    Except Fault String × Host Unit :=
  match readInput file host.files with
  | .error f => (.error f, host)
  | .ok text => execute config (whole (Run.handleContent text (reportedName file name?))) host

/-- Shows the configuration as the hook for it leaves it. -/
def showConfig (config : Config) (format : OutputFormat) (host : Host Unit) :
    Except Fault String × Host Unit :=
  execute config
    (Operation.andThen (Run.handleConfig config.toJson) fun handled run =>
      match Config.ofJson handled with
      | .ok c => (.ok (format.print c.toJson), run)
      | .error f => (.error f, run)) host

/-- Publishes into a directory, which is made first. -/
def publish (config : Config) (out : String) (host : Host Unit) :
    Except Fault String × Host Unit :=
  match OutputDir.create out host.files with
  | (.error f, files) => (.error f, { host with files })
  | (.ok dir, files) =>
    execute config
      (Operation.andThen
        (whole (Run.publish dir.write ⟨0, dir.copyInto⟩ dir.read))
        fun _ run => (.ok ("✓ Published to '" ++ out ++ "'\n"), run)) { host with files }

/-- Carries out a request: the text to print, behind all that the command does. -/
def perform (request : Request) (config : Config) (host : Host Unit) :
    Except Fault String × Host Unit :=
  match request.command with
  | .plugins => plugins config request.format host
  | .code file => code config file host
  | .content file name? => content config file name? host
  | .config => showConfig config request.format host
  | .publish out => publish config out host

end PluginChain.Cli
