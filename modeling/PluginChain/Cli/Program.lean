import PluginChain.Cli.Execution
import PluginChain.LogFilter
set_option autoImplicit false

/-!
# The program

A call of the program, from its arguments, its environment and the files to what it
prints and the status with which it ends: 0 after success, 1 after a failure, and 2
where the arguments make no sense.
-/

namespace PluginChain.Cli

/-- What a call comes to.  What is printed is one text for each stream, as the program
prints its result after the last step that can fail; how the records of the log and the
lines about a failure follow one another is left open. -/
structure Outcome where
  status : Nat
  /-- What is printed as the result. -/
  output : String := ""
  /-- What is printed about a log filter that makes no sense. -/
  notes : String := ""
  /-- What is printed about a failure. -/
  errors : String := ""
  /-- The records that the log filter lets through. -/
  log : List LogRecord := []
  /-- Whether records are written as JSON. -/
  logAsJson : Bool := false
  files : FileSystem
  deriving Inhabited

/-- The filter of a call and lines about what is wrong with it.  The environment decides
before the configuration, if what it holds makes sense as a whole. -/
def logFilter (environment : Environment) (config : Config) : LogFilter × List String :=
  match (Keyed.get? "RUST_LOG" environment).bind LogFilter.parse? with
  | some filter => (filter, [])
  | none => LogFilter.parse config.logging.level

/-- How the program is called. -/
def usage : String :=
  "Usage: docpipe [OPTIONS] <COMMAND>\n\n"
    ++ "Commands:\n"
    ++ "  plugins         List the configured plugins\n"
    ++ "  code FILE       Pass a source file through the code hook\n"
    ++ "  content FILE    Pass a rendered file through the content hook\n"
    ++ "  config          Show the configuration after the config hook\n"
    ++ "  publish         Run the publish hook against an output directory\n\n"
    ++ "Options:\n"
    ++ "  -c, --config PATH      Configuration file [default: docpipe.toml]\n"
    ++ "  -f, --format FORMAT    Output format, table or json [default: table]\n"

/-- The name and the version of the program. -/
def version : String := "docpipe 0.1.0\n"

/-- Carries out a request under its configuration. -/
def outcome (request : Request) (environment : Environment) (fs : FileSystem) : Outcome :=
  match Config.load fs environment request.config with
  | .error f =>
    { status := 1, errors := "Failed to load configuration: " ++ f.display ++ "\n", files := fs }
  | .ok config =>
    let (result, host) := perform request config { files := fs, memory := (), log := [] }
    let (filter, ignored) := logFilter environment config
    let notes := String.join (ignored.map (· ++ "\n"))
    let log := filter.select host.log
    let logAsJson := config.logging.format == "json"
    match result with
    | .ok output => { status := 0, output, notes, log, logAsJson, files := host.files }
    | .error f =>
      { status := 1, notes, errors := "✗ " ++ f.display ++ "\n", log, logAsJson,
        files := host.files }

/-- A call of the program. -/
def call (args : List String) (environment : Environment) (fs : FileSystem) : Outcome :=
  match Request.ofArgs args with
  | .error e => { status := 2, errors := "error: " ++ e.message ++ "\n\n" ++ usage, files := fs }
  | .ok .help => { status := 0, output := usage, files := fs }
  | .ok .version => { status := 0, output := version, files := fs }
  | .ok (.run request) => outcome request environment fs

end PluginChain.Cli
