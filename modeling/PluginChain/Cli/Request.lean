set_option autoImplicit false

/-!
# Requests on the command line

The arguments of a call: options for all commands, then the command, then its own
options and files.  An option stands with its value in one argument or in two, and
at most once.  `Request.ofArgs` reads the arguments from the left and stops at the
first that is out of place.
-/

namespace PluginChain

/-- How results are printed. -/
inductive OutputFormat where
  | table
  | json
  deriving DecidableEq, Repr, Inhabited

/-- What is to be done. -/
inductive Command where
  /-- Lists the plugins of the configuration. -/
  | plugins
  /-- Takes a source file through the hook for source text. -/
  | code (file : String)
  /-- Takes a rendered file through its hook, perhaps under another name. -/
  | content (file : String) (name? : Option String)
  /-- Shows the configuration. -/
  | config
  /-- Publishes into a directory. -/
  | publish (out : String)
  deriving DecidableEq, Repr, Inhabited

/-- A command and the options for all commands. -/
structure Request where
  /-- The path of the configuration. -/
  config : String
  format : OutputFormat
  command : Command
  deriving DecidableEq, Repr, Inhabited

/-- What the arguments of a call ask for. -/
inductive Invocation where
  | run (request : Request)
  | help
  | version
  deriving DecidableEq, Repr, Inhabited

/-- Why arguments make no sense. -/
inductive UsageError where
  | unknownArgument (argument : String)
  | unknownCommand (name : String)
  | repeatedOption (name : String)
  | valueMissing (name : String)
  | badValue (name value : String)
  | commandMissing
  | fileMissing
  deriving DecidableEq, Repr, Inhabited

/-- The error in words. -/
def UsageError.message : UsageError → String
  | .unknownArgument argument => "unexpected argument '" ++ argument ++ "'"
  | .unknownCommand name => "unknown command '" ++ name ++ "'"
  | .repeatedOption name => "the option '--" ++ name ++ "' is given more than once"
  | .valueMissing name => "the option '--" ++ name ++ "' has no value"
  | .badValue name value => "'" ++ value ++ "' is no value for '" ++ name ++ "'"
  | .commandMissing => "a command is missing"
  | .fileMissing => "a file is missing"

namespace Request

/-- An option with a value: its long name and the letter of its short one. -/
structure OptionName where
  long : String
  short : Char
  deriving DecidableEq, Repr, Inhabited

/-- The path of the configuration. -/
def configOption : OptionName := ⟨"config", 'c'⟩

/-- How results are printed. -/
def formatOption : OptionName := ⟨"format", 'f'⟩

/-- Under which name a file is rendered. -/
def nameOption : OptionName := ⟨"name", 'n'⟩

/-- Where to publish. -/
def outOption : OptionName := ⟨"out", 'o'⟩

/-- What an argument is. -/
inductive Argument where
  /-- A long option, and its value behind an equals sign. -/
  | long (name : String) (value? : Option String)
  /-- A short option, and what follows its letter. -/
  | short (letter : Char) (behind : List Char)
  /-- The mark behind which there are no more options. -/
  | separator
  | plain (text : String)
  deriving DecidableEq, Repr, Inhabited

/-- What an argument is, by its beginning. -/
def Argument.of (s : String) : Argument :=
  match s.toList with
  | ['-', '-'] => .separator
  | '-' :: '-' :: rest =>
    let name := String.ofList (rest.takeWhile (· ≠ '='))
    match rest.dropWhile (· ≠ '=') with
    | _ :: value => .long name (some (String.ofList value))
    | [] => .long name none
  | '-' :: letter :: behind => .short letter behind
  | _ => .plain s

/-- An option that an argument names, and its value where that is in the argument. -/
def Argument.option? (known : List OptionName) :
    Argument → Option (OptionName × Option String)
  | .long name value? =>
    (known.find? fun o => o.long == name).map fun o => (o, value?)
  | .short letter behind =>
    (known.find? fun o => o.short == letter).map fun o =>
      (o, match behind with
        | [] => none
        | '=' :: value => some (String.ofList value)
        | value => some (String.ofList value))
  | _ => none

/-- Whether an argument asks for help. -/
def Argument.isHelp : Argument → Bool
  | .long name none => name == "help"
  | .short letter _ => letter == 'h'
  | _ => false

/-- Whether an argument asks for the version. -/
def Argument.isVersion : Argument → Bool
  | .long name none => name == "version"
  | .short letter _ => letter == 'V'
  | _ => false

/-- The options and files read so far. -/
structure Given where
  options : List (OptionName × String) := []
  /-- The files, the last first. -/
  files : List String := []
  deriving Inhabited

namespace Given

/-- The value of an option. -/
def value? (g : Given) (o : OptionName) : Option String :=
  (g.options.find? fun p => p.1 == o).map (·.2)

/-- Adds an option that is not there yet. -/
def add (g : Given) (o : OptionName) (value : String) : Except UsageError Given :=
  if (g.value? o).isSome then .error (.repeatedOption o.long)
  else .ok { g with options := g.options ++ [(o, value)] }

end Given

/-- The value of an option: the one in its argument, or else the next argument, which
must be no option. -/
def takeValue (o : OptionName) : Option String → List String →
    Except UsageError (String × List String)
  | some value, rest => .ok (value, rest)
  | none, [] => .error (.valueMissing o.long)
  | none, next :: rest =>
    match Argument.of next with
    | .plain value => .ok (value, rest)
    | _ => .error (.valueMissing o.long)

/-- The value of an option that is to be a format. -/
def format? (value : String) : Option OutputFormat :=
  if value = "table" then some .table else if value = "json" then some .json else none

/-- Refuses a value that an option cannot have: a format without a name of one, and an
empty path for the output. -/
def checkValue (o : OptionName) (value : String) : Except UsageError Unit :=
  if o = formatOption ∧ (format? value).isNone then .error (.badValue o.long value)
  else if o = outOption ∧ value = "" then .error (.badValue o.long value)
  else .ok ()

/-- The arguments of a command that takes some options and some number of files. -/
def takeRest (known : List OptionName) (maxFiles : Nat) :
    Nat → Given → List String → Except UsageError (Option Given)
  | 0, g, _ => .ok (some g)
  | _, g, [] => .ok (some g)
  | fuel + 1, g, next :: rest =>
    let takeFile (g : Given) (file : String) : Except UsageError Given :=
      if maxFiles ≤ g.files.length then .error (.unknownArgument file)
      else if file = "" then .error (.badValue "FILE" file)
      else .ok { g with files := file :: g.files }
    match Argument.of next with
    | .separator =>
      match rest.foldlM takeFile g with
      | .ok g => .ok (some g)
      | .error e => .error e
    | .plain file =>
      match takeFile g file with
      | .ok g => takeRest known maxFiles fuel g rest
      | .error e => .error e
    | argument =>
      match argument.option? known with
      | none => if argument.isHelp then .ok none else .error (.unknownArgument next)
      | some (o, value?) =>
        match takeValue o value? rest with
        | .error e => .error e
        | .ok (value, rest) =>
          match checkValue o value with
          | .error e => .error e
          | .ok () =>
            match g.add o value with
            | .error e => .error e
            | .ok g => takeRest known maxFiles fuel g rest

/-- The request that the options for all commands and a command make up. -/
def assemble (g : Given) (command : Command) : Request where
  config := (g.value? configOption).getD "docpipe.toml"
  format := ((g.value? formatOption).bind format?).getD .table
  command := command

/-- The names of the commands. -/
def commandNames : List String := ["plugins", "code", "content", "config", "publish", "help"]

/-- What help is asked for: all of it, or that for one command. -/
def takeHelp : List String → Except UsageError Invocation
  | [] => .ok .help
  | name :: rest =>
    if name ∉ commandNames then .error (.unknownCommand name)
    else
      match rest with
      | [] => .ok .help
      | next :: _ => .error (.unknownCommand next)

/-- A command from its name and the arguments behind it. -/
def takeCommand (g : Given) (name : String) (args : List String) :
    Except UsageError Invocation :=
  let fuel := args.length
  let finish (known : List OptionName) (maxFiles : Nat)
      (command : Given → Except UsageError Command) : Except UsageError Invocation :=
    match takeRest known maxFiles fuel {} args with
    | .error e => .error e
    | .ok none => .ok .help
    | .ok (some given) =>
      match command given with
      | .error e => .error e
      | .ok command => .ok (.run (assemble g command))
  let file (given : Given) : Except UsageError String :=
    match given.files with
    | f :: _ => .ok f
    | [] => .error .fileMissing
  match name with
  | "plugins" => finish [] 0 fun _ => .ok .plugins
  | "config" => finish [] 0 fun _ => .ok .config
  | "code" => finish [] 1 fun given =>
    match file given with
    | .ok f => .ok (.code f)
    | .error e => .error e
  | "content" => finish [nameOption] 1 fun given =>
    match file given with
    | .ok f => .ok (.content f (given.value? nameOption))
    | .error e => .error e
  | "publish" => finish [outOption] 0 fun given =>
    .ok (.publish ((given.value? outOption).getD "./docs"))
  | "help" => takeHelp args
  | _ => .error (.unknownCommand name)

/-- The options for all commands, up to the command; `fuel` bounds their number. -/
def takeGlobal : Nat → Given → List String → Except UsageError Invocation
  | 0, _, _ => .error .commandMissing
  | _, _, [] => .error .commandMissing
  | fuel + 1, g, next :: rest =>
    match Argument.of next with
    | .separator => .error .commandMissing
    | .plain name => takeCommand g name rest
    | argument =>
      match argument.option? [configOption, formatOption] with
      | none =>
        if argument.isHelp then .ok .help
        else if argument.isVersion then .ok .version
        else .error (.unknownArgument next)
      | some (o, value?) =>
        match takeValue o value? rest with
        | .error e => .error e
        | .ok (value, rest) =>
          match checkValue o value with
          | .error e => .error e
          | .ok () =>
            match g.add o value with
            | .error e => .error e
            | .ok g => takeGlobal fuel g rest

/-- What the arguments of a call ask for. -/
def ofArgs (args : List String) : Except UsageError Invocation := takeGlobal args.length {} args

example : (ofArgs ["-c", "a.toml", "--format=json", "code", "b.js"]).toOption =
    some (.run ⟨"a.toml", .json, .code "b.js"⟩) := by
  decide +kernel

example : (ofArgs ["code", "a.js", "b.js"]).toOption = none := by decide +kernel

end Request

end PluginChain
