import PluginChain.Proofs.Commands
import PluginChain.Proofs.ConfigRoutes
set_option autoImplicit false

/-!
# How a command ends

A command is a chain of steps each of which may fail: its input is taken, a run is set up,
and its work is done in that run.  `Cli.Fails` and `Cli.Succeeds` say step by step when it
does what, and that these are all the cases hangs on one fact: an operation after another
fails exactly where one of the two does (`Operation.andThen_eq_error_iff`).  What is printed
and the exit status follow (`Cli.exit_status`).
-/

namespace PluginChain

namespace Operation

variable {σ ω α β : Type} {first : Operation σ ω α} {next : α → Operation σ ω β} {run : Run σ ω}

/-- Two operations fail where the first does, or the second after it. -/
theorem andThen_eq_error_iff {f : Fault} :
    (first.andThen next run).1 = .error f ↔
      (first run).1 = .error f ∨
        ∃ a, (first run).1 = .ok a ∧ (next a (first run).2).1 = .error f := by
  cases h : (first run).1 with
  | error g =>
    rw [andThen_of_error h]
    simp
  | ok a =>
    rw [andThen_of_ok h]
    simp

/-- Two operations succeed where both do. -/
theorem andThen_eq_ok_iff {b : β} :
    (first.andThen next run).1 = .ok b ↔
      ∃ a, (first run).1 = .ok a ∧ (next a (first run).2).1 = .ok b := by
  cases h : (first run).1 with
  | error g =>
    rw [andThen_of_error h]
    simp
  | ok a =>
    rw [andThen_of_ok h]
    simp

end Operation

namespace Cli

/-- The steps of a command at which it may fail. -/
inductive Phase where
  /-- The input file is read. -/
  | input
  /-- The output directory is made. -/
  | directory
  /-- The built-in plugins are registered. -/
  | registration
  /-- The list of the configuration goes through its hook. -/
  | list
  /-- The hook at the start. -/
  | start
  /-- The hook of the command. -/
  | hook
  /-- The hook at the end. -/
  | completion
  /-- The configuration is rebuilt from what the plugins have left. -/
  | rebuilding
  /-- The plugins of the list are resolved one by one. -/
  | describing

/-! ## An operation between the start and the end of a run -/

section

variable {α : Type} (operation : CommandOperation α) (run : CommandRun)

/-- The run after the start. -/
def started : CommandRun := (Run.start run).2

/-- How an operation between the start and the end fails. -/
inductive WholeFails : Phase → Fault → Prop
  | start {f : Fault} (start : (Run.start run).1 = .error f) : WholeFails .start f
  | hook {f : Fault} (start : (Run.start run).1 = .ok ())
      (hook : (operation (started run)).1 = .error f) : WholeFails .hook f
  | completion {a : α} {f : Fault} (start : (Run.start run).1 = .ok ())
      (hook : (operation (started run)).1 = .ok a)
      (completion : (Run.complete (operation (started run)).2).1 = .error f) :
      WholeFails .completion f

/-- How it succeeds. -/
structure WholeSucceeds (a : α) : Prop where
  start : (Run.start run).1 = .ok ()
  hook : (operation (started run)).1 = .ok a
  completion : (Run.complete (operation (started run)).2).1 = .ok ()

variable {operation run}

/-- It fails where the start, the operation or the end does. -/
theorem whole_eq_error_iff {f : Fault} :
    (whole operation run).1 = .error f ↔ ∃ phase, WholeFails operation run phase f := by
  simp only [whole, Operation.andThen_eq_error_iff, reduceCtorEq, and_false, exists_false, or_false]
  constructor
  · rintro (hstart | ⟨_, hstart, hhook | ⟨a, hhook, hcompletion⟩⟩)
    · exact ⟨_, .start hstart⟩
    · exact ⟨_, .hook hstart hhook⟩
    · exact ⟨_, .completion hstart hhook hcompletion⟩
  · rintro ⟨_, hstart | ⟨hstart, hhook⟩ | ⟨hstart, hhook, hcompletion⟩⟩
    · exact .inl hstart
    · exact .inr ⟨(), hstart, .inl hhook⟩
    · exact .inr ⟨(), hstart, .inr ⟨_, hhook, hcompletion⟩⟩

/-- It succeeds where all three do. -/
theorem whole_eq_ok_iff {a : α} :
    (whole operation run).1 = .ok a ↔ WholeSucceeds operation run a := by
  simp only [whole, Operation.andThen_eq_ok_iff]
  constructor
  · rintro ⟨_, hstart, b, hhook, _, hcompletion, hresult⟩
    obtain rfl := Except.ok.inj hresult
    exact ⟨hstart, hhook, hcompletion⟩
  · rintro ⟨hstart, hhook, hcompletion⟩
    exact ⟨(), hstart, a, hhook, (), hcompletion, rfl⟩

end

/-! ## The work of a command -/

/-- What a command does once its input is at hand. -/
inductive Work where
  | list (format : OutputFormat)
  | code (text file : String)
  | content (text name : String)
  | config (format : OutputFormat)
  | publish (dir : OutputDir) (out : String)

/-- The work as an operation of a run that has been set up. -/
def Work.operation (config : Config) : Work → CommandOperation String
  | .list format =>
    Operation.andThen (fun run => describeAll run.manager.plugins run)
      fun rows run => (.ok (PluginRow.print rows format), run)
  | .code text file => whole (Run.handleCode text file)
  | .content text name => whole (Run.handleContent text name)
  | .config format =>
    Operation.andThen (Run.rebuildConfig config) fun rebuilt run =>
      (.ok (format.print rebuilt.toJson), run)
  | .publish dir out =>
    Operation.andThen (whole (Run.publish dir.write ⟨0, dir.copyInto⟩ dir.read))
      fun _ run => (.ok ("✓ Published to '" ++ out ++ "'\n"), run)

section

variable (config : Config) (run : CommandRun)

/-- How the work of a command fails. -/
inductive WorkFails : Work → Phase → Fault → Prop
  | describing {format : OutputFormat} {f : Fault}
      (describing : (describeAll run.manager.plugins run).1 = .error f) :
      WorkFails (.list format) .describing f
  | code {text file : String} {phase : Phase} {f : Fault}
      (whole : WholeFails (Run.handleCode text file) run phase f) :
      WorkFails (.code text file) phase f
  | content {text name : String} {phase : Phase} {f : Fault}
      (whole : WholeFails (Run.handleContent text name) run phase f) :
      WorkFails (.content text name) phase f
  | config {format : OutputFormat} {f : Fault}
      (hook : (Run.handleConfig config.toJson run).1 = .error f) :
      WorkFails (.config format) .hook f
  | rebuilding {format : OutputFormat} {handled : Json} {f : Fault}
      (hook : (Run.handleConfig config.toJson run).1 = .ok handled)
      (rebuilding : Config.ofJson handled = .error f) : WorkFails (.config format) .rebuilding f
  | publish {dir : OutputDir} {out : String} {phase : Phase} {f : Fault}
      (whole : WholeFails (Run.publish dir.write ⟨0, dir.copyInto⟩ dir.read) run phase f) :
      WorkFails (.publish dir out) phase f

/-- How it succeeds, and with which text. -/
inductive WorkSucceeds : Work → String → Prop
  | list {format : OutputFormat} {rows : List PluginRow}
      (describing : (describeAll run.manager.plugins run).1 = .ok rows) :
      WorkSucceeds (.list format) (PluginRow.print rows format)
  | code {text file left : String}
      (whole : WholeSucceeds (Run.handleCode text file) run left) :
      WorkSucceeds (.code text file) left
  | content {text name left : String}
      (whole : WholeSucceeds (Run.handleContent text name) run left) :
      WorkSucceeds (.content text name) left
  | config {format : OutputFormat} {handled : Json} {rebuilt : Config}
      (hook : (Run.handleConfig config.toJson run).1 = .ok handled)
      (rebuilding : Config.ofJson handled = .ok rebuilt) :
      WorkSucceeds (.config format) (format.print rebuilt.toJson)
  | publish {dir : OutputDir} {out : String}
      (whole : WholeSucceeds (Run.publish dir.write ⟨0, dir.copyInto⟩ dir.read) run ()) :
      WorkSucceeds (.publish dir out) ("✓ Published to '" ++ out ++ "'\n")

variable {config run}

/-- The work fails where one of its steps does. -/
theorem operation_eq_error_iff {work : Work} {f : Fault} :
    (work.operation config run).1 = .error f ↔ ∃ phase, WorkFails config run work phase f := by
  cases work with
  | list format =>
    simp only [Work.operation, Operation.andThen_eq_error_iff, reduceCtorEq, and_false,
      exists_false, or_false]
    constructor
    · intro h
      exact ⟨_, .describing h⟩
    · rintro ⟨phase, h⟩
      cases h with
      | describing h => exact h
  | code text file =>
    refine whole_eq_error_iff.trans (exists_congr fun phase => ?_)
    exact ⟨.code, fun h => by cases h with | code h => exact h⟩
  | content text name =>
    refine whole_eq_error_iff.trans (exists_congr fun phase => ?_)
    exact ⟨.content, fun h => by cases h with | content h => exact h⟩
  | config format =>
    simp only [Work.operation, Run.rebuildConfig, Operation.andThen_eq_error_iff, reduceCtorEq,
      and_false, exists_false, or_false]
    constructor
    · rintro (hhook | ⟨handled, hhook, hrebuilding⟩)
      · exact ⟨_, .config hhook⟩
      · exact ⟨_, .rebuilding hhook hrebuilding⟩
    · rintro ⟨phase, h⟩
      cases h with
      | config hhook => exact .inl hhook
      | rebuilding hhook hrebuilding => exact .inr ⟨_, hhook, hrebuilding⟩
  | publish dir out =>
    simp only [Work.operation, Operation.andThen_eq_error_iff, reduceCtorEq, and_false,
      exists_false, or_false]
    refine whole_eq_error_iff.trans (exists_congr fun phase => ?_)
    exact ⟨.publish, fun h => by cases h with | publish h => exact h⟩

/-- The work succeeds where all its steps do. -/
theorem operation_eq_ok_iff {work : Work} {text : String} :
    (work.operation config run).1 = .ok text ↔ WorkSucceeds config run work text := by
  cases work with
  | list format =>
    simp only [Work.operation, Operation.andThen_eq_ok_iff]
    constructor
    · rintro ⟨rows, hrows, hprint⟩
      obtain rfl := Except.ok.inj hprint
      exact .list hrows
    · rintro ⟨hrows⟩
      exact ⟨_, hrows, rfl⟩
  | code _ file =>
    rw [Work.operation, whole_eq_ok_iff]
    exact ⟨.code, fun h => by cases h with | code h => exact h⟩
  | content _ name =>
    rw [Work.operation, whole_eq_ok_iff]
    exact ⟨.content, fun h => by cases h with | content h => exact h⟩
  | config format =>
    simp only [Work.operation, Run.rebuildConfig, Operation.andThen_eq_ok_iff]
    constructor
    · rintro ⟨rebuilt, ⟨handled, hhook, hrebuilding⟩, hprint⟩
      obtain rfl := Except.ok.inj hprint
      exact .config hhook hrebuilding
    · intro h
      cases h with
      | config hhook hrebuilding => exact ⟨_, ⟨_, hhook, hrebuilding⟩, rfl⟩
  | publish dir out =>
    simp only [Work.operation, Operation.andThen_eq_ok_iff, whole_eq_ok_iff]
    constructor
    · rintro ⟨_, hwhole, hprint⟩
      obtain rfl := Except.ok.inj hprint
      exact .publish hwhole
    · intro h
      cases h with
      | publish hwhole => exact ⟨(), hwhole, rfl⟩

end

/-! ## Whole commands -/

/-- Takes the input of a command: what is left to do, and the host in which it is done. -/
def prepare (request : Request) (host : Host Unit) : Except Fault Work × Host Unit :=
  match request.command with
  | .plugins => (.ok (.list request.format), host)
  | .code file => ((readInput file host.files).map fun text => .code text file, host)
  | .content file name? =>
    ((readInput file host.files).map fun text => .content text (reportedName file name?), host)
  | .config => (.ok (.config request.format), host)
  | .publish out =>
    ((OutputDir.create out host.files).1.map fun dir => .publish dir out,
      { host with files := (OutputDir.create out host.files).2 })

/-- The step at which the input of a command is taken. -/
def inputPhase : Command → Phase
  | .publish _ => .directory
  | _ => .input

/-- The registration of the built-in plugins. -/
def registration (host : Host Unit) :
    Except Fault Unit × Registry Builtin.RunStats.Counters Unit × List LogRecord :=
  Builtin.register (Slot.whole _) {} Registry.empty host.log

/-- A run in which they have been registered. -/
def registered (config : Config) (host : Host Unit) : CommandRun where
  manager :=
    { resolver :=
        { registry := (registration host).2.1, localDir := config.plugin.directory } }
  host := { host with log := (registration host).2.2 }

section

variable (request : Request) (config : Config) (host : Host Unit)

/-- How a command fails. -/
inductive Fails : Phase → Fault → Prop
  | input {f : Fault} (input : (prepare request host).1 = .error f) :
      Fails (inputPhase request.command) f
  | registration {work : Work} {f : Fault} (input : (prepare request host).1 = .ok work)
      (registration : (registration (prepare request host).2).1 = .error f) :
      Fails .registration f
  | list {work : Work} {f : Fault} (input : (prepare request host).1 = .ok work)
      (registration : (Cli.registration (prepare request host).2).1 = .ok ())
      (list : (Run.init config.plugins (registered config (prepare request host).2)).1 =
        .error f) : Fails .list f
  | work {work : Work} {phase : Phase} {f : Fault} (input : (prepare request host).1 = .ok work)
      (registration : (Cli.registration (prepare request host).2).1 = .ok ())
      (list : (Run.init config.plugins (registered config (prepare request host).2)).1 = .ok ())
      (work : WorkFails config (Cli.setUp config (prepare request host).2).2 work phase f) :
      Fails phase f

/-- How it succeeds, and with which text. -/
inductive Succeeds : String → Prop
  | work {work : Work} {text : String} (input : (prepare request host).1 = .ok work)
      (registration : (registration (prepare request host).2).1 = .ok ())
      (list : (Run.init config.plugins (registered config (prepare request host).2)).1 = .ok ())
      (work : WorkSucceeds config (Cli.setUp config (prepare request host).2).2 work text) :
      Succeeds text

end

variable {request : Request} {config : Config} {host : Host Unit}

/-- A run is set up where the plugins are registered and the list goes through its hook. -/
theorem fst_setUp (config : Config) (host : Host Unit) :
    (setUp config host).1 =
      match (registration host).1 with
      | .error f => .error f
      | .ok () => (Run.init config.plugins (registered config host)).1 := by
  unfold setUp registered registration
  rcases Builtin.register _ _ _ _ with ⟨f | _, registry, log⟩
  · rfl
  · dsimp only
    split <;> simp_all

theorem setUp_eq_ok_iff :
    (setUp config host).1 = .ok () ↔
      (registration host).1 = .ok () ∧
        (Run.init config.plugins (registered config host)).1 = .ok () := by
  rw [fst_setUp]
  cases (registration host).1 <;> simp

theorem setUp_eq_error_iff {f : Fault} :
    (setUp config host).1 = .error f ↔
      (registration host).1 = .error f ∨ (registration host).1 = .ok () ∧
        (Run.init config.plugins (registered config host)).1 = .error f := by
  rw [fst_setUp]
  cases (registration host).1 <;> simp

/-- An operation is carried out in the run that is set up. -/
theorem fst_execute {α : Type} (operation : CommandOperation α) :
    (execute config operation host).1 =
      match (setUp config host).1 with
      | .error f => .error f
      | .ok () => (operation (setUp config host).2).1 := by
  unfold execute
  rcases setUp config host with ⟨_ | _, _⟩ <;> rfl

/-- A command takes its input, and then does its work in a run that it sets up. -/
theorem perform_eq (request : Request) (config : Config) (host : Host Unit) :
    perform request config host =
      match (prepare request host).1 with
      | .error f => (.error f, (prepare request host).2)
      | .ok work => execute config (work.operation config) (prepare request host).2 := by
  unfold perform prepare
  cases request.command with
  | plugins => rfl
  | code file =>
    dsimp only
    unfold code
    cases readInput file host.files <;> rfl
  | content file name? =>
    dsimp only
    unfold content
    cases readInput file host.files <;> rfl
  | config =>
    exact Run.showConfig_eq_rebuild config request.format host
  | publish out =>
    dsimp only
    unfold publish
    rcases OutputDir.create out host.files with ⟨_ | _, _⟩ <;> rfl

/-- A command fails where one of its steps does. -/
theorem perform_eq_error_iff {f : Fault} :
    (perform request config host).1 = .error f ↔ ∃ phase, Fails request config host phase f := by
  rw [perform_eq]
  cases hinput : (prepare request host).1 with
  | error g =>
    dsimp only
    constructor
    · intro hf
      obtain rfl := Except.error.inj hf
      exact ⟨_, .input hinput⟩
    · rintro ⟨phase, h⟩
      cases h with
      | input h =>
        obtain rfl := Except.error.inj (hinput.symm.trans h)
        rfl
      | registration h | list h | work h => cases hinput.symm.trans h
  | ok work =>
    dsimp only
    rw [fst_execute]
    constructor
    · intro hf
      cases hset : (setUp config (prepare request host).2).1 with
      | error g =>
        rw [hset] at hf
        obtain rfl := Except.error.inj hf
        rcases setUp_eq_error_iff.mp hset with hregistration | ⟨hregistration, hlist⟩
        · exact ⟨_, .registration hinput hregistration⟩
        · exact ⟨_, .list hinput hregistration hlist⟩
      | ok _ =>
        rw [hset] at hf
        obtain ⟨hregistration, hlist⟩ := setUp_eq_ok_iff.mp hset
        obtain ⟨phase, hwork⟩ := operation_eq_error_iff.mp hf
        exact ⟨phase, .work hinput hregistration hlist hwork⟩
    · rintro ⟨phase, h⟩
      cases h with
      | input h => cases hinput.symm.trans h
      | registration _ hregistration => rw [setUp_eq_error_iff.mpr (.inl hregistration)]
      | list _ hregistration hlist =>
        rw [setUp_eq_error_iff.mpr (.inr ⟨hregistration, hlist⟩)]
      | work h hregistration hlist hwork =>
        obtain rfl := Except.ok.inj (hinput.symm.trans h)
        rw [setUp_eq_ok_iff.mpr ⟨hregistration, hlist⟩]
        exact operation_eq_error_iff.mpr ⟨phase, hwork⟩

/-- A command succeeds where all its steps do. -/
theorem perform_eq_ok_iff {text : String} :
    (perform request config host).1 = .ok text ↔ Succeeds request config host text := by
  rw [perform_eq]
  cases hinput : (prepare request host).1 with
  | error g =>
    dsimp only
    exact ⟨nofun, fun ⟨h, _, _, _⟩ => nomatch hinput.symm.trans h⟩
  | ok work =>
    dsimp only
    rw [fst_execute]
    constructor
    · intro hok
      cases hset : (setUp config (prepare request host).2).1 with
      | error g =>
        rw [hset] at hok
        cases hok
      | ok _ =>
        rw [hset] at hok
        obtain ⟨hregistration, hlist⟩ := setUp_eq_ok_iff.mp hset
        exact .work hinput hregistration hlist (operation_eq_ok_iff.mp hok)
    · rintro ⟨h, hregistration, hlist, hwork⟩
      obtain rfl := Except.ok.inj (hinput.symm.trans h)
      rw [setUp_eq_ok_iff.mpr ⟨hregistration, hlist⟩]
      exact operation_eq_ok_iff.mpr hwork

/-! ## Entries without a plugin -/

/-- The list hook fails over a list with an entry that does not resolve. -/
theorem init_of_unresolved {run : CommandRun} {plugins : List PluginEntry} {e : PluginEntry}
    (he : e ∈ plugins) (hnone : run.manager.resolver.instance? e.name = none) :
    ∃ f, (Run.init plugins run).1 = .error f := by
  obtain ⟨k, hk⟩ := List.mem_iff_getElem?.mp he
  have hfails : (run.stage (Run.listEvent plugins)).Fails plugins .plugins
      (fun p => p.handle .plugins) k :=
    ⟨e, hk, .inl (Resolver.resolve_eq_error_iff.mpr hnone)⟩
  cases hpass : (run.listPass plugins).1 with
  | ok n => exact absurd hfails (((Stage.dispatch_eq_ok_iff _ _ _ _ n).mp hpass).1 k)
  | error f =>
    refine ⟨f, ?_⟩
    rw [Run.init, Run.handlePlugins_of_error hpass]

/-- The registration of the built-in plugins does not fail, and no other identifier stands
for a plugin after it. -/
theorem registration_of_builtins (config : Config) (host : Host Unit) :
    (registration host).1 = .ok () ∧
      ∀ identifier ∉ Builtin.identifiers,
        (registered config host).manager.resolver.instance? identifier = none := by
  have hnodup : (Keyed.keys (Builtin.registrations (ω := Unit)
      (Slot.whole Builtin.RunStats.Counters) {})).Nodup := Builtin.nodup_identifiers
  obtain ⟨registry, log, hall, -, hothers⟩ :=
    Registry.registerAll_of_free (r := .empty) host.log hnodup fun _ _ => rfl
  have hregistration : registration host =
      (.ok (), registry, log ++ [Builtin.registeredRecord registry.size]) := by
    rw [registration, Builtin.register, hall]
  refine ⟨by rw [hregistration], fun identifier hidentifier => ?_⟩
  have hfree : Keyed.get? identifier registry.entries = none := hothers identifier hidentifier
  rw [Resolver.instance?_of_not_cached rfl, registered, hregistration,
    Registry.create_of_none hfree]

/-- A command fails whose configuration names a plugin that is not built in. -/
theorem perform_of_foreign (request : Request) (host : Host Unit)
    (h : ∃ e ∈ config.plugins, e.name ∉ Builtin.identifiers) :
    ∃ phase f, Fails request config host phase f := by
  obtain ⟨e, he, hforeign⟩ := h
  cases hinput : (prepare request host).1 with
  | error f => exact ⟨_, f, .input hinput⟩
  | ok work =>
    obtain ⟨hregistration, hnone⟩ := registration_of_builtins config (prepare request host).2
    obtain ⟨f, hlist⟩ := init_of_unresolved he (hnone e.name hforeign)
    exact ⟨_, f, .list hinput hregistration hlist⟩

/-! ## Unreadable input -/

/-- Whether a command reads a file. -/
def Reads (file : String) (command : Command) : Prop :=
  command = .code file ∨ ∃ name?, command = .content file name?

/-- A command that cannot read its file does nothing. -/
theorem perform_of_unreadable {file : String} {e : FileError} (hreads : Reads file request.command)
    (hfile : host.files.readText file = .error e) (config : Config) :
    perform request config host = (.error (OutputDir.fileFault "read" file e), host) := by
  have hinput : readInput file host.files = .error (OutputDir.fileFault "read" file e) := by
    rw [readInput, hfile]
  unfold perform
  rcases hreads with hcommand | ⟨name?, hcommand⟩
  · rw [hcommand]
    dsimp only
    rw [code, hinput]
  · rw [hcommand]
    dsimp only
    rw [content, hinput]

/-! ## What is printed -/

section

variable {environment : Environment} {fs : FileSystem}

/-- Without a configuration no command is carried out. -/
theorem outcome_of_unloaded {f : Fault}
    (hload : Config.load fs environment request.config = .error f) :
    (outcome request environment fs).status = 1 ∧
      (outcome request environment fs).output = "" ∧
      (outcome request environment fs).errors =
        "Failed to load configuration: " ++ f.display ++ "\n" := by
  unfold outcome
  simp only [hload, and_self]

/-- A failure is reported. -/
theorem errors_of_error {f : Fault}
    (hload : Config.load fs environment request.config = .ok config)
    (h : (perform request config { files := fs, memory := (), log := [] }).1 = .error f) :
    (outcome request environment fs).errors = "✗ " ++ f.display ++ "\n" := by
  unfold outcome
  simp only [hload, h]

/-- A success is not. -/
theorem errors_of_ok {output : String}
    (hload : Config.load fs environment request.config = .ok config)
    (h : (perform request config { files := fs, memory := (), log := [] }).1 = .ok output) :
    (outcome request environment fs).errors = "" := by
  unfold outcome
  simp only [hload, h]

/-- What a command does to its host is seen afterwards. -/
theorem outcome_of_unchanged {answer : Except Fault String}
    (hload : Config.load fs environment request.config = .ok config)
    (h : perform request config { files := fs, memory := (), log := [] } =
      (answer, { files := fs, memory := (), log := [] })) :
    (outcome request environment fs).log = [] ∧
      (outcome request environment fs).files = fs := by
  unfold outcome
  simp only [hload, h]
  cases answer <;> exact ⟨rfl, rfl⟩

end

/-- For every request, configuration, environment and file system:

* where the configuration cannot be loaded, or any step of the command fails, nothing is
  printed as a result, the status is 1, and the fault of that step is reported;
* where all steps succeed, the status is 0, nothing is reported, and what is printed is the
  text that comes of the last step;
* one of the two is the case, and the first as soon as the configuration names a plugin that
  is not built in;
* a command that cannot read its file leaves files and log as they were, whatever its
  configuration: no plugin is resolved or called. -/
theorem exit_status (request : Request) (environment : Environment) (fs : FileSystem) :
    let result := outcome request environment fs
    let host : Host Unit := { files := fs, memory := (), log := [] }
    (∀ args, Request.ofArgs args = .ok (.run request) → call args environment fs = result) ∧
    (∀ f, Config.load fs environment request.config = .error f →
      result.status = 1 ∧ result.output = "" ∧
        result.errors = "Failed to load configuration: " ++ f.display ++ "\n") ∧
    ∀ config, Config.load fs environment request.config = .ok config →
      (∀ phase f, Fails request config host phase f →
        result.status = 1 ∧ result.output = "" ∧ result.errors = "✗ " ++ f.display ++ "\n") ∧
      (∀ text, Succeeds request config host text →
        result.status = 0 ∧ result.output = text ∧ result.errors = "") ∧
      ((∃ phase f, Fails request config host phase f) ∨
        ∃ text, Succeeds request config host text) ∧
      ((∃ e ∈ config.plugins, e.name ∉ Builtin.identifiers) →
        result.status = 1 ∧ result.output = "") ∧
      ∀ file e, Reads file request.command → fs.readText file = .error e →
        (∀ other, perform request other host =
          (.error (OutputDir.fileFault "read" file e), host)) ∧
        result.status = 1 ∧ result.output = "" ∧ result.log = [] ∧ result.files = fs := by
  intro result host
  refine ⟨fun args hargs => ?_, fun f hload => ?_, fun config hload => ?_⟩
  · rw [call, hargs]
  · exact outcome_of_unloaded hload
  · have hfails : ∀ phase f, Fails request config host phase f →
        result.status = 1 ∧ result.output = "" ∧ result.errors = "✗ " ++ f.display ++ "\n" := by
      intro phase f h
      have hperform := perform_eq_error_iff.mpr ⟨phase, h⟩
      obtain ⟨hstatus, houtput⟩ := outcome_of_error hload hperform
      exact ⟨hstatus, houtput, errors_of_error hload hperform⟩
    refine ⟨hfails, fun text h => ?_, ?_, fun hforeign => ?_, fun file e hreads hfile => ?_⟩
    · have hperform := perform_eq_ok_iff.mpr h
      obtain ⟨hstatus, houtput⟩ := outcome_of_ok hload hperform
      exact ⟨hstatus, houtput, errors_of_ok hload hperform⟩
    · cases hperform : (perform request config host).1 with
      | error f =>
        obtain ⟨phase, h⟩ := perform_eq_error_iff.mp hperform
        exact .inl ⟨phase, f, h⟩
      | ok text => exact .inr ⟨text, perform_eq_ok_iff.mp hperform⟩
    · obtain ⟨phase, f, h⟩ := perform_of_foreign request host hforeign
      obtain ⟨hstatus, houtput, -⟩ := hfails phase f h
      exact ⟨hstatus, houtput⟩
    · have hperform : ∀ config, perform request config host = _ :=
        perform_of_unreadable hreads hfile
      obtain ⟨hstatus, houtput⟩ :=
        outcome_of_error hload (congrArg Prod.fst (hperform config))
      exact ⟨hperform, hstatus, houtput, outcome_of_unchanged hload (hperform config)⟩

end Cli

end PluginChain
