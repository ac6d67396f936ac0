import Mathlib.Tactic.Choose
import Mathlib.Tactic.Push
import PluginChain.Cli.Program
import PluginChain.Proofs.FiniteOptions
import PluginChain.Proofs.PrintedLists
import PluginChain.Proofs.Provision
set_option autoImplicit false

/-!
# Commands under built-in plugins

A command under a configuration that names built-in plugins alone sets up a run that is
`Ready`: its active list is that of the configuration, and each entry stands for its
plugin.  Every hook keeps it so.  What a command prints hangs on its own hook then
(`call_with_builtins`), as the hooks for the list, the start and the end neither fail nor
change anything.  What is printed of the configuration and of the plugin list can be read
back.
-/

namespace PluginChain

namespace Operation

variable {σ ω α β : Type} {first : Operation σ ω α} {next : α → Operation σ ω β} {run : Run σ ω}

/-- After an operation that succeeds, the next one is done. -/
theorem andThen_of_ok {a : α} (h : (first run).1 = .ok a) :
    first.andThen next run = next a (first run).2 := by
  have hfirst : first run = (.ok a, (first run).2) := Prod.ext h rfl
  rw [andThen, hfirst]

/-- After an operation that fails, nothing more is done. -/
theorem andThen_of_error {f : Fault} (h : (first run).1 = .error f) :
    first.andThen next run = (.error f, (first run).2) := by
  have hfirst : first run = (.error f, (first run).2) := Prod.ext h rfl
  rw [andThen, hfirst]

end Operation

namespace Cli

open Builtin

variable {entries : List PluginEntry} {run : CommandRun}

/-- Whether a run has a list for its active one, and each entry of it stands for the
built-in plugin of its name. -/
structure Ready (entries : List PluginEntry) (run : CommandRun) : Prop where
  plugins_eq : run.manager.plugins = entries
  provides : ∀ e ∈ entries, Provides (Slot.whole _) run.manager.resolver e.name

/-- At a hook on whose data no built-in plugin works, no entry turns anything. -/
theorem untouched_of_provides (run : CommandRun)
    (h : ∀ e ∈ entries, Provides (Slot.whole _) run.manager.resolver e.name) {hook : Hook}
    (hdocs : hook ≠ .docs) (hcontent : hook ≠ .content) (hpublish : hook ≠ .publish) :
    ∀ e ∈ entries, ∃ i, run.manager.resolver.instance? e.name = some i ∧
      i.plugin.Turns hook e.option id := by
  intro e he
  obtain ⟨-, i, hi, hbuiltin, -⟩ := h e he
  exact ⟨i, hi, turns_id hbuiltin (absurd · hdocs) (absurd · hcontent) (absurd · hpublish) e.option⟩

/-- The entries of a list that ask for scripts. -/
def injecting (entries : List PluginEntry) : List PluginEntry :=
  entries.filter fun e => e.name = InjectScript.identifier

namespace Ready

/-- A hook keeps a run ready, whether it fails or not. -/
theorem through {α : Type} (h : Ready entries run) (hook : Hook)
    (event : Except Fault (Event (hook.Data Unit)))
    (result : Event (hook.Data Unit) → Except Fault α) :
    Ready entries (run.through hook event result).2 := by
  exact ⟨(Run.plugins_through hook event result run).trans h.plugins_eq,
    fun e he => (h.provides e he).of_through hook event result⟩

/-- A hook on whose data no built-in plugin works gives back what is taken from the data
that it is given. -/
theorem through_untouched {α : Type} (h : Ready entries run) (hook : Hook) (hdocs : hook ≠ .docs)
    (hcontent : hook ≠ .content) (hpublish : hook ≠ .publish) (data : hook.Data Unit)
    (take : hook.Data Unit → Except Fault α) :
    (run.through hook (.ok (.assigned data)) fun event => take event.data).1 = take data := by
  have hentries := untouched_of_provides run h.provides hdocs hcontent hpublish
  rw [← h.plugins_eq] at hentries
  exact Run.through_of_untouched hentries (.assigned data) take

theorem start (h : Ready entries run) : (Run.start run).1 = .ok () :=
  h.through_untouched .start nofun nofun nofun () fun _ => .ok ()

theorem complete (h : Ready entries run) : (Run.complete run).1 = .ok () :=
  h.through_untouched .complete nofun nofun nofun () fun _ => .ok ()

theorem handleCode (h : Ready entries run) (code filePath : String) :
    (Run.handleCode code filePath run).1 = .ok code :=
  h.through_untouched .code nofun nofun nofun { code, filePath } fun data => .ok data.code

/-- A configuration is given back as it is. -/
theorem handleConfig (h : Ready entries run) (config : Json) :
    (Run.handleConfig config run).1 = .ok config :=
  (congrArg (fun event => (run.through .config event _).1)
    (ConfigData.copied_seed (Serial.toJson_plain config))).trans
      (h.through_untouched .config nofun nofun nofun ⟨config⟩ fun data => .ok data.config)

/-! ## Rendered files -/

/-- An entry that asks for scripts stands for `inject-script`. -/
theorem exists_injectScript (h : Ready entries run) {e : PluginEntry}
    (hmem : e ∈ injecting entries) :
    ∃ i, run.manager.resolver.instance? e.name = some i ∧ i.plugin = InjectScript.plugin := by
  obtain ⟨he, hname⟩ := List.mem_filter.mp hmem
  exact (h.provides e he).instance_of_name (InjectScript.mem_plugins _) (of_decide_eq_true hname)

/-- The content hook fails where an entry asks for scripts in a way that makes no sense,
whatever the name of the file. -/
theorem handleContent_of_malformed (h : Ready entries run)
    (hmalformed : ∃ e ∈ injecting entries, ¬ ∃ sources, InjectScript.SpellsScripts e.option sources)
    (content fileName : String) : ∃ f, (Run.handleContent content fileName run).1 = .error f := by
  obtain ⟨e, hmem, hnone⟩ := hmalformed
  obtain ⟨i, hi, hinject⟩ := h.exists_injectScript hmem
  rw [Run.handleContent_eq]
  refine Run.through_of_refuses ⟨e, ?_, i, hi, ?_⟩ _ _
  · rw [h.plugins_eq]
    exact (List.mem_filter.mp hmem).1
  · rw [hinject]
    exact InjectScript.refuses_content hnone

/-- What an entry makes of a file, with the sources that the entries ask for. -/
def putIn (sources : PluginEntry → List String) (e : PluginEntry) (d : ContentData) : ContentData :=
  if e.name = InjectScript.identifier then
    { d with content := InjectScript.withScripts (sources e) d }
  else d

/-- The entries of a list, one after the other, put in the scripts of all of them. -/
theorem foldl_putIn (sources : PluginEntry → List String) (entries : List PluginEntry)
    (d : ContentData) :
    entries.foldl (fun d e => putIn sources e d) d =
      { d with content := InjectScript.withScripts ((injecting entries).flatMap sources) d } := by
  unfold putIn injecting
  rw [← InjectScript.foldl_withScripts, List.foldl_filter]
  simp only [decide_eq_true_eq]

/-- Each entry puts in its own scripts, or none. -/
theorem turns_putIn (h : Ready entries run) {sources : PluginEntry → List String}
    (hsources : ∀ e ∈ injecting entries, InjectScript.SpellsScripts e.option (sources e)) :
    ∀ e ∈ run.manager.plugins, ∃ i, run.manager.resolver.instance? e.name = some i ∧
      i.plugin.Turns .content e.option (putIn sources e) := by
  unfold putIn
  rw [h.plugins_eq]
  exact turns_of_worker h.provides (InjectScript.mem_plugins _) InjectScript.turns_id_of_ne
    fun e hmem => InjectScript.turns_content (hsources e hmem)

/-- Where each option makes sense, the content hook puts in the scripts of all entries. -/
theorem handleContent_of_sources (h : Ready entries run) {sources : PluginEntry → List String}
    (hsources : ∀ e ∈ injecting entries, InjectScript.SpellsScripts e.option (sources e))
    (content fileName : String) :
    (Run.handleContent content fileName run).1 =
      .ok (InjectScript.withScripts ((injecting entries).flatMap sources) ⟨content, fileName⟩) := by
  have htake := Run.through_of_turns (h.turns_putIn hsources)
    (.assigned { content, fileName }) fun data => .ok data.content
  rw [Run.handleContent_eq, htake, h.plugins_eq]
  exact congrArg (fun d : ContentData => Except.ok d.content) (foldl_putIn sources entries _)

end Ready

/-! ## Whole commands -/

/-- Between the start and the end of a ready run, an operation comes to what it comes to by
itself. -/
theorem whole_of_ready {α : Type} (operation : CommandOperation α)
    (hkeeps : ∀ run, Ready entries run → Ready entries (operation run).2)
    (h : Ready entries run) :
    ∃ started, Ready entries started ∧ (whole operation run).1 = (operation started).1 := by
  have hstarted : Ready entries (Run.start run).2 := h.through .start _ _
  refine ⟨_, hstarted, ?_⟩
  rw [whole, Operation.andThen_of_ok h.start]
  cases hanswer : (operation (Run.start run).2).1 with
  | error f =>
    -- The end of the run is not reached.
    rw [Operation.andThen_of_error hanswer]
  | ok a =>
    rw [Operation.andThen_of_ok hanswer, Operation.andThen_of_ok (hkeeps _ hstarted).complete]

/-- Given a list of entries that stand for built-in plugins, the plugin-list hook makes the
run ready for it. -/
theorem handlePlugins_of_provides (run : CommandRun)
    (h : ∀ e ∈ entries, Provides (Slot.whole _) run.manager.resolver e.name) :
    ∃ left, run.handlePlugins entries = (.ok entries, left) ∧ Ready entries left := by
  obtain ⟨hok, hplugins, hresolver⟩ :=
    Run.handlePlugins_of_untouched (untouched_of_provides run h nofun nofun nofun)
  refine ⟨_, Prod.ext hok rfl, hplugins, fun e he => ?_⟩
  rw [hresolver]
  exact (h e he).of_leads ((run.stage (Run.listEvent entries)).leads_dispatch entries .plugins _)

/-- Under a configuration that names built-in plugins alone, the run that is set up is
ready for its list. -/
theorem setUp_of_builtin {config : Config}
    (hbuiltin : ∀ e ∈ config.plugins, e.name ∈ identifiers) (host : Host Unit) :
    ∃ run, setUp config host = (.ok (), run) ∧ Ready config.plugins run := by
  obtain ⟨registry, log, hregister, hprovides⟩ :=
    provides_of_register (ω := Unit) (Slot.whole _) {} host.log
  let blank : CommandRun :=
    { manager := { resolver := { registry, localDir := config.plugin.directory } }
      host := { host with log } }
  obtain ⟨left, hhandle, hready⟩ := handlePlugins_of_provides blank
    fun e he => hprovides config.plugin.directory e.name (hbuiltin e he)
  have hinit : Run.init config.plugins blank = (.ok (), left) := by rw [Run.init, hhandle]
  refine ⟨{ left with host := left.host.note (readyRecord left.manager.plugins.length) }, ?_,
    hready.plugins_eq, hready.provides⟩
  rw [setUp, hregister]
  dsimp only
  rw [hinit]

/-- Under a configuration that names built-in plugins alone, an operation is carried out in
a ready run. -/
theorem execute_of_builtin {α : Type} {config : Config}
    (hbuiltin : ∀ e ∈ config.plugins, e.name ∈ identifiers) (operation : CommandOperation α)
    (host : Host Unit) :
    ∃ run, Ready config.plugins run ∧ (execute config operation host).1 = (operation run).1 := by
  obtain ⟨run, hsetUp, hready⟩ := setUp_of_builtin hbuiltin host
  refine ⟨run, hready, ?_⟩
  rw [execute, hsetUp]

/-- What an operation comes to in every ready run is what it comes to there. -/
theorem execute_eq_of_builtin {α : Type} {config : Config} {operation : CommandOperation α}
    {host : Host Unit} {answer : Except Fault α}
    (hbuiltin : ∀ e ∈ config.plugins, e.name ∈ identifiers)
    (h : ∀ run, Ready config.plugins run → (operation run).1 = answer) :
    (execute config operation host).1 = answer := by
  obtain ⟨run, hready, hexecute⟩ := execute_of_builtin hbuiltin operation host
  exact hexecute.trans (h run hready)

/-! ## The commands -/

/-- What a row tells about an entry that stands for a built-in plugin. -/
structure Describes (e : PluginEntry) (row : PluginRow) : Prop where
  identifier : row.identifier = e.name
  option : row.option = e.option
  source : row.source = "builtin"
  plugin : ∃ p ∈ Builtin.plugins (ω := Unit) (Slot.whole _),
    p.name = e.name ∧ row.name = p.name ∧ row.hooks = p.hooks

/-- A row that tells about a built-in plugin fits on a line, and its option can be printed
if that of its entry can. -/
theorem Describes.printable {e : PluginEntry} {row : PluginRow} (h : Describes e row)
    (hname : e.name ∈ identifiers) (hoption : e.option.Finite) : row.Printable := by
  have hline : ∀ name ∈ identifiers, '\n' ∉ name.toList := by decide
  obtain ⟨p, -, hp, hrow, -⟩ := h.plugin
  constructor
  · rw [h.identifier]
    exact hline _ hname
  · rw [hrow, hp]
    exact hline _ hname
  · rw [h.source]
    decide
  · rw [h.option]
    exact hoption

theorem printable_of_describes {rows : List PluginRow}
    (hnames : ∀ e ∈ entries, e.name ∈ identifiers)
    (hoptions : ∀ e ∈ entries, e.option.Finite) (h : List.Forall₂ Describes entries rows) :
    ∀ row ∈ rows, row.Printable := by
  induction h with
  | nil => exact List.forall_mem_nil _
  | cons hrow _ ih =>
    obtain ⟨hname, hnames⟩ := List.forall_mem_cons.mp hnames
    obtain ⟨hoption, hoptions⟩ := List.forall_mem_cons.mp hoptions
    exact List.forall_mem_cons.mpr ⟨hrow.printable hname hoption, ih hnames hoptions⟩

/-- Entries that stand for built-in plugins are described one by one. -/
theorem describeAll_of_provides (run : CommandRun)
    (h : ∀ e ∈ entries, Provides (Slot.whole _) run.manager.resolver e.name) :
    ∃ rows, (describeAll entries run).1 = .ok rows ∧ List.Forall₂ Describes entries rows := by
  induction entries generalizing run with
  | nil => exact ⟨[], rfl, .nil⟩
  | cons e rest ih =>
    obtain ⟨⟨hregistered, i, hi, hbuiltin, hname⟩, hrest⟩ := List.forall_mem_cons.mp h
    have hresolve : Run.resolve e.name run = (.ok i, (Run.resolve e.name run).2) :=
      Prod.ext (Resolver.resolve_eq_ok_iff.mpr hi) rfl
    have hleads : Resolver.Leads run.manager.resolver
        [⟨e.name, run.manager.resolver, run.host⟩] (Run.resolve e.name run).2.manager.resolver :=
      .cons (.refl _) (.nil (.refl _))
    obtain ⟨rows, hrows, hdescribed⟩ :=
      ih (Run.resolve e.name run).2 fun other hother => (hrest other hother).of_leads hleads
    have hall : describeAll rest (Run.resolve e.name run).2 =
        (.ok rows, (describeAll rest (Run.resolve e.name run).2).2) := Prod.ext hrows rfl
    let row : PluginRow :=
      { identifier := e.name, name := i.plugin.name
        source := run.manager.resolver.source e.name
        hooks := i.plugin.hooks, option := e.option }
    have hrow : Describes e row :=
      ⟨rfl, rfl, if_pos hregistered, i.plugin, hbuiltin, hname, rfl, rfl⟩
    refine ⟨row :: rows, ?_, .cons hrow hdescribed⟩
    rw [describeAll, hresolve]
    dsimp only
    rw [hall]

variable {config : Config} {host : Host Unit} {file text : String}

/-- The list of the plugins has a row for each entry. -/
theorem plugins_of_builtin (hbuiltin : ∀ e ∈ config.plugins, e.name ∈ identifiers)
    (format : OutputFormat) (host : Host Unit) :
    ∃ rows, (plugins config format host).1 = .ok (PluginRow.print rows format) ∧
      List.Forall₂ Describes config.plugins rows := by
  obtain ⟨run, hready, hexecute⟩ := execute_of_builtin hbuiltin
    (Operation.andThen (fun run => describeAll run.manager.plugins run)
      fun rows run => (.ok (PluginRow.print rows format), run)) host
  obtain ⟨rows, hrows, hdescribed⟩ := describeAll_of_provides run hready.provides
  rw [← hready.plugins_eq] at hrows
  have hlisted : (Operation.andThen (fun run => describeAll run.manager.plugins run)
      (fun rows run => (.ok (PluginRow.print rows format), run)) run).1 =
        .ok (PluginRow.print rows format) := congrArg Prod.fst (Operation.andThen_of_ok hrows)
  exact ⟨rows, hexecute.trans hlisted, hdescribed⟩

/-- A source file is printed as it is. -/
theorem code_of_builtin (hbuiltin : ∀ e ∈ config.plugins, e.name ∈ identifiers)
    (hread : host.files.readText file = .ok text) : (code config file host).1 = .ok text := by
  rw [code, readInput, hread]
  apply execute_eq_of_builtin hbuiltin
  intro run hready
  obtain ⟨started, hstarted, hwhole⟩ :=
    whole_of_ready (Run.handleCode text file) (fun _ h => h.through .code _ _) hready
  exact hwhole.trans (hstarted.handleCode text file)

/-- A rendered file is printed as its hook leaves it in a ready run. -/
theorem content_of_builtin (host : Host Unit)
    (hbuiltin : ∀ e ∈ config.plugins, e.name ∈ identifiers)
    (hread : host.files.readText file = .ok text) (name? : Option String) :
    ∃ run, Ready config.plugins run ∧
      (content config file name? host).1 =
        (Run.handleContent text (reportedName file name?) run).1 := by
  obtain ⟨run, hready, hexecute⟩ :=
    execute_of_builtin hbuiltin (whole (Run.handleContent text (reportedName file name?))) host
  obtain ⟨started, hstarted, hwhole⟩ :=
    whole_of_ready (Run.handleContent text (reportedName file name?))
      (fun _ h => h.through .content _ _) hready
  refine ⟨started, hstarted, ?_⟩
  rw [content, readInput, hread]
  exact hexecute.trans hwhole

/-- The configuration is shown as it was loaded. -/
theorem showConfig_of_builtin (hbuiltin : ∀ e ∈ config.plugins, e.name ∈ identifiers)
    (format : OutputFormat) (host : Host Unit) :
    (showConfig config format host).1 = .ok (format.print config.toJson) := by
  have hback : Config.ofJson config.toJson = .ok config := by rw [Config.ofJson, config.read_toJson]
  apply execute_eq_of_builtin hbuiltin
  intro run hready
  rw [Operation.andThen_of_ok (hready.handleConfig config.toJson), hback]

/-! ## Calls of the program -/

variable {request : Request} {environment : Environment} {fs : FileSystem}

/-- A request that succeeds ends with status 0 and prints its text. -/
theorem outcome_of_ok {output : String}
    (hload : Config.load fs environment request.config = .ok config)
    (h : (perform request config { files := fs, memory := (), log := [] }).1 = .ok output) :
    (outcome request environment fs).status = 0 ∧
      (outcome request environment fs).output = output := by
  unfold outcome
  simp only [hload, h, and_self]

/-- A request that fails ends with status 1 and prints no text. -/
theorem outcome_of_error {f : Fault}
    (hload : Config.load fs environment request.config = .ok config)
    (h : (perform request config { files := fs, memory := (), log := [] }).1 = .error f) :
    (outcome request environment fs).status = 1 ∧
      (outcome request environment fs).output = "" := by
  unfold outcome
  simp only [hload, h, and_self]

/-- A call for a rendered file fails exactly where an entry of `inject-script` has an option
that spells no sources, and prints the file with the scripts of all its entries where each
option spells some. -/
theorem outcome_of_content {name? : Option String}
    (hload : Config.load fs environment request.config = .ok config)
    (hbuiltin : ∀ e ∈ config.plugins, e.name ∈ identifiers)
    (hcommand : request.command = .content file name?) (hread : fs.readText file = .ok text) :
    ((outcome request environment fs).status = 1 ↔
      ∃ e ∈ injecting config.plugins, ¬ ∃ sources, InjectScript.SpellsScripts e.option sources) ∧
    ∀ sources : PluginEntry → List String,
      (∀ e ∈ injecting config.plugins, InjectScript.SpellsScripts e.option (sources e)) →
      (outcome request environment fs).status = 0 ∧
        InjectScript.Tagged (reportedName file name?) ((injecting config.plugins).flatMap sources)
          text (outcome request environment fs).output := by
  obtain ⟨run, hready, hcontent⟩ :=
    content_of_builtin { files := fs, memory := (), log := [] } hbuiltin hread name?
  have hperform : (perform request config { files := fs, memory := (), log := [] }).1 =
      (Run.handleContent text (reportedName file name?) run).1 := by
    rw [perform, hcommand]
    exact hcontent
  have hprinted (sources : PluginEntry → List String)
      (hsources : ∀ e ∈ injecting config.plugins,
        InjectScript.SpellsScripts e.option (sources e)) :=
    outcome_of_ok hload (hperform.trans
      (hready.handleContent_of_sources hsources text (reportedName file name?)))
  constructor
  · constructor
    · intro hfails
      -- If every option spelled sources, the file would be printed with their scripts.
      by_contra hwell
      push Not at hwell
      choose! sources hsources using hwell
      have hstatus := (hprinted sources hsources).1
      rw [hfails] at hstatus
      cases hstatus
    · intro hmalformed
      obtain ⟨f, hf⟩ := hready.handleContent_of_malformed hmalformed text (reportedName file name?)
      exact (outcome_of_error hload (hperform.trans hf)).1
  · intro sources hsources
    obtain ⟨hstatus, houtput⟩ := hprinted sources hsources
    refine ⟨hstatus, ?_⟩
    rw [houtput]
    exact InjectScript.tagged_withScripts _ ⟨text, reportedName file name?⟩

/-- Under a configuration that names built-in plugins alone, in any order and number and
with any options, and for files that are texts:

* a source file is printed as it is;
* a rendered file is refused exactly where an entry of `inject-script` has an option that
  spells no sources, and else is printed with the scripts of all its entries, those of the
  first entry first;
* the configuration is printed as a JSON text that spells its plain form, in either format;
* the list of the plugins is printed with a row for each entry, in their order, as a JSON
  text or as a table that shows the identifier and the option of each. -/
theorem call_with_builtins {args : List String}
    (hargs : Request.ofArgs args = .ok (.run request))
    (hload : Config.load fs environment request.config = .ok config)
    (hbuiltin : ∀ e ∈ config.plugins, e.name ∈ identifiers) :
    let result := call args environment fs
    (∀ file text, request.command = .code file → fs.readText file = .ok text →
      result.status = 0 ∧ result.output = text) ∧
    (∀ file name? text, request.command = .content file name? → fs.readText file = .ok text →
      (result.status = 1 ↔
        ∃ e ∈ injecting config.plugins, ¬ ∃ sources, InjectScript.SpellsScripts e.option sources) ∧
      ∀ sources : PluginEntry → List String,
        (∀ e ∈ injecting config.plugins, InjectScript.SpellsScripts e.option (sources e)) →
        result.status = 0 ∧
          InjectScript.Tagged (reportedName file name?)
            ((injecting config.plugins).flatMap sources) text result.output) ∧
    (request.command = .config →
      result.status = 0 ∧ result.output = request.format.print config.toJson ∧
        Json.spelled? result.output = some config.toJson) ∧
    (request.command = .plugins →
      result.status = 0 ∧ ∃ rows, List.Forall₂ Describes config.plugins rows ∧
        PluginRow.Shown rows result.output request.format) := by
  intro result
  have hresult : result = outcome request environment fs := by
    show call args environment fs = _
    rw [call, hargs]
  rw [hresult]
  refine ⟨?_, ?_, ?_, ?_⟩
  · intro file text hcommand hread
    apply outcome_of_ok hload
    rw [perform, hcommand]
    exact code_of_builtin hbuiltin hread
  · intro file name? text hcommand hread
    exact outcome_of_content hload hbuiltin hcommand hread
  · intro hcommand
    have hperform : (perform request config { files := fs, memory := (), log := [] }).1 =
        .ok (request.format.print config.toJson) := by
      rw [perform, hcommand]
      exact showConfig_of_builtin hbuiltin request.format _
    obtain ⟨hstatus, houtput⟩ := outcome_of_ok hload hperform
    refine ⟨hstatus, houtput, ?_⟩
    rw [houtput]
    exact request.format.spelled?_print (Config.finite_toJson (Config.finite_of_load hload))
  · intro hcommand
    obtain ⟨rows, hrows, hdescribed⟩ := plugins_of_builtin hbuiltin request.format
      { files := fs, memory := (), log := [] }
    have hperform : (perform request config { files := fs, memory := (), log := [] }).1 =
        .ok (PluginRow.print rows request.format) := by
      rw [perform, hcommand]
      exact hrows
    obtain ⟨hstatus, houtput⟩ := outcome_of_ok hload hperform
    refine ⟨hstatus, rows, hdescribed, ?_⟩
    rw [houtput]
    exact PluginRow.shown_print
      (printable_of_describes hbuiltin (Config.finite_of_load hload) hdescribed) request.format

/-- A page under four entries, the first of which has an option that its plugin refuses. -/
def site : FileSystem :=
  (({} : FileSystem).plant "docpipe.toml" (some
    ("[[plugins]]\nname = \"exclude-private\"\noption = 7\n"
      ++ "[[plugins]]\nname = \"inject-script\"\noption = \x7bscripts = [\"a.js\"]\x7d\n"
      ++ "[[plugins]]\nname = \"run-stats\"\n"
      ++ "[[plugins]]\nname = \"inject-script\"\noption = [[\"b.js\"]]\n").toUTF8)).plant
    "index.html" (some "<body></body>".toUTF8)

/-- The sources that an entry asks for. -/
def asked (e : PluginEntry) : List String := (InjectScript.sources? e.option).getD []

/-- What the configuration says of its entries. -/
theorem load_site :
    (Config.load site [] "docpipe.toml").toOption.map (fun config =>
      (config.plugins.all fun e => e.name ∈ identifiers,
        (injecting config.plugins).all fun e => (InjectScript.sources? e.option).isSome,
        (injecting config.plugins).flatMap asked)) = some (true, true, ["a.js", "b.js"]) := by
  decide +kernel

/-- The page gets the scripts of the two entries that ask for some. -/
theorem call_with_builtins_page :
    (call ["content", "index.html"] [] site).status = 0 ∧
      (call ["content", "index.html"] [] site).output =
        "<body><script src=\"a.js\"></script>\n<script src=\"b.js\"></script>\n</body>" := by
  have hfile := load_site
  cases hload : Config.load site [] "docpipe.toml" with
  | error f =>
    rw [hload] at hfile
    cases hfile
  | ok config =>
    rw [hload] at hfile
    obtain ⟨hnames, hfile⟩ := Prod.mk.inj (Option.some.inj hfile)
    obtain ⟨hoptions, hscripts⟩ := Prod.mk.inj hfile
    have hbuiltin : ∀ e ∈ config.plugins, e.name ∈ identifiers := by
      intro e he
      exact of_decide_eq_true (List.all_eq_true.mp hnames e he)
    have hsources : ∀ e ∈ injecting config.plugins,
        InjectScript.SpellsScripts e.option (asked e) := by
      intro e he
      obtain ⟨sources, hsources⟩ := Option.isSome_iff_exists.mp (List.all_eq_true.mp hoptions e he)
      rw [asked, hsources]
      exact InjectScript.sources?_eq_some_iff.mp hsources
    have hargs : Request.ofArgs ["content", "index.html"] =
        .ok (.run ⟨"docpipe.toml", .table, .content "index.html" none⟩) := rfl
    have hread : site.readText "index.html" = .ok "<body></body>" := by decide +kernel
    obtain ⟨-, hcontent, -, -⟩ := call_with_builtins hargs hload hbuiltin
    obtain ⟨-, hprinted⟩ := hcontent "index.html" none "<body></body>" rfl hread
    obtain ⟨hstatus, htagged⟩ := hprinted asked hsources
    have hpage : ".html".toList <:+ (reportedName "index.html" none).toList := by decide +kernel
    have hlast : ¬ InjectScript.bodyEnd <:+: "</body>".toList.tail := by decide +kernel
    have houtput :=
      htagged.inserted "<body>".toList "</body>".toList hpage rfl List.prefix_rfl hlast
    rw [hscripts] at houtput
    have htext : "<body>".toList ++ InjectScript.tags ["a.js", "b.js"] ++ "</body>".toList =
        "<body><script src=\"a.js\"></script>\n<script src=\"b.js\"></script>\n</body>".toList := by
      decide +kernel
    exact ⟨hstatus, String.toList_injective (houtput.trans htext)⟩

end Cli

end PluginChain
