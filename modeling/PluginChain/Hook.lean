import PluginChain.Json.Read
set_option autoImplicit false

/-!
# Hooks

The eleven points of a documentation run at which plugins may take part, in the
order in which a run reaches them.
-/

namespace PluginChain

/-- A point of a run at which plugins may take part. -/
inductive Hook where
  /-- The plugin list is about to be used. -/
  | plugins
  /-- The run starts. -/
  | start
  /-- The configuration has been loaded. -/
  | config
  /-- A source file has been read. -/
  | code
  /-- The parser for a source file is chosen. -/
  | codeParser
  /-- The factory for a kind of documentation record is chosen. -/
  | docClass
  /-- A source file has been parsed. -/
  | ast
  /-- All documentation records have been made. -/
  | docs
  /-- The output is published. -/
  | publish
  /-- An output file has been rendered. -/
  | content
  /-- The run is complete. -/
  | complete
  deriving DecidableEq, Repr, Inhabited

namespace Hook

/-- The name of the hook. -/
def name : Hook → String
  | .plugins => "on_handle_plugins"
  | .start => "on_start"
  | .config => "on_handle_config"
  | .code => "on_handle_code"
  | .codeParser => "on_handle_code_parser"
  | .docClass => "on_handle_doc_class"
  | .ast => "on_handle_ast"
  | .docs => "on_handle_docs"
  | .publish => "on_publish"
  | .content => "on_handle_content"
  | .complete => "on_complete"

/-- All hooks, in the order of a run. -/
def all : List Hook :=
  [.plugins, .start, .config, .code, .codeParser, .docClass, .ast, .docs, .publish, .content,
    .complete]

/-- The hook that a JSON value names. -/
def ofJson (v : Json) : Except Mismatch Hook :=
  Json.readMember (all.map fun h => (h.name, h)) v

/-- The place of the hook in a run. -/
def index (h : Hook) : Nat := all.idxOf h

theorem mem_all (h : Hook) : h ∈ all := by
  cases h <;> simp [all]

/-- The name of a hook is read back as that hook. -/
theorem ofJson_name (h : Hook) : ofJson (.str h.name) = .ok h := by
  cases h <;> rfl

end Hook

end PluginChain
