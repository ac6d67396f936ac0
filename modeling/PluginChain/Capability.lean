import PluginChain.Host
import PluginChain.Json.Describe
set_option autoImplicit false

/-!
# What a host lends to plugins

Some hooks hand plugins a working part of the host: a parser, a factory for
documentation records, the operations that write the output.  A part is `Shared`:
it is handed on as it is, and two are the same one when they bear the same mark.
-/

namespace PluginChain

/-- A part that is handed on as it is, with a mark that tells it from others. -/
structure Shared (α : Type) where
  mark : Nat
  part : α
  deriving Inhabited

namespace Shared

variable {α : Type}

/-- Whether two parts are the same one. -/
def isSame (a b : Shared α) : Bool := a.mark == b.mark

@[simp] theorem isSame_self (a : Shared α) : a.isSame a = true := by
  simp [isSame]

end Shared

/-- Makes a syntax tree of source text under some options. -/
abbrev CodeParser := String → Json → Except Fault Json

/-- Reads the description of one parameter. -/
abbrev ParamParser := String → Except Fault Json

/-- Splits a comment into its tags. -/
abbrev CommentParser := String → Except Fault (List Json)

/-- Makes a syntax tree of a source file, from its text and its path. -/
abbrev SyntaxParser := String → String → Except Fault Json

/-- Builds documentation records of one kind. -/
structure DocFactory where
  kind : String
  /-- Makes the record for a node in the tree of the file at a path, given the
  tree, the node and the path. -/
  create : Json → Json → String → Except Fault Json

instance : Inhabited DocFactory := ⟨⟨"", fun _ _ _ => .ok .null⟩⟩

/-- The parsers of the host that plugins may use to build a factory. -/
structure ParsingCapabilities where
  paramParser : ParamParser
  commentParser : CommentParser
  syntaxParser : SyntaxParser

namespace ParsingCapabilities

/-- The capabilities for a developer; what they do cannot be shown. -/
def describe (_ : ParsingCapabilities) : String := "ParsingCapabilities \x7b .. \x7d"

end ParsingCapabilities

/-- Copies a file or a directory to a path in the output. -/
abbrev CopyOperation (ω : Type) := String → String → Effect ω Unit

/-! ## Data of the hooks that lend a part -/

/-- The data of the hook for source text. -/
structure CodeData where
  code : String
  filePath : String
  deriving DecidableEq, Repr, Inhabited

/-- The data of the hook that chooses a parser. -/
structure CodeParserData where
  parser : Shared CodeParser
  parserOption : Json
  filePath : String
  code : String

/-- The data of the hook that chooses a factory. -/
structure DocClassData where
  kind : String
  factory : Shared DocFactory
  parsers : ParsingCapabilities

/-- The data of the hook for syntax trees. -/
structure AstData where
  ast : Json
  filePath : String
  code : String
  deriving Inhabited

/-- The data of the publish hook.  The two copy operations are one under two
names, as the host hands them out. -/
structure PublishData (ω : Type) where
  /-- Writes a text to a path in the output. -/
  write : String → String → Effect ω Unit
  copyFile : Shared (CopyOperation ω)
  copyDir : Shared (CopyOperation ω)
  /-- Reads the text at a path in the output. -/
  read : String → Effect ω String

namespace CodeParserData

/-- The data for a developer: the parser by a placeholder, the source text by its
length in bytes. -/
def describe (d : CodeParserData) : String :=
  "CodeParserData \x7b parser: \"<parser>\", parser_option: " ++ d.parserOption.describe
    ++ ", file_path: " ++ Quoted.quote d.filePath
    ++ ", code_len: " ++ toString d.code.utf8ByteSize ++ " \x7d"

end CodeParserData

namespace DocClassData

/-- The data for a developer: the factory by its kind, the parsers left out. -/
def describe (d : DocClassData) : String :=
  "DocClassData \x7b kind: " ++ Quoted.quote d.kind ++ ", class: "
    ++ Quoted.quote d.factory.part.kind ++ ", .. \x7d"

end DocClassData

namespace PublishData

/-- The data for a developer; what the operations do cannot be shown. -/
def describe {ω : Type} (_ : PublishData ω) : String := "PublishData \x7b .. \x7d"

end PublishData

end PluginChain
