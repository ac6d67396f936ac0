import PluginChain.Settings.Scalar
set_option autoImplicit false

/-!
# TOML values

The values of a TOML document.  Dates and times are texts in their normal form,
which is all that a reader of settings wants of them.
-/

namespace PluginChain

/-- A TOML value.  A scalar is never absent, and the keys of a table are distinct. -/
inductive Toml where
  | scalar (v : Scalar)
  | array (items : List Toml)
  | table (fields : List (String × Toml))
  deriving Inhabited

/-- Why a text is no TOML document. -/
inductive TomlProblem where
  /-- Something else was expected here. -/
  | expected (what : String)
  /-- A key is defined twice, or in two ways that exclude each other. -/
  | duplicateKey (key : String)
  /-- A number needs more than 64 bits. -/
  | numberOutOfRange
  /-- Arrays and tables stand in one another too deeply. -/
  | nestedTooDeeply
  deriving DecidableEq, Repr, Inhabited

namespace TomlProblem

/-- The problem in words. -/
def message : TomlProblem → String
  | .expected what => "expected " ++ what
  | .duplicateKey key => "duplicate key `" ++ key ++ "`"
  | .numberOutOfRange => "number out of range"
  | .nestedTooDeeply => "nested too deeply"

end TomlProblem

end PluginChain
