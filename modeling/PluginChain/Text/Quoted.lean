import PluginChain.Text.Unprintable
set_option autoImplicit false

/-!
# Quoted text

A text shown to a reader inside double quotes, so that its ends and every
character are visible.  The quote and the backslash are escaped, tab, line feed,
carriage return and the null character have letters, and any other character
without a visible form stands as `\u` and its number in braces.  `quote` returns
the text with its quotes.
-/

namespace PluginChain.Quoted

/-- The number of a character in lower-case hexadecimal digits. -/
def hexNumber (c : Char) : List Char := Nat.toDigits 16 c.toNat

/-- One character as it stands between the quotes. -/
def escape (c : Char) : List Char :=
  if c = '"' then ['\\', '"']
  else if c = '\\' then ['\\', '\\']
  else if c = '\n' then ['\\', 'n']
  else if c = '\r' then ['\\', 'r']
  else if c = '\t' then ['\\', 't']
  else if c.toNat = 0 then ['\\', '0']
  else if Unprintable.isUnprintable c then ['\\', 'u', '\x7b'] ++ hexNumber c ++ ['\x7d']
  else [c]

/-- The characters of a text between double quotes. -/
def quoteChars (s : List Char) : List Char :=
  '"' :: s.flatMap escape ++ ['"']

/-- A text between double quotes. -/
def quote (s : String) : String := String.ofList (quoteChars s.toList)

example : quote "a\"b\n" = "\"a\\\"b\\n\"" := by decide +kernel

end PluginChain.Quoted
