import PluginChain.Text.CodeRange
set_option autoImplicit false

/-!
# Ignorable characters

The table lists, as inclusive ranges of code points, the characters with the
Unicode property `Default_Ignorable_Code_Point`: joiners, fillers, variation
selectors, and the places set aside for more of them.  A display that knows
nothing of such a character shows nothing for it.
-/

namespace PluginChain.Ignorable

/-- The ranges, in increasing order. -/
def ranges : CodeRange.Table := [
  (0xad, 0xad), (0x34f, 0x34f), (0x61c, 0x61c), (0x115f, 0x1160), (0x17b4, 0x17b5),
  (0x180b, 0x180f), (0x200b, 0x200f), (0x202a, 0x202e), (0x2060, 0x206f), (0x3164, 0x3164),
  (0xfe00, 0xfe0f), (0xfeff, 0xfeff), (0xffa0, 0xffa0), (0xfff0, 0xfff8), (0x1bca0, 0x1bca3),
  (0x1d173, 0x1d17a), (0xe0000, 0xe0fff)]

/-- Whether a display may show nothing for the character. -/
def isIgnorable (c : Char) : Bool :=
  0x7f < c.toNat && CodeRange.holds ranges c.toNat

example : isIgnorable (Char.ofNat 0x3164) = true := by decide +kernel

end PluginChain.Ignorable
