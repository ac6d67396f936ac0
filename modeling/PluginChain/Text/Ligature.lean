import PluginChain.Text.Combining
import PluginChain.Text.Ignorable
set_option autoImplicit false

/-!
# Ligatures

In some scripts a few letters that meet are shown as one.  A text is looked at
from its end, so that a ligature is known by its `Tail`: the part of it that has
been met already.  `opening?` says which characters can stand at the end of a
ligature, `extend?` what the character in front of a tail does: it may complete the
ligature, be a further part of it, or be one that the ligature does not mind.
-/

namespace PluginChain.Ligature

/-- The part of a ligature that follows a place in a text. -/
inductive Tail where
  /-- the Arabic letter alef in one of its forms -/
  | alef
  /-- the Hebrew letter lamed, and whether a joiner stands in front of it -/
  | lamed (joined : Bool)
  /-- the Buginese letter ya, and whether a joiner stands in front of it -/
  | ya (joined : Bool)
  /-- the Buginese vowel sign i before a joined ya -/
  | vowelBeforeYa
  /-- a Tifinagh consonant, and whether a joiner stands in front of it -/
  | consonant (joined : Bool)
  /-- the Tifinagh joining sign before a consonant -/
  | signBeforeConsonant
  /-- the second tone letter of a Lisu pair -/
  | tone
  /-- the Old Turkic letter i, and whether a joiner stands in front of it -/
  | orkhonI (joined : Bool)
  /-- a Khmer letter that can stand below another one -/
  | subjoinable
  deriving DecidableEq, Repr, Inhabited

/-- The forms of the Arabic letter alef. -/
def alefs : CodeRange.Table := [
  (0x622, 0x623), (0x625, 0x625), (0x627, 0x627), (0x671, 0x673), (0x675, 0x675),
  (0x773, 0x774), (0x870, 0x882)]

/-- The forms of the Arabic letter lam. -/
def lams : CodeRange.Table := [
  (0x644, 0x644), (0x6b5, 0x6b8), (0x76a, 0x76a), (0x8a6, 0x8a6), (0x8c7, 0x8c7)]

/-- The Khmer letters that have a form below another letter. -/
def subjoinables : CodeRange.Table := [
  (0x1780, 0x1782), (0x1784, 0x1787), (0x1789, 0x178c), (0x178e, 0x1793), (0x1795, 0x1798),
  (0x179b, 0x179d), (0x17a0, 0x17a0), (0x17a2, 0x17a2), (0x17a7, 0x17a7), (0x17ab, 0x17ac),
  (0x17af, 0x17af)]

/-- Tifinagh consonants. -/
def consonants : CodeRange.Table := [(0x2d31, 0x2d65), (0x2d6f, 0x2d6f)]

/-- Extending characters that are not set upon the letter before them. -/
def spacing : CodeRange.Table := [
  (0x9be, 0x9be), (0x9d7, 0x9d7), (0xb3e, 0xb3e), (0xb57, 0xb57), (0xbbe, 0xbbe),
  (0xbd7, 0xbd7), (0xcc0, 0xcc0), (0xcc2, 0xcc2), (0xcc7, 0xcc8), (0xcca, 0xccb),
  (0xcd5, 0xcd6), (0xd3e, 0xd3e), (0xd57, 0xd57), (0xdcf, 0xdcf), (0xddf, 0xddf),
  (0x1715, 0x1715), (0x1734, 0x1734), (0x1b35, 0x1b35), (0x1b3b, 0x1b3b), (0x1b3d, 0x1b3d),
  (0x1b43, 0x1b44), (0x1baa, 0x1baa), (0x1bf2, 0x1bf3), (0x200c, 0x200c), (0x2d7f, 0x2d7f),
  (0x302e, 0x302f), (0xa953, 0xa953), (0xa9c0, 0xa9c0), (0x111c0, 0x111c0),
  (0x11235, 0x11235), (0x1133e, 0x1133e), (0x1134d, 0x1134d), (0x11357, 0x11357),
  (0x113b8, 0x113b8), (0x113c2, 0x113c2), (0x113c5, 0x113c5), (0x113c7, 0x113c9),
  (0x113cf, 0x113cf), (0x114b0, 0x114b0), (0x114bd, 0x114bd), (0x115af, 0x115af),
  (0x116b6, 0x116b6), (0x11930, 0x11930), (0x1193d, 0x1193d), (0x11f41, 0x11f41),
  (0x16ff0, 0x16ff1), (0x1d165, 0x1d166), (0x1d16d, 0x1d172)]

/-- Signs without a form that do not keep the letters on their sides from joining. -/
def steering : CodeRange.Table := [
  (0xad, 0xad), (0x61c, 0x61c), (0x70f, 0x70f), (0x200b, 0x200b), (0x200e, 0x200f),
  (0x202a, 0x202e), (0x2060, 0x2064), (0x206a, 0x206f), (0xfeff, 0xfeff),
  (0x1bca0, 0x1bca3), (0x1d173, 0x1d17a), (0xe0001, 0xe0001)]

/-- Whether Arabic letters join across the character. -/
def isTransparent (c : Char) : Bool :=
  (Combining.isExtending c && !CodeRange.holds spacing c.toNat) || CodeRange.holds steering c.toNat

/-- Whether the parts of a ligature of another script may stand on both sides of the
character: marks that are ignorable. -/
def isSilent (c : Char) : Bool :=
  Combining.isExtending c && Ignorable.isIgnorable c && c.toNat ≠ 0x200c
    && !(0xe0020 ≤ c.toNat && c.toNat ≤ 0xe007f)

/-- The tail that the character makes at the end of a ligature. -/
def opening? (c : Char) : Option Tail :=
  let n := c.toNat
  if CodeRange.holds alefs n then some .alef
  else if n = 0x5dc then some (.lamed false)
  else if n = 0x1a10 then some (.ya false)
  else if CodeRange.holds consonants n then some (.consonant false)
  else if 0xa4fc ≤ n ∧ n ≤ 0xa4fd then some .tone
  else if n = 0x10c03 then some (.orkhonI false)
  else if CodeRange.holds subjoinables n then some .subjoinable
  else none

/-- The tail with a joiner in front of it.  Arabic letters join without one. -/
def Tail.join? : Tail → Option Tail
  | .alef => none
  | .lamed _ => some (.lamed true)
  | .ya _ => some (.ya true)
  | .consonant _ => some (.consonant true)
  | .orkhonI _ => some (.orkhonI true)
  | t => some t

/-- What a character in front of a tail does: the columns it adds to those that the
tail has, and the tail that remains. -/
def extend? (t : Tail) (c : Char) : Option (Int × Option Tail) :=
  let n := c.toNat
  if n = 0x200d ∧ t ≠ .alef then some (0, t.join?)
  else if isSilent c then some (0, some t)
  else match t with
    | .alef =>
      if CodeRange.holds lams n then some (0, none)
      else if isTransparent c then some (0, some .alef) else none
    | .lamed true => if n = 0x5d0 then some (0, none) else none
    | .ya true => if n = 0x1a17 then some (0, some .vowelBeforeYa) else none
    | .vowelBeforeYa => if n = 0x1a15 then some (0, none) else none
    | .consonant joined =>
      if n = 0x2d7f then some (1, some .signBeforeConsonant)
      else if joined && CodeRange.holds consonants n then some (0, none) else none
    | .signBeforeConsonant => if CodeRange.holds consonants n then some (-1, none) else none
    | .tone => if 0xa4f8 ≤ n ∧ n ≤ 0xa4fb then some (0, none) else none
    | .orkhonI true => if n = 0x10c32 then some (0, none) else none
    | .subjoinable => if n = 0x17d2 then some (-1, none) else none
    | _ => none

example : extend? .alef (Char.ofNat 0x644) = some (0, none) := by decide +kernel

end PluginChain.Ligature
