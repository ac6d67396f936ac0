import PluginChain.Text.Ligature
import PluginChain.Text.Pictograph
import PluginChain.Text.Wide
set_option autoImplicit false

/-!
# Display columns

The width of a text on a display with cells of one size.  East Asian wide
characters and pictographs take two columns, extending, ignorable and joining
characters none, nearly all others one.  Characters that are shown as one, such as a
pictograph with its skin tone or the letters of a ligature, have the columns of what is
shown.

A text is measured from its end.  `step` takes one character together with the `Context`
that the characters behind it make, and gives the columns that the character adds.
-/

namespace PluginChain.Columns

/-! ## Single characters -/

/-- Characters without a column that are neither extending nor ignorable: number
signs that enclose what follows them, letters that are written onto the next one, the
inner letters of composed Hangul, and places set aside for marks. -/
def attached : CodeRange.Table := [
  (0x5c8, 0x5c8), (0x605, 0x605), (0x70f, 0x70f), (0x890, 0x891), (0x8e2, 0x8e2),
  (0xb53, 0xb54), (0xd4e, 0xd4e), (0x1161, 0x11ff), (0x1ade, 0x1adf), (0x1aec, 0x1af0),
  (0xa8fa, 0xa8fa), (0xd7b0, 0xd7c6), (0xd7cb, 0xd7fb), (0x111c2, 0x111c3),
  (0x113d1, 0x113d1), (0x1193f, 0x1193f), (0x11941, 0x11941), (0x11a84, 0x11a89),
  (0x11d46, 0x11d46), (0x11f02, 0x11f02)]

/-- Whether the character takes no column.  The filler for the first letter of a
composed Hangul syllable holds the place of the syllable, and the Tifinagh joining sign
can be seen. -/
def isZeroWidth (c : Char) : Bool :=
  (Combining.isExtending c || Ignorable.isIgnorable c || CodeRange.holds attached c.toNat)
    && c.toNat ≠ 0x115f && c.toNat ≠ 0x2d7f

/-- The number of columns of one character by itself. -/
def ofChar (c : Char) : Nat :=
  if c.toNat ≤ 0xa0 then 1
  else if isZeroWidth c then 0
  else if Wide.isWide c then 2
  else if c.toNat = 0x17a4 then 2
  else if c.toNat = 0x17d8 then 3
  else 1

/-! ## Characters in their context -/

/-- A sign behind a character that selects one of its forms. -/
inductive Selector where
  /-- the form of a picture -/
  | picture
  /-- the form of plain text -/
  | text
  /-- the form in a full square, for quotation marks -/
  | fullSquare
  deriving DecidableEq, Repr, Inhabited

/-- What the characters behind a place begin with. -/
inductive Following where
  /-- nothing that matters -/
  | other
  /-- a line feed -/
  | lineFeed
  /-- a picture -/
  | picture
  /-- a skin tone -/
  | skinTone
  /-- a regional indicator -/
  | flagLetter
  /-- several regional indicators -/
  | flagLetters
  /-- a joiner and a picture -/
  | joined
  /-- the frame of a key, a joiner and a picture -/
  | joinedKey
  /-- a regional indicator, a joiner and a picture -/
  | joinedFlagLetter
  /-- regional indicators in whole pairs, a joiner and a picture -/
  | joinedFlags
  /-- one more regional indicator than that -/
  | joinedFlagsLetter
  /-- the tags of a flag, of which letters and digits are counted, a joiner and a picture -/
  | joinedTags (letters digits : Nat)
  /-- the Kirat Rai vowel sign e -/
  | vowelE
  /-- the Kirat Rai vowel sign ai -/
  | vowelAi
  /-- the end of a ligature -/
  | tail (t : Ligature.Tail)
  deriving DecidableEq, Repr, Inhabited

/-- What stands behind a character, as far as it matters for the columns of the
character. -/
structure Context where
  selector : Option Selector := none
  following : Following := .other
  deriving DecidableEq, Repr, Inhabited

namespace Following

/-- A selector of the form of text or of the full square hides all but a ligature. -/
def underSelector : Following → Following
  | .tail t => .tail t
  | _ => .other

/-- A selector of the form of a picture also leaves a joiner in view. -/
def underPictureSelector : Following → Following
  | .tail t => .tail t
  | .joined => .joined
  | .joinedKey => .joinedKey
  | _ => .other

/-- Whether the character in front is joined to a picture. -/
def isJoined : Following → Bool
  | .joined | .joinedKey => true
  | _ => false

/-- What the character makes of a place where nothing that matters follows. -/
def opening (c : Char) : Following :=
  let n := c.toNat
  if Pictograph.isFlagLetter c then .flagLetter
  else if Pictograph.isSkinTone c then .skinTone
  else if Pictograph.isPictograph c then .picture
  else if n = 0x16d67 then .vowelE
  else if n = 0x16d68 then .vowelAi
  else match Ligature.opening? c with
    | some t => .tail t
    | none => .other

/-- A character in front of pictures, regional indicators, tags or Kirat Rai vowel signs:
the columns that it adds to those behind it, and what follows the next place. -/
def extend? (f : Following) (c : Char) : Option (Int × Following) :=
  let n := c.toNat
  let tagLetter := 0xe0061 ≤ n && n ≤ 0xe007a
  let tagDigit := 0xe0030 ≤ n && n ≤ 0xe0039
  match f with
  | .picture | .flagLetters | .joinedFlags | .joinedFlagsLetter =>
    if n = 0x200d then some (0, .joined)
    else if f = .flagLetters && Pictograph.isFlagLetter c then some (1, .flagLetters)
    else if f = .joinedFlags && Pictograph.isFlagLetter c then some (3, .joinedFlagsLetter)
    else if f = .joinedFlagsLetter && Pictograph.isFlagLetter c then some (-1, .joinedFlags)
    else none
  | .skinTone =>
    if Pictograph.takesSkinTone c then some (0, .picture)
    else if n = 0x200d then some (0, .joined)
    else none
  | .flagLetter => if Pictograph.isFlagLetter c then some (1, .flagLetters) else none
  | .joined =>
    if n = 0x20e3 then some (0, .joinedKey)
    else if Pictograph.isFlagLetter c then some (1, .joinedFlagLetter)
    else if Pictograph.isSkinTone c then some (0, .skinTone)
    else if n = 0xe007f then some (0, .joinedTags 0 0)
    else if Pictograph.isPictograph c then some (0, .picture)
    else none
  | .joinedFlagLetter =>
    if Pictograph.isFlagLetter c then some (-1, .joinedFlags) else none
  | .joinedTags letters digits =>
    if tagLetter && digits = 0 && letters < 6 then some (0, .joinedTags (letters + 1) 0)
    else if tagDigit && digits = 0 && letters ≤ 4 then some (0, .joinedTags 0 1)
    else if tagDigit && 0 < digits && digits < 3 then some (0, .joinedTags 0 (digits + 1))
    else if n = 0x1f3f4 && (3 ≤ letters || digits = 3) then some (0, .picture)
    else none
  | .vowelE =>
    if n = 0x16d63 || n = 0x16d69 then some (0, .other)
    else if n = 0x16d67 then some (0, .vowelAi)
    else if n = 0x16d68 then some (1, .vowelE)
    else none
  | .vowelAi => if n = 0x16d63 then some (0, .other) else none
  | .tail t =>
    match Ligature.extend? t c with
    | some (columns, some t) => some (columns, .tail t)
    | some (columns, none) => some (columns, .other)
    | none => none
  | _ => none

end Following

/-- The selector that the character is. -/
def selector? (c : Char) : Option Selector :=
  if c.toNat = 0xfe0f then some .picture
  else if c.toNat = 0xfe0e then some .text
  else if c.toNat = 0xfe01 then some .fullSquare
  else none

/-- Whether the character is a quotation mark with a form in a full square. -/
def isQuotationMark (c : Char) : Bool :=
  c.toNat = 0x2018 || c.toNat = 0x2019 || c.toNat = 0x201c || c.toNat = 0x201d

/-- A character before which no selector stands: the columns that it adds and the
context of the next place. -/
def plainStep (c : Char) (f : Following) : Int × Context :=
  if c = '\n' then (1, ⟨none, .lineFeed⟩)
  else if c = '\r' && f = .lineFeed then (0, ⟨none, .other⟩)
  else if c.toNat ≤ 0xa0 then (1, ⟨none, .other⟩)
  else match selector? c with
    | some .picture => (0, ⟨some .picture, f.underPictureSelector⟩)
    | some s => (0, ⟨some s, f.underSelector⟩)
    | none =>
      match f.extend? c with
      | some (columns, g) => (columns, ⟨none, g⟩)
      | none => (ofChar c, ⟨none, Following.opening c⟩)

/-- One character in its context: the columns that it adds to those behind it and
the context of the next place. -/
def step (c : Char) (ctx : Context) : Int × Context :=
  match ctx.selector with
  | some .picture =>
    if Pictograph.takesPictureForm c then
      (if ctx.following.isJoined then 0 else 2, ⟨none, .picture⟩)
    else plainStep c ctx.following.underSelector
  | some .text =>
    if Pictograph.takesTextForm c then (1, ⟨none, .other⟩) else plainStep c ctx.following
  | some .fullSquare =>
    if isQuotationMark c then (2, ⟨none, .other⟩) else plainStep c ctx.following
  | none => plainStep c ctx.following

/-! ## Texts -/

/-- The columns and the context of a text in front of a text of which these are
known. -/
def measureBefore (rest : Int × Context) : List Char → Int × Context
  | [] => rest
  | c :: s =>
    let behind := measureBefore rest s
    let here := step c behind.2
    (behind.1 + here.1, here.2)

/-- The columns of a text and the context that it makes. -/
def measure (s : List Char) : Int × Context := measureBefore (0, ⟨none, .other⟩) s

/-- The number of columns of a text. -/
def width (s : List Char) : Nat := (measure s).1.toNat

/-- The text followed by blanks up to the given number of columns. -/
def padRight (s : List Char) (columns : Nat) : List Char :=
  s ++ List.replicate (columns - width s) ' '

example : width [Char.ofNat 0x65e5, 'a'] = 3 := by decide +kernel

example : width [Char.ofNat 0x1f44d, Char.ofNat 0x1f3fd] = 2 := by decide +kernel

example : width [Char.ofNat 0x644, Char.ofNat 0x627] = 1 := by decide +kernel

end PluginChain.Columns
