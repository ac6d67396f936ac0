set_option autoImplicit false

/-!
# UTF-8 bytes as text

`ofBytes?` reads bytes that are UTF-8 and refuses all others.  `ofBytesLossy`
reads any bytes: a character that breaks off, or a byte that cannot begin one,
becomes the replacement character, and reading goes on at the byte that did not
fit.  `withoutMark` drops a leading byte order mark.
-/

namespace PluginChain.Utf8

/-- The character that stands for bytes that are no UTF-8. -/
def replacement : Char := Char.ofNat 0xfffd

/-- Where a reader stands between two bytes: between characters, or inside one
that still owes bytes, the next of which lies between two bounds. -/
inductive Reading where
  | between
  | inside (owed : Nat) (low high : Nat) (code : Nat)
  deriving DecidableEq, Repr, Inhabited

/-- One byte read between characters. -/
def first (b : Nat) : List Char × Reading :=
  if b ≤ 0x7f then ([Char.ofNat b], .between)
  else if 0xc2 ≤ b ∧ b ≤ 0xdf then ([], .inside 1 0x80 0xbf (b - 0xc0))
  else if b = 0xe0 then ([], .inside 2 0xa0 0xbf 0)
  else if b = 0xed then ([], .inside 2 0x80 0x9f 0xd)
  else if 0xe1 ≤ b ∧ b ≤ 0xef then ([], .inside 2 0x80 0xbf (b - 0xe0))
  else if b = 0xf0 then ([], .inside 3 0x90 0xbf 0)
  else if b = 0xf4 then ([], .inside 3 0x80 0x8f 4)
  else if 0xf1 ≤ b ∧ b ≤ 0xf3 then ([], .inside 3 0x80 0xbf (b - 0xf0))
  else ([replacement], .between)

/-- One byte read anywhere. -/
def next : Reading → Nat → List Char × Reading
  | .between, b => first b
  | .inside owed low high code, b =>
    if low ≤ b ∧ b ≤ high then
      let code := code * 64 + b % 64
      if owed ≤ 1 then ([Char.ofNat code], .between)
      else ([], .inside (owed - 1) 0x80 0xbf code)
    else
      -- The character breaks off here, and the byte is read afresh.
      let (cs, r) := first b
      (replacement :: cs, r)

/-- The characters of a list of bytes from a state on. -/
def read : Reading → List UInt8 → List Char
  | .between, [] => []
  | .inside _ _ _ _, [] => [replacement]
  | r, b :: bs =>
    let (cs, r) := next r b.toNat
    cs ++ read r bs

/-- The text of bytes of any kind. -/
def ofBytesLossy (bytes : ByteArray) : String :=
  match String.fromUTF8? bytes with
  | some s => s
  | none => String.ofList (read .between bytes.toList)

/-- The text of bytes that are UTF-8. -/
def ofBytes? (bytes : ByteArray) : Option String := String.fromUTF8? bytes

/-- The bytes without the three bytes of a leading byte order mark. -/
def withoutMark (bytes : ByteArray) : ByteArray :=
  match bytes.toList with
  | 0xef :: 0xbb :: 0xbf :: rest => ByteArray.mk rest.toArray
  | _ => bytes

/-- What a text was encoded to is read back as that text. -/
theorem ofBytes?_toUTF8 (s : String) : ofBytes? s.toUTF8 = some s := by
  simp [ofBytes?, String.fromUTF8?, s.isValidUTF8, String.fromUTF8]

theorem ofBytesLossy_toUTF8 (s : String) : ofBytesLossy s.toUTF8 = s := by
  have h := ofBytes?_toUTF8 s
  simp only [ofBytes?] at h
  simp only [ofBytesLossy, h]

example : read .between [0x61, 0xe2, 0x82, 0x41] = ['a', replacement, 'A'] := by decide

end PluginChain.Utf8
