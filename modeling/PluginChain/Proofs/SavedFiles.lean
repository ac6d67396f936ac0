import PluginChain.ConfigFile
import PluginChain.Proofs.OrderedKeys
import PluginChain.Proofs.ReadBack
set_option autoImplicit false

/-!
# Files that are found where they were written

A configuration's file is looked for at its path as it is spelled out from the root.  In a
sound tree that path means the same place as the path itself, and it ends in the same name,
so a file that was written is found there and has the format of its extension.  What it
holds is read as text without a byte order mark, which no text of a JSON value has: such a
text begins with a character of ASCII.
-/

namespace PluginChain

/-! ## The text of a value -/

namespace Json

/-- No value begins with a character beyond ASCII: the reader stops where it stands. -/
theorem takeValue_of_beyond_ascii {c : Cursor} {first : Char} {rest : List Char}
    (hc : c.rest = first :: rest) (hbeyond : 128 ≤ first.toNat) (depth : Nat) :
    takeValue depth c = c.failAtNext .expectedValue := by
  have hother (ch : Char) (hascii : ch.toNat < 128) : first ≠ ch := by
    rintro rfl
    exact Nat.not_lt.mpr hbeyond hascii
  have hdigit : first.isDigit = false := by
    rw [← Bool.not_eq_true, Char.isDigit, Bool.and_eq_true, decide_eq_true_eq, decide_eq_true_eq]
    rintro ⟨-, hnine⟩
    have hsmall : first.toNat ≤ 57 := UInt32.le_iff_toNat_le.mp hnine
    omega
  have hblank : Cursor.isBlank first = false := by
    simp [Cursor.isBlank, hother]
  have hstart : c.skipBlanks = c := by
    obtain ⟨_, line, column⟩ := c
    obtain rfl := hc
    simp [Cursor.skipBlanks, Cursor.skipBlanks.go, hblank, hother]
  unfold takeValue
  simp only [hstart, hc]
  split
  all_goals first | exact absurd rfl (hother _ (by decide)) | skip
  simp [hdigit]

/-- A text that holds a value begins with a character of ASCII: a blank, or the first
character of the value. -/
theorem exists_ascii_of_parse {s : String} {v : Json} (h : parse s = .ok v) :
    ∃ first rest, s.toList = first :: rest ∧ first.toNat < 128 := by
  cases hs : s.toList with
  | nil =>
    obtain rfl := String.toList_eq_nil_iff.mp hs
    have hempty : (parse "").toOption.isNone = true := by decide +kernel
    rw [h] at hempty
    cases hempty
  | cons first rest =>
    refine ⟨first, rest, rfl, ?_⟩
    by_contra hbig
    unfold parse at h
    rw [takeValue_of_beyond_ascii hs (Nat.not_lt.mp hbig)] at h
    obtain ⟨a, ha, -⟩ := Except.bind_eq_ok_iff.mp h
    exact Cursor.failAtNext_ne_ok ha

end Json

namespace Utf8

/-- The bytes from a position on stand behind those that were taken. -/
theorem toList_loop (bytes : ByteArray) (i : Nat) (taken : List UInt8) :
    ByteArray.toList.loop bytes i taken = taken.reverse ++ bytes.data.toList.drop i := by
  induction hleft : bytes.size - i generalizing i taken with
  | zero =>
    have hend : bytes.size ≤ i := Nat.sub_eq_zero_iff_le.mp hleft
    rw [ByteArray.toList.loop, if_neg (Nat.not_lt.mpr hend), List.drop_eq_nil_of_le hend,
      List.append_nil]
  | succ left ih =>
    have hi : i < bytes.size := by omega
    have hlength : i < bytes.data.toList.length := hi
    have hget : bytes.get! i = bytes.data.toList[i] := getElem!_pos bytes.data i hi
    rw [ByteArray.toList.loop, if_pos hi, ih _ _ (by omega), hget, List.reverse_cons,
      List.append_assoc, List.singleton_append, ← List.drop_eq_getElem_cons]

/-- The bytes of a text that begins with a character of ASCII begin with that. -/
theorem toList_toUTF8_of_ascii {s : String} {first : Char} {rest : List Char}
    (hs : s.toList = first :: rest) (h : first.toNat < 128) :
    ∃ more, s.toUTF8.toList = UInt8.ofNat first.toNat :: more := by
  have hfirst : String.utf8EncodeChar first = [UInt8.ofNat first.toNat] :=
    if_pos (Nat.le_of_lt_succ h)
  have hbytes : s.toUTF8 = [first].utf8Encode ++ rest.utf8Encode := by
    rw [← List.utf8Encode_cons, ← hs, String.utf8Encode_toList]
    rfl
  refine ⟨rest.utf8Encode.data.toList, ?_⟩
  rw [ByteArray.toList, toList_loop, hbytes, ByteArray.data_append]
  simp [List.utf8Encode, hfirst]

/-- A text that begins with a character of ASCII has no byte order mark. -/
theorem withoutMark_of_ascii {s : String} {first : Char} {rest : List Char}
    (hs : s.toList = first :: rest) (h : first.toNat < 128) :
    withoutMark s.toUTF8 = s.toUTF8 := by
  obtain ⟨more, hbytes⟩ := toList_toUTF8_of_ascii hs h
  unfold withoutMark
  split
  · next hmark =>
    rw [hbytes] at hmark
    have hnat := congrArg UInt8.toNat (List.cons.inj hmark).1
    simp at hnat
    omega
  · rfl

end Utf8

/-- The bytes of a text that holds a JSON value are read as that text. -/
theorem ConfigFile.decode_toUTF8_of_parse {s : String} {v : Json} (h : Json.parse s = .ok v) :
    decode s.toUTF8 = s := by
  obtain ⟨first, rest, hs, hascii⟩ := Json.exists_ascii_of_parse h
  rw [decode, Utf8.withoutMark_of_ascii hs hascii, Utf8.ofBytesLossy_toUTF8]

/-! ## Paths that are spelled out -/

namespace Path

/-- A text whose last move is a name ends in that name. -/
theorem fileNameOf?_of_movesOf {s last : List Char} {front : List (List Char)}
    (h : movesOf s = front ++ [last]) (hup : last ≠ ['.', '.']) : fileNameOf? s = some last := by
  rcases trim_cases s with htrim | ⟨before, last', htrim⟩
  · rw [movesOf_eq_nil_of_trim htrim] at h
    simp at h
  · rw [movesOf_eq_of_trim htrim] at h
    obtain ⟨-, hlast⟩ := List.append_inj' h rfl
    rw [fileNameOf?_of_trim htrim, List.singleton_inj.mp hlast, if_neg hup]

theorem join_of_isAbsolute (base : String) {other : String} (h : isAbsolute other = true) :
    join base other = other := by
  rw [isAbsolute, decide_eq_true_eq, List.head?_eq_some_iff] at h
  obtain ⟨rest, hrest⟩ := h
  rw [join, hrest, joinChars, ← hrest, String.ofList_toList]

/-- Continued by a path that ends in a name, a path ends in that name. -/
theorem fileNameOf?_joinChars (base : List Char) {other name : List Char}
    (h : fileNameOf? other = some name) (hroot : other.head? ≠ some '/') :
    fileNameOf? (joinChars base other) = some name := by
  have hup : name ≠ ['.', '.'] := by
    rintro rfl
    unfold fileNameOf? at h
    split at h
    · split_ifs at h with hlast
      exact hlast (Option.some.inj h)
    · cases h
  obtain ⟨parent, -, hmoves⟩ := movesOf_of_fileNameOf? h
  have hjoined : movesOf (joinChars base other) = movesOf base ++ movesOf parent ++ [name] := by
    rw [movesOf_joinChars base hroot, hmoves, List.append_assoc]
  exact fileNameOf?_of_movesOf hjoined hup

/-- Continued by a path with an extension, a path has that extension. -/
theorem extension?_join (base : String) {other extension : String}
    (h : extension? other = some extension) : extension? (join base other) = some extension := by
  cases habsolute : isAbsolute other with
  | true => rwa [join_of_isAbsolute base habsolute]
  | false =>
    obtain ⟨e, he, rfl⟩ := Option.map_eq_some_iff.mp h
    obtain ⟨name, hname, he⟩ := Option.bind_eq_some_iff.mp he
    have hjoined := fileNameOf?_joinChars base.toList hname (isAbsolute_eq_false_iff.mp habsolute)
    rw [extension?, join, String.toList_ofList, hjoined, Option.bind_some, he, Option.map_some]

theorem intercalate_eq_unsegment (segs : List (List Char)) :
    List.intercalate ['/'] segs = unsegment segs := by
  induction segs with
  | nil => rfl
  | cons s rest ih =>
    cases rest with
    | nil => rw [List.intercalate_singleton, unsegment]
    | cons t rest =>
      rw [List.intercalate_cons_cons, ih, unsegment, List.append_assoc, List.singleton_append]

/-- Names with slashes between them, behind the root, are the moves of the path that they
make. -/
theorem moves_intercalate {names : List String} (h : ∀ name ∈ names, IsName name) :
    moves ("/" ++ "/".intercalate names) = names := by
  have htext : ("/" ++ "/".intercalate names).toList =
      '/' :: unsegment (names.map String.toList) := by
    rw [String.toList_append, String.toList_intercalate]
    exact congrArg ('/' :: ·) (intercalate_eq_unsegment _)
  have hslash : ∀ seg ∈ names.map String.toList, '/' ∉ seg := by
    intro seg hseg
    obtain ⟨name, hname, rfl⟩ := List.mem_map.mp hseg
    exact (h name hname).slash_not_mem
  have hspeaks : ∀ seg ∈ names.map String.toList, (!isSilent seg) = true := by
    intro seg hseg
    obtain ⟨name, hname, rfl⟩ := List.mem_map.mp hseg
    rw [← silent_ofList, String.ofList_toList, (h name hname).speaks, Bool.not_false]
  rw [moves_eq, htext, movesOf_slash_cons, movesOf_unsegment hslash,
    List.filter_eq_self.mpr hspeaks, List.map_map]
  exact List.map_id'' (fun name => String.ofList_toList) names

end Path

namespace FileSystem

variable {fs fs' : FileSystem} {path : String} {bytes : ByteArray}

/-- The names on the way to a directory of a sound tree can be names. -/
theorem Sound.isName_of_mem (h : fs.Sound) {place : List String} (hdir : fs.IsDirAt place) :
    ∀ name ∈ place, Path.IsName name := by
  intro name hname
  obtain ⟨before, after, rfl⟩ := List.append_of_mem hname
  obtain ⟨children, hchildren⟩ := hdir
  obtain ⟨siblings, hsiblings, hmem⟩ := Node.dir_of_at?_append hchildren
  exact h.names before siblings hsiblings name hmem

/-- Spelled out from the root, a path means the same place. -/
theorem Sound.place_spelledOut (h : fs.Sound) (path : String) :
    fs.place (Path.join fs.cwdPath path) = fs.place path := by
  cases habsolute : Path.isAbsolute path with
  | true => rw [Path.join_of_isAbsolute _ habsolute]
  | false =>
    have hnames := h.isName_of_mem h.here
    have hup : ".." ∉ fs.cwd := fun hmem => (hnames _ hmem).not_up rfl
    have hroot : Path.isAbsolute fs.cwdPath = true := by
      rw [Path.isAbsolute, cwdPath, String.toList_append]
      rfl
    have hhere : fs.place fs.cwdPath = fs.cwd := by
      rw [place, start, if_pos hroot, cwdPath, Path.moves_intercalate hnames,
        walk_of_up_not_mem _ hup, List.nil_append]
    rw [place_join fs _ habsolute, hhere, place, start, if_neg (by simp [habsolute])]

/-- What was written is read through the path as it is spelled out from the root, if that
can be followed; an absolute path is its own. -/
theorem Sound.read_spelledOut_of_write (h : fs.Sound)
    (hwrite : fs.write path bytes = (.ok (), fs'))
    (hway : Path.isAbsolute path = false → ∃ r, fs.reach (Path.join fs.cwdPath path) = .ok r) :
    fs'.read (Path.join fs'.cwdPath path) = .ok bytes := by
  obtain ⟨opened, hwrites, rfl⟩ := write_eq_ok hwrite
  have hchanges : Changes (fun _ => True) fs (opened.put (fs.place path) (.file bytes)) :=
    hwrites.changes trivial bytes
  generalize opened.put (fs.place path) (.file bytes) = fs' at *
  have hread := read_of_write hwrite
  have hcwd : fs'.cwdPath = fs.cwdPath := by
    rw [cwdPath, cwdPath, hchanges.cwd_eq]
  rw [hcwd]
  cases habsolute : Path.isAbsolute path with
  | true => rwa [Path.join_of_isAbsolute _ habsolute]
  | false =>
    obtain ⟨r, hreach⟩ := hway habsolute
    obtain ⟨-, hfile⟩ := read_eq_ok_iff.mp hread
    apply read_eq_ok_iff.mpr
    rw [hchanges.place_eq, h.place_spelledOut]
    rw [hchanges.place_eq] at hfile
    exact ⟨⟨_, hchanges.reach hreach⟩, hfile⟩

end FileSystem

/-! ## Files of JSON -/

namespace ConfigFile

variable {fs : FileSystem} {path text : String} {fields : List (String × Json)}

/-- A file that is there under its own name is the one that is found, in the format of its
extension. -/
theorem locate_of_read {bytes : ByteArray} {format : ConfigFormat} {extension : String}
    (hread : fs.read (Path.join fs.cwdPath path) = .ok bytes)
    (hextension : Path.extension? path = some extension)
    (hformat : ConfigFormat.ofExtension? extension = some format) :
    locate fs path = some (Path.join fs.cwdPath path, format) := by
  have hfile : fs.isFile (Path.join fs.cwdPath path) = true := by
    unfold FileSystem.read at hread
    unfold FileSystem.isFile
    split at hread
    · next hstat => rw [hstat]
    · cases hread
    · cases hread
  rw [locate]
  dsimp only
  rw [if_pos hfile, Path.extension?_join _ hextension, Option.bind_some, hformat, Option.map_some]

/-- The settings of a JSON file are the members of the object whose text it holds. -/
theorem read_json (hread : fs.read (Path.join fs.cwdPath path) = .ok text.toUTF8)
    (hextension : Path.extension? path = some "json")
    (hparse : Json.parse text = .ok (.obj fields)) :
    ∃ origin, read fs path = .ok (Setting.ofJsonFields origin fields) := by
  refine ⟨Path.seenFrom fs.cwdPath (Path.join fs.cwdPath path), ?_⟩
  have hformat : ConfigFormat.ofExtension? "json" = some .json := by decide
  have hlocate := locate_of_read hread hextension hformat
  unfold read ConfigFormat.read
  simp only [hlocate, hread, decode_toUTF8_of_parse hparse, hparse]

end ConfigFile

end PluginChain
