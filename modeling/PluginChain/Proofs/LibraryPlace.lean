import PluginChain.Resolver
import PluginChain.Proofs.Changes
set_option autoImplicit false

/-!
# Where libraries are looked for

A package is looked for under a path that is made of text: the directory of the resolver
continued by the identifier, and its last name turned into that of a library.  Whether
that path lies below the directory is a matter of text as well.  `Path.normal` reads a
path without its points; an identifier whose moves never lead out of the directory, and
which has a move at all, leads to a library strictly below it.
-/

namespace PluginChain

namespace Path

/-! ## Paths without points -/

/-- Where a move leads by its text alone.  Two points take back the name before them;
without one they are kept, but not at the root. -/
def settleMove (absolute : Bool) (place : List String) (m : String) : List String :=
  if m = ".." then
    match place.getLast? with
    | none => if absolute then [] else [".."]
    | some last => if last = ".." then place ++ [".."] else place.dropLast
  else place ++ [m]

/-- Where moves lead by their text alone. -/
def settle (absolute : Bool) (place ms : List String) : List String :=
  ms.foldl (settleMove absolute) place

/-- The segments of a path after lexical normalisation: without those that say nothing,
and with no two points behind a name. -/
def normal (p : String) : List String := settle (isAbsolute p) [] (moves p)

/-- By its text alone, the path lies strictly below the directory. -/
def LexicallyBelow (dir p : String) : Prop :=
  isAbsolute p = isAbsolute dir ∧
    ∃ names, names ≠ [] ∧ ".." ∉ names ∧ normal p = normal dir ++ names

/-- Whether moves that begin a number of names below a directory never lead out of it. -/
def staysWithin : Nat → List String → Bool
  | _, [] => true
  | depth, m :: ms =>
    if m = ".." then decide (0 < depth) && staysWithin (depth - 1) ms
    else staysWithin (depth + 1) ms

theorem settle_append (absolute : Bool) (place ms ns : List String) :
    settle absolute place (ms ++ ns) = settle absolute (settle absolute place ms) ns :=
  List.foldl_append

/-- Two points take back the name before them. -/
theorem settleMove_up (absolute : Bool) (place : List String) {name : String} (h : name ≠ "..") :
    settleMove absolute (place ++ [name]) ".." = place := by
  rw [settleMove, if_pos rfl, List.getLast?_concat]
  dsimp only
  rw [if_neg h, List.dropLast_concat]

/-- The first of moves that never lead out do not either. -/
theorem staysWithin_of_append {depth : Nat} {ms ns : List String}
    (h : staysWithin depth (ms ++ ns) = true) : staysWithin depth ms = true := by
  induction ms generalizing depth with
  | nil => rfl
  | cons m rest ih =>
    rw [List.cons_append, staysWithin] at h
    rw [staysWithin]
    split_ifs at h ⊢
    · rw [Bool.and_eq_true] at h ⊢
      exact ⟨h.1, ih h.2⟩
    · exact ih h

/-- Moves that never lead out of a directory lead to names below it. -/
theorem settle_of_staysWithin {absolute : Bool} {dir names ms : List String} (hup : ".." ∉ names)
    (h : staysWithin names.length ms = true) :
    ∃ names', ".." ∉ names' ∧ settle absolute (dir ++ names) ms = dir ++ names' := by
  induction ms generalizing names with
  | nil => exact ⟨names, hup, rfl⟩
  | cons m rest ih =>
    rw [staysWithin] at h
    change ∃ names', ".." ∉ names' ∧
      settle absolute (settleMove absolute (dir ++ names) m) rest = dir ++ names'
    split_ifs at h with hm
    · rw [Bool.and_eq_true, decide_eq_true_eq] at h
      rcases List.eq_nil_or_concat' names with rfl | ⟨front, last, rfl⟩
      · exact absurd h.1 (Nat.lt_irrefl 0)
      · rw [List.length_append, List.length_singleton, Nat.add_sub_cancel] at h
        simp only [List.mem_append, List.mem_singleton, not_or] at hup
        rw [hm, ← List.append_assoc, settleMove_up absolute _ (Ne.symm hup.2)]
        exact ih hup.1 h.2
    · rw [settleMove, if_neg hm, List.append_assoc]
      refine ih ?_ ?_
      · simpa [hup] using Ne.symm hm
      · rwa [List.length_append]

theorem normal_of_moves {p name : String} {before : List String}
    (hmoves : moves p = before ++ [name]) (hname : name ≠ "..") :
    normal p = settle (isAbsolute p) [] before ++ [name] := by
  rw [normal, hmoves, settle_append]
  change settleMove _ _ name = _
  rw [settleMove, if_neg hname]

/-- Whether a path that ends in a name lies strictly below a directory is told by what is
before the name. -/
theorem lexicallyBelow_iff {dir p name : String} {before : List String}
    (hmoves : moves p = before ++ [name]) (hname : name ≠ "..") :
    LexicallyBelow dir p ↔ isAbsolute p = isAbsolute dir ∧
      ∃ names, ".." ∉ names ∧ settle (isAbsolute p) [] before = normal dir ++ names := by
  rw [LexicallyBelow, normal_of_moves hmoves hname]
  refine and_congr_right fun _ => ⟨?_, ?_⟩
  · rintro ⟨names, hne, hup, hnames⟩
    obtain ⟨front, last, rfl⟩ := (List.eq_nil_or_concat' names).resolve_left hne
    rw [← List.append_assoc] at hnames
    exact ⟨front, fun hmem => hup (List.mem_append_left _ hmem), (List.append_inj' hnames rfl).1⟩
  · rintro ⟨names, hup, hnames⟩
    refine ⟨names ++ [name], by simp, by simpa [hup] using hname.symm, ?_⟩
    rw [hnames, List.append_assoc]

/-- A path that goes on from a directory, never leads out of it, and ends in a name lies
strictly below it. -/
theorem lexicallyBelow_of_moves {dir p name : String} {ms : List String}
    (habsolute : isAbsolute p = isAbsolute dir) (hmoves : moves p = moves dir ++ ms ++ [name])
    (hwithin : staysWithin 0 ms = true) (hname : name ≠ "..") : LexicallyBelow dir p := by
  refine (lexicallyBelow_iff hmoves hname).mpr ⟨habsolute, ?_⟩
  rw [settle_append, habsolute, ← List.append_nil (settle _ [] (moves dir))]
  exact settle_of_staysWithin List.not_mem_nil hwithin

end Path

/-! ## Paths of libraries -/

open PluginChain.Path (moves isAbsolute)

/-- Two points never lead to a file. -/
theorem FileSystem.ne_up_of_isFile {fs : FileSystem} {path last : String} {before : List String}
    (h : fs.isFile path = true) (hmoves : moves path = before ++ [last]) : last ≠ ".." := by
  rintro rfl
  unfold isFile at h
  split at h
  · next bytes hstat =>
    have hfile := at?_of_stat hstat
    have habove := through_of_stat hstat before ".." [] hmoves
    rw [place, hmoves, walk_append] at hfile
    obtain ⟨children, hchildren⟩ := habove.of_prefix (List.dropLast_prefix _)
    change fs.root.at? (walk (fs.start path) before).dropLast = _ at hfile
    rw [hfile] at hchildren
    cases hchildren
  · cases h

/-- The file name of a library is a name, if the name of the plugin holds no slash. -/
theorem isName_libraryFileName {name : String} (h : '/' ∉ name.toList) :
    Path.IsName (libraryFileName name) := by
  have htext : (libraryFileName name).toList =
      ['l', 'i', 'b'] ++ name.toList ++ ['.', 's', 'o'] := by
    simp [libraryFileName]
  have hne {s : String} (hs : s.toList.length < 6) : libraryFileName name ≠ s := by
    rintro rfl
    simp only [htext, List.length_append, List.length_cons, List.length_nil] at hs
    omega
  refine ⟨?_, hne (by decide), ?_⟩
  · simp [Path.silent, hne (s := "") (by decide), hne (s := ".") (by decide)]
  · rw [htext]
    simpa using h

/-- A library that is found for a path is at the path, where a file is, or beside it under
another name. -/
theorem locateLibrary_cases {fs : FileSystem} {path found : String}
    (h : locateLibrary fs path = some found) :
    found = path ∧ fs.isFile path = true ∨
      isAbsolute found = isAbsolute path ∧ ∃ before last name, last ≠ ".." ∧ name ≠ ".." ∧
        moves path = before ++ [last] ∧ moves found = before ++ [name] := by
  unfold locateLibrary at h
  split_ifs at h with hfile
  · exact .inl ⟨(Option.some.inj h).symm, hfile⟩
  · right
    cases hlast : Path.fileName? path with
    | none =>
      rw [hlast] at h
      cases h
    | some last =>
      rw [hlast] at h
      dsimp only at h
      split_ifs at h
      obtain rfl := Option.some.inj h
      obtain ⟨parent, hparent, hmoves⟩ := Path.moves_of_fileName? hlast
      have hslash : '/' ∉ last.toList := by
        have hmem : last ∈ moves path := by simp [hmoves]
        obtain ⟨s, hs, rfl⟩ := List.mem_map.mp (List.mem_filter.mp hmem).1
        rw [String.toList_ofList]
        exact Path.slash_not_mem_of_mem_segments hs
      have hlibrary := isName_libraryFileName hslash
      rw [Path.withFileName, hlast, hparent, Option.getD_some]
      refine ⟨?_, _, _, _, Path.ne_up_of_fileName? hlast, hlibrary.not_up, hmoves, ?_⟩
      · rw [Path.isAbsolute_join _ hlibrary.isAbsolute_eq, Path.isAbsolute_of_parent? hparent]
      · rw [Path.moves_join _ hlibrary.isAbsolute_eq, hlibrary.moves_eq]

/-- A library that is found lies below a directory exactly if the path does for which it
was found. -/
theorem lexicallyBelow_of_locateLibrary {fs : FileSystem} {path found : String}
    (h : locateLibrary fs path = some found) (dir : String) :
    Path.LexicallyBelow dir found ↔ Path.LexicallyBelow dir path := by
  rcases locateLibrary_cases h with
    ⟨rfl, -⟩ | ⟨habsolute, before, last, name, hlast, hname, hpath, hfound⟩
  · rfl
  · rw [Path.lexicallyBelow_iff hfound hname, Path.lexicallyBelow_iff hpath hlast, habsolute]

/-- A path for which a library is found does not end in two points. -/
theorem ne_up_of_locateLibrary {fs : FileSystem} {path found last : String} {before : List String}
    (h : locateLibrary fs path = some found) (hmoves : moves path = before ++ [last]) :
    last ≠ ".." := by
  rcases locateLibrary_cases h with ⟨-, hfile⟩ | ⟨-, _, last', _, hlast', -, hpath, -⟩
  · exact fs.ne_up_of_isFile hfile hmoves
  · rw [hmoves] at hpath
    obtain rfl : last = last' := by simpa using (List.append_inj' hpath rfl).2
    exact hlast'

namespace Resolver

variable {σ ω : Type}

/-- The identifier of a package begins at no root. -/
theorem isAbsolute_of_package {identifier : String}
    (h : IdentifierKind.of identifier = .package) : isAbsolute identifier = false := by
  rw [Path.isAbsolute_eq_false_iff]
  intro hhead
  obtain ⟨rest, hrest⟩ := List.head?_eq_some_iff.mp hhead
  rw [IdentifierKind.of, hrest] at h
  cases h

/-- Take a package for which there is a library.  By the text of their paths, the library
lies strictly below the directory for packages exactly if that does to which the identifier
leads from there.  So it does if the identifier has a move, and its moves never lead out of
the directory. -/
theorem library_below_localDir (r : Resolver σ ω) (fs : FileSystem) {identifier path : String}
    (hkind : IdentifierKind.of identifier = .package)
    (hlibrary : r.missing fs identifier = .loadingDisabled path) :
    (Path.LexicallyBelow r.localDir path ↔
      Path.LexicallyBelow r.localDir (Path.join r.localDir identifier)) ∧
    (moves identifier ≠ [] → Path.staysWithin 0 (moves identifier) = true →
      Path.LexicallyBelow r.localDir path) := by
  unfold missing at hlibrary
  split at hlibrary
  · next found hlocate =>
    obtain rfl := Failure.loadingDisabled.inj hlibrary
    rw [candidate, hkind] at hlocate
    dsimp only at hlocate
    have hiff := lexicallyBelow_of_locateLibrary hlocate r.localDir
    refine ⟨hiff, fun hmoves hwithin => hiff.mpr ?_⟩
    obtain ⟨before, last, hlast⟩ := (List.eq_nil_or_concat' (moves identifier)).resolve_left hmoves
    have habsolute := isAbsolute_of_package hkind
    have hcandidate := Path.moves_join r.localDir habsolute
    rw [hlast, ← List.append_assoc] at hcandidate
    rw [hlast] at hwithin
    exact Path.lexicallyBelow_of_moves (Path.isAbsolute_join r.localDir habsolute) hcandidate
      (Path.staysWithin_of_append hwithin) (ne_up_of_locateLibrary hlocate hcandidate)
  · cases hlibrary

/-- An identifier that leads up again, but never out of the directory for packages, has
its library in that directory. -/
theorem library_below_localDir_up :
    ({ registry := .empty } : Resolver Unit Unit).missing
        ((({} : FileSystem).plant "plugins/a" none).plant "plugins/libb.so" (some "x".toUTF8))
        "a/../b" = .loadingDisabled "./plugins/a/../libb.so" ∧
      Path.LexicallyBelow "./plugins" "./plugins/a/../libb.so" := by
  have hlibrary : ({ registry := .empty } : Resolver Unit Unit).missing
      ((({} : FileSystem).plant "plugins/a" none).plant "plugins/libb.so" (some "x".toUTF8))
      "a/../b" = .loadingDisabled "./plugins/a/../libb.so" := by decide +kernel
  exact ⟨hlibrary, (library_below_localDir _ _ (by decide +kernel) hlibrary).2 (by decide +kernel)
    (by decide +kernel)⟩

/-- An identifier of a package that leads out of the directory for packages has its library
outside, and the empty one has it beside that directory. -/
theorem library_outside_localDir :
    ∃ fs, IdentifierKind.of "x/../../evil" = .package ∧ IdentifierKind.of "" = .package ∧
      ({ registry := .empty } : Resolver Unit Unit).missing fs "x/../../evil" =
        .loadingDisabled "./plugins/x/../../evil" ∧
      ¬ Path.LexicallyBelow "./plugins" "./plugins/x/../../evil" ∧
      ({ registry := .empty } : Resolver Unit Unit).missing fs "" =
        .loadingDisabled "./libplugins.so" ∧
      ¬ Path.LexicallyBelow "./plugins" "./libplugins.so" := by
  have hnormal : Path.normal "./plugins" = ["plugins"] ∧
      Path.normal "./plugins/x/../../evil" = ["evil"] ∧
      Path.normal "./libplugins.so" = ["libplugins.so"] := by decide +kernel
  refine ⟨((({} : FileSystem).plant "plugins/x" none).plant "evil" (some "e".toUTF8)).plant
    "libplugins.so" (some "l".toUTF8), by decide +kernel, by decide +kernel, by decide +kernel, ?_,
    by decide +kernel, ?_⟩
  · rintro ⟨-, names, -, -, hnames⟩
    rw [hnormal.1, hnormal.2.1] at hnames
    simp at hnames
  · rintro ⟨-, names, -, -, hnames⟩
    rw [hnormal.1, hnormal.2.2] at hnames
    simp at hnames

end Resolver

end PluginChain
