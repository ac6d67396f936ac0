import PluginChain.Proofs.CopyExtent
import PluginChain.Proofs.ListingOrder
set_option autoImplicit false

/-!
# What a copy delivers

A copy into an output directory that succeeds leaves every file of its source where it
was, and as it was at its place in the target.  It hangs on the source being apart from all
that is put anywhere (`apart_of_clear`): then what is delivered to one place of a target is
not touched again.
-/

namespace PluginChain.OutputDir

open FileSystem (Anchored Below Changes Sound)

variable {ω : Type} {R S T : List String} {source target : String} {st done : Copying}
  {shape : List String → Prop} {n : Node}

/-- A copy that succeeds and puts nothing into its source delivers every file in it. -/
theorem Filling.delivered (fuel : Nat) (h : Filling shape st.files R source target S T)
    (hapart : ∀ q, Fills R shape T q → ¬ S <+: q) (hn : st.files.root.at? S = some n)
    (hdone : copyTree fuel source target st = (.ok (), done)) {p : List String} {bytes : ByteArray}
    (hp : n.at? p = some (.file bytes)) : done.files.root.at? (T ++ p) = some (.file bytes) := by
  rw [← copyTreeIn_asListed] at hdone
  exact FileSystem.shown_eq_file_iff.mp (h.delivered_in fuel hapart hn hdone hp)

/-! ## Copies into an output directory -/

variable {out : OutputDir} {path : String} {host host' : Host ω}

/-- A copy to a place that is not below the source puts nothing into the source, if
nothing stands in the source where the way from the target to the source would lead
from there. -/
theorem apart_of_clear (hbelow : ¬ Below S T)
    (hclear : ∀ e, S = T ++ e → n.at? e = none) {q : List String}
    (hq : Fills R (treeShape n) T q) : ¬ S <+: q := by
  have hnot : ¬ S <+: T := by
    intro hpre
    by_cases heq : S = T
    · have hnone := hclear [] (by rw [heq, List.append_nil])
      simp at hnone
    · exact hbelow ⟨hpre, fun hT => heq hT.symm⟩
  intro hS
  rcases hq.2 with habove | ⟨p, hp, rfl⟩
  · exact hnot (hS.trans habove)
  · obtain ⟨e, rfl⟩ : T <+: S :=
      (List.prefix_or_prefix_of_prefix hS (List.prefix_append T p)).resolve_left hnot
    obtain ⟨rest, hrest⟩ := (List.prefix_append_right_inj T).mp hS
    refine hp ?_
    rw [← hrest, Node.at?_append, hclear e rfl, Option.bind_none]

/-- A copy into an output directory that succeeds is one to the place at which the path
is accepted. -/
theorem copyInto_eq_ok (h : out.copyInto source path host = (.ok (), host')) :
    out.resolve path = .ok (Path.join out.root path) ∧
      ∃ done, copyTree host.files.pathMax source (Path.join out.root path) { files := host.files } =
        (.ok (), done) ∧ host'.files = done.files := by
  cases hresolve : out.resolve path with
  | error f =>
    rw [copyInto_of_refused hresolve] at h
    cases h
  | ok target =>
    obtain rfl := (resolve_eq_ok_iff.mp hresolve).2
    rw [← copyIntoIn_asListed] at h
    obtain ⟨done, hdone, rfl⟩ := copyIntoIn_eq_ok hresolve h
    rw [copyTreeIn_asListed] at hdone
    exact ⟨rfl, done, hdone, rfl⟩

/-- Take a copy into an output directory that succeeds.  The source is not the target,
and if it lies in the target, nothing stands in the source where the way from the target
to the source would lead from there.  Then every file in the source holds what it held,
and the file at its place in the target holds the same. -/
theorem copy_delivers (hfs : host.files.Sound) (hroot : out.Rooted host.files)
    (hcopy : out.copyInto source path host = (.ok (), host'))
    (hclear : ∀ e, host.files.place source = host.files.place (Path.join out.root path) ++ e →
      host.files.root.at? (host.files.place source ++ e) = none)
    (p : List String) (bytes : ByteArray)
    (hfile : host.files.root.at? (host.files.place source ++ p) = some (.file bytes)) :
    host'.files.root.at? (host.files.place source ++ p) = some (.file bytes) ∧
      host'.files.root.at? (host.files.place (Path.join out.root path) ++ p) =
        some (.file bytes) := by
  obtain ⟨htarget, done, hdone, hfiles⟩ := copyInto_eq_ok hcopy
  obtain ⟨R, hR⟩ := hroot
  have hanchored := anchored_of_resolve hR htarget
  rw [Node.at?_append] at hfile
  obtain ⟨n, hn, hp⟩ := Option.bind_eq_some_iff.mp hfile
  have hat (k : List String) :
      host.files.root.at? (host.files.place source ++ k) = n.at? k := by
    rw [Node.at?_append, hn, Option.bind_some]
  have hbelow : ¬ Below (host.files.place source) (host.files.place (Path.join out.root path)) := by
    intro hbelow
    have hnever : (copyTree host.files.pathMax source (Path.join out.root path)
        { files := host.files }).1 ≠ .ok () :=
      (filling_true hfs hanchored source).not_ok_of_below _ hbelow
    exact hnever (by rw [hdone])
  have hapart (q : List String) (hq : Fills R (treeShape n) _ q) :=
    apart_of_clear hbelow (fun e he => (hat e).symm.trans (hclear e he)) hq
  have hfilling : Filling (treeShape n) (Copying.files { files := host.files }) R source
      (Path.join out.root path) (host.files.place source)
      (host.files.place (Path.join out.root path)) :=
    ⟨hfs, hanchored, rfl, rfl, fun k hk => by rwa [hat] at hk,
      fun k hk => absurd (List.prefix_append _ k) (hapart _ hk)⟩
  have hkept := hfilling.changes_copyTree host.files.pathMax
  rw [hdone] at hkept
  rw [hfiles]
  refine ⟨?_, hfilling.delivered host.files.pathMax hapart hn hdone hp⟩
  rw [Node.at?_append, hkept.at?_eq hapart hn, Option.bind_some, hp]

/-- A copy of two files, one in a directory, beside its source: the inner file is where it
was, and where it was copied to. -/
theorem copy_delivers_beside :
    ∃ fs host',
      create "site" ((({} : FileSystem).plant "src/a" (some "x".toUTF8)).plant "src/d/b"
        (some "y".toUTF8)) = (.ok ⟨"site"⟩, fs) ∧
      copyInto ⟨"site"⟩ "src" "c" ({ files := fs, memory := () } : Host Unit) = (.ok (), host') ∧
      host'.files.root.at? ["src", "d", "b"] = some (.file "y".toUTF8) ∧
      host'.files.root.at? ["site", "c", "d", "b"] = some (.file "y".toUTF8) := by
  have hcreate : create "site" ((({} : FileSystem).plant "src/a" (some "x".toUTF8)).plant "src/d/b"
      (some "y".toUTF8)) = _ := create_eq_of_isOk (by decide +kernel)
  have hplanted : ((({} : FileSystem).plant "src/a" (some "x".toUTF8)).plant "src/d/b"
      (some "y".toUTF8)).Sound := ((FileSystem.sound_of_empty rfl rfl).plant _ _).plant _ _
  generalize hfs : (create "site" ((({} : FileSystem).plant "src/a" (some "x".toUTF8)).plant
    "src/d/b" (some "y".toUTF8))).2 = fs at hcreate
  have hplaces : fs.place "src" = ["src"] ∧ fs.place (Path.join "site" "c") = ["site", "c"] := by
    rw [← hfs]
    decide +kernel
  have hfile : fs.root.at? (["src"] ++ ["d", "b"]) = some (.file "y".toUTF8) := by
    rw [← FileSystem.shown_eq_file_iff, ← hfs]
    decide +kernel
  obtain ⟨⟨⟩, hcopy⟩ := eq_ok_of_isOk (x := copyInto ⟨"site"⟩ "src" "c"
    ({ files := fs, memory := () } : Host Unit)) (by
      rw [← hfs]
      decide +kernel)
  have hdelivers := copy_delivers ((changes_of_create hcreate).2.2.sound hplanted)
    (rooted_of_create hplanted hcreate) hcopy
  dsimp only at hdelivers
  rw [hplaces.1, hplaces.2] at hdelivers
  exact ⟨fs, _, hcreate, hcopy, hdelivers (by simp) ["d", "b"] _ hfile⟩

/-- A file that is copied onto itself is empty then, and the copy succeeds. -/
theorem copy_onto_itself_empties :
    ∃ fs host',
      create "site" (({} : FileSystem).plant "site/a" (some "x".toUTF8)) = (.ok ⟨"site"⟩, fs) ∧
      fs.place "site/a" = ["site", "a"] ∧
      fs.root.at? ["site", "a"] = some (.file "x".toUTF8) ∧
      copyInto ⟨"site"⟩ "site/a" "a" ({ files := fs, memory := () } : Host Unit) = (.ok (), host') ∧
      host'.files.root.at? ["site", "a"] = some (.file ByteArray.empty) := by
  have hcreate : create "site" (({} : FileSystem).plant "site/a" (some "x".toUTF8)) = _ :=
    create_eq_of_isOk (by decide +kernel)
  generalize hfs : (create "site" (({} : FileSystem).plant "site/a" (some "x".toUTF8))).2 = fs
    at hcreate
  obtain ⟨⟨⟩, hcopy⟩ := eq_ok_of_isOk (x := copyInto ⟨"site"⟩ "site/a" "a"
    ({ files := fs, memory := () } : Host Unit)) (by
      rw [← hfs]
      decide +kernel)
  refine ⟨fs, _, hcreate, ?_, ?_, hcopy, ?_⟩
  · rw [← hfs]
    decide +kernel
  · rw [← FileSystem.shown_eq_file_iff, ← hfs]
    decide +kernel
  · rw [← FileSystem.shown_eq_file_iff, ← hfs]
    decide +kernel

end PluginChain.OutputDir
