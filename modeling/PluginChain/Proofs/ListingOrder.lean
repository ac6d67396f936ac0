import PluginChain.Proofs.CopySteps
set_option autoImplicit false

/-!
# Copies in any order of listing

The order in which a directory is listed is not settled: a `ListingOrder` gives one for
every directory that is visited.  A copy that succeeds has delivered what it came by, in
whatever order, if nothing that it puts anywhere lies in its source: the source stays as
it was, each name in it is come by once, and what was copied under one name is not touched
again, as names differ and so do the places below them.  A file that is its own target is
emptied before it is read.
-/

namespace PluginChain.OutputDir

open FileSystem (Anchored Below Changes Sound)

variable {ω : Type}

/-! ## Orders -/

/-- An order in which directories are listed: it rearranges the names of each, as it may
be for every one that is visited. -/
structure ListingOrder where
  arrange : Nat → List String → List String
  perm (visit : Nat) (names : List String) : (arrange visit names).Perm names

/-- The order in which a directory holds its names. -/
def ListingOrder.asListed : ListingOrder where
  arrange _ names := names
  perm _ _ := .rfl

/-- The copy of a tree, its directories listed in some order. -/
def copyTreeIn (order : ListingOrder) : Nat → String → String → Copying →
    Except Fault Unit × Copying
  | 0, source, _, st => (.error (fileFault "stat" source .nameTooLong), st)
  | fuel + 1, source, target, st =>
    copyNode (copyTreeIn order fuel) (order.arrange (st.visited + 1)) source target st

theorem copyTreeIn_asListed (fuel : Nat) : copyTreeIn .asListed fuel = copyTree fuel := by
  induction fuel with
  | zero => rfl
  | succ fuel ih =>
    funext source target st
    rw [copyTreeIn, ih, copyTree_succ]
    rfl

/-- Copies a file or a directory tree of the host into the directory, its directories
listed in some order. -/
def copyIntoIn (order : ListingOrder) (out : OutputDir) (source path : String) : Effect ω Unit :=
  fun h =>
    match out.resolve path with
    | .error f => (.error f, h)
    | .ok target =>
      match copyTreeIn order h.files.pathMax source target { files := h.files } with
      | (.error f, st) => (.error f, { h with files := st.files })
      | (.ok (), st) =>
        (.ok (), { h with files := st.files }.note
          (.debug .output "Copied" [("src", .str source), ("dest", .str target)]))

theorem copyIntoIn_asListed (out : OutputDir) (source path : String) :
    (out.copyIntoIn .asListed source path : Effect ω Unit) = out.copyInto source path := by
  funext h
  rw [copyIntoIn, copyTreeIn_asListed]
  rfl

variable {fs : FileSystem} {R S T : List String} {source target path : String}
  {st done : Copying} {shape : List String → Prop} {n : Node} {order : ListingOrder}
  {out : OutputDir} {host host' : Host ω}
  {copy : String → String → Copying → Except Fault Unit × Copying}

/-- A copy into an output directory that succeeds is one to the place of its target. -/
theorem copyIntoIn_eq_ok (htarget : out.resolve path = .ok target)
    (h : out.copyIntoIn order source path host = (.ok (), host')) :
    ∃ done, copyTreeIn order host.files.pathMax source target { files := host.files } =
        (.ok (), done) ∧
      host' = { host with files := done.files }.note
        (.debug .output "Copied" [("src", .str source), ("dest", .str target)]) := by
  rw [copyIntoIn, htarget] at h
  dsimp only at h
  rcases hdone : copyTreeIn order host.files.pathMax source target { files := host.files } with
    ⟨_ | _, done⟩
  · rw [hdone] at h
    cases h
  · rw [hdone] at h
    exact ⟨done, rfl, (Prod.mk.inj h).2.symm⟩

theorem fst_copyIntoIn (htarget : out.resolve path = .ok target) :
    (out.copyIntoIn order source path host).1 =
      (copyTreeIn order host.files.pathMax source target { files := host.files }).1 := by
  rw [copyIntoIn, htarget]
  dsimp only
  rcases copyTreeIn order host.files.pathMax source target { files := host.files } with ⟨_ | _, _⟩
  · rfl
  · rfl

/-! ## What is changed -/

/-- A copy changes files only where it fills its target. -/
theorem confined_copyTreeIn (order : ListingOrder) (R : List String) (fuel : Nat) :
    Confined R (copyTreeIn order fuel) := by
  induction fuel with
  | zero => exact fun _ _ _ _ _ st _ => .refl st.files
  | succ fuel ih =>
    intro shape source target S T st h
    exact ih.copyNode (order.perm (st.visited + 1)) h

/-- What is filled lies above the target or in it. -/
theorem Fills.prefix_or_prefix {q top : List String} (h : Fills R shape T q) (htop : top <+: q) :
    top <+: T ∨ T <+: top := by
  rcases h.2 with habove | ⟨p, -, rfl⟩
  · exact .inl (htop.trans habove)
  · exact List.prefix_or_prefix_of_prefix htop (List.prefix_append T p)

/-- What lies below one name is filled by the copy under that name only. -/
theorem eq_of_fills {name other : String} {q : List String} (h : Fills R shape (T ++ [other]) q)
    (hq : T ++ [name] <+: q) : name = other := by
  have hpre : T ++ [name] <+: T ++ [other] := by
    rcases h.2 with habove | ⟨p, -, rfl⟩
    · exact hq.trans habove
    · exact List.prefix_of_prefix_length_le hq (List.prefix_append _ p) (by simp)
  simpa using hpre

/-! ## What is delivered -/

/-- A copy of a file delivers what the file held, if that is not where the copy is put. -/
theorem Filling.file_delivered {bytes : ByteArray} {files copied : FileSystem}
    (h : Filling shape files R source target S T) (hapart : ∀ q, Fills R shape T q → ¬ S <+: q)
    (hbytes : files.root.at? S = some (.file bytes))
    (hcopy : files.copyFile source target = (.ok (), copied)) :
    copied.root.at? T = some (.file bytes) := by
  obtain ⟨opened, hwrites, hcopied⟩ := FileSystem.copyFile_eq_ok hcopy
  have hopened := hwrites.change_opened (Fills R shape T)
    (h.fills_of_onWay (h.anchored.onWay hwrites))
  have hstill := hopened.at?_eq hapart hbytes
  rw [h.source_eq, h.target_eq] at hcopied
  rcases hcopied with ⟨bytes', hbytes', rfl⟩ | ⟨-, hnone⟩
  · rw [hstill, Option.some.injEq, Node.file.injEq] at hbytes'
    subst hbytes'
    rw [← h.target_eq]
    exact hwrites.at?_written bytes
  · exact absurd hstill (hnone bytes)

/-- What stands under a name in the target stays when what stands under other names in the
source is copied. -/
theorem Filling.kept_by_names {name : String} {names : List String} (hcopy : Confined R copy)
    (h : Filling shape st.files R source target S T)
    (hnames : ∀ name ∈ names, st.files.root.at? (S ++ [name]) ≠ none) (hname : name ∉ names)
    (hdone : copyEntries copy source target names st = (.ok (), done)) (p : List String) :
    done.files.root.at? (T ++ name :: p) = st.files.root.at? (T ++ name :: p) := by
  refine (h.changes_names hcopy hnames hdone).at?_same fun q ⟨other, hother, hq⟩ hpre => hname ?_
  obtain rfl : name = other := eq_of_fills hq (List.IsPrefix.trans (by simp) hpre)
  exact hother

/-- What the copy under a name delivers is there when going through the names has
succeeded. -/
theorem Filling.delivered_by_names {visited : Nat} {name : String} {names p : List String}
    {seen : Option ByteArray} (hcopy : Confined R copy)
    (h : Filling shape fs R source target S T)
    (hnames : ∀ name ∈ names, fs.root.at? (S ++ [name]) ≠ none) (hnodup : names.Nodup)
    (hname : name ∈ names)
    (hdone : copyEntries copy source target names ⟨fs, visited⟩ = (.ok (), done))
    (hcopied : ∀ now next, Changes (Fills R shape T) fs now.files →
      copy (Path.join source name) (Path.join target name) now = (.ok (), next) →
        next.files.shown (T ++ name :: p) = some seen) :
    done.files.shown (T ++ name :: p) = some seen := by
  obtain ⟨before, after, rfl⟩ := List.append_of_mem hname
  obtain ⟨now, next, hbefore, hnow, hafter⟩ := copyEntries_split hdone
  obtain ⟨hnamesBefore, hnamesAfter⟩ := List.forall_mem_append.mp hnames
  obtain ⟨hthere, hnamesAfter⟩ := List.forall_mem_cons.mp hnamesAfter
  have htoNow := (h.changes_names hcopy hnamesBefore hbefore).mono fun _ =>
    h.fills_of_names hnamesBefore
  have htoNext := (h.of_changes htoNow).changes_child hcopy (htoNow.ne_none hthere)
  rw [hnow] at htoNext
  have hnext := htoNow.trans htoNext
  have hother : name ∉ after := (List.nodup_cons.mp (List.nodup_append.mp hnodup).2.1).1
  have hkept := (h.of_changes hnext).kept_by_names hcopy
    (fun s hs => hnext.ne_none (hnamesAfter s hs)) hother hafter p
  rw [FileSystem.shown, hkept]
  exact hcopied now next htoNow hnow

/-- A copy that succeeds and puts nothing into its source delivers all that is in it: the
bytes of every file, and every directory. -/
theorem Filling.delivered_in (fuel : Nat) (h : Filling shape st.files R source target S T)
    (hapart : ∀ q, Fills R shape T q → ¬ S <+: q) (hn : st.files.root.at? S = some n)
    (hdone : copyTreeIn order fuel source target st = (.ok (), done)) {p : List String} {m : Node}
    (hp : n.at? p = some m) : done.files.shown (T ++ p) = some m.content? := by
  induction fuel generalizing shape source target S T st n done p with
  | zero => cases hdone
  | succ fuel ih =>
    have hconfined := confined_copyTreeIn order R fuel
    have hstep := copyStep_copyNode (copyTreeIn order fuel) (order.arrange (st.visited + 1))
      source target st
    rw [copyTreeIn] at hdone
    generalize copyNode _ _ source target st = out at hstep hdone
    cases hstep with
    | stopped | broken => cases hdone
    | @file bytes files copied hstat hmade hcopy =>
      cases hdone
      obtain ⟨hparent, hready⟩ := h.parent_made hmade
      have hfile := FileSystem.at?_of_stat hstat
      rw [h.source_eq, hn, Option.some.injEq] at hfile
      subst hfile
      obtain rfl : p = [] := by
        cases p with
        | nil => rfl
        | cons name rest => simp [Node.at?_cons, Node.child?] at hp
      rw [Node.at?_nil, Option.some.injEq] at hp
      subst hp
      rw [List.append_nil]
      exact FileSystem.shown_eq_file_iff.mpr
        (hready.file_delivered hapart (hparent.at?_eq hapart hn) hcopy)
    | @entries _ files names hstat hmade hlist =>
      obtain ⟨hdirs, hlisted⟩ := h.made hmade
      obtain ⟨children, hchildren, hkeys⟩ := FileSystem.list_eq_ok hlist
      have hperm := order.perm (st.visited + 1) names
      have hnodup : names.Nodup := by
        rw [hkeys]
        exact (hlisted.sound.sorted _ _ hchildren).imp String.ne_of_lt
      have hthere (name : String) (hname : name ∈ order.arrange (st.visited + 1) names) :=
        (hlisted.mem_names_iff hlist).mp (hperm.mem_iff.mp hname)
      have hlistedAt := hdirs.at?_eq hapart hn
      rw [hlisted.source_eq, hlistedAt, Option.some.injEq] at hchildren
      subst hchildren
      cases p with
      | nil =>
        -- The target was made, and directories stay.
        obtain rfl := Option.some.inj hp
        have hmadeDir := (FileSystem.goes_of_makeDirs h.anchored.isDirAt_start hmade).isDirAt
        change files.IsDirAt (files.place target) at hmadeDir
        rw [hlisted.target_eq] at hmadeDir
        obtain ⟨held, hheld⟩ := (hlisted.changes_names hconfined hthere hdone).isDirAt hmadeDir
        rw [List.append_nil, FileSystem.shown, hheld]
        rfl
      | cons name rest =>
        rw [← List.singleton_append, Node.at?_append] at hp
        obtain ⟨c, hc, hrest⟩ := Option.bind_eq_some_iff.mp hp
        have hat : files.root.at? (S ++ [name]) = some c := by
          rw [Node.at?_append, hlistedAt, Option.bind_some, hc]
        have hmem : name ∈ order.arrange (st.visited + 1) names :=
          hperm.mem_iff.mpr ((hlisted.mem_names_iff hlist).mpr (by simp [hat]))
        refine hlisted.delivered_by_names hconfined hthere (hperm.nodup_iff.mpr hnodup) hmem hdone
          fun now next htoNow hcopy => ?_
        -- What is copied before leaves the source, so the name is copied as it stands there.
        have hnow := hlisted.of_changes htoNow
        have hatNow := htoNow.ne_none (hat ▸ Option.some_ne_none c)
        have hnowAt : now.files.root.at? (S ++ [name]) = some c := by
          rw [Node.at?_append, htoNow.at?_eq hapart hlistedAt, Option.bind_some, hc]
        have hdelivered := ih (hnow.child hatNow)
          (fun q hq hpre => hapart q (hnow.fills_of_child hatNow hq)
            ((List.prefix_append S [name]).trans hpre)) hnowAt hcopy hrest
        rwa [List.append_assoc] at hdelivered

end PluginChain.OutputDir
