import Mathlib.Logic.Relation
import PluginChain.Proofs.Places
set_option autoImplicit false

/-!
# Changes of files

All that operations do to a tree is made of two kinds of changes: a directory is made
where nothing was, and a file is written where no directory is.  `Change` says what a
single one does, `Changes` is any number of them, each at an allowed place.  Whatever
the operations are, directories stay directories, what no allowed place lies in stays
as it was, and a sound tree stays sound.
-/

namespace PluginChain

/-! ## Trees -/

namespace Node

/-- What stands above something is a directory, which has the name that leads on. -/
theorem dir_of_at?_append {n m : Node} {p rest : List String} {name : String}
    (h : n.at? (p ++ name :: rest) = some m) :
    ∃ children, n.at? p = some (.dir children) ∧ name ∈ Keyed.keys children := by
  rw [at?_append] at h
  cases hp : n.at? p with
  | none => simp [hp] at h
  | some c =>
    rw [hp, Option.bind_some, at?_cons] at h
    cases c with
    | file bytes => simp [child?] at h
    | dir children =>
      refine ⟨children, rfl, Keyed.contains_iff_mem_keys.mp ?_⟩
      cases hc : Keyed.get? name children with
      | none => simp [child?, hc] at h
      | some d => simp [Keyed.contains, hc]

/-- A change below a directory gives that a child with the name on the way. -/
theorem at?_put_above {n : Node} {p rest : List String} {name : String}
    {children : List (String × Node)} (h : n.at? p = some (.dir children)) (new : Node) :
    (n.put (p ++ name :: rest) new).at? p =
      some (.dir (Keyed.insert name
        (((Keyed.get? name children).getD emptyDir).put rest new) children)) := by
  induction p generalizing n with
  | nil =>
    rw [at?_nil, Option.some.injEq] at h
    subst h
    rw [at?_nil]
    rfl
  | cons s p ih =>
    rw [at?_cons] at h
    cases n with
    | file bytes => simp [child?] at h
    | dir cs =>
      cases hc : Keyed.get? s cs with
      | none => simp [child?, hc] at h
      | some c =>
        simp only [child?, hc, Option.bind_some] at h
        simp only [List.cons_append, put, hc, Option.getD_some, at?_cons, child?,
          Keyed.get?_insert_self, Option.bind_some]
        exact ih h

/-- What a directory holds; a file holds nothing. -/
def entries : Node → List (String × Node)
  | .dir children => children
  | .file _ => []

theorem at?_singleton (n : Node) (name : String) :
    n.at? [name] = Keyed.get? name n.entries := by
  rw [at?_cons]
  cases n with
  | file bytes => rfl
  | dir children => cases hc : Keyed.get? name children <;> simp [child?, entries, hc]

/-- What is seen of a node by itself: the bytes of a file, or that it is a directory. -/
def content? : Node → Option ByteArray
  | .file bytes => some bytes
  | .dir _ => none

end Node

namespace FileSystem

variable {fs fs' fs'' : FileSystem} {allowed also : List String → Prop}
  {place P Q R : List String} {path : String}

/-- What is seen at a place: nothing, a file with its bytes, or a directory. -/
def shown (fs : FileSystem) (place : List String) : Option (Option ByteArray) :=
  (fs.root.at? place).map Node.content?

theorem shown_eq_file_iff {bytes : ByteArray} :
    fs.shown place = some (some bytes) ↔ fs.root.at? place = some (.file bytes) := by
  rw [shown]
  cases fs.root.at? place with
  | none => simp
  | some n => cases n <;> simp [Node.content?]

theorem shown_eq_dir_iff : fs.shown place = some none ↔ fs.IsDirAt place := by
  rw [shown, IsDirAt]
  cases fs.root.at? place with
  | none => simp
  | some n => cases n <;> simp [Node.content?]

/-- The place lies below another. -/
def Below (top place : List String) : Prop := top <+: place ∧ place ≠ top

/-- The files of a host: every directory has its names in order, all of which can be
names, and the working directory is there. -/
structure Sound (fs : FileSystem) : Prop where
  sorted (place : List String) (children : List (String × Node))
    (h : fs.root.at? place = some (.dir children)) : (Keyed.keys children).Pairwise (· < ·)
  names (place : List String) (children : List (String × Node))
    (h : fs.root.at? place = some (.dir children)) :
    ∀ name ∈ Keyed.keys children, Path.IsName name
  here : fs.IsDirAt fs.cwd

/-- A tree of one empty directory is sound. -/
theorem sound_of_empty (hroot : fs.root = .emptyDir) (hcwd : fs.cwd = []) : fs.Sound := by
  have hchildren (place : List String) (children : List (String × Node))
      (h : fs.root.at? place = some (.dir children)) : children = [] := by
    rw [hroot] at h
    cases place with
    | nil => simpa [Node.emptyDir, eq_comm] using h
    | cons name rest => simp [Node.emptyDir, Node.at?_cons, Node.child?] at h
  refine ⟨fun place children h => ?_, fun place children h => ?_, [], ?_⟩
  · rw [hchildren place children h]
    exact List.Pairwise.nil
  · rw [hchildren place children h]
    intro name hname
    cases hname
  · rw [hroot, hcwd]
    rfl

/-! ## Single changes -/

/-- One change at an allowed place, in a directory that is there. -/
inductive Change (allowed : List String → Prop) (fs : FileSystem) : FileSystem → Prop
  /-- A directory is made where nothing was. -/
  | made {parent : List String} {name : String} (dir : fs.IsDirAt parent)
      (isName : Path.IsName name) (may : allowed (parent ++ [name]))
      (free : fs.root.at? (parent ++ [name]) = none) :
      Change allowed fs (fs.put (parent ++ [name]) .emptyDir)
  /-- A file is written where no directory is. -/
  | written {parent : List String} {name : String} (bytes : ByteArray)
      (dir : fs.IsDirAt parent) (isName : Path.IsName name) (may : allowed (parent ++ [name]))
      (free : ¬ fs.IsDirAt (parent ++ [name])) :
      Change allowed fs (fs.put (parent ++ [name]) (.file bytes))

/-- What a change is, whichever it is: at an allowed place in a directory that is there,
where no directory is, something is put that holds nothing else, a directory only where
nothing was. -/
theorem Change.cases_put (h : Change allowed fs fs') :
    ∃ parent name new, fs.IsDirAt parent ∧ Path.IsName name ∧ allowed (parent ++ [name]) ∧
      ¬ fs.IsDirAt (parent ++ [name]) ∧
      (new = .emptyDir ∧ fs.root.at? (parent ++ [name]) = none ∨ ∃ bytes, new = .file bytes) ∧
      fs' = fs.put (parent ++ [name]) new := by
  cases h with
  | made dir isName may free =>
    refine ⟨_, _, _, dir, isName, may, ?_, .inl ⟨rfl, free⟩, rfl⟩
    rintro ⟨children, hat⟩
    rw [free] at hat
    cases hat
  | written bytes dir isName may free =>
    exact ⟨_, _, _, dir, isName, may, free, .inr ⟨bytes, rfl⟩, rfl⟩

theorem Change.mono (h : Change allowed fs fs') (hmono : ∀ q, allowed q → also q) :
    Change also fs fs' := by
  cases h with
  | made dir isName may free => exact .made dir isName (hmono _ may) free
  | written bytes dir isName may free => exact .written bytes dir isName (hmono _ may) free

theorem Change.cwd_eq (h : Change allowed fs fs') : fs'.cwd = fs.cwd := by
  cases h <;> rfl

theorem Change.pathMax_eq (h : Change allowed fs fs') : fs'.pathMax = fs.pathMax := by
  cases h <;> rfl

theorem Change.breaksOff?_eq (h : Change allowed fs fs') : fs'.breaksOff? = fs.breaksOff? := by
  cases h <;> rfl

/-- A place above something is one of a directory. -/
theorem isDirAt_of_below {n : Node} (hn : fs.root.at? Q = some n) (h : Below P Q) :
    fs.IsDirAt P := by
  obtain ⟨⟨rest, rfl⟩, hne⟩ := h
  cases rest with
  | nil => simp at hne
  | cons name rest =>
    obtain ⟨children, hchildren, -⟩ := Node.dir_of_at?_append hn
    exact ⟨children, hchildren⟩

theorem IsDirAt.of_prefix (h : fs.IsDirAt Q) (hpre : P <+: Q) : fs.IsDirAt P := by
  by_cases heq : Q = P
  · exact heq ▸ h
  · obtain ⟨children, hchildren⟩ := h
    exact isDirAt_of_below hchildren ⟨hpre, heq⟩

/-- Nothing stands at or below a place where no directory is, but a file at the place
itself. -/
theorem eq_of_prefix_of_not_isDirAt {n : Node} (hfree : ¬ fs.IsDirAt P) (h : P <+: Q)
    (hn : fs.root.at? Q = some n) : Q = P := by
  by_contra hne
  exact hfree (isDirAt_of_below hn ⟨h, hne⟩)

/-- A place above another leads to it by a name and more names. -/
theorem exists_cons_of_prefix (h : P <+: Q) (hne : ¬ Q <+: P) :
    ∃ name rest, Q = P ++ name :: rest := by
  obtain ⟨rest, rfl⟩ := h
  cases rest with
  | nil => simp at hne
  | cons name rest => exact ⟨name, rest, rfl⟩

theorem Change.isDirAt (h : Change allowed fs fs') (hQ : fs.IsDirAt Q) : fs'.IsDirAt Q := by
  obtain ⟨parent, name, new, -, -, -, hfree, -, rfl⟩ := h.cases_put
  obtain ⟨children, hchildren⟩ := hQ
  by_cases hbelow : parent ++ [name] <+: Q
  · obtain rfl := eq_of_prefix_of_not_isDirAt hfree hbelow hchildren
    exact absurd ⟨children, hchildren⟩ hfree
  · by_cases habove : Q <+: parent ++ [name]
    · obtain ⟨s, rest, hcons⟩ := exists_cons_of_prefix habove hbelow
      rw [hcons]
      exact ⟨_, Node.at?_put_above hchildren new⟩
    · refine ⟨children, ?_⟩
      rw [at?_root_put_of_disjoint fs hbelow habove]
      exact hchildren

/-- What stands somewhere is still there, of the same kind. -/
theorem Change.isDir_eq {n : Node} (h : Change allowed fs fs') (hn : fs.root.at? Q = some n) :
    ∃ n', fs'.root.at? Q = some n' ∧ n'.isDir = n.isDir := by
  cases n with
  | dir children =>
    obtain ⟨children', hchildren'⟩ := h.isDirAt ⟨children, hn⟩
    exact ⟨_, hchildren', rfl⟩
  | file bytes =>
    obtain ⟨parent, name, new, hparent, -, -, hfree, hnew, rfl⟩ := h.cases_put
    by_cases hbelow : parent ++ [name] <+: Q
    · obtain rfl := eq_of_prefix_of_not_isDirAt hfree hbelow hn
      rcases hnew with ⟨-, hnone⟩ | ⟨bytes', rfl⟩
      · rw [hnone] at hn
        cases hn
      · obtain ⟨siblings, hsiblings⟩ := hparent
        exact ⟨_, Node.at?_put_self hsiblings _, rfl⟩
    · by_cases habove : Q <+: parent ++ [name]
      · rcases List.prefix_concat_iff.mp habove with rfl | hpre
        · exact absurd List.prefix_rfl hbelow
        · obtain ⟨children, hchildren⟩ := hparent.of_prefix hpre
          rw [hchildren] at hn
          cases hn
      · exact ⟨_, (at?_root_put_of_disjoint fs hbelow habove new).trans hn, rfl⟩

/-- Nothing is made where that is not allowed. -/
theorem Change.eq_none (h : Change allowed fs fs') (hnone : fs.root.at? Q = none)
    (hQ : ¬ allowed Q) : fs'.root.at? Q = none := by
  obtain ⟨parent, name, new, hparent, -, hmay, -, hnew, rfl⟩ := h.cases_put
  by_cases hbelow : parent ++ [name] <+: Q
  · obtain ⟨rest, rfl⟩ := hbelow
    obtain ⟨siblings, hsiblings⟩ := hparent
    cases rest with
    | nil => exact absurd ((List.append_nil (parent ++ [name])).symm ▸ hmay) hQ
    | cons s rest =>
      rw [put, Node.at?_append, Node.at?_put_self hsiblings, Option.bind_some, Node.at?_cons]
      rcases hnew with ⟨rfl, -⟩ | ⟨bytes, rfl⟩ <;> rfl
  · by_cases habove : Q <+: parent ++ [name]
    · rcases List.prefix_concat_iff.mp habove with rfl | hpre
      · exact absurd List.prefix_rfl hbelow
      · obtain ⟨children, hchildren⟩ := hparent.of_prefix hpre
        rw [hchildren] at hnone
        cases hnone
    · rw [at?_root_put_of_disjoint fs hbelow habove]
      exact hnone

/-- What no allowed place lies in stays as it was. -/
theorem Change.at?_eq {n : Node} (h : Change allowed fs fs')
    (hapart : ∀ q, allowed q → ¬ Q <+: q) (hn : fs.root.at? Q = some n) :
    fs'.root.at? Q = some n := by
  obtain ⟨parent, name, new, -, -, hmay, hfree, -, rfl⟩ := h.cases_put
  have hbelow : ¬ parent ++ [name] <+: Q := by
    intro hbelow
    obtain rfl := eq_of_prefix_of_not_isDirAt hfree hbelow hn
    exact hapart _ hmay List.prefix_rfl
  rw [at?_root_put_of_disjoint fs hbelow (hapart _ hmay)]
  exact hn

/-- What lies at and below no allowed place is seen as before. -/
theorem Change.shown_eq (h : Change allowed fs fs') (hapart : ∀ q, allowed q → ¬ q <+: Q) :
    fs'.shown Q = fs.shown Q := by
  obtain ⟨parent, name, new, hparent, -, hmay, hfree, -, hfs⟩ := h.cases_put
  have hbelow := hapart _ hmay
  by_cases habove : Q <+: parent ++ [name]
  · -- Above the change there is a directory, before and after it.
    have hdir : fs.IsDirAt Q := by
      rcases List.prefix_concat_iff.mp habove with rfl | hpre
      · exact absurd List.prefix_rfl hbelow
      · exact hparent.of_prefix hpre
    obtain ⟨children, hchildren⟩ := hdir
    obtain ⟨children', hchildren'⟩ := h.isDirAt ⟨children, hchildren⟩
    rw [shown, shown, hchildren, hchildren']
    rfl
  · rw [hfs, shown, shown, at?_root_put_of_disjoint fs hbelow habove]

/-- The names of a directory after a change: those that it had, and perhaps the new
one in their order. -/
theorem Change.dir_cases {children : List (String × Node)} (h : Change allowed fs fs')
    (hQ : fs'.root.at? Q = some (.dir children)) :
    children = [] ∨ fs.root.at? Q = some (.dir children) ∨
      ∃ before s c, fs.root.at? Q = some (.dir before) ∧ children = Keyed.insert s c before ∧
        (Path.IsName s ∨ s ∈ Keyed.keys before) := by
  obtain ⟨parent, name, new, hparent, hname, -, -, hnew, rfl⟩ := h.cases_put
  obtain ⟨siblings, hsiblings⟩ := hparent
  by_cases hbelow : parent ++ [name] <+: Q
  · obtain ⟨rest, rfl⟩ := hbelow
    have hput : ((fs.root.put (parent ++ [name]) new).at? (parent ++ [name])) = some new :=
      Node.at?_put_self hsiblings new
    rw [put, Node.at?_append, hput, Option.bind_some] at hQ
    left
    rcases hnew with ⟨rfl, -⟩ | ⟨bytes, rfl⟩
    · cases rest with
      | nil => simpa [Node.emptyDir, eq_comm] using hQ
      | cons s rest => simp [Node.emptyDir, Node.at?_cons, Node.child?] at hQ
    · cases rest with
      | nil => simp at hQ
      | cons s rest => simp [Node.at?_cons, Node.child?] at hQ
  · right
    by_cases habove : Q <+: parent ++ [name]
    · right
      obtain ⟨s, rest, hcons⟩ := exists_cons_of_prefix habove hbelow
      have hdir : fs.IsDirAt Q := by
        rcases List.prefix_concat_iff.mp habove with rfl | hpre
        · exact absurd List.prefix_rfl hbelow
        · exact IsDirAt.of_prefix ⟨siblings, hsiblings⟩ hpre
      obtain ⟨before, hbefore⟩ := hdir
      rw [put, hcons, Node.at?_put_above hbefore, Option.some.injEq, Node.dir.injEq] at hQ
      refine ⟨before, s, _, hbefore, hQ.symm, ?_⟩
      rcases List.eq_nil_or_concat rest with rfl | ⟨front, last, rfl⟩
      · left
        obtain ⟨-, hlast⟩ := List.append_inj' hcons rfl
        exact (List.cons.inj hlast).1 ▸ hname
      · right
        rw [List.concat_eq_append, ← List.cons_append, ← List.append_assoc] at hcons
        obtain ⟨rfl, -⟩ := List.append_inj' hcons rfl
        obtain ⟨others, hothers, hmem⟩ := Node.dir_of_at?_append hsiblings
        rw [hbefore, Option.some.injEq, Node.dir.injEq] at hothers
        exact hothers ▸ hmem
    · left
      rwa [at?_root_put_of_disjoint fs hbelow habove] at hQ

/-- A sound tree stays sound. -/
theorem Change.sound (h : Change allowed fs fs') (hfs : fs.Sound) : fs'.Sound := by
  refine ⟨fun Q children hQ => ?_, fun Q children hQ => ?_, ?_⟩
  · rcases h.dir_cases hQ with rfl | hbefore | ⟨before, s, c, hbefore, rfl, -⟩
    · exact List.Pairwise.nil
    · exact hfs.sorted Q children hbefore
    · exact Keyed.pairwise_keys_insert s c (hfs.sorted Q before hbefore)
  · rcases h.dir_cases hQ with rfl | hbefore | ⟨before, s, c, hbefore, rfl, hs⟩
    · exact nofun
    · exact hfs.names Q children hbefore
    · intro name hname
      rcases Keyed.mem_keys_insert.mp hname with rfl | hname
      · exact hs.elim id (hfs.names Q before hbefore name)
      · exact hfs.names Q before hbefore name hname
  · rw [h.cwd_eq]
    exact h.isDirAt hfs.here

/-! ## Any number of changes -/

/-- Changes at allowed places, one after the other. -/
def Changes (allowed : List String → Prop) : FileSystem → FileSystem → Prop :=
  Relation.ReflTransGen (Change allowed)

namespace Changes

theorem refl (fs : FileSystem) : Changes allowed fs fs := Relation.ReflTransGen.refl

theorem single (h : Change allowed fs fs') : Changes allowed fs fs' :=
  Relation.ReflTransGen.single h

theorem trans (h : Changes allowed fs fs') (h' : Changes allowed fs' fs'') :
    Changes allowed fs fs'' :=
  Relation.ReflTransGen.trans h h'

theorem mono (h : Changes allowed fs fs') (hmono : ∀ q, allowed q → also q) :
    Changes also fs fs' := by
  induction h with
  | refl => exact refl fs
  | tail _ hchange ih => exact ih.trans (single (hchange.mono hmono))

theorem cwd_eq (h : Changes allowed fs fs') : fs'.cwd = fs.cwd := by
  induction h with
  | refl => rfl
  | tail _ hchange ih => rw [hchange.cwd_eq, ih]

theorem pathMax_eq (h : Changes allowed fs fs') : fs'.pathMax = fs.pathMax := by
  induction h with
  | refl => rfl
  | tail _ hchange ih => rw [hchange.pathMax_eq, ih]

theorem breaksOff?_eq (h : Changes allowed fs fs') : fs'.breaksOff? = fs.breaksOff? := by
  induction h with
  | refl => rfl
  | tail _ hchange ih => rw [hchange.breaksOff?_eq, ih]

theorem unbroken (h : Changes allowed fs fs') (hfs : fs.Unbroken) : fs'.Unbroken := by
  unfold Unbroken
  rw [h.breaksOff?_eq]
  exact hfs

/-- A path begins where it did. -/
theorem start_eq (h : Changes allowed fs fs') (path : String) : fs'.start path = fs.start path := by
  rw [start, start, h.cwd_eq]

/-- A path means the place that it meant. -/
theorem place_eq (h : Changes allowed fs fs') (path : String) : fs'.place path = fs.place path := by
  rw [FileSystem.place, FileSystem.place, h.start_eq]

theorem isDirAt (h : Changes allowed fs fs') (hQ : fs.IsDirAt Q) : fs'.IsDirAt Q := by
  induction h with
  | refl => exact hQ
  | tail _ hchange ih => exact hchange.isDirAt ih

theorem goes {ms : List String} (h : Changes allowed fs fs') (hgoes : fs.Goes P ms) :
    fs'.Goes P ms :=
  fun k hk => h.isDirAt (hgoes k hk)

/-- What stands somewhere is still there, of the same kind. -/
theorem isDir_eq {n : Node} (h : Changes allowed fs fs') (hn : fs.root.at? Q = some n) :
    ∃ n', fs'.root.at? Q = some n' ∧ n'.isDir = n.isDir := by
  induction h with
  | refl => exact ⟨n, hn, rfl⟩
  | tail _ hchange ih =>
    obtain ⟨m, hm, hkind⟩ := ih
    obtain ⟨n', hn', hkind'⟩ := hchange.isDir_eq hm
    exact ⟨n', hn', hkind'.trans hkind⟩

/-- Nothing goes away. -/
theorem ne_none (h : Changes allowed fs fs') (hQ : fs.root.at? Q ≠ none) :
    fs'.root.at? Q ≠ none := by
  obtain ⟨n, hn⟩ := Option.ne_none_iff_exists'.mp hQ
  obtain ⟨n', hn', -⟩ := h.isDir_eq hn
  rw [hn']
  exact Option.some_ne_none n'

/-- Nothing is made where that is not allowed. -/
theorem eq_none (h : Changes allowed fs fs') (hnone : fs.root.at? Q = none)
    (hQ : ¬ allowed Q) : fs'.root.at? Q = none := by
  induction h with
  | refl => exact hnone
  | tail _ hchange ih => exact hchange.eq_none ih hQ

/-- What stands at a place that is not allowed was there before, and of the same kind. -/
theorem isDir_before {n : Node} (h : Changes allowed fs fs') (hQ : ¬ allowed Q)
    (hn : fs'.root.at? Q = some n) : ∃ m, fs.root.at? Q = some m ∧ m.isDir = n.isDir := by
  cases hm : fs.root.at? Q with
  | none =>
    rw [h.eq_none hm hQ] at hn
    cases hn
  | some m =>
    obtain ⟨n', hn', hkind⟩ := h.isDir_eq hm
    rw [hn, Option.some.injEq] at hn'
    exact ⟨m, rfl, hn' ▸ hkind.symm⟩

/-- What no allowed place lies in stays as it was. -/
theorem at?_eq {n : Node} (h : Changes allowed fs fs') (hapart : ∀ q, allowed q → ¬ Q <+: q)
    (hn : fs.root.at? Q = some n) : fs'.root.at? Q = some n := by
  induction h with
  | refl => exact hn
  | tail _ hchange ih => exact hchange.at?_eq hapart ih

/-- Where no allowed place lies, the same stands as before, if anything. -/
theorem at?_same (h : Changes allowed fs fs') (hapart : ∀ q, allowed q → ¬ Q <+: q) :
    fs'.root.at? Q = fs.root.at? Q := by
  cases hQ : fs.root.at? Q with
  | some n => exact h.at?_eq hapart hQ
  | none => exact h.eq_none hQ fun hmay => hapart Q hmay List.prefix_rfl

/-- What lies at and below no allowed place is seen as before. -/
theorem shown_eq (h : Changes allowed fs fs') (hapart : ∀ q, allowed q → ¬ q <+: Q) :
    fs'.shown Q = fs.shown Q := by
  induction h with
  | refl => rfl
  | tail _ hchange ih => rw [hchange.shown_eq hapart, ih]

theorem sound (h : Changes allowed fs fs') (hfs : fs.Sound) : fs'.Sound := by
  induction h with
  | refl => exact hfs
  | tail _ hchange ih => exact hchange.sound ih

end Changes

end FileSystem

end PluginChain
