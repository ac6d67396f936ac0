import PluginChain.Proofs.Ways
set_option autoImplicit false

/-!
# The places that paths mean

In a tree without links a path means one place, whatever stands there: its moves are
walked from the root or from the working directory, a name leading down and two points
leading up.  Whenever an operation gets through, it has looked at or changed this
place, and every place on the way to it is a directory.
-/

namespace PluginChain.FileSystem

open PluginChain.Path (moves silent)

/-- Where a move leads. -/
def move (place : List String) (m : String) : List String :=
  if m = ".." then place.dropLast else place ++ [m]

/-- Where moves lead, one after the other. -/
def walk (place ms : List String) : List String := ms.foldl move place

/-- The place where a path begins. -/
def start (fs : FileSystem) (path : String) : List String :=
  if Path.isAbsolute path then [] else fs.cwd

/-- The place that a path means. -/
def place (fs : FileSystem) (path : String) : List String := walk (fs.start path) (moves path)

/-- A directory stands at the place. -/
def IsDirAt (fs : FileSystem) (place : List String) : Prop :=
  ∃ children, fs.root.at? place = some (.dir children)

/-- All places on the way of some moves are directories. -/
def Goes (fs : FileSystem) (place ms : List String) : Prop :=
  ∀ k, k <+: ms → fs.IsDirAt (walk place k)

variable {fs fs' : FileSystem} {P Q ms : List String} {path : String}

/-! ## Walks -/

@[simp] theorem walk_nil (P : List String) : walk P [] = P := rfl

theorem walk_cons (P : List String) (m : String) (ms : List String) :
    walk P (m :: ms) = walk (move P m) ms := rfl

theorem walk_append (P ms ns : List String) : walk P (ms ++ ns) = walk (walk P ms) ns :=
  List.foldl_append

/-- Names lead down. -/
theorem walk_of_up_not_mem (P : List String) (h : ".." ∉ ms) : walk P ms = P ++ ms := by
  induction ms generalizing P with
  | nil => simp
  | cons m rest ih =>
    simp only [List.mem_cons, not_or] at h
    rw [walk_cons, move, if_neg (Ne.symm h.1), ih _ h.2, List.append_assoc, List.singleton_append]

theorem Goes.isDirAt (h : fs.Goes P ms) : fs.IsDirAt (walk P ms) := h ms List.prefix_rfl

theorem Goes.isDirAt_start (h : fs.Goes P ms) : fs.IsDirAt P := h [] List.nil_prefix

/-- A way goes one move further if that leads to a directory. -/
theorem Goes.concat {m : String} (h : fs.Goes P ms) (hm : fs.IsDirAt (walk P (ms ++ [m]))) :
    fs.Goes P (ms ++ [m]) := by
  intro k hk
  rcases List.prefix_concat_iff.mp hk with rfl | hk
  · exact hm
  · exact h k hk

/-! ## Following segments -/

theorem origin_eq (fs : FileSystem) (path : String) : fs.origin path = fs.look (fs.start path) := by
  unfold origin start
  split <;> rfl

/-- The segments to follow ask for the moves of the path. -/
theorem filter_steps (path : String) :
    (steps path).filter (fun segment => !silent segment) = moves path := by
  unfold steps
  split
  · next h =>
    obtain ⟨rest, hrest⟩ : ∃ rest, path.toList = '/' :: rest := by
      rw [Path.isAbsolute, decide_eq_true_eq, List.head?_eq_some_iff] at h
      exact h
    rw [moves, Path.allSegments, hrest]
    rfl
  · rfl

theorem mem_allSegments_of_mem_steps {segment : String} (h : segment ∈ steps path) :
    segment ∈ Path.allSegments path := by
  unfold steps at h
  split at h
  · exact List.mem_of_mem_drop h
  · exact h

/-- A segment is followed from a directory only, and to where it leads. -/
theorem enter_eq_ok {segment : String} {next : Reached}
    (h : fs.enter (fs.look P) segment = .ok next) :
    fs.IsDirAt P ∧ next = fs.look (if silent segment then P else move P segment) := by
  unfold enter at h
  simp only [look] at h
  split at h
  · cases h
  · cases h
  · next children hdir =>
    refine ⟨⟨children, hdir⟩, ?_⟩
    have hsilent : silent segment = true ↔ segment = "" ∨ segment = "." := by simp [silent]
    simp only [hsilent, move, look]
    split_ifs at h ⊢ with hs hup hlong
    · exact (Except.ok.inj h).symm
    · exact (Except.ok.inj h).symm
    · rw [← Except.ok.inj h, Node.at?_append, hdir, Option.bind_some, Node.at?_cons]
      simp [Node.child?]

/-- Segments that are followed lead to where their moves do, and there are directories
before each of the moves. -/
theorem follow_eq_ok {segments : List String} {r : Reached}
    (h : fs.follow (fs.look P) segments = .ok r) :
    r = fs.look (walk P (segments.filter fun segment => !silent segment)) ∧
      ∀ k m rest, segments.filter (fun segment => !silent segment) = k ++ m :: rest →
        fs.IsDirAt (walk P k) := by
  induction segments generalizing P with
  | nil =>
    obtain rfl := Except.ok.inj h
    exact ⟨rfl, fun k m rest hk => by simp at hk⟩
  | cons segment rest ih =>
    rw [follow] at h
    cases henter : fs.enter (fs.look P) segment with
    | error e => simp [henter] at h
    | ok next =>
      obtain ⟨hdir, rfl⟩ := enter_eq_ok henter
      simp only [henter] at h
      by_cases hs : silent segment = true
      · rw [if_pos hs] at h
        rw [List.filter_cons_of_neg (by simp [hs])]
        exact ih h
      · rw [if_neg hs] at h
        rw [List.filter_cons_of_pos (by simp [hs])]
        obtain ⟨hr, hthrough⟩ := ih h
        refine ⟨hr, fun k m after hk => ?_⟩
        cases k with
        | nil => exact hdir
        | cons n k =>
          rw [List.cons_append, List.cons.injEq] at hk
          obtain ⟨rfl, hk⟩ := hk
          exact hthrough k m after hk

/-- A way that has directories before each move, and leads to one, goes through
directories. -/
theorem goes_of_through (hthrough : ∀ k m rest, ms = k ++ m :: rest → fs.IsDirAt (walk P k))
    (h : fs.IsDirAt (walk P ms)) : fs.Goes P ms := by
  rintro k ⟨rest, rfl⟩
  cases rest with
  | nil => rwa [List.append_nil] at h
  | cons m rest => exact hthrough k m rest rfl

theorem reach_eq_ok {r : Reached} (h : fs.reach path = .ok r) :
    r = fs.look (fs.place path) ∧
      ∀ k m rest, moves path = k ++ m :: rest → fs.IsDirAt (walk (fs.start path) k) := by
  unfold reach at h
  split at h
  · cases h
  · rw [origin_eq] at h
    have hfollow := follow_eq_ok h
    rwa [filter_steps] at hfollow

/-- What a path leads to stands at its place. -/
theorem at?_of_stat {n : Node} (h : fs.stat path = .ok n) :
    fs.root.at? (fs.place path) = some n := by
  unfold stat at h
  split at h
  · cases h
  · next r hreach =>
    obtain ⟨rfl, -⟩ := reach_eq_ok hreach
    split at h
    · next m hm =>
      rw [← Except.ok.inj h]
      exact hm
    · cases h

/-- What a path leads to is reached through directories. -/
theorem through_of_stat {n : Node} (h : fs.stat path = .ok n) (k : List String) (m : String)
    (rest : List String) (hk : moves path = k ++ m :: rest) :
    fs.IsDirAt (walk (fs.start path) k) := by
  unfold stat at h
  split at h
  · cases h
  · next r hreach => exact (reach_eq_ok hreach).2 k m rest hk

/-- Where a path leads to a directory, its whole way is through directories. -/
theorem goes_of_isDir (h : fs.isDir path = true) : fs.Goes (fs.start path) (moves path) := by
  unfold isDir at h
  split at h
  · next children hstat =>
    exact goes_of_through (through_of_stat hstat) ⟨children, at?_of_stat hstat⟩
  · cases h

/-- The names that are listed are those of the directory at the place. -/
theorem list_eq_ok {names : List String} (h : fs.list path = .ok names) :
    ∃ children, fs.root.at? (fs.place path) = some (.dir children) ∧
      names = Keyed.keys children := by
  unfold list at h
  split at h
  · next children hstat => exact ⟨children, at?_of_stat hstat, (Except.ok.inj h).symm⟩
  · cases h
  · cases h

/-- A path that is empty or too long lists nothing. -/
theorem list_ne_ok {names : List String} (h : path = "" ∨ fs.pathMax ≤ path.utf8ByteSize) :
    fs.list path ≠ .ok names := by
  have hcheck : fs.checkPath path ≠ .ok () := by
    unfold checkPath
    split_ifs with hnul hempty hlong
    · exact nofun
    · exact nofun
    · exact nofun
    · exact absurd h (not_or.mpr ⟨hempty, hlong⟩)
  unfold list stat reach
  cases hpath : fs.checkPath path with
  | error e => exact nofun
  | ok u => exact absurd hpath hcheck

/-! ## Where something new is made -/

/-- The path means a name in a directory, to which its way goes. -/
structure Opens (fs : FileSystem) (path : String) (parent : List String) (name : String) :
    Prop where
  isName : Path.IsName name
  way : ∃ before, moves path = before ++ [name] ∧ fs.Goes (fs.start path) before ∧
    walk (fs.start path) before = parent

theorem Opens.place_eq {parent : List String} {name : String} (h : fs.Opens path parent name) :
    fs.place path = parent ++ [name] := by
  obtain ⟨before, hmoves, -, hwalk⟩ := h.way
  rw [place, hmoves, walk_append, hwalk, walk_of_up_not_mem _ (by simpa using h.isName.not_up.symm)]

theorem Opens.isDirAt {parent : List String} {name : String} (h : fs.Opens path parent name) :
    fs.IsDirAt parent := by
  obtain ⟨before, -, hgoes, rfl⟩ := h.way
  exact hgoes.isDirAt

/-- Only empty segments are left off at the end. -/
theorem exists_empty_segments (segments : List String) :
    ∃ slashes : List String, (∀ s ∈ slashes, s = "") ∧
      segments = (segments.reverse.dropWhile (· = "")).reverse ++ slashes := by
  refine ⟨(segments.reverse.takeWhile (· = "")).reverse, fun s hs => ?_, ?_⟩
  · simpa using List.mem_takeWhile_imp (List.mem_reverse.mp hs)
  · rw [← List.reverse_append, List.takeWhile_append_dropWhile, List.reverse_reverse]

/-- The last segment that is a name, and what is before it. -/
theorem splitLast_eq_name {segments before : List String} {name : String} {slashed : Bool}
    (h : splitLast segments = (before, .name name slashed)) :
    segments.filter (fun segment => !silent segment) =
        before.filter (fun segment => !silent segment) ++ [name] ∧
      name ∈ segments ∧ silent name = false ∧ name ≠ ".." := by
  -- Only empty segments stand behind the last name.
  obtain ⟨slashes, hslashes, hsegments⟩ := exists_empty_segments segments
  have hhead := List.head?_dropWhile_not (fun s : String => decide (s = "")) segments.reverse
  generalize htrim : segments.reverse.dropWhile (fun s => decide (s = "")) = trimmed at *
  have hnone : slashes.filter (fun segment => !silent segment) = [] := by
    rw [List.filter_eq_nil_iff]
    intro s hs
    rw [hslashes s hs]
    decide
  rw [splitLast, htrim] at h
  cases trimmed with
  | nil => simp at h
  | cons last others =>
    simp only [List.reverse_cons, List.getLast?_concat, List.dropLast_concat] at h
    split_ifs at h with hspecial
    · cases h
    · cases h
      have hne : name ≠ "" := by simpa using hhead
      simp only [not_or] at hspecial
      have hspeaks : silent name = false := by simp [silent, hne, hspecial.1]
      rw [hsegments]
      refine ⟨?_, by simp, hspeaks, hspecial.2⟩
      rw [List.filter_append, hnone, List.reverse_cons, List.filter_append]
      simp [hspeaks]

theorem reachParent_eq_ok {dir : Reached} {name : String} {slashed : Bool}
    (h : fs.reachParent path = .ok (dir, .name name slashed)) :
    Path.IsName name ∧ ∃ before, moves path = before ++ [name] ∧
      dir = fs.look (walk (fs.start path) before) ∧
      (fs.IsDirAt dir.place → fs.Goes (fs.start path) before) := by
  unfold reachParent at h
  split at h
  · cases h
  · rw [origin_eq] at h
    generalize hsplit : splitLast (steps path) = parts at h
    obtain ⟨before, last⟩ := parts
    dsimp only at h
    split at h
    · cases h
    · next d hfollow =>
      simp only [Except.ok.injEq, Prod.mk.injEq] at h
      obtain ⟨rfl, rfl⟩ := h
      obtain ⟨hfilter, hmem, hspeaks, hup⟩ := splitLast_eq_name hsplit
      obtain ⟨rfl, hthrough⟩ := follow_eq_ok hfollow
      refine ⟨Path.isName_of_mem_allSegments (mem_allSegments_of_mem_steps hmem) hspeaks hup,
        before.filter fun segment => !silent segment, ?_, rfl, goes_of_through hthrough⟩
      rw [← filter_steps, hfilter]

/-- A name that is entered in the directory that a path reaches is opened. -/
theorem opens_of_enter {dir next : Reached} {name : String} {slashed : Bool}
    (h : fs.reachParent path = .ok (dir, .name name slashed))
    (henter : fs.enter dir name = .ok next) :
    ∃ parent, fs.Opens path parent name ∧ next = fs.look (parent ++ [name]) := by
  obtain ⟨hname, before, hmoves, rfl, hgoes⟩ := reachParent_eq_ok h
  obtain ⟨hdir, rfl⟩ := enter_eq_ok henter
  refine ⟨_, ⟨hname, before, hmoves, hgoes hdir, rfl⟩, ?_⟩
  rw [if_neg (by simp [hname.speaks]), move, if_neg hname.not_up]

/-- A directory is made at the place of its path, where nothing was. -/
theorem makeDir_eq_ok (h : fs.makeDir path = .ok fs') :
    ∃ parent name, fs.Opens path parent name ∧ fs.root.at? (parent ++ [name]) = none ∧
      fs' = fs.put (parent ++ [name]) .emptyDir := by
  unfold makeDir at h
  split at h
  · cases h
  · split at h <;> cases h
  · next dir name slashed hreach =>
    split at h
    · cases h
    · cases h
    · next place henter =>
      obtain ⟨parent, hopens, hnext⟩ := opens_of_enter hreach henter
      simp only [look, Reached.mk.injEq] at hnext
      obtain ⟨rfl, hnone⟩ := hnext
      exact ⟨parent, name, hopens, hnone.symm, (Except.ok.inj h).symm⟩

/-- A file is opened at the place of its path, where no directory is, and is then
empty. -/
theorem openForWriting_eq_ok {place : List String} (h : fs.openForWriting path = .ok (place, fs')) :
    ∃ parent name, fs.Opens path parent name ∧ place = parent ++ [name] ∧ ¬ fs.IsDirAt place ∧
      fs' = fs.put place (.file ByteArray.empty) := by
  unfold openForWriting at h
  split at h
  · cases h
  · split at h <;> cases h
  · next dir name slashed hreach =>
    split at h
    · cases h
    · split_ifs at h
      split at h
      · cases h
      · cases h
      · next q found? hdir henter =>
        obtain ⟨parent, hopens, hnext⟩ := opens_of_enter hreach henter
        simp only [look, Reached.mk.injEq] at hnext
        obtain ⟨rfl, rfl⟩ := hnext
        simp only [Except.ok.injEq, Prod.mk.injEq] at h
        obtain ⟨rfl, rfl⟩ := h
        exact ⟨parent, name, hopens, rfl, fun ⟨children, hat⟩ => hdir children hat, rfl⟩

end PluginChain.FileSystem
