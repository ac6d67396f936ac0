set_option autoImplicit false

/-!
# Paths as text

A path is text whose segments are separated by slashes.  Reading a path, an empty
segment and a `.` say nothing, except for a `.` that begins a relative path; the
rest are the path's components.  The operations here look at the text alone and
never at a file system.

`Path.parent?` and `Path.fileName?` split off the last component; `Path.join` is
the text of one path continued by another, and of the other alone when that is
absolute.
-/

namespace PluginChain.Path

/-- One component of a path. -/
inductive Component where
  /-- The slash that begins an absolute path. -/
  | root
  /-- The point that begins a relative path. -/
  | here
  /-- Two points: the directory above. -/
  | up
  | name (s : List Char)
  deriving DecidableEq, Repr, Inhabited

/-- How a path begins. -/
inductive Lead where
  | root
  | here
  | bare
  deriving DecidableEq, Repr, Inhabited

/-- The text before the segments. -/
def Lead.text : Lead → List Char
  | .root => ['/']
  | .here => ['.']
  | .bare => []

/-- How a path begins, and the text behind that. -/
def splitLead : List Char → Lead × List Char
  | '/' :: rest => (.root, rest)
  | ['.'] => (.here, [])
  | '.' :: '/' :: rest => (.here, '/' :: rest)
  | s => (.bare, s)

/-- The segments of a text between slashes; always at least one. -/
def segments : List Char → List (List Char)
  | [] => [[]]
  | c :: cs =>
    if c = '/' then [] :: segments cs
    else
      match segments cs with
      | [] => [[c]]
      | s :: rest => (c :: s) :: rest

/-- The segments with slashes between them. -/
def unsegment : List (List Char) → List Char
  | [] => []
  | [s] => s
  | s :: t :: rest => s ++ '/' :: unsegment (t :: rest)

/-- Whether a segment says nothing. -/
def isSilent (s : List Char) : Bool := s = [] || s = ['.']

/-- The component that a segment is, if it is one. -/
def component? (s : List Char) : Option Component :=
  if isSilent s then none else if s = ['.', '.'] then some .up else some (.name s)

/-- The component that the beginning of a path is, if it is one. -/
def Lead.component? : Lead → Option Component
  | .root => some .root
  | .here => some .here
  | .bare => none

/-- The components of a path. -/
def componentsOf (s : List Char) : List Component :=
  let (lead, body) := splitLead s
  lead.component?.toList ++ (segments body).filterMap component?

/-- The segments without those at the end that say nothing. -/
def trimSegments (segs : List (List Char)) : List (List Char) :=
  (segs.reverse.dropWhile isSilent).reverse

/-- The last component, if it is a name. -/
def fileNameOf? (s : List Char) : Option (List Char) :=
  match (trimSegments (segments (splitLead s).2)).getLast? with
  | some seg => if seg = ['.', '.'] then none else some seg
  | none => none

/-- The text before the last component. -/
def parentOf? (s : List Char) : Option (List Char) :=
  let (lead, body) := splitLead s
  let segs := trimSegments (segments body)
  if segs.isEmpty then
    match lead with
    | .here => some []
    | _ => none
  else some (lead.text ++ unsegment (trimSegments segs.dropLast))

/-- A path continued by another. -/
def joinChars (base other : List Char) : List Char :=
  match other with
  | '/' :: _ => other
  | _ =>
    if base = [] then other
    else if base.getLast? = some '/' then base ++ other
    else base ++ '/' :: other

/-! ## The same on strings -/

/-- The components of a path. -/
def components (p : String) : List Component := componentsOf p.toList

/-- Whether the path begins at the root. -/
def isAbsolute (p : String) : Bool := p.toList.head? = some '/'

/-- The last component, if it is a name. -/
def fileName? (p : String) : Option String := (fileNameOf? p.toList).map String.ofList

/-- The path before its last component. -/
def parent? (p : String) : Option String := (parentOf? p.toList).map String.ofList

/-- A path continued by another. -/
def join (base other : String) : String := String.ofList (joinChars base.toList other.toList)

/-- The path with another last component. -/
def withFileName (p name : String) : String :=
  match fileName? p with
  | some _ => join ((parent? p).getD "") name
  | none => join p name

/-- The part of a name behind its last point, if there is something before the
point. -/
def extensionOf? (name : List Char) : Option (List Char) :=
  let behind := (name.reverse.takeWhile (· ≠ '.')).reverse
  if behind.length + 1 < name.length then some behind else none

/-- The extension of the last component. -/
def extension? (p : String) : Option String :=
  ((fileNameOf? p.toList).bind extensionOf?).map String.ofList

/-- The path with more text at the end of its last component, where that is a name. -/
def withSuffix (p suffix : String) : String :=
  match fileName? p with
  | some name => withFileName p (name ++ suffix)
  | none => p

/-- The path with more text at its end, where its last component has an extension:
behind a slash at the end, the text belongs to a new component with a name that
takes the place of one.  A last component without an extension has the text at its own
end. -/
def withSuffixBehind (p placeholder suffix : String) : String :=
  match extension? p with
  | some _ => if p.toList.getLast? = some '/' then p ++ placeholder ++ suffix else p ++ suffix
  | none => withSuffix p suffix

/-- The text of a component. -/
def Component.text : Component → List Char
  | .root => []
  | .here => ['.']
  | .up => ['.', '.']
  | .name s => s

/-- The components that lead from the place of a first path to that of a second, both
given from the root. -/
def way : List Component → List Component → List Component
  | b :: base, c :: target =>
    if b = c then way base target
    else (b :: base).map (fun _ => .up) ++ c :: target
  | base, target => base.map (fun _ => .up) ++ target

/-- An absolute path as it looks from a directory. -/
def seenFrom (base p : String) : String :=
  String.ofList (unsegment ((way (components base) (components p)).map Component.text))

/-- The segments of a path, with those that say nothing. -/
def allSegments (p : String) : List String := (segments p.toList).map String.ofList

/-- Whether the path stays below the directory to which it is joined: it is not
absolute and no segment leads upwards. -/
def isInner (p : String) : Bool :=
  (components p).all fun
    | .root => false
    | .up => false
    | .here => true
    | .name _ => true

/-! ## Laws -/

theorem segments_ne_nil (s : List Char) : segments s ≠ [] := by
  cases s with
  | nil => simp [segments]
  | cons c cs =>
    simp only [segments]
    split
    · simp
    · split <;> simp

/-- The segments with slashes between them are the text again. -/
theorem unsegment_segments (s : List Char) : unsegment (segments s) = s := by
  induction s with
  | nil => rfl
  | cons c cs ih =>
    simp only [segments]
    split
    · next h =>
      subst h
      cases hs : segments cs with
      | nil => exact absurd hs (segments_ne_nil cs)
      | cons t rest => simp [unsegment, ← hs, ih]
    · split
      · next hs => exact absurd hs (segments_ne_nil cs)
      · next s rest hs =>
        rw [hs] at ih
        cases rest with
        | nil => simpa [unsegment] using ih
        | cons t rest => simpa [unsegment] using ih

/-- No segment holds a slash. -/
theorem slash_not_mem_of_mem_segments {s seg : List Char} (h : seg ∈ segments s) :
    '/' ∉ seg := by
  induction s generalizing seg with
  | nil => simp [segments] at h; simp [h]
  | cons c cs ih =>
    simp only [segments] at h
    split at h
    · rcases List.mem_cons.mp h with rfl | h
      · simp
      · exact ih h
    · next hc =>
      split at h
      · next hs => exact absurd hs (segments_ne_nil cs)
      · next t rest hs =>
        rcases List.mem_cons.mp h with rfl | h
        · have : '/' ∉ t := ih (by simp [hs])
          simp [this, Ne.symm hc]
        · exact ih (by simp [hs, h])

example : parent? "./a//b/." = some "./a" := by decide +kernel

example : fileName? "a/b/." = some "b" := by decide +kernel

example : withSuffixBehind "a.b/" ".x" ".c" = "a.b/.x.c" := by decide +kernel

example : withSuffixBehind "a/b/." ".x" ".c" = "a/b.c" := by decide +kernel

example : seenFrom "/a/b" "/a/b/./c" = "c" ∧ seenFrom "/a/b" "/a/b/../c" = "../c" := by
  decide +kernel

end PluginChain.Path
