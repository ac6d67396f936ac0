import PluginChain.Keyed
set_option autoImplicit false

/-!
# Trees of files

A `Node` is a file with its bytes or a directory with named children.  A place in
a tree is the list of names that leads to it from the root.  `Node.at?` looks at
a place, `Node.put` changes what stands there; the laws say that a change shows at
its place and at no place outside it.
-/

namespace PluginChain

/-- A file, or a directory and what it holds. -/
inductive Node where
  | file (bytes : ByteArray)
  | dir (children : List (String × Node))
  deriving Inhabited

namespace Node

/-- An empty directory. -/
def emptyDir : Node := .dir []

/-- Whether the node is a directory. -/
def isDir : Node → Bool
  | .dir _ => true
  | .file _ => false

/-- The child of a directory with a name. -/
def child? (name : String) : Node → Option Node
  | .dir children => Keyed.get? name children
  | .file _ => none

/-- What stands at a place. -/
def at? : Node → List String → Option Node
  | n, [] => some n
  | n, name :: rest =>
    match n.child? name with
    | some c => c.at? rest
    | none => none

/-- The tree with something else at a place.  Nothing changes where a file stands
on the way. -/
def put : Node → List String → Node → Node
  | _, [], new => new
  | .dir children, name :: rest, new =>
    let old := (Keyed.get? name children).getD emptyDir
    .dir (Keyed.insert name (old.put rest new) children)
  | .file bytes, _ :: _, _ => .file bytes

mutual

/-- The number of files and directories of a tree, its root included. -/
def size : Node → Nat
  | .file _ => 1
  | .dir children => 1 + sizes children

/-- The number of files and directories of a list of trees. -/
def sizes : List (String × Node) → Nat
  | [] => 0
  | (_, c) :: rest => size c + sizes rest

end

mutual

/-- All that is below a directory, by its path from there: every directory before
what it holds. -/
def listing (above : String) : Node → List (String × Node)
  | .file _ => []
  | .dir children => listingEach above children

/-- All that is in a list of children, and below them. -/
def listingEach (above : String) : List (String × Node) → List (String × Node)
  | [] => []
  | (name, c) :: rest =>
    (above ++ name, c) :: listing (above ++ name ++ "/") c ++ listingEach above rest

end

/-! ## Laws -/

@[simp] theorem at?_nil (n : Node) : n.at? [] = some n := by
  cases n <;> rfl

theorem at?_cons (n : Node) (name : String) (rest : List String) :
    n.at? (name :: rest) = (n.child? name).bind (·.at? rest) := by
  rw [at?]
  cases n.child? name <;> rfl

theorem at?_append (n : Node) (p q : List String) :
    n.at? (p ++ q) = (n.at? p).bind (·.at? q) := by
  induction p generalizing n with
  | nil => simp
  | cons name rest ih =>
    simp only [List.cons_append, at?_cons]
    cases n.child? name with
    | none => rfl
    | some c => exact ih c

/-- What was put at a place whose parent is a directory stands there. -/
theorem at?_put_self {n : Node} {p : List String} {name : String} {children : List (String × Node)}
    (h : n.at? p = some (.dir children)) (new : Node) :
    (n.put (p ++ [name]) new).at? (p ++ [name]) = some new := by
  induction p generalizing n with
  | nil =>
    simp only [at?_nil, Option.some.injEq] at h
    subst h
    simp [put, at?_cons, child?, Keyed.get?_insert_self]
  | cons s rest ih =>
    rw [at?_cons] at h
    cases n with
    | file b => simp [child?] at h
    | dir cs =>
      simp only [child?] at h
      cases hc : Keyed.get? s cs with
      | none => simp [hc] at h
      | some c =>
        simp only [hc, Option.bind_some] at h
        simp only [List.cons_append, put, hc, Option.getD_some, at?_cons, child?,
          Keyed.get?_insert_self, Option.bind_some]
        exact ih h

/-- A change at a place does not show at a place that does not begin with it and
with which it does not begin. -/
theorem at?_put_of_disjoint {n : Node} {p q : List String} (hpq : ¬ p <+: q) (hqp : ¬ q <+: p)
    (new : Node) : (n.put p new).at? q = n.at? q := by
  induction p generalizing n q with
  | nil => exact absurd (List.nil_prefix) hpq
  | cons s rest ih =>
    cases q with
    | nil => exact absurd (List.nil_prefix) hqp
    | cons t qs =>
      cases n with
      | file b => rfl
      | dir cs =>
        by_cases hst : s = t
        · subst hst
          have h₁ : ¬ rest <+: qs := fun h => hpq (List.cons_prefix_cons.mpr ⟨rfl, h⟩)
          have h₂ : ¬ qs <+: rest := fun h => hqp (List.cons_prefix_cons.mpr ⟨rfl, h⟩)
          simp only [put, at?_cons, child?, Keyed.get?_insert_self, Option.bind_some]
          cases hc : Keyed.get? s cs with
          | some c => simpa using ih h₁ h₂
          | none =>
            have : (emptyDir).at? qs = none := by
              cases qs with
              | nil => exact absurd List.nil_prefix h₂
              | cons u us => simp [at?_cons, emptyDir, child?]
            simpa [this] using @ih emptyDir qs h₁ h₂
        · simp [put, at?_cons, child?, Keyed.get?_insert_of_ne hst]

end Node

end PluginChain
