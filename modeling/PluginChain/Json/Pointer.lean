import PluginChain.Json.Value
set_option autoImplicit false

/-!
# Places in JSON values

A pointer names a place in a value by the names of members and the positions of
elements that lead to it, each behind a slash; the empty pointer is the value itself.
A value can be looked up, changed, put and removed at a place.  A place is put or
removed through its parent, which has to be there.
-/

namespace PluginChain.Json

/-- The steps of a pointer. -/
def pointerSteps? (pointer : String) : Option (List String) :=
  match pointer.splitOn "/" with
  | "" :: steps => some steps
  | _ => none

/-- The member or element that one step leads to. -/
def child? (step : String) : Json → Option Json
  | .obj fields => Keyed.get? step fields
  | .arr items => step.toNat?.bind fun i => items[i]?
  | _ => none

/-- The value with another member or element, which may be a new member. -/
def withChild? (new : Json) (step : String) : Json → Option Json
  | .obj fields => some (.obj (Keyed.insert step new fields))
  | .arr items => do
    let i ← step.toNat?
    if i < items.length then some (.arr (items.set i new)) else none
  | _ => none

/-- The value without a member or element that it has. -/
def withoutChild? (step : String) : Json → Option Json
  | .obj fields =>
    if Keyed.contains step fields then some (.obj (Keyed.erase step fields)) else none
  | .arr items => do
    let i ← step.toNat?
    if i < items.length then some (.arr (items.eraseIdx i)) else none
  | _ => none

/-- The value with a change at the end of a way. -/
def changeAt (change : Json → Option Json) : List String → Json → Option Json
  | [], v => change v
  | step :: rest, v => do
    let inner ← changeAt change rest (← child? step v)
    withChild? inner step v

/-- The value at a pointer. -/
def at? (v : Json) (pointer : String) : Option Json :=
  (pointerSteps? pointer).bind fun steps => steps.foldlM (fun v step => child? step v) v

/-- The value with a change at a pointer. -/
def change? (change : Json → Option Json) (pointer : String) (v : Json) : Option Json :=
  (pointerSteps? pointer).bind fun steps => changeAt change steps v

/-- The value with a change of the parent of a pointer's last step. -/
def changeParent? (change : String → Json → Option Json) (pointer : String) (v : Json) :
    Option Json := do
  let steps ← pointerSteps? pointer
  let last ← steps.getLast?
  changeAt (change last) steps.dropLast v

/-- The value with another at a pointer. -/
def put? (new : Json) (pointer : String) (v : Json) : Option Json :=
  changeParent? (withChild? new) pointer v

/-- The value without what is at a pointer. -/
def remove? (pointer : String) (v : Json) : Option Json := changeParent? withoutChild? pointer v

end PluginChain.Json
