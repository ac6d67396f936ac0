import PluginChain.Reading.Mismatch
set_option autoImplicit false

/-!
# Data that may have a plain JSON form

`Serial` is data of any host: its maps may have keys of any kind and its integers
any size.  `Serial.toJson` gives its plain JSON form.  There is one exactly when
every map key, at any depth, can be written as a text, and every integer that is
no key lies in the range of JSON numbers; floats without a value become null.
-/

namespace PluginChain

/-- Data to be put into JSON form. -/
inductive Serial where
  | nothing
  | bool (b : Bool)
  | int (n : Int)
  | float (x : Binary64)
  | char (c : Char)
  | str (s : String)
  /-- A member of an enumeration that carries no data. -/
  | variant (name : String)
  /-- A present optional value, or a value under a new type name. -/
  | wrapped (inner : Serial)
  | seq (items : List Serial)
  | map (entries : List (Serial × Serial))
  | record (fields : List (String × Serial))
  /-- A value that is JSON already. -/
  | plain (v : Json)
  deriving Inhabited

namespace Serial

/-- The text of a JSON value in the place of a map key. -/
def keyOfJson : Json → Except Mismatch String
  | .str s => .ok s
  | .bool b => .ok (if b then "true" else "false")
  | .int n => .ok (toString n)
  | .float x => .ok (String.ofList (Json.floatChars x))
  | _ => .error .keyNotString

/-- The text of a map key. -/
def key : Serial → Except Mismatch String
  | .str s => .ok s
  | .char c => .ok (String.singleton c)
  | .bool b => .ok (if b then "true" else "false")
  | .int n => .ok (toString n)
  | .float x =>
    if x.isFinite then .ok (String.ofList (Json.floatChars x)) else .error .floatKeyNotFinite
  | .variant name => .ok name
  | .wrapped inner => key inner
  | .plain v => keyOfJson v
  | _ => .error .keyNotString

mutual

/-- The plain JSON form. -/
def toJson : Serial → Except Mismatch Json
  | .nothing => .ok .null
  | .bool b => .ok (.bool b)
  | .int n =>
    if Json.minInt ≤ n ∧ n ≤ Json.maxInt then .ok (.int n) else .error .integerOutOfRange
  | .float x => .ok (if x.isFinite then .float x else .null)
  | .char c => .ok (.str (String.singleton c))
  | .str s => .ok (.str s)
  | .variant name => .ok (.str name)
  | .wrapped inner => toJson inner
  | .seq items =>
    match itemsToJson items with
    | .ok vs => .ok (.arr vs)
    | .error m => .error m
  | .map entries =>
    match entriesToJson entries with
    | .ok fields => .ok (Json.ofFields fields)
    | .error m => .error m
  | .record fields =>
    match fieldsToJson fields with
    | .ok fields => .ok (Json.ofFields fields)
    | .error m => .error m
  | .plain v => .ok v

/-- The plain JSON forms of the elements of a sequence. -/
def itemsToJson : List Serial → Except Mismatch (List Json)
  | [] => .ok []
  | s :: rest =>
    match toJson s with
    | .error m => .error m
    | .ok v =>
      match itemsToJson rest with
      | .error m => .error m
      | .ok vs => .ok (v :: vs)

/-- The members that the entries of a map become. -/
def entriesToJson : List (Serial × Serial) → Except Mismatch (List (String × Json))
  | [] => .ok []
  | (k, s) :: rest =>
    match key k with
    | .error m => .error m
    | .ok name =>
      match toJson s with
      | .error m => .error m
      | .ok v =>
        match entriesToJson rest with
        | .error m => .error m
        | .ok fields => .ok ((name, v) :: fields)

/-- The members that the fields of a record become. -/
def fieldsToJson : List (String × Serial) → Except Mismatch (List (String × Json))
  | [] => .ok []
  | (name, s) :: rest =>
    match toJson s with
    | .error m => .error m
    | .ok v =>
      match fieldsToJson rest with
      | .error m => .error m
      | .ok fields => .ok ((name, v) :: fields)

end

@[simp] theorem toJson_plain (v : Json) : toJson (.plain v) = .ok v := by
  simp [toJson]

theorem itemsToJson_plain (vs : List Json) : itemsToJson (vs.map .plain) = .ok vs := by
  induction vs with
  | nil => simp [itemsToJson]
  | cons v vs ih => simp [itemsToJson, ih]

end Serial

end PluginChain
