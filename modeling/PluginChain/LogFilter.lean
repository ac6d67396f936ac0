import PluginChain.Log
import PluginChain.Number.Numeral
import PluginChain.Text.Unprintable
set_option autoImplicit false

/-!
# Log filters

A filter says which records of a log are shown.  It is a list of directives: a
level alone, as `info`; a target alone, as `docpipe_plugin`; or both, as
`docpipe_plugin=info`.  Behind a target, brackets may name a span and, in braces, a
field with a value.  A directive concerns the records from parts of the program whose path
begins with its target.  Of the directives that concern a record the most specific
one decides; `LogFilter.allows` is that decision.
-/

namespace PluginChain

/-- One directive of a filter. -/
structure LogDirective where
  /-- The rank up to which records are shown. -/
  rank : Nat := 5
  target? : Option String := none
  /-- The span in which alone the directive holds. -/
  span? : Option String := none
  /-- A field that records must have, and whether its value matters. -/
  field? : Option (String × Bool) := none
  deriving DecidableEq, Repr, Inhabited

namespace LogDirective

/-- Why a text is no directive. -/
inductive Problem where
  /-- It has not the form of one. -/
  | malformed
  /-- What stands behind the equals sign is no level. -/
  | noLevel
  deriving DecidableEq, Repr, Inhabited

/-- The problem in words. -/
def Problem.message : Problem → String
  | .malformed => "invalid filter directive"
  | .noLevel =>
    "error parsing level filter: expected one of \"off\", \"error\", \"warn\", \"info\", "
      ++ "\"debug\", \"trace\", or a number 0-5"

/-! ## Reading -/

/-- The rank that a word stands for: the name of a level in letters of either case, its
number, or nothing for the gravest. -/
def rank? (word : List Char) : Option Nat :=
  let digits := match word with
    | '+' :: rest => rest
    | _ => word
  match Numeral.natural? digits with
  | some n => if n ≤ 5 then some n else none
  | none =>
    match String.ofList (word.map Char.toLower) with
    | "off" => some 0
    | "" => some 1
    | "error" => some 1
    | "warn" => some 2
    | "info" => some 3
    | "debug" => some 4
    | "trace" => some 5
    | _ => none

/-- Ranges of signs outside ASCII that are neither letters nor numbers. -/
def signs : CodeRange.Table := [
  (0xa0, 0xa9), (0xab, 0xb1), (0xb4, 0xb4), (0xb6, 0xb8), (0xbb, 0xbb), (0xbf, 0xbf),
  (0xd7, 0xd7), (0xf7, 0xf7), (0x300, 0x344), (0x2000, 0x206f), (0x20a0, 0x20ff),
  (0x2190, 0x245f), (0x2500, 0x2775), (0x2794, 0x2bff), (0x2e80, 0x3004), (0x3008, 0x3020),
  (0xfe10, 0xfe6f), (0xff01, 0xff0f), (0xff1a, 0xff20), (0x1f000, 0x1f0ff), (0x1f300, 0x1faff)]

/-- Whether a directive may begin with the character, apart from a bracket: a letter, a
digit, or one of the signs that occur in paths. -/
def isInitial (c : Char) : Bool :=
  c.isAlphanum || c = '-' || c = ':' || c = '_'
    || (0x80 ≤ c.toNat && !Unprintable.isInvisible c
      && !CodeRange.holds signs c.toNat)

/-- What a reader is inside of, with the position at which that began. -/
inductive Part where
  | start
  /-- a level or a target -/
  | word (start : Nat)
  /-- the name of a span -/
  | span (start : Nat)
  /-- a field -/
  | field (start : Nat)
  /-- the place behind a field -/
  | behindField
  /-- the place behind the brackets -/
  | behindSpan
  /-- the level behind an equals sign -/
  | level (start : Nat)
  deriving DecidableEq, Repr, Inhabited

/-- The characters of a text from one position to another. -/
def slice (text : List Char) (start stop : Nat) : List Char :=
  (text.take stop).drop start

/-- A field: a name, and a value where there is an equals sign. -/
def readField (text : List Char) : String × Bool :=
  (String.ofList (text.takeWhile (· ≠ '=')), text.contains '=')

/-- One character of a directive, at a position in its text. -/
def read (text : List Char) (position : Nat) (c : Char) (d : LogDirective) :
    Part → Except Problem (Part × LogDirective)
  | .start =>
    if c = '[' then .ok (.span (position + 1), d)
    else if isInitial c then .ok (.word position, d)
    else .error .malformed
  | .word start =>
    let target? := some (String.ofList (slice text start position))
    if c = '=' then .ok (.level (position + 1), { d with target? })
    else if c = '[' then .ok (.span (position + 1), { d with target? })
    else .ok (.word start, d)
  | .span start =>
    let name := String.ofList (slice text start position)
    if c = ']' then .ok (.behindSpan, { d with span? := some name })
    else if c = '\x7b' then
      .ok (.field (position + 1), { d with span? := if name = "" then none else some name })
    else .ok (.span start, d)
  | .field start =>
    if c = '\x7d' then
      let field := slice text start position
      if field = [] then .error .malformed
      else .ok (.behindField, { d with field? := some (readField field) })
    else .ok (.field start, d)
  | .behindField => if c = ']' then .ok (.behindSpan, d) else .error .malformed
  | .behindSpan => if c = '=' then .ok (.level (position + 1), d) else .error .malformed
  | .level start => .ok (.level start, d)

/-- What the end of its text makes of a directive. -/
def finish (text : List Char) (d : LogDirective) : Part → Except Problem LogDirective
  | .word start =>
    let word := text.drop start
    match rank? word with
    | some rank => .ok { d with rank }
    | none => .ok { d with target? := some (String.ofList word) }
  | .level start =>
    let word := text.drop start
    if word = [] then .ok d
    else
      match rank? word with
      | some rank => .ok { d with rank }
      | none => .error .noLevel
  | .behindSpan => .ok d
  | _ => .error .malformed

/-- The rest of a directive from a position on. -/
def readAll (text : List Char) :
    List Char → Nat → Part → LogDirective → Except Problem LogDirective
  | [], _, part, d => finish text d part
  | c :: rest, position, part, d =>
    match read text position c d part with
    | .ok (part, d) => readAll text rest (position + 1) part d
    | .error p => .error p

/-- The directive that a text spells.  Blanks at its ends are passed over, though
positions count in the whole text. -/
def parse (text : List Char) : Except Problem LogDirective :=
  let blank (c : Char) : Bool := c.isWhitespace || c.toNat = 0xb || c.toNat = 0xc
  readAll text ((text.dropWhile blank).reverse.dropWhile blank).reverse 0 .start {}

/-! ## Choosing -/

/-- Whether the directive can concern records: it names no span, and no value of a
field. -/
def isStatic (d : LogDirective) : Bool :=
  d.span?.isNone && !(d.field?.any fun f => f.2)

/-- Whether the directive concerns a record. -/
def concerns (d : LogDirective) (r : LogRecord) : Bool :=
  d.isStatic
    && (d.target?.all fun target => target.toList.isPrefixOf r.source.path.toList)
    && (d.field?.all fun f => f.1 == "message" || Keyed.contains f.1 r.fields)

/-- How specific a directive is: the length of its target comes before its fields. -/
def weight (d : LogDirective) : Nat × Nat :=
  ((d.target?.map fun target => target.length + 1).getD 0, if d.field?.isSome then 1 else 0)

/-- The name of the field of a directive. -/
def fieldName (d : LogDirective) : String := (d.field?.map (·.1)).getD ""

/-- Whether a directive takes the place of another that concerns the same record: it is
more specific, or as specific and given later. -/
def supersedes (later earlier : LogDirective) : Bool :=
  let (l, e) := (later.weight, earlier.weight)
  decide (e.1 < l.1) || (e.1 == l.1 && (decide (e.2 < l.2)
    || (e.2 == l.2 && decide (earlier.fieldName ≤ later.fieldName))))

end LogDirective

/-- A filter: its directives in the order in which they are given. -/
structure LogFilter where
  directives : List LogDirective
  deriving DecidableEq, Repr, Inhabited

namespace LogFilter

/-- The directive of a filter that has no other. -/
def standard : LogDirective := { rank := 1 }

/-- A filter with directives, or the standard one where there are none. -/
def ofDirectives (directives : List LogDirective) : LogFilter :=
  ⟨if directives.isEmpty then [standard] else directives⟩

/-- The texts between commas, without empty ones. -/
def parts (text : String) : List (List Char) :=
  let rec go : List Char → List Char → List (List Char)
    | [], read => [read.reverse]
    | c :: rest, read => if c = ',' then read.reverse :: go rest [] else go rest (c :: read)
  (go text.toList []).filter fun part => !part.isEmpty

/-- The filter that a text spells, if all of its directives make sense. -/
def parse? (text : String) : Option LogFilter :=
  let rec go : List (List Char) → Option (List LogDirective)
    | [] => some []
    | part :: rest =>
      match LogDirective.parse part with
      | .ok d => (go rest).map (d :: ·)
      | .error _ => none
  (go (parts text)).map ofDirectives

/-- The filter of those directives of a text that make sense, and a line about each
other one. -/
def parse (text : String) : LogFilter × List String :=
  let rec go : List (List Char) → List LogDirective × List String
    | [] => ([], [])
    | part :: rest =>
      let (directives, notes) := go rest
      match LogDirective.parse part with
      | .ok d => (d :: directives, notes)
      | .error p =>
        (directives, ("ignoring `" ++ String.ofList part ++ "`: " ++ p.message) :: notes)
  let (directives, notes) := go (parts text)
  (ofDirectives directives, notes)

/-- The directive that decides about a record, if one concerns it. -/
def deciding? (f : LogFilter) (r : LogRecord) : Option LogDirective :=
  f.directives.foldl (fun best? d =>
    if d.concerns r then
      match best? with
      | some best => if d.supersedes best then some d else some best
      | none => some d
    else best?) none

/-- Whether a record is shown. -/
def allows (f : LogFilter) (r : LogRecord) : Bool :=
  match f.deciding? r with
  | some d => r.level.rank ≤ d.rank
  | none => false

/-- The records of a log that are shown. -/
def select (f : LogFilter) (log : List LogRecord) : List LogRecord := log.filter f.allows

example : parse? "docpipe_plugin=info,a[b]" = some ⟨[
    { rank := 3, target? := some "docpipe_plugin" },
    { target? := some "a", span? := some "b" }]⟩ := by decide +kernel

example : parse? "a=b" = none := by decide +kernel

end LogFilter

end PluginChain
