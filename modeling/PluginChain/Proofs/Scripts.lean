import PluginChain.Builtin.InjectScript
import PluginChain.Proofs.PluginOptions
set_option autoImplicit false

/-!
# Scripts of several options

A page that goes through `inject-script` more than once has, in the end, the scripts of all
options before its last closing tag, those of the first option first
(`insertTags_insertTags`).  This hangs on the split at the last occurrence: what stands
before the closing tag makes no difference to where it is found
(`Search.splitLast?_eq_some_iff`).

`SpellsScripts` says which values are options of the plugin, and what they ask for.
-/

namespace PluginChain

namespace Search

variable {needle s before rest : List Char}

/-- A text occurs in another exactly if it is a part of it. -/
theorem occurs_iff_isInfix : occurs needle s = true ↔ needle <:+: s := by
  induction s with
  | nil => simp [occurs]
  | cons c cs ih =>
    rw [occurs, Bool.or_eq_true, ih, List.isPrefixOf_iff_prefix, List.infix_cons_iff]

/-- There is no split of a text in which the needle does not occur. -/
theorem splitLast?_eq_none_iff_not_isInfix : splitLast? needle s = none ↔ ¬ needle <:+: s := by
  rw [splitLast?_eq_none_iff, ← occurs_iff_isInfix, Bool.not_eq_true]

/-- A text is split where the needle begins and does not occur behind its first character. -/
theorem splitLast?_eq_some_iff (hneedle : needle ≠ []) :
    splitLast? needle s = some (before, rest) ↔
      before ++ rest = s ∧ needle <+: rest ∧ ¬ needle <:+: rest.tail := by
  induction s generalizing before with
  | nil =>
    have hnone : splitLast? needle [] = none := by
      rw [splitLast?_eq_none_iff_not_isInfix, List.infix_nil]
      exact hneedle
    rw [hnone]
    constructor
    · nofun
    · rintro ⟨hnil, hprefix, -⟩
      rw [(List.append_eq_nil_iff.mp hnil).2, List.prefix_nil] at hprefix
      exact absurd hprefix hneedle
  | cons c cs ih =>
    rw [splitLast?]
    cases hcs : splitLast? needle cs with
    | some split =>
      -- The needle occurs behind the first character, so the split is that of the tail.
      obtain ⟨b, r⟩ := split
      have hlater : needle <:+: cs := by
        by_contra hnot
        rw [← splitLast?_eq_none_iff_not_isInfix, hcs] at hnot
        cases hnot
      cases before with
      | nil =>
        simp only [Option.some.injEq, Prod.mk.injEq, reduceCtorEq, false_and, List.nil_append,
          false_iff, not_and, not_not]
        rintro rfl -
        exact hlater
      | cons d ds =>
        have htail : splitLast? needle cs = some (ds, rest) ↔ _ := ih
        rw [hcs] at htail
        simp only [Option.some.injEq, Prod.mk.injEq, List.cons.injEq, List.cons_append] at htail ⊢
        rw [and_assoc, htail, eq_comm (a := c), and_assoc]
    | none =>
      have hlater := splitLast?_eq_none_iff_not_isInfix.mp hcs
      dsimp only
      constructor
      · intro h
        split at h
        · next hprefix =>
          obtain ⟨rfl, rfl⟩ := Prod.mk.inj (Option.some.inj h)
          exact ⟨rfl, List.isPrefixOf_iff_prefix.mp hprefix, hlater⟩
        · cases h
      · rintro ⟨hsplit, hprefix, -⟩
        cases before with
        | nil =>
          obtain rfl : rest = c :: cs := hsplit
          rw [if_pos (List.isPrefixOf_iff_prefix.mpr hprefix)]
        | cons d ds =>
          obtain ⟨-, rfl⟩ := List.cons.inj hsplit
          have hbegins : needle <:+: rest := hprefix.isInfix
          have hbehind : rest <:+: ds ++ rest := List.IsSuffix.isInfix (List.suffix_append ds rest)
          exact absurd (hbegins.trans hbehind) hlater

end Search

namespace Builtin.InjectScript

/-! ## Tags in a page -/

variable {content before rest : List Char}

theorem bodyEnd_ne_nil : bodyEnd ≠ [] := List.cons_ne_nil _ _

/-- The tags stand before the last closing tag. -/
theorem insertTags_of_split (hsplit : Search.splitLast? bodyEnd content = some (before, rest))
    (sources : List String) : insertTags sources content = before ++ tags sources ++ rest := by
  rw [insertTags, hsplit]

/-- Tags that are inserted later stand behind those that are there. -/
theorem insertTags_insertTags (earlier later : List String) (content : List Char) :
    insertTags later (insertTags earlier content) = insertTags (earlier ++ later) content := by
  cases hsplit : Search.splitLast? bodyEnd content with
  | none =>
    have hnone : Search.occurs bodyEnd content = false := Search.splitLast?_eq_none_iff.mp hsplit
    rw [insertTags_of_not_occurs hnone, insertTags_of_not_occurs hnone,
      insertTags_of_not_occurs hnone]
  | some split =>
    obtain ⟨before, rest⟩ := split
    obtain ⟨-, hlast⟩ := (Search.splitLast?_eq_some_iff bodyEnd_ne_nil).mp hsplit
    have hagain : Search.splitLast? bodyEnd (before ++ tags earlier ++ rest) =
        some (before ++ tags earlier, rest) :=
      (Search.splitLast?_eq_some_iff bodyEnd_ne_nil).mpr ⟨rfl, hlast⟩
    rw [insertTags_of_split hsplit, insertTags_of_split hagain, insertTags_of_split hsplit,
      tags_append]
    simp only [List.append_assoc]

variable {sources : List String} {d : ContentData}

theorem isPage_iff {fileName : String} :
    isPage fileName = true ↔ ".html".toList <:+ fileName.toList :=
  List.isSuffixOf_iff_suffix

/-- A page has the tags inserted, be there any or none. -/
theorem withScripts_of_page (hpage : isPage d.fileName = true) (sources : List String) :
    withScripts sources d = String.ofList (insertTags sources d.content.toList) := by
  unfold withScripts
  cases sources with
  | nil => simp
  | cons source rest => simp [hpage]

/-- What is no page stays as it is. -/
theorem withScripts_of_not_page (hpage : isPage d.fileName = false) (sources : List String) :
    withScripts sources d = d.content := by
  simp [withScripts, hpage]

/-- The scripts of two options one after the other are those of both. -/
theorem withScripts_withScripts (earlier later : List String) (d : ContentData) :
    withScripts later { d with content := withScripts earlier d } =
      withScripts (earlier ++ later) d := by
  have hname : isPage (ContentData.mk (withScripts earlier d) d.fileName).fileName =
      isPage d.fileName := rfl
  cases hpage : isPage d.fileName with
  | false =>
    rw [withScripts_of_not_page hpage (earlier ++ later),
      withScripts_of_not_page (hname.trans hpage) later]
    exact withScripts_of_not_page hpage earlier
  | true =>
    rw [withScripts_of_page hpage (earlier ++ later),
      withScripts_of_page (hname.trans hpage) later, withScripts_of_page hpage earlier,
      String.toList_ofList, insertTags_insertTags]

/-- Options one after the other put in the scripts of all of them. -/
theorem foldl_withScripts {α : Type} (sources : α → List String) (options : List α)
    (d : ContentData) :
    options.foldl (fun d a => { d with content := withScripts (sources a) d }) d =
      { d with content := withScripts (options.flatMap sources) d } := by
  induction options generalizing d with
  | nil => rfl
  | cons a rest ih => rw [List.foldl_cons, ih, List.flatMap_cons, withScripts_withScripts]

/-- What a file comes to when scripts are put into it: in a page, their tags stand before
the last closing tag of the body, and all else stays as it is. -/
structure Tagged (fileName : String) (sources : List String) (content output : String) : Prop where
  inserted : ∀ before rest, ".html".toList <:+ fileName.toList →
    before ++ rest = content.toList → bodyEnd <+: rest → ¬ bodyEnd <:+: rest.tail →
    output.toList = before ++ tags sources ++ rest
  unchanged : ¬ ".html".toList <:+ fileName.toList ∨ ¬ bodyEnd <:+: content.toList →
    output = content

/-- A file comes to that. -/
theorem tagged_withScripts (sources : List String) (d : ContentData) :
    Tagged d.fileName sources d.content (withScripts sources d) := by
  constructor
  · intro before rest hpage hsplit hprefix hlast
    have hfound : Search.splitLast? bodyEnd d.content.toList = some (before, rest) :=
      (Search.splitLast?_eq_some_iff bodyEnd_ne_nil).mpr ⟨hsplit, hprefix, hlast⟩
    rw [withScripts_of_page (isPage_iff.mpr hpage), String.toList_ofList,
      insertTags_of_split hfound]
  · rintro (hpage | hnone)
    · rw [← isPage_iff, Bool.not_eq_true] at hpage
      exact withScripts_of_not_page hpage sources
    · cases hpage : isPage d.fileName with
      | false => exact withScripts_of_not_page hpage sources
      | true =>
        rw [← Search.occurs_iff_isInfix, Bool.not_eq_true] at hnone
        rw [withScripts_of_page hpage, insertTags_of_not_occurs hnone, String.ofList_toList]

/-! ## Options -/

/-- The sources that an option asks for: a null asks for none, a record for those under its
only field, and for none where that is absent. -/
inductive SpellsScripts : Json → List String → Prop
  | null : SpellsScripts .null []
  | absent {fields : List (String × Json)} (absent : Keyed.get? "scripts" fields = none) :
      SpellsScripts (.obj fields) []
  | named {fields : List (String × Json)} {sources : List String}
      (present : Keyed.get? "scripts" fields = some (.arr (sources.map .str))) :
      SpellsScripts (.obj fields) sources
  | empty : SpellsScripts (.arr []) []
  | listed (sources : List String) : SpellsScripts (.arr [.arr (sources.map .str)]) sources

/-- Texts are read from the list of their strings alone. -/
theorem readTexts_eq_ok_iff {v : Json} {sources : List String} :
    v.readTexts = .ok sources ↔ v = .arr (sources.map .str) := by
  unfold Json.readTexts
  have hstrings (items : List Json) :
      List.Forall₂ (fun v text => v = .str text) items sources ↔ items = sources.map .str := by
    rw [← List.forall₂_map_right_iff (R := Eq), List.forall₂_eq_eq_eq]
  simp only [Format.list_eq_ok_iff, Json.readText_iff, Json.items?_eq_some_iff, hstrings]
  exact exists_eq_right

/-- Sources are spelled as a record of one field. -/
theorem spellsScripts_iff {v : Json} {sources : List String} :
    SpellsScripts v sources ↔
      SpellsField "scripts" [] (fun w sources => w = .arr (sources.map .str)) v sources := by
  constructor
  · intro h
    cases h with
    | null => exact .null
    | absent habsent => exact .absent habsent
    | named hpresent => exact .named hpresent rfl
    | empty => exact .empty
    | listed sources => exact .listed rfl
  · intro h
    cases h with
    | null => exact .null
    | absent habsent => exact .absent habsent
    | named hpresent hvalue => exact .named (hvalue ▸ hpresent)
    | empty => exact .empty
    | listed hvalue =>
      rw [hvalue]
      exact .listed sources

/-- The values that are read are those that spell sources. -/
theorem readOption_eq_ok_iff {v : Json} {options : Options} :
    readOption identifier Options.ofJson v = .ok options ↔ SpellsScripts v options.scripts := by
  have hfield : readOption identifier Options.ofJson v = .ok ⟨options.scripts⟩ ↔
      SpellsField "scripts" [] (fun w sources => w.readTexts = .ok sources) v options.scripts :=
    readOption_eq_ok_iff_spellsField rfl (fun _ _ => congrArg Options.scripts) rfl identifier
  simp only [readTexts_eq_ok_iff] at hfield
  rw [spellsScripts_iff, ← hfield]

/-- The sources that an option asks for, if it spells any. -/
def sources? (option : Json) : Option (List String) :=
  (readOption identifier Options.ofJson option).toOption.map (·.scripts)

theorem sources?_eq_some_iff {v : Json} {sources : List String} :
    sources? v = some sources ↔ SpellsScripts v sources := by
  have hread : readOption identifier Options.ofJson v = .ok ⟨sources⟩ ↔ SpellsScripts v sources :=
    readOption_eq_ok_iff
  rw [← hread]
  unfold sources?
  cases readOption identifier Options.ofJson v with
  | error f => simp [Except.toOption]
  | ok options =>
    obtain ⟨scripts⟩ := options
    simp [Except.toOption]

end Builtin.InjectScript

end PluginChain
