import Mathlib.Data.List.TakeWhile
import PluginChain.Proofs.ScriptPlacement
set_option autoImplicit false

/-!
# Scripts that are read back

The tags that are put into a page are read back as script elements (`scriptElements`): the
value of a source stands between the quotes behind `src=`, and its character references are
decoded.  Sources are put between the quotes as they are, so this gives the sources again
exactly if none of them has a double quote or a character reference in it
(`CharacterReferences.elements_tags_eq_iff`).  A source with a double quote ends its own
value, and what it has behind the quote may begin an element of its own
(`sources_read_back_forged`).
-/

namespace PluginChain.Builtin.InjectScript

variable {σ ω : Type}

/-! ## Script elements -/

/-- How a script element begins. -/
def elementStart : List Char := ['<', 's', 'c', 'r', 'i', 'p', 't']

/-- How a script element with a source begins. -/
def sourceStart : List Char := elementStart ++ [' ', 's', 'r', 'c', '=', '"']

/-- How a tag goes on behind its source. -/
def tagEnd : List Char := ['"', '>', '<', '/', 's', 'c', 'r', 'i', 'p', 't', '>', '\n']

/-- Whether a character goes on with the value that it stands in. -/
def inValue (c : Char) : Bool := c ≠ '"'

/-- The script elements of a text, each with the value of its source if it begins with one.
The value goes on up to the next double quote, and nothing in it begins an element. -/
def scriptElements : List Char → List (Option (List Char))
  | [] => []
  | c :: cs =>
    if sourceStart.isPrefixOf (c :: cs) then
      let behind := (c :: cs).drop sourceStart.length
      some (behind.takeWhile inValue) :: scriptElements (behind.dropWhile inValue)
    else if elementStart.isPrefixOf (c :: cs) then none :: scriptElements cs
    else scriptElements cs
termination_by text => text.length
decreasing_by
  · have hdrop : ((c :: cs).drop sourceStart.length).length < (c :: cs).length := by
      rw [List.length_drop]
      exact Nat.sub_lt (Nat.succ_pos _) (by decide)
    exact Nat.lt_of_le_of_lt (List.dropWhile_suffix _).length_le hdrop
  · exact Nat.lt_succ_self _
  · exact Nat.lt_succ_self _

variable {c : Char} {value rest : List Char}

/-- An element with a source goes on behind the value of the source. -/
theorem scriptElements_of_source (rest : List Char) :
    scriptElements (sourceStart ++ rest) =
      some (rest.takeWhile inValue) :: scriptElements (rest.dropWhile inValue) := by
  have hprefix : sourceStart.isPrefixOf (sourceStart ++ rest) = true :=
    List.isPrefixOf_iff_prefix.mpr (List.prefix_append sourceStart rest)
  have hcons : sourceStart ++ rest = '<' :: (sourceStart.tail ++ rest) := rfl
  rw [hcons] at hprefix ⊢
  rw [scriptElements, if_pos hprefix]
  rfl

/-- What begins no element is passed over. -/
theorem scriptElements_cons_of_not_element (h : elementStart.isPrefixOf (c :: rest) = false) :
    scriptElements (c :: rest) = scriptElements rest := by
  have hsource : ¬ sourceStart.isPrefixOf (c :: rest) = true := by
    intro hprefix
    have helement : elementStart <+: c :: rest :=
      (List.prefix_append elementStart _).trans (List.isPrefixOf_iff_prefix.mp hprefix)
    rw [← List.isPrefixOf_iff_prefix, h] at helement
    cases helement
  rw [scriptElements, if_neg hsource, if_neg (Bool.eq_false_iff.mp h)]

/-- The end of a tag begins no element. -/
theorem scriptElements_tagEnd (rest : List Char) :
    scriptElements (tagEnd ++ rest) = scriptElements rest := by
  unfold tagEnd
  simp only [List.cons_append, List.nil_append]
  iterate 12 rw [scriptElements_cons_of_not_element rfl]

theorem toList_tag (source : String) :
    (tag source).toList = sourceStart ++ (source.toList ++ tagEnd) := by
  show ("<script src=\"" ++ source ++ "\"></script>\n").toList = _
  rw [String.toList_append, String.toList_append, List.append_assoc]
  rfl

/-- The value of a source that goes on behind it ends with its first double quote. -/
theorem takeWhile_inValue (value rest : List Char) :
    (value ++ (tagEnd ++ rest)).takeWhile inValue = value.takeWhile inValue := by
  have hend : (tagEnd ++ rest).takeWhile inValue = [] := rfl
  rw [List.takeWhile_append, hend, List.append_nil]
  split
  · next h => exact ((List.takeWhile_prefix inValue).eq_of_length h).symm
  · rfl

/-- A value without a double quote is a whole one. -/
theorem forall_inValue_iff : (∀ c ∈ value, inValue c = true) ↔ '"' ∉ value := by
  simp only [inValue, decide_eq_true_eq]
  exact ⟨fun h hquote => h _ hquote rfl, fun h c hc heq => h (heq ▸ hc)⟩

/-- Behind a whole value, the tag ends. -/
theorem scriptElements_dropWhile (hvalue : '"' ∉ value) (rest : List Char) :
    scriptElements ((value ++ (tagEnd ++ rest)).dropWhile inValue) = scriptElements rest := by
  rw [List.dropWhile_append_of_pos (forall_inValue_iff.mpr hvalue)]
  exact scriptElements_tagEnd rest

/-- The first element of some tags has the first source up to its first double quote. -/
theorem scriptElements_tags_cons (source : String) (sources : List String) :
    scriptElements (tags (source :: sources)) =
      some (source.toList.takeWhile inValue) ::
        scriptElements ((source.toList ++ (tagEnd ++ tags sources)).dropWhile inValue) := by
  have htags : tags (source :: sources) =
      sourceStart ++ (source.toList ++ (tagEnd ++ tags sources)) := by
    rw [tags, List.flatMap_cons, toList_tag, List.append_assoc, List.append_assoc]
    rfl
  rw [htags, scriptElements_of_source, takeWhile_inValue]

/-! ## Character references -/

/-- A reading of the character references in the value of an attribute.  All of them begin
with an ampersand, and none is shorter than what it stands for. -/
structure CharacterReferences where
  decode : List Char → List Char
  decode_of_none : ∀ value, '&' ∉ value → decode value = value
  length_decode_le : ∀ value, (decode value).length ≤ value.length

namespace CharacterReferences

variable {refs : CharacterReferences} {source : String} {sources others : List String}

/-- The script elements of a text, each with its source if it begins with one. -/
def elements (refs : CharacterReferences) (text : String) : List (Option String) :=
  (scriptElements text.toList).map (Option.map fun value => String.ofList (refs.decode value))

/-- A value that is read as the source that it begins is all of it. -/
theorem decode_takeWhile_eq_iff :
    String.ofList (refs.decode (source.toList.takeWhile inValue)) = source ↔
      '"' ∉ source.toList ∧ refs.decode source.toList = source.toList := by
  have hwhole (h : '"' ∉ source.toList) : source.toList.takeWhile inValue = source.toList :=
    List.takeWhile_eq_self_iff.mpr (forall_inValue_iff.mpr h)
  constructor
  · intro h
    have hlist : refs.decode (source.toList.takeWhile inValue) = source.toList :=
      String.ofList_injective (h.trans String.ofList_toList.symm)
    have hlength : source.toList.length ≤ (source.toList.takeWhile inValue).length := by
      have hle := refs.length_decode_le (source.toList.takeWhile inValue)
      rwa [hlist] at hle
    have hall : source.toList.takeWhile inValue = source.toList :=
      (List.takeWhile_prefix inValue).eq_of_length_le hlength
    rw [hall] at hlist
    exact ⟨forall_inValue_iff.mp (List.takeWhile_eq_self_iff.mp hall), hlist⟩
  · rintro ⟨hquote, hdecode⟩
    rw [hwhole hquote, hdecode, String.ofList_toList]

/-- The sources of some tags are read back exactly if none of them has a double quote or a
character reference in it. -/
theorem elements_tags_eq_iff :
    refs.elements (String.join (sources.map tag)) = sources.map some ↔
      ∀ s ∈ sources, '"' ∉ s.toList ∧ refs.decode s.toList = s.toList := by
  unfold elements
  rw [toList_join_tags]
  induction sources with
  | nil => simp [scriptElements]
  | cons source sources ih =>
    rw [scriptElements_tags_cons, List.map_cons, List.map_cons, List.cons.injEq, Option.map_some,
      Option.some.injEq, decode_takeWhile_eq_iff, List.forall_mem_cons]
    apply and_congr_right
    rintro ⟨hquote, -⟩
    rw [scriptElements_dropWhile hquote, ih]

/-- The reading that decodes nothing. -/
def verbatim : CharacterReferences := ⟨id, fun _ _ => rfl, fun _ => Nat.le_refl _⟩

/-- The sources of some tags stand in them as they are exactly if none of them has a double
quote in it. -/
theorem verbatim_elements_tags_eq_iff :
    verbatim.elements (String.join (sources.map tag)) = sources.map some ↔
      ∀ s ∈ sources, '"' ∉ s.toList := by
  rw [elements_tags_eq_iff]
  exact forall₂_congr fun s _ => and_iff_left rfl

/-- Tags of sources without a double quote tell these apart. -/
theorem eq_of_tags_eq (hsources : ∀ s ∈ sources, '"' ∉ s.toList)
    (hothers : ∀ s ∈ others, '"' ∉ s.toList)
    (h : String.join (others.map tag) = String.join (sources.map tag)) : others = sources := by
  have hread : others.map some = sources.map some := by
    rw [← verbatim_elements_tags_eq_iff.mpr hothers, h, verbatim_elements_tags_eq_iff.mpr hsources]
  exact List.map_injective_iff.mpr (fun _ _ => Option.some.inj) hread

/-- What a text stands for when the references to double quotes, ampersands and angle
brackets in it are decoded. -/
def decodeMarkup : List Char → List Char
  | '&' :: 'q' :: 'u' :: 'o' :: 't' :: ';' :: rest => '"' :: decodeMarkup rest
  | '&' :: 'a' :: 'm' :: 'p' :: ';' :: rest => '&' :: decodeMarkup rest
  | '&' :: 'l' :: 't' :: ';' :: rest => '<' :: decodeMarkup rest
  | '&' :: 'g' :: 't' :: ';' :: rest => '>' :: decodeMarkup rest
  | c :: rest => c :: decodeMarkup rest
  | [] => []

/-- The reading that decodes these. -/
def markup : CharacterReferences where
  decode := decodeMarkup
  decode_of_none value h := by
    fun_induction decodeMarkup value <;> simp_all
  length_decode_le value := by
    fun_induction decodeMarkup value <;> simp only [List.length_cons, List.length_nil] <;> omega

end CharacterReferences

/-! ## Pages -/

/-- In a page, sources with the same tags come to the same. -/
theorem withScripts_eq_of_tags_eq {d : ContentData} {sources others : List String}
    (hpage : isPage d.fileName = true) (h : tags sources = tags others) :
    withScripts sources d = withScripts others d := by
  rw [withScripts_of_page hpage, withScripts_of_page hpage, insertTags, insertTags, h]

/-- What is put into a page with a closing tag has one script element for each source, in
their order, exactly if no source has a double quote in it; and it is read back as the
sources exactly if none of them has a double quote or a character reference in it, as is the
case where they have neither double quotes nor ampersands.  Without double quotes, no two
lists of sources give the same page. -/
theorem sources_read_back (refs : CharacterReferences) {scene : Scene σ ω ContentData}
    {sources : List String} (hspells : SpellsScripts scene.event.option sources)
    (hpage : ".html".toList <:+ scene.event.data.fileName.toList)
    (hclosed : "</body>".toList <:+: scene.event.data.content.toList) :
    ∃ before rest inserted output : String,
      PutBetween before rest inserted scene.event.data.content output ∧
      (plugin : Plugin σ ω).handle .content scene =
        (.ok (),
          { scene with
            event :=
              { scene.event with data := { scene.event.data with content := output } } }) ∧
      (CharacterReferences.verbatim.elements inserted = sources.map some ↔
        ∀ s ∈ sources, '"' ∉ s.toList) ∧
      (refs.elements inserted = sources.map some ↔
        ∀ s ∈ sources, '"' ∉ s.toList ∧ refs.decode s.toList = s.toList) ∧
      ((∀ s ∈ sources, '"' ∉ s.toList ∧ '&' ∉ s.toList) →
        refs.elements inserted = sources.map some) ∧
      ∀ (other : Scene σ ω ContentData) (others : List String),
        SpellsScripts other.event.option others → other.event.data = scene.event.data →
        (∀ s ∈ sources, '"' ∉ s.toList) → (∀ s ∈ others, '"' ∉ s.toList) →
        ContentData.content ((plugin : Plugin σ ω).handle .content other).2.event.data = output →
        others = sources := by
  obtain ⟨before, rest, hput⟩ := exists_putBetween hpage hclosed sources
  refine ⟨before, rest, _, _, hput, handle_of_spells hspells,
    CharacterReferences.verbatim_elements_tags_eq_iff, CharacterReferences.elements_tags_eq_iff,
    fun hplain => ?_, fun other others hothers hdata hquotes hquotes' houtput => ?_⟩
  · refine CharacterReferences.elements_tags_eq_iff.mpr fun s hs => ?_
    obtain ⟨hquote, hreference⟩ := hplain s hs
    exact ⟨hquote, refs.decode_of_none _ hreference⟩
  · obtain ⟨before', rest', hput'⟩ := exists_putBetween hpage hclosed others
    rw [handle_of_spells hothers, hdata] at houtput
    rw [show withScripts others scene.event.data = withScripts sources scene.event.data
      from houtput] at hput'
    exact CharacterReferences.eq_of_tags_eq hquotes hquotes' (hput'.inserted_eq hput)

/-- A call on a page that ends its body, for some sources. -/
def closing (sources : List String) : Scene Unit Unit ContentData where
  state := ()
  event :=
    { option := .obj [("scripts", .arr (sources.map .str))]
      data := { content := "<body></body>", fileName := "index.html" }
      extra := [] }
  host := { memory := () }

/-- Ampersands and angle brackets that are no character references are read back as well. -/
theorem sources_read_back_markup :
    let sources := ["a.js?x=1&y=2", "</body><script>"]
    let scene := closing sources
    SpellsScripts scene.event.option sources ∧
      ∃ before rest inserted : String,
        PutBetween before rest inserted scene.event.data.content
          (ContentData.content (plugin.handle .content scene).2.event.data) ∧
        CharacterReferences.markup.elements inserted = sources.map some := by
  intro sources scene
  have hspells : SpellsScripts scene.event.option sources := .named rfl
  obtain ⟨before, rest, inserted, output, hput, hcall, -, hread, -⟩ :=
    sources_read_back CharacterReferences.markup hspells (by decide +kernel) (by decide +kernel)
  refine ⟨hspells, before, rest, inserted, ?_, hread.mpr (by decide +kernel)⟩
  rwa [hcall]

/-- A source that ends its value and its element, and begins another. -/
def forged : String := "a.js\"></script>\n<script src=\"b.js"

/-- It is read back as two sources, from the page that these two come to as well. -/
theorem sources_read_back_forged :
    SpellsScripts (closing [forged]).event.option [forged] ∧
      SpellsScripts (closing ["a.js", "b.js"]).event.option ["a.js", "b.js"] ∧
      (plugin.handle .content (closing [forged])).2.event.data =
        (plugin.handle .content (closing ["a.js", "b.js"])).2.event.data ∧
      PutBetween "<body>" "</body>" (tag forged) "<body></body>"
        (ContentData.content (plugin.handle .content (closing [forged])).2.event.data) ∧
      CharacterReferences.markup.elements (tag forged) = [some "a.js", some "b.js"] := by
  have hspells (sources : List String) : SpellsScripts (closing sources).event.option sources :=
    .named rfl
  have hpage : isPage "index.html" = true := by decide +kernel
  have hsame : tags [forged] = tags ["a.js", "b.js"] := by decide +kernel
  refine ⟨hspells _, hspells _, ?_, ?_, by decide +kernel⟩
  · rw [handle_of_spells (hspells [forged]), handle_of_spells (hspells ["a.js", "b.js"])]
    have houtput := withScripts_eq_of_tags_eq (d := ⟨"<body></body>", "index.html"⟩) hpage hsame
    exact congrArg (ContentData.mk · "index.html") houtput
  · rw [handle_of_spells (hspells [forged])]
    have hlast : ¬ "</body>".toList <:+: "</body>".toList.tail := by decide +kernel
    have hparts : "<body>".toList ++ "</body>".toList = "<body></body>".toList := by
      decide +kernel
    have houtput := (tagged_withScripts [forged] ⟨"<body></body>", "index.html"⟩).inserted
      "<body>".toList "</body>".toList (isPage_iff.mp hpage) hparts List.prefix_rfl hlast
    refine ⟨by decide +kernel, List.prefix_rfl, hlast, String.toList_injective ?_⟩
    rw [String.toList_append, String.toList_append]
    exact houtput.trans (by rw [tags, List.flatMap_singleton])

end PluginChain.Builtin.InjectScript
