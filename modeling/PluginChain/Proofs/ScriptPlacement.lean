import PluginChain.Proofs.Provision
import PluginChain.Proofs.TextOffsets
set_option autoImplicit false

/-!
# Where scripts are put

Scripts are put in front of the last closing tag of the body, and nothing else of a page
changes (`Builtin.InjectScript.tags_before_last_closing_tag`).  A search for that tag by
bytes comes to the same place, at which a character begins.

Tags that are put in stand in front of the closing tag that was the last one before, so it
is the last one afterwards, whatever the tags have in them.  That is why several entries put
in what one entry with all of their sources does
(`Builtin.InjectScript.entries_fuse`).
-/

namespace PluginChain.Builtin.InjectScript

variable {σ ω : Type}

/-- Whether a page is another one with a text in front of the last closing tag of the body,
which parts the other one in two. -/
structure PutBetween (before rest inserted content output : String) : Prop where
  content_eq : content = before ++ rest
  closes : "</body>".toList <+: rest.toList
  last : ¬ "</body>".toList <:+: rest.toList.tail
  output_eq : output = before ++ inserted ++ rest

variable {before rest inserted content output : String} {sources : List String}

/-- The parts of a page are found by a search for the closing tag. -/
theorem PutBetween.splitLast? (h : PutBetween before rest inserted content output) :
    Search.splitLast? bodyEnd content.toList = some (before.toList, rest.toList) := by
  rw [Search.splitLast?_eq_some_iff bodyEnd_ne_nil, h.content_eq, String.toList_append]
  exact ⟨rfl, h.closes, h.last⟩

/-- What was put into a page can be told from the page before and after. -/
theorem PutBetween.inserted_eq {before' rest' inserted' : String}
    (h : PutBetween before rest inserted content output)
    (h' : PutBetween before' rest' inserted' content output) : inserted = inserted' := by
  obtain ⟨hbefore, hrest⟩ := Prod.mk.inj (Option.some.inj (h.splitLast?.symm.trans h'.splitLast?))
  have hlists : (before ++ inserted ++ rest).toList = (before' ++ inserted' ++ rest').toList := by
    rw [← h.output_eq, h'.output_eq]
  simp only [String.toList_append, hbefore, hrest, List.append_assoc] at hlists
  exact String.toList_injective
    (List.append_cancel_right (List.append_cancel_left hlists))

/-- A search by bytes finds the offset between the parts, where a character begins. -/
theorem PutBetween.lastAt_iff (h : PutBetween before rest inserted content output)
    (offset : Nat) :
    Search.LastAt "</body>" content offset ↔ offset = before.utf8ByteSize := by
  have hlast : Search.LastAt "</body>" content before.utf8ByteSize :=
    h.content_eq ▸ Search.lastAt_of_split (by decide) h.closes h.last
  constructor
  · intro hoffset
    exact hoffset.unique hlast
  · rintro rfl
    exact hlast

theorem PutBetween.isValid (h : PutBetween before rest inserted content output) :
    (⟨before.utf8ByteSize⟩ : String.Pos.Raw).IsValid content :=
  String.Pos.Raw.isValid_iff_exists_append.mpr ⟨before, rest, h.content_eq, rfl⟩

/-- The tags of all sources as one text. -/
theorem toList_join_tags (sources : List String) :
    (String.join (sources.map tag)).toList = tags sources := by
  rw [String.toList_join, List.flatMap_map]
  rfl

/-- A page with a closing tag has the tags put in front of the last one. -/
theorem exists_putBetween {d : ContentData} (hpage : ".html".toList <:+ d.fileName.toList)
    (hclosed : "</body>".toList <:+: d.content.toList) (sources : List String) :
    ∃ before rest, PutBetween before rest (String.join (sources.map tag)) d.content
      (withScripts sources d) := by
  cases hsplit : Search.splitLast? bodyEnd d.content.toList with
  | none => exact absurd hclosed (Search.splitLast?_eq_none_iff_not_isInfix.mp hsplit)
  | some split =>
    obtain ⟨before, rest⟩ := split
    obtain ⟨hparts, hcloses, hlast⟩ := (Search.splitLast?_eq_some_iff bodyEnd_ne_nil).mp hsplit
    have houtput := (tagged_withScripts sources d).inserted before rest hpage hparts hcloses hlast
    refine ⟨String.ofList before, String.ofList rest, ?_, ?_, ?_, ?_⟩
    · rw [← String.ofList_append, hparts, String.ofList_toList]
    · rwa [String.toList_ofList (l := rest)]
    · rwa [String.toList_ofList (l := rest)]
    · apply String.toList_injective
      rw [houtput, String.toList_append, String.toList_append, String.toList_ofList,
        String.toList_ofList, toList_join_tags]

/-- A call under an option that spells sources does not fail, and touches nothing but the
content of the file.  Where there are sources, the file is a page and has a closing tag, the
content has one tag for each source, in their order, in front of the last closing tag; a
search for that tag by bytes finds just this place, and a character begins there.  In all
other cases the content stays as it is. -/
theorem tags_before_last_closing_tag {scene : Scene σ ω ContentData} {sources : List String}
    (hspells : SpellsScripts scene.event.option sources) :
    let d := scene.event.data
    let page := ".html".toList <:+ d.fileName.toList
    let closed := "</body>".toList <:+: d.content.toList
    ∃ output : String,
      (plugin : Plugin σ ω).handle .content scene =
        (.ok (),
          { scene with event := { scene.event with data := { d with content := output } } }) ∧
      (sources ≠ [] ∧ page ∧ closed →
        ∃ before rest : String,
          PutBetween before rest (String.join (sources.map tag)) d.content output ∧
          (∀ offset, Search.LastAt "</body>" d.content offset ↔ offset = before.utf8ByteSize) ∧
          (⟨before.utf8ByteSize⟩ : String.Pos.Raw).IsValid d.content) ∧
      (sources = [] ∨ ¬ page ∨ ¬ closed → output = d.content) := by
  intro d page closed
  refine ⟨withScripts sources d, handle_of_spells hspells, ?_, ?_⟩
  · rintro ⟨-, hpage, hclosed⟩
    obtain ⟨before, rest, hput⟩ := exists_putBetween hpage hclosed sources
    exact ⟨before, rest, hput, hput.lastAt_iff, hput.isValid⟩
  · rintro (rfl | hother)
    · rfl
    · exact (tagged_withScripts sources d).unchanged hother

/-- A page with a closing tag behind a part of one. -/
def broken : Scene Unit Unit ContentData where
  state := ()
  event :=
    { option := .obj [("scripts", .arr [.str "</body>", .str "日.js"])]
      data := { content := "é</body></bo</body>\n", fileName := "index.html" }
      extra := [] }
  host := { memory := () }

/-- The tags stand behind that part, although one of them has a closing tag in it. -/
theorem tags_before_last_closing_tag_broken :
    SpellsScripts broken.event.option ["</body>", "日.js"] ∧
      (plugin.handle .content broken).1 = .ok () ∧
      (ContentData.content (plugin.handle .content broken).2.event.data) =
        "é</body></bo<script src=\"</body>\"></script>\n<script src=\"日.js\"></script>\n</body>\n" ∧
      Search.LastAt "</body>" "é</body></bo</body>\n" 13 := by
  have hspells : SpellsScripts broken.event.option ["</body>", "日.js"] := .named rfl
  have hpage : ".html".toList <:+ broken.event.data.fileName.toList := by decide +kernel
  have hclosed : "</body>".toList <:+: broken.event.data.content.toList := by decide +kernel
  obtain ⟨output, hcall, hput, -⟩ := tags_before_last_closing_tag hspells
  obtain ⟨before, rest, hput, hoffset, -⟩ := hput ⟨by simp, hpage, hclosed⟩
  have hparts : Search.splitLast? bodyEnd broken.event.data.content.toList =
      some ("é</body></bo".toList, "</body>\n".toList) := by decide +kernel
  obtain ⟨hbefore, hrest⟩ := Prod.mk.inj (Option.some.inj (hput.splitLast?.symm.trans hparts))
  rw [String.toList_injective hbefore] at hoffset
  refine ⟨hspells, by rw [hcall], ?_, (hoffset 13).mpr (by decide +kernel)⟩
  rw [hcall]
  show output = _
  rw [hput.output_eq, String.toList_injective hbefore, String.toList_injective hrest]
  decide +kernel

/-! ## Several entries -/

/-- Whether an entry stands for `inject-script` and asks for some sources. -/
structure AsksFor (r : Resolver σ ω) (e : PluginEntry) (sources : List String) : Prop where
  resolves : ∃ i, r.instance? e.name = some i ∧ i.plugin = plugin
  spells : SpellsScripts e.option sources

/-- The hook for rendered files over entries for `inject-script` puts in the scripts of all
of them. -/
theorem handleContent_of_asksFor {run : Run σ ω} {sources : PluginEntry → List String}
    (h : ∀ e ∈ run.manager.plugins, AsksFor run.manager.resolver e (sources e))
    (content fileName : String) :
    (run.handleContent content fileName).1 =
      .ok (withScripts (run.manager.plugins.flatMap sources) ⟨content, fileName⟩) := by
  have hturns : ∀ e ∈ run.manager.plugins, ∃ i, run.manager.resolver.instance? e.name = some i ∧
      i.plugin.Turns .content e.option
        fun d => { d with content := withScripts (sources e) d } := by
    intro e he
    obtain ⟨⟨i, hi, hplugin⟩, hspells⟩ := h e he
    exact ⟨i, hi, hplugin ▸ turns_content hspells⟩
  have htake := Run.through_of_turns hturns (.assigned { content, fileName })
    fun data => .ok data.content
  rw [Run.handleContent_eq, htake]
  exact congrArg (fun d : ContentData => Except.ok d.content) (foldl_withScripts sources _ _)

/-- Over any number of entries for `inject-script`, the hook for rendered files comes to what
it comes to over one entry for it that asks for the sources of all of them, in order. -/
theorem entries_fuse {run fused : Run σ ω} {lists : List (List String)} {single : PluginEntry}
    (hentries : List.Forall₂ (AsksFor run.manager.resolver) run.manager.plugins lists)
    (hfused : fused.manager.plugins = [single])
    (hsingle : AsksFor fused.manager.resolver single lists.flatten)
    (content fileName : String) :
    ∃ output, (run.handleContent content fileName).1 = .ok output ∧
      (fused.handleContent content fileName).1 = .ok output := by
  let asked (e : PluginEntry) : List String := (sources? e.option).getD []
  have hasked {r : Resolver σ ω} {e : PluginEntry} {sources : List String}
      (h : AsksFor r e sources) : asked e = sources := by
    show (sources? e.option).getD [] = sources
    rw [sources?_eq_some_iff.mpr h.spells, Option.getD_some]
  have hlists : run.manager.plugins.map asked = lists := by
    rw [← List.forall₂_eq_eq_eq, List.forall₂_map_left_iff]
    exact hentries.imp fun _ _ h => hasked h
  have heach : ∀ e ∈ run.manager.plugins, AsksFor run.manager.resolver e (asked e) := by
    rwa [← hlists, List.forall₂_map_right_iff, List.forall₂_same] at hentries
  have hone : ∀ e ∈ fused.manager.plugins, AsksFor fused.manager.resolver e lists.flatten := by
    rw [hfused, List.forall_mem_singleton]
    exact hsingle
  refine ⟨_, handleContent_of_asksFor heach content fileName, ?_⟩
  rw [handleContent_of_asksFor hone, hfused, List.flatMap_singleton, ← hlists, List.flatMap_def]

/-- A run with entries for `inject-script` under a name of its own. -/
def injected (plugins : List PluginEntry) : Run Unit Unit where
  manager :=
    { plugins
      resolver := { registry := { entries := [(identifier, .factory 0 fun _ => (plugin, ()))] } } }
  host := { memory := () }

/-- Three entries, of which the first puts in a closing tag and the second nothing, put in
what one does. -/
theorem entries_fuse_closing :
    let entries : List PluginEntry :=
      [⟨identifier, .obj [("scripts", .arr [.str "</body>"])]⟩, ⟨identifier, .null⟩,
        ⟨identifier, .arr [.arr [.str "<script>"]]⟩]
    let single : PluginEntry :=
      ⟨identifier, .obj [("scripts", .arr [.str "</body>", .str "<script>"])]⟩
    List.Forall₂ (AsksFor (injected entries).manager.resolver) entries
        [["</body>"], [], ["<script>"]] ∧
      AsksFor (injected [single]).manager.resolver single ["</body>", "<script>"] ∧
      ((injected entries).handleContent "a</body>" "a.html").1 =
        .ok "a<script src=\"</body>\"></script>\n<script src=\"<script>\"></script>\n</body>" := by
  intro entries single
  have hresolves (plugins : List PluginEntry) : ∃ i : Instance Unit Unit,
      (injected plugins).manager.resolver.instance? identifier = some i ∧ i.plugin = plugin :=
    ⟨⟨.built identifier 1, plugin, ()⟩, rfl, rfl⟩
  have hentries : List.Forall₂ (AsksFor (injected entries).manager.resolver) entries
      [["</body>"], [], ["<script>"]] :=
    .cons ⟨hresolves _, .named rfl⟩ (.cons ⟨hresolves _, .null⟩
      (.cons ⟨hresolves _, .listed ["<script>"]⟩ .nil))
  have hsingle : AsksFor (injected [single]).manager.resolver single ["</body>", "<script>"] :=
    ⟨hresolves _, .named rfl⟩
  obtain ⟨output, hrun, hfused⟩ := entries_fuse hentries rfl hsingle "a</body>" "a.html"
  refine ⟨hentries, hsingle, ?_⟩
  have hone : ∀ e ∈ (injected [single]).manager.plugins,
      AsksFor (injected [single]).manager.resolver e ["</body>", "<script>"] :=
    fun e he => List.mem_singleton.mp he ▸ hsingle
  rw [hrun, ← hfused, handleContent_of_asksFor hone]
  exact congrArg Except.ok (by decide +kernel)

end PluginChain.Builtin.InjectScript
