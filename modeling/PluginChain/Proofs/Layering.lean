import PluginChain.Proofs.EnvironmentTexts
import PluginChain.Proofs.OrderedTables
set_option autoImplicit false

/-!
# Layers of a configuration

A text of a configuration is what its variable says; without one it is what the file says,
and else its default (`Config.layering`).  The layers are merged text by text, so a variable
for one text leaves those beside it in the same table alone.  This hangs on the keys of a
file being distinct: what the file says below a key is then what is laid there once.
-/

namespace PluginChain

/-! ## What a file says -/

namespace Setting

variable {key : String} {fields : List (String × Setting)} {s v : Setting}

theorem at?_singleton (key : String) (s : Setting) : at? [key] s = s.get? key := by
  rw [at?]
  cases s.get? key <;> rfl

/-- Of fields with distinct keys, each is laid over what was under its key before. -/
theorem get?_overlayFields (h : (Keyed.keys fields).Pairwise (· < ·)) (old : Setting) :
    (overlayFields fields old).get? key =
      match Keyed.get? key fields with
      | some v => some (v.overlay (old.get key))
      | none => old.get? key := by
  induction fields generalizing old with
  | nil => rw [overlayFields, Keyed.get?_nil]
  | cons p rest ih =>
    obtain ⟨k, v⟩ := p
    obtain ⟨hfirst, hrest⟩ := List.pairwise_cons.mp h
    rw [overlayFields, Keyed.get?]
    rcases eq_or_ne k key with rfl | hne
    · have hfresh : k ∉ Keyed.keys rest := by
        intro hmem
        exact String.lt_irrefl _ (hfirst k hmem)
      rw [if_pos rfl, get?_overlayFields_of_not_mem hfresh, get?_withField_self]
    · rw [if_neg hne, ih hrest, get_eq (get?_withField_of_ne hne _ _), get?_withField_of_ne hne]

/-- Fields with distinct keys, laid over nothing. -/
theorem get?_overlayFields_empty (h : (Keyed.keys fields).Pairwise (· < ·)) :
    (overlayFields fields emptyTable).get? key =
      (Keyed.get? key fields).map (overlay · nothing) := by
  rw [get?_overlayFields h]
  cases Keyed.get? key fields <;> rfl

/-- A table that is laid over nothing is laid over an empty table. -/
theorem overlay_table_nothing (origin? : Option String) :
    overlay (.table origin? fields) nothing = overlayFields fields emptyTable := by
  rw [overlay]
  rfl

theorem isTable_overlayFields (h : s.IsTable) : (overlayFields fields s).IsTable := by
  induction fields generalizing s with
  | nil =>
    rw [overlayFields]
    exact h
  | cons p rest ih =>
    obtain ⟨k, v⟩ := p
    rw [overlayFields]
    exact ih trivial

theorem isTable_overlay_nothing (h : v.IsTable) : (v.overlay nothing).IsTable := by
  obtain ⟨origin?, fields, rfl⟩ := h.exists_eq
  rw [overlay_table_nothing]
  exact isTable_overlayFields trivial

/-- The text of a setting is the same when it is laid over nothing. -/
theorem text_overlay_nothing {text : String} :
    (v.overlay nothing).text = .ok text ↔ v.text = .ok text := by
  cases v with
  | scalar origin? v => rw [overlay_scalar]
  | list origin? items => rw [overlay_list]
  | table origin? fields =>
    have htable : (Setting.table origin? fields).IsTable := trivial
    obtain ⟨o, merged, heq⟩ := (isTable_overlay_nothing htable).exists_eq
    rw [heq]
    unfold Setting.text
    simp

/-- Whether a setting spells an entry: a table or a list that holds its name, and behind it
its option in plain form, if that is not null. -/
def SpellsEntry (e : PluginEntry) : Setting → Prop
  | .scalar _ _ => False
  | .list _ items =>
    (∃ v, items[0]? = some v ∧ v.text = .ok e.name) ∧
      e.option = (items[1]?.map toJson).getD .null
  | .table _ fields =>
    (∃ v, Keyed.get? "name" fields = some v ∧ v.text = .ok e.name) ∧
      e.option = ((Keyed.get? "option" fields).map toJson).getD .null

/-- A setting is read as the entry that it spells. -/
theorem read_entry_iff {e : PluginEntry} : PluginEntry.read s = .ok e ↔ s.SpellsEntry e := by
  rw [PluginEntry.read_eq_ok_iff]
  cases s with
  | scalar origin? v =>
    constructor
    · rintro ⟨p, hp, -⟩
      cases hp
    · exact False.elim
  | list origin? items =>
    constructor
    · rintro ⟨p, hp, hname, hoption, -⟩
      cases hp
      exact ⟨hname, hoption⟩
    · rintro ⟨hname, hoption⟩
      refine ⟨.listed items, rfl, hname, hoption, ?_⟩
      -- A list of settings may have more elements than its record.
      unfold Parts.finish
      dsimp only
      split_ifs <;> rfl
  | table origin? fields =>
    constructor
    · rintro ⟨p, hp, hname, hoption, -⟩
      cases hp
      exact ⟨hname, hoption⟩
    · rintro ⟨hname, hoption⟩
      exact ⟨.named fields, rfl, hname, hoption, rfl⟩

end Setting

namespace ConfigFile

variable {fields : List (String × Setting)} {key : String}

/-- Keys without points and brackets lead to themselves, and the fields are laid over one
another as they are in any table. -/
theorem overlay_eq_overlayFields
    (h : ∀ key ∈ Keyed.keys fields, '.' ∉ key.toList ∧ '[' ∉ key.toList) (s : Setting) :
    overlay fields s = Setting.overlayFields fields s := by
  induction fields generalizing s with
  | nil => rw [overlay, Setting.overlayFields]
  | cons p rest ih =>
    obtain ⟨k, v⟩ := p
    obtain ⟨hpoint, hbracket⟩ := h k List.mem_cons_self
    have hrest : ∀ key ∈ Keyed.keys rest, '.' ∉ key.toList ∧ '[' ∉ key.toList := by
      intro key hkey
      exact h key (List.mem_cons_of_mem _ hkey)
    rw [overlay, Setting.overlayFields, Place.ofText_of_plain hpoint hbracket, Place.set_key,
      ih hrest]

/-- The plugin list that the fields of a file spell, in their order; without a list, the
empty one. -/
def ListsEntries (fields : List (String × Setting)) (plugins : List PluginEntry) : Prop :=
  match Keyed.get? "plugins" fields with
  | none => plugins = []
  | some v => ∃ origin? items, v = .list origin? items ∧
      List.Forall₂ (fun s e => s.SpellsEntry e) items plugins

end ConfigFile

/-! ## What a layer says of a text -/

namespace TextSetting

variable {t t' : TextSetting} {fields : List (String × Setting)} {env : Environment}
  {s : Setting} {text : String}

/-- The text of a configuration without settings. -/
def default (t : TextSetting) : String := t.ofConfig {}

/-- What the file says. -/
def inFile? (t : TextSetting) (fields : List (String × Setting)) : Option Setting :=
  (Keyed.get? t.table fields).bind (·.get? t.key)

/-- What the environment says. -/
def inEnvironment? (t : TextSetting) (env : Environment) : Option String :=
  (env.find? fun v => Environment.place? v.1 = some (.ofKeys t.keys)).map (·.2)

/-- What all layers come to: the variable, or else the file, or else the default. -/
def layered (t : TextSetting) (env : Environment) (fields : List (String × Setting)) :
    Except SettingFailure String :=
  match t.inEnvironment? env with
  | some value => .ok (Environment.words value)
  | none =>
    match t.inFile? fields with
    | some v => v.text
    | none => .ok t.default

theorem key_ne_of_ne (h : t' ≠ t) : t'.key ≠ t.key := by
  cases t' <;> cases t <;> first | exact absurd rfl h | decide

theorem apart_of_ne (h : t' ≠ t) : Place.Apart (.ofKeys t'.keys) t.keys :=
  .inr (.inl (key_ne_of_ne h))

theorem ofKeys_injective (h : Place.ofKeys t'.keys = .ofKeys t.keys) : t' = t := by
  by_contra hne
  apply key_ne_of_ne hne
  injection h with _ hrest
  injection hrest with hkey
  injection hkey

end TextSetting

namespace Environment

open Setting (at?)

variable {env : Environment} {name value : String}

/-- Whether the settings of an environment are all texts of the configuration, with one
variable for each at most. -/
structure NamesTexts (env : Environment) : Prop where
  named : ∀ v ∈ env, ∀ place, place? v.1 = some place → ∃ t : TextSetting, place = .ofKeys t.keys
  once : (env.filterMap fun v => place? v.1).Nodup

theorem NamesTexts.tail (h : NamesTexts ((name, value) :: env)) : NamesTexts env := by
  refine ⟨?_, ?_⟩
  · intro v hv
    exact h.named v (List.mem_cons_of_mem _ hv)
  · have honce := h.once
    rw [List.filterMap_cons] at honce
    split at honce
    · exact honce
    · exact honce.of_cons

/-- Behind the variable of a text, no other reaches into that text. -/
theorem NamesTexts.apart {t : TextSetting} (h : NamesTexts ((name, value) :: env))
    (hname : place? name = some (.ofKeys t.keys)) : env.Apart t.keys := by
  intro v hv place hplace
  obtain ⟨t', rfl⟩ := h.tail.named v hv place hplace
  apply TextSetting.apart_of_ne
  rintro rfl
  have honce := h.once
  simp only [List.filterMap_cons, hname] at honce
  exact (List.nodup_cons.mp honce).1 (List.mem_filterMap.mpr ⟨v, hv, hplace⟩)

/-- Below the keys of a text stands its variable, and without one what stood there. -/
theorem NamesTexts.at?_overlay (h : env.NamesTexts) (t : TextSetting) (s : Setting) :
    at? t.keys (env.overlay s) =
      match t.inEnvironment? env with
      | some value => some (setting value)
      | none => at? t.keys s := by
  induction env generalizing s with
  | nil => rfl
  | cons v rest ih =>
    obtain ⟨name, value⟩ := v
    rw [overlay, TextSetting.inEnvironment?, List.find?_cons]
    cases hplace : place? name with
    | none => exact ih h.tail s
    | some place =>
      obtain ⟨t', rfl⟩ := h.named _ List.mem_cons_self place hplace
      rcases eq_or_ne t' t with rfl | hne
      · simp only [decide_true]
        exact (at?_overlay_of_apart (h.apart hplace)).trans (Setting.at?_set_self _ _ _ _)
      · have hother : ¬ some (Place.ofKeys t'.keys) = some (Place.ofKeys t.keys) := by
          intro heq
          exact hne (TextSetting.ofKeys_injective (Option.some.inj heq))
        simp only [hother, decide_false]
        refine (ih h.tail _).trans ?_
        rw [Setting.at?_set_of_apart (TextSetting.apart_of_ne hne)]
        rfl

/-- What stands under another key than those of the texts' tables is left alone. -/
theorem NamesTexts.get?_overlay (h : env.NamesTexts) {key : String}
    (hkey : ∀ t : TextSetting, t.table ≠ key) (s : Setting) :
    (env.overlay s).get? key = s.get? key := by
  have hapart : env.Apart [key] := by
    intro v hv place hplace
    obtain ⟨t, rfl⟩ := h.named v hv place hplace
    exact .inl (hkey t)
  have hat := at?_overlay_of_apart (s := s) hapart
  rwa [Setting.at?_singleton, Setting.at?_singleton] at hat

/-- Variables for texts make tables of what stands on their way, and nothing else. -/
theorem NamesTexts.isTable_of_get? (h : env.NamesTexts) {key : String} {s : Setting}
    (hs : ∀ v, s.get? key = some v → v.IsTable) :
    ∀ v, (env.overlay s).get? key = some v → v.IsTable := by
  induction env generalizing s with
  | nil => exact hs
  | cons v rest ih =>
    obtain ⟨name, value⟩ := v
    rw [overlay]
    cases hplace : place? name with
    | none => exact ih h.tail hs
    | some place =>
      obtain ⟨t, rfl⟩ := h.named _ List.mem_cons_self place hplace
      apply ih h.tail
      intro v hv
      have hset : Place.set (.ofKeys t.keys) (setting value) s =
          s.withField t.table ((s.get t.table).withField t.key
            ((setting value).overlay ((s.get t.table).get t.key))) := rfl
      rw [hset] at hv
      rcases eq_or_ne t.table key with rfl | hne
      · rw [Setting.get?_withField_self] at hv
        rw [← Option.some.inj hv]
        trivial
      · rw [Setting.get?_withField_of_ne hne] at hv
        exact hs v hv

end Environment

/-! ## Reading what the layers come to -/

namespace Config

open Setting (at?)

variable {fields : List (String × Setting)} {env : Environment} {s : Setting} {c : Config}

/-- What a text comes to below its keys: what stands there as a text, or its default. -/
def TextIn (t : TextSetting) (s : Setting) (text : String) : Prop :=
  match at? t.keys s with
  | none => text = t.default
  | some v => v.text = .ok text

theorem textIn_of_absent {t : TextSetting} {text : String} (h : s.get? t.table = none) :
    TextIn t s text ↔ text = t.default := by
  have hat : at? t.keys s = none := by
    rw [TextSetting.keys, at?, h, Option.bind_none]
  unfold TextIn
  rw [hat]

theorem textIn_of_table {t : TextSetting} {text : String} {origin? : Option String}
    {inner : List (String × Setting)} (h : s.get? t.table = some (.table origin? inner))
    (record : RecordType) :
    TextIn t s text ↔ (Parts.named inner).Gives record t.key Format.text t.default text := by
  have hat : at? t.keys s = Keyed.get? t.key inner := by
    rw [TextSetting.keys, at?, h, Option.bind_some, Setting.at?_singleton]
    rfl
  unfold TextIn
  rw [hat]
  cases hget : Keyed.get? t.key inner with
  | none => rw [Parts.gives_named_of_absent hget]
  | some v =>
    rw [Parts.gives_named_of_get? hget]
    rfl

/-- The section of the plugins, if it is a table, is read exactly if its text is. -/
theorem gives_plugin_iff {origin? : Option String} {plugin : PluginSettings}
    (hsection : ∀ v, Keyed.get? "plugin" fields = some v → v.IsTable) :
    (Parts.named fields).Gives recordType "plugin" PluginSettings.read {} plugin ↔
      TextIn .directory (.table origin? fields) plugin.directory := by
  cases hget : Keyed.get? "plugin" fields with
  | none =>
    have habsent : (Setting.table origin? fields).get? (TextSetting.table .directory) = none := hget
    rw [Parts.gives_named_of_absent hget, textIn_of_absent habsent]
    constructor
    · intro h
      rw [h]
      rfl
    · intro h
      exact congrArg PluginSettings.mk h
  | some v =>
    obtain ⟨o, inner, rfl⟩ := (hsection v hget).exists_eq
    have hthere : (Setting.table origin? fields).get? (TextSetting.table .directory) =
      some (.table o inner) := hget
    rw [Parts.gives_named_of_get? hget, PluginSettings.read_table_iff,
      textIn_of_table hthere PluginSettings.recordType]
    rfl

/-- The section of the log, if it is a table, is read exactly if its texts are. -/
theorem gives_logging_iff {origin? : Option String} {logging : LogSettings}
    (hsection : ∀ v, Keyed.get? "logging" fields = some v → v.IsTable) :
    (Parts.named fields).Gives recordType "logging" LogSettings.read {} logging ↔
      TextIn .level (.table origin? fields) logging.level ∧
        TextIn .format (.table origin? fields) logging.format := by
  have hsame (t : TextSetting) (ht : t.table = "logging") :
      (Setting.table origin? fields).get? t.table = Keyed.get? "logging" fields := by
    rw [ht]
    rfl
  cases hget : Keyed.get? "logging" fields with
  | none =>
    rw [Parts.gives_named_of_absent hget, textIn_of_absent ((hsame .level rfl).trans hget),
      textIn_of_absent ((hsame .format rfl).trans hget)]
    constructor
    · intro h
      rw [h]
      exact ⟨rfl, rfl⟩
    · rintro ⟨hlevel, hformat⟩
      exact congrArg₂ LogSettings.mk hlevel hformat
  | some v =>
    obtain ⟨o, inner, rfl⟩ := (hsection v hget).exists_eq
    rw [Parts.gives_named_of_get? hget, LogSettings.read_table_iff,
      textIn_of_table ((hsame .level rfl).trans hget) LogSettings.recordType,
      textIn_of_table ((hsame .format rfl).trans hget) LogSettings.recordType]
    rfl

/-- Settings whose sections are tables, where they are there, are read exactly if the
plugin list and each of the texts are. -/
theorem read_iff_texts (hs : s.IsTable)
    (hsections : ∀ (t : TextSetting) v, s.get? t.table = some v → v.IsTable) :
    read s = .ok c ↔
      (Parts.named s.fields).Gives recordType "plugins" (Format.list PluginEntry.read) [] c.plugins ∧
      ∀ t, TextIn t s (t.ofConfig c) := by
  obtain ⟨origin?, fields, rfl⟩ := hs.exists_eq
  have hplugin : ∀ v, Keyed.get? "plugin" fields = some v → v.IsTable := hsections .directory
  have hlogging : ∀ v, Keyed.get? "logging" fields = some v → v.IsTable := hsections .level
  rw [read_table_iff, gives_plugin_iff hplugin, gives_logging_iff hlogging]
  constructor
  · rintro ⟨hplugins, hdirectory, hlevel, hformat⟩
    refine ⟨hplugins, ?_⟩
    intro t
    cases t with
    | directory => exact hdirectory
    | level => exact hlevel
    | format => exact hformat
  · rintro ⟨hplugins, htexts⟩
    exact ⟨hplugins, htexts .directory, htexts .level, htexts .format⟩

end Config

/-- A file and an environment as they are layered: the keys of the file's root hold no
points and brackets, its sections are tables, and the settings of the environment are
texts, with one variable for each at most. -/
structure Layers (fields : List (String × Setting)) (env : Environment) : Prop where
  ordered : Keyed.Ordered Setting.Ordered fields
  plain : ∀ key ∈ Keyed.keys fields, '.' ∉ key.toList ∧ '[' ∉ key.toList
  sections : ∀ (t : TextSetting) v, Keyed.get? t.table fields = some v → v.IsTable
  texts : env.NamesTexts

namespace Layers

open Setting (at?)

variable {fields : List (String × Setting)} {env : Environment} {c : Config}

/-- What the file puts under a key of the root. -/
theorem get?_file (h : Layers fields env) (key : String) :
    (ConfigFile.overlay fields Setting.emptyTable).get? key =
      (Keyed.get? key fields).map (·.overlay .nothing) := by
  rw [ConfigFile.overlay_eq_overlayFields h.plain, Setting.get?_overlayFields_empty h.ordered.1]

/-- What the file puts below the keys of a text. -/
theorem at?_file (h : Layers fields env) (t : TextSetting) :
    at? t.keys (ConfigFile.overlay fields Setting.emptyTable) =
      (t.inFile? fields).map (·.overlay .nothing) := by
  rw [TextSetting.keys, at?, h.get?_file, TextSetting.inFile?]
  cases hget : Keyed.get? t.table fields with
  | none => rfl
  | some v =>
    obtain ⟨o, inner, rfl⟩ := (h.sections t v hget).exists_eq
    have hinner : (Keyed.keys inner).Pairwise (· < ·) := by
      cases h.ordered.of_get? hget with
      | table _ hkeys _ => exact hkeys
    rw [Option.map_some, Option.bind_some, Option.bind_some, Setting.at?_singleton,
      Setting.overlay_table_nothing, Setting.get?_overlayFields_empty hinner]
    rfl

/-- Each text of the merged settings comes to what the layers come to. -/
theorem textIn_iff (h : Layers fields env) (t : TextSetting) (text : String) :
    Config.TextIn t (Config.settings fields env) text ↔ t.layered env fields = .ok text := by
  unfold Config.TextIn Config.settings TextSetting.layered
  rw [h.texts.at?_overlay, h.at?_file]
  cases t.inEnvironment? env with
  | some value =>
    dsimp only
    rw [Environment.text_setting]
  | none =>
    cases t.inFile? fields with
    | some v => exact Setting.text_overlay_nothing
    | none =>
      rw [Except.ok.injEq]
      exact eq_comm

/-- The plugin list of the merged settings is the one of the file. -/
theorem plugins_iff (h : Layers fields env) (plugins : List PluginEntry) :
    (Parts.named (Config.settings fields env).fields).Gives Config.recordType "plugins"
      (Format.list PluginEntry.read) [] plugins ↔ ConfigFile.ListsEntries fields plugins := by
  have hplugins : Keyed.get? "plugins" (Config.settings fields env).fields =
      (Keyed.get? "plugins" fields).map (·.overlay .nothing) := by
    refine Eq.trans ?_ (h.get?_file "plugins")
    apply h.texts.get?_overlay
    intro t
    cases t <;> decide
  unfold ConfigFile.ListsEntries
  cases hget : Keyed.get? "plugins" fields with
  | none =>
    rw [hget] at hplugins
    exact Parts.gives_named_of_absent hplugins
  | some v =>
    rw [hget] at hplugins
    rw [Parts.gives_named_of_get? hplugins, Format.list_eq_ok_iff]
    simp only [Setting.read_entry_iff]
    constructor
    · rintro ⟨items, hitems, hentries⟩
      cases v with
      | scalar => cases hitems
      | list o items' =>
        obtain rfl := Option.some.inj hitems
        exact ⟨o, items', rfl, hentries⟩
      | table o inner =>
        obtain ⟨o', merged, heq⟩ := (Setting.isTable_overlay_nothing
          (v := .table o inner) trivial).exists_eq
        rw [heq] at hitems
        cases hitems
    · rintro ⟨o, items, rfl, hentries⟩
      exact ⟨items, rfl, hentries⟩

/-- The sections of the merged settings are tables, where they are there. -/
theorem isTable_section (h : Layers fields env) (t : TextSetting) :
    ∀ v, (Config.settings fields env).get? t.table = some v → v.IsTable := by
  apply h.texts.isTable_of_get?
  intro v hv
  rw [h.get?_file] at hv
  obtain ⟨w, hw, rfl⟩ := Option.map_eq_some_iff.mp hv
  exact Setting.isTable_overlay_nothing (h.sections t w hw)

/-- The merged settings are read exactly if the file lists entries and the layers of each
text come to one. -/
theorem read_iff (h : Layers fields env) :
    Config.read (Config.settings fields env) = .ok c ↔
      ConfigFile.ListsEntries fields c.plugins ∧
        ∀ t : TextSetting, t.layered env fields = .ok (t.ofConfig c) := by
  rw [Config.read_iff_texts (Config.isTable_settings fields env) h.isTable_section, h.plugins_iff]
  simp only [h.textIn_iff]

end Layers

namespace TextSetting

variable {t : TextSetting} {env : Environment} {fields : List (String × Setting)}

/-- The layers come to no text exactly if the environment says nothing and what the file
says is none. -/
theorem layered_ne_ok_iff :
    (∀ text, t.layered env fields ≠ .ok text) ↔
      t.inEnvironment? env = none ∧
        ∃ v, t.inFile? fields = some v ∧ ∀ text, v.text ≠ .ok text := by
  unfold layered
  cases t.inEnvironment? env with
  | some value => simp
  | none => cases t.inFile? fields <;> simp

end TextSetting

namespace Config

/-- Take a file whose keys at the root hold no points and brackets and whose sections are
tables, and an environment whose settings are texts of the configuration, one variable for
each at most.  A configuration is loaded exactly if its plugin list is the one that the file
spells, in the same order and with the same options, and each of its texts is what the
variable says, or else the file, or else the default.  Loading fails exactly if the file
spells no plugin list or has something other than a text where there is no variable.
Variables that are no settings make no difference. -/
theorem layering {fs : FileSystem} {path : String} {fields : List (String × Setting)}
    (hread : ConfigFile.read fs path = .ok fields)
    (hplain : ∀ key ∈ Keyed.keys fields, '.' ∉ key.toList ∧ '[' ∉ key.toList)
    (hsections : ∀ (t : TextSetting) v, Keyed.get? t.table fields = some v → v.IsTable)
    {env : Environment} (htexts : env.NamesTexts) :
    (∀ config, load fs env path = .ok config ↔
      ConfigFile.ListsEntries fields config.plugins ∧
        ∀ t : TextSetting, t.layered env fields = .ok (t.ofConfig config)) ∧
    ((∃ f, load fs env path = .error f) ↔
      (∀ plugins, ¬ ConfigFile.ListsEntries fields plugins) ∨
        ∃ t : TextSetting, t.inEnvironment? env = none ∧
          ∃ v, t.inFile? fields = some v ∧ ∀ text, v.text ≠ .ok text) ∧
    ∀ others : Environment, load fs others path =
      load fs (others.filter fun v => (Environment.place? v.1).isSome) path := by
  have hlayers : Layers fields env :=
    ⟨ConfigFile.ordered_of_read hread, hplain, hsections, htexts⟩
  have hok (config : Config) : load fs env path = .ok config ↔
      ConfigFile.ListsEntries fields config.plugins ∧
        ∀ t : TextSetting, t.layered env fields = .ok (t.ofConfig config) := by
    rw [load_eq_ok_iff, ← hlayers.read_iff, hread]
    simp
  refine ⟨hok, ?_, ?_⟩
  · simp only [← TextSetting.layered_ne_ok_iff]
    constructor
    · rintro ⟨f, hfailed⟩
      by_contra hfits
      push Not at hfits
      obtain ⟨⟨plugins, hplugins⟩, htext⟩ := hfits
      choose text htext using htext
      have hload := (hok ⟨plugins, ⟨text .directory⟩, ⟨text .level, text .format⟩⟩).mpr
        ⟨hplugins, by
          intro t
          cases t with
          | directory | level | format => exact htext _⟩
      rw [hfailed] at hload
      cases hload
    · intro hbad
      cases hload : load fs env path with
      | error f => exact ⟨f, rfl⟩
      | ok config =>
        obtain ⟨hplugins, htext⟩ := (hok config).mp hload
        rcases hbad with hnone | ⟨t, hnone⟩
        · exact absurd hplugins (hnone _)
        · exact absurd (htext t) (hnone _)
  · intro others
    unfold load ofSettings settings
    simp only [Environment.overlay_filter]

/-- A file with a list for a directory and a number for a level: a variable for the
directory, in letters of either case, makes it load, with the number as a text. -/
theorem layering_overridden :
    let fs := ({} : FileSystem).plant "docpipe.toml"
      (some "[plugin]\ndirectory = [1]\n[logging]\nlevel = 7\n".toUTF8)
    let env : Environment := [("Docpipe__Plugin__Directory", "here"), ("HOME", "/root")]
    (∃ config, load fs env "docpipe.toml" = .ok config ∧ config.plugins = [] ∧
      config.plugin.directory = "here" ∧ config.logging.level = "7" ∧
      config.logging.format = "pretty") ∧
    ∃ f, load fs [] "docpipe.toml" = .error f := by
  intro fs env
  -- What the file holds is computed once; the fields themselves are known by these facts only.
  have hfile : (ConfigFile.read fs "docpipe.toml").toOption.map (fun fields =>
      (Keyed.keys fields, decide (∀ p ∈ fields, p.2.IsTable),
        [TextSetting.directory, .level, .format].map fun t =>
          ((t.layered env fields).toOption, (t.layered [] fields).toOption))) =
      some (["logging", "plugin"], true,
        [(some "here", none), (some "7", some "7"), (some "pretty", some "pretty")]) := by
    decide +kernel
  cases hread : ConfigFile.read fs "docpipe.toml" with
  | error problem =>
    rw [hread] at hfile
    cases hfile
  | ok fields =>
    rw [hread] at hfile
    obtain ⟨hkeys, hfile⟩ := Prod.mk.inj (Option.some.inj hfile)
    obtain ⟨htables, hlayers⟩ := Prod.mk.inj hfile
    simp only [List.map_cons, List.map_nil, List.cons.injEq, Prod.mk.injEq, and_true] at hlayers
    obtain ⟨⟨hdirectory, hunset⟩, ⟨hlevel, -⟩, hformat, -⟩ := hlayers
    have hplain : ∀ key ∈ Keyed.keys fields, '.' ∉ key.toList ∧ '[' ∉ key.toList := by
      rw [hkeys]
      decide
    have hsections (t : TextSetting) (v : Setting) (hv : Keyed.get? t.table fields = some v) :
        v.IsTable :=
      of_decide_eq_true htables _ (Keyed.mem_of_get? hv)
    have hlist : ConfigFile.ListsEntries fields [] := by
      have habsent : "plugins" ∉ Keyed.keys fields := by
        rw [hkeys]
        decide
      unfold ConfigFile.ListsEntries
      rw [Keyed.get?_eq_none_of_not_mem habsent]
    have htexts : env.NamesTexts := by
      have hplaces : ∀ v ∈ env, Environment.place? v.1 = none ∨
          Environment.place? v.1 = some (.ofKeys TextSetting.directory.keys) := by decide +kernel
      refine ⟨?_, by decide +kernel⟩
      intro v hv place hplace
      rcases hplaces v hv with hnone | hsome
      · rw [hnone] at hplace
        cases hplace
      · exact ⟨.directory, (Option.some.inj (hsome.symm.trans hplace)).symm⟩
    have hnothing : Environment.NamesTexts [] := ⟨nofun, List.nodup_nil⟩
    refine ⟨⟨⟨[], ⟨"here"⟩, ⟨"7", "pretty"⟩⟩, ?_, rfl, rfl, rfl, rfl⟩, ?_⟩
    · apply ((layering hread hplain hsections htexts).1 _).mpr
      refine ⟨hlist, ?_⟩
      intro t
      cases t with
      | directory => exact Except.eq_ok_of_toOption hdirectory
      | level => exact Except.eq_ok_of_toOption hlevel
      | format => exact Except.eq_ok_of_toOption hformat
    · apply (layering hread hplain hsections hnothing).2.1.mpr
      refine .inr ⟨.directory, TextSetting.layered_ne_ok_iff.mp ?_⟩
      intro text heq
      rw [heq] at hunset
      cases hunset

end Config

end PluginChain
