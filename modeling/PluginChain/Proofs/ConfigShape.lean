import PluginChain.Proofs.Spellings
set_option autoImplicit false

/-!
# Which values are configurations

A JSON value is taken for a configuration exactly if it has the shape of one
(`Json.FitsConfig`): a record of at most three parts, each of which may be absent and has a
shape of its own.  What the configuration is hangs on these parts alone (`Json.SpellsConfig`),
so neither members with other names nor the choice between the two spellings of a record
matter, at any of the levels (`Json.SameConfig`).
-/

namespace PluginChain

namespace Json

variable {v w : Json}

/-! ## Shapes -/

/-- Whether a value is a record whose parts are texts. -/
def FitsTexts (t : RecordType) (v : Json) : Prop :=
  v.IsRecord t ∧ ∀ field ∈ t.fields, ∀ w, v.part? t field = some w → ∃ text, w = .str text

/-- Whether a value is a record with a name that is a text; its option may be anything. -/
def FitsEntry (v : Json) : Prop :=
  v.IsRecord PluginEntry.recordType ∧
    ∃ name, v.part? PluginEntry.recordType "name" = some (.str name)

/-- Whether a value is a list of such records. -/
def FitsEntries (v : Json) : Prop := ∃ items, v = .arr items ∧ ∀ w ∈ items, w.FitsEntry

/-- Whether a value has the shape of a configuration. -/
structure FitsConfig (v : Json) : Prop where
  record : v.IsRecord Config.recordType
  plugins : ∀ w, v.part? Config.recordType "plugins" = some w → w.FitsEntries
  plugin : ∀ w, v.part? Config.recordType "plugin" = some w →
    w.FitsTexts PluginSettings.recordType
  logging : ∀ w, v.part? Config.recordType "logging" = some w → w.FitsTexts LogSettings.recordType

/-! ## What is spelled -/

/-- Whether a value spells plugin settings; without a directory they have the default one. -/
structure SpellsPluginSettings (v : Json) (s : PluginSettings) : Prop where
  record : v.IsRecord PluginSettings.recordType
  directory : Says (fun w text => w = .str text) ({} : PluginSettings).directory
    (v.part? PluginSettings.recordType "directory") s.directory

/-- Whether a value spells log settings; level and format have defaults. -/
structure SpellsLogSettings (v : Json) (s : LogSettings) : Prop where
  record : v.IsRecord LogSettings.recordType
  level : Says (fun w text => w = .str text) ({} : LogSettings).level
    (v.part? LogSettings.recordType "level") s.level
  format : Says (fun w text => w = .str text) ({} : LogSettings).format
    (v.part? LogSettings.recordType "format") s.format

/-- Whether a value spells a configuration; each of its parts has a default. -/
structure SpellsConfig (v : Json) (c : Config) : Prop where
  record : v.IsRecord Config.recordType
  plugins : Says SpellsEntries [] (v.part? Config.recordType "plugins") c.plugins
  plugin : Says SpellsPluginSettings {} (v.part? Config.recordType "plugin") c.plugin
  logging : Says SpellsLogSettings {} (v.part? Config.recordType "logging") c.logging

/-! ## Values of a shape spell something -/

theorem fitsEntry_iff : v.FitsEntry ↔ ∃ e, v.SpellsEntry e := by
  constructor
  · rintro ⟨hrecord, name, hname⟩
    exact ⟨⟨name, _⟩, hrecord, hname, rfl⟩
  · rintro ⟨e, he⟩
    exact ⟨he.record, e.name, he.name⟩

theorem fitsEntries_iff : v.FitsEntries ↔ ∃ entries, v.SpellsEntries entries := by
  have hitems (items : List Json) :
      (∀ w ∈ items, w.FitsEntry) ↔ ∃ entries, List.Forall₂ SpellsEntry items entries := by
    induction items with
    | nil => simp
    | cons v rest ih =>
      rw [List.forall_mem_cons, ih, fitsEntry_iff]
      simp only [List.forall₂_cons_left_iff]
      constructor
      · rintro ⟨⟨e, he⟩, entries, hentries⟩
        exact ⟨e :: entries, e, entries, he, hentries, rfl⟩
      · rintro ⟨_, e, entries, he, hentries, rfl⟩
        exact ⟨⟨e, he⟩, entries, hentries⟩
  unfold FitsEntries SpellsEntries
  rw [exists_comm]
  simp only [hitems, exists_and_left]

theorem fitsTexts_plugin_iff :
    v.FitsTexts PluginSettings.recordType ↔ ∃ s, v.SpellsPluginSettings s := by
  constructor
  · rintro ⟨hrecord, htexts⟩
    obtain ⟨directory, hdirectory⟩ := exists_says_iff.mpr (htexts "directory" (.head _))
    exact ⟨⟨directory⟩, hrecord, hdirectory⟩
  · rintro ⟨s, hs⟩
    refine ⟨hs.record, ?_⟩
    intro field hfield
    obtain rfl := List.mem_singleton.mp hfield
    exact exists_says_iff.mp ⟨s.directory, hs.directory⟩

theorem fitsTexts_logging_iff :
    v.FitsTexts LogSettings.recordType ↔ ∃ s, v.SpellsLogSettings s := by
  constructor
  · rintro ⟨hrecord, htexts⟩
    obtain ⟨level, hlevel⟩ := exists_says_iff.mpr (htexts "level" (.head _))
    obtain ⟨format, hformat⟩ := exists_says_iff.mpr (htexts "format" (.tail _ (.head _)))
    exact ⟨⟨level, format⟩, hrecord, hlevel, hformat⟩
  · rintro ⟨s, hs⟩
    refine ⟨hs.record, ?_⟩
    intro field hfield
    rcases List.mem_cons.mp hfield with rfl | hfield
    · exact exists_says_iff.mp ⟨s.level, hs.level⟩
    · obtain rfl := List.mem_singleton.mp hfield
      exact exists_says_iff.mp ⟨s.format, hs.format⟩

/-- The values that have the shape of a configuration are those that spell one. -/
theorem fitsConfig_iff : v.FitsConfig ↔ ∃ c, v.SpellsConfig c := by
  constructor
  · intro h
    have hplugins := h.plugins
    have hplugin := h.plugin
    have hlogging := h.logging
    simp only [fitsEntries_iff] at hplugins
    simp only [fitsTexts_plugin_iff] at hplugin
    simp only [fitsTexts_logging_iff] at hlogging
    obtain ⟨plugins, hplugins⟩ := exists_says_iff.mpr hplugins
    obtain ⟨plugin, hplugin⟩ := exists_says_iff.mpr hplugin
    obtain ⟨logging, hlogging⟩ := exists_says_iff.mpr hlogging
    exact ⟨⟨plugins, plugin, logging⟩, h.record, hplugins, hplugin, hlogging⟩
  · rintro ⟨c, h⟩
    refine ⟨h.record, ?_, ?_, ?_⟩
    · intro w hw
      exact fitsEntries_iff.mpr (exists_says_iff.mp ⟨_, h.plugins⟩ w hw)
    · intro w hw
      exact fitsTexts_plugin_iff.mpr (exists_says_iff.mp ⟨_, h.plugin⟩ w hw)
    · intro w hw
      exact fitsTexts_logging_iff.mpr (exists_says_iff.mp ⟨_, h.logging⟩ w hw)

/-! ## Readers read what is spelled -/

theorem read_pluginSettings_iff {s : PluginSettings} :
    PluginSettings.read v = .ok s ↔ v.SpellsPluginSettings s := by
  rw [PluginSettings.read_eq_ok_iff]
  constructor
  · rintro ⟨p, hp, hdirectory, hfinish⟩
    exact ⟨isRecord_of_parts hp hfinish,
      (gives_iff_part (fun _ _ => text_eq_ok_iff) hp).mp hdirectory⟩
  · intro h
    obtain ⟨p, hp, hfinish⟩ := h.record.exists_parts
    exact ⟨p, hp, (gives_iff_part (fun _ _ => text_eq_ok_iff) hp).mpr h.directory, hfinish⟩

theorem read_logSettings_iff {s : LogSettings} :
    LogSettings.read v = .ok s ↔ v.SpellsLogSettings s := by
  rw [LogSettings.read_eq_ok_iff]
  constructor
  · rintro ⟨p, hp, hlevel, hformat, hfinish⟩
    exact ⟨isRecord_of_parts hp hfinish,
      (gives_iff_part (fun _ _ => text_eq_ok_iff) hp).mp hlevel,
      (gives_iff_part (fun _ _ => text_eq_ok_iff) hp).mp hformat⟩
  · intro h
    obtain ⟨p, hp, hfinish⟩ := h.record.exists_parts
    exact ⟨p, hp, (gives_iff_part (fun _ _ => text_eq_ok_iff) hp).mpr h.level,
      (gives_iff_part (fun _ _ => text_eq_ok_iff) hp).mpr h.format, hfinish⟩

/-- A configuration is read exactly if it is spelled. -/
theorem read_config_iff {c : Config} : Config.read v = .ok c ↔ v.SpellsConfig c := by
  rw [Config.read_eq_ok_iff]
  constructor
  · rintro ⟨p, hp, hplugins, hplugin, hlogging, hfinish⟩
    exact ⟨isRecord_of_parts hp hfinish,
      (gives_iff_part (fun _ _ => list_entries_iff) hp).mp hplugins,
      (gives_iff_part (fun _ _ => read_pluginSettings_iff) hp).mp hplugin,
      (gives_iff_part (fun _ _ => read_logSettings_iff) hp).mp hlogging⟩
  · intro h
    obtain ⟨p, hp, hfinish⟩ := h.record.exists_parts
    exact ⟨p, hp, (gives_iff_part (fun _ _ => list_entries_iff) hp).mpr h.plugins,
      (gives_iff_part (fun _ _ => read_pluginSettings_iff) hp).mpr h.plugin,
      (gives_iff_part (fun _ _ => read_logSettings_iff) hp).mpr h.logging, hfinish⟩

/-! ## Spellings of the same configuration -/

/-- Whether two values spell a configuration alike: their parts are the same but for how each
of them, and each entry of the plugin list, is spelled. -/
structure SameConfig (v w : Json) : Prop where
  left : v.IsRecord Config.recordType
  right : w.IsRecord Config.recordType
  plugins : Option.Rel SameEntries (v.part? Config.recordType "plugins")
    (w.part? Config.recordType "plugins")
  plugin : Option.Rel (SameParts PluginSettings.recordType) (v.part? Config.recordType "plugin")
    (w.part? Config.recordType "plugin")
  logging : Option.Rel (SameParts LogSettings.recordType) (v.part? Config.recordType "logging")
    (w.part? Config.recordType "logging")

theorem SameParts.spellsPluginSettings {s : PluginSettings}
    (h : SameParts PluginSettings.recordType v w) (hv : v.SpellsPluginSettings s) :
    w.SpellsPluginSettings s := by
  rcases h with rfl | ⟨-, hw, hparts⟩
  · exact hv
  · refine ⟨hw, ?_⟩
    rw [← hparts "directory" (.head _)]
    exact hv.directory

theorem SameParts.spellsLogSettings {s : LogSettings}
    (h : SameParts LogSettings.recordType v w) (hv : v.SpellsLogSettings s) :
    w.SpellsLogSettings s := by
  rcases h with rfl | ⟨-, hw, hparts⟩
  · exact hv
  · refine ⟨hw, ?_, ?_⟩
    · rw [← hparts "level" (.head _)]
      exact hv.level
    · rw [← hparts "format" (.tail _ (.head _))]
      exact hv.format

/-- Configurations that are spelled alike are the same. -/
theorem SameConfig.spellsConfig_iff {c : Config} (h : SameConfig v w) :
    v.SpellsConfig c ↔ w.SpellsConfig c := by
  have hplugins : Says SpellsEntries [] (v.part? Config.recordType "plugins") c.plugins ↔
      Says SpellsEntries [] (w.part? Config.recordType "plugins") c.plugins :=
    says_congr (fun _ _ hsame => SameEntries.spellsEntries_iff hsame) h.plugins
  have hplugin : Says SpellsPluginSettings {} (v.part? Config.recordType "plugin") c.plugin ↔
      Says SpellsPluginSettings {} (w.part? Config.recordType "plugin") c.plugin :=
    says_congr
      (fun _ _ hsame => ⟨hsame.spellsPluginSettings, hsame.symm.spellsPluginSettings⟩) h.plugin
  have hlogging : Says SpellsLogSettings {} (v.part? Config.recordType "logging") c.logging ↔
      Says SpellsLogSettings {} (w.part? Config.recordType "logging") c.logging :=
    says_congr (fun _ _ hsame => ⟨hsame.spellsLogSettings, hsame.symm.spellsLogSettings⟩) h.logging
  constructor
  · intro hv
    exact ⟨h.right, hplugins.mp hv.plugins, hplugin.mp hv.plugin, hlogging.mp hv.logging⟩
  · intro hw
    exact ⟨h.left, hplugins.mpr hw.plugins, hplugin.mpr hw.plugin, hlogging.mpr hw.logging⟩

end Json

namespace Config

variable {v : Json} {c : Config}

/-- A value is taken for the configuration that it spells, and else refused for a fault
without a cause. -/
theorem ofJson_eq_ok_iff : ofJson v = .ok c ↔ v.SpellsConfig c := by
  rw [← Json.read_config_iff, ofJson]
  cases read (E := Mismatch) v <;> simp

/-- A value is taken for a configuration exactly if it has the shape of one.  The
configuration then is the one that it spells, with a default for each part that is absent;
other members of its records have no part in that, and spellings of the same parts give the
same configuration.  Any other value is refused for a configuration that makes no sense, with
no further cause. -/
theorem ofJson_by_shape (v : Json) :
    ((∃ c, ofJson v = .ok c) ↔ v.FitsConfig) ∧
    (∀ c, ofJson v = .ok c ↔ v.SpellsConfig c) ∧
    (∀ w, v.SameConfig w → ∀ c, ofJson v = .ok c ↔ ofJson w = .ok c) ∧
    ∀ f, ofJson v = .error f → f.kind = .configuration ∧ f.causes = [] := by
  refine ⟨?_, fun c => ofJson_eq_ok_iff, fun w hsame c => ?_, fun f hf => ?_⟩
  · rw [Json.fitsConfig_iff]
    simp only [ofJson_eq_ok_iff]
  · rw [ofJson_eq_ok_iff, ofJson_eq_ok_iff]
    exact hsame.spellsConfig_iff
  · unfold ofJson at hf
    split at hf
    · cases hf
    · obtain rfl := Except.error.inj hf
      exact ⟨rfl, rfl⟩

/-- A configuration spelled as a list, with the plugin settings cut short. -/
def listed : Json :=
  .arr [.arr [.arr [.str "toc", .obj [("depth", .int 2)]]], .arr [],
    .obj [("color", .bool true), ("level", .str "debug")]]

/-- The same configuration spelled as an object, with members that have no meaning. -/
def named : Json :=
  .obj [("logging", .arr [.str "debug"]), ("plugin", .obj [("dir", .null)]),
    ("plugins", .arr [.obj [("name", .str "toc"), ("note", .str "first"),
      ("option", .obj [("depth", .int 2)])]]), ("schema", .int 1)]

theorem listed_sameConfig_named : listed.SameConfig named where
  left := Nat.le_refl 3
  right := trivial
  plugins := by
    refine .some (.cons (.inr ⟨Nat.le_refl 2, trivial, ?_⟩) .nil)
    simp [PluginEntry.recordType, Json.part?, Keyed.get?]
  plugin := by
    refine .some (.inr ⟨Nat.zero_le 1, trivial, ?_⟩)
    simp [PluginSettings.recordType, Json.part?, Keyed.get?]
  logging := by
    refine .some (.inr ⟨trivial, Nat.le_succ 1, ?_⟩)
    simp [LogSettings.recordType, Json.part?, Keyed.get?]

/-- Both spellings are the same configuration, and a null in the place of the plugin settings
is refused. -/
theorem ofJson_by_shape_mixed :
    (∃ c, ofJson listed = .ok c ∧ ofJson named = .ok c ∧
      c.plugins = [⟨"toc", .obj [("depth", .int 2)]⟩] ∧ c.plugin.directory = "./plugins" ∧
      c.logging = ⟨"debug", "pretty"⟩) ∧
    ∃ f, ofJson (.obj [("plugin", .null)]) = .error f ∧
      f.kind = .configuration ∧ f.causes = [] := by
  constructor
  · refine ⟨⟨[⟨"toc", .obj [("depth", .int 2)]⟩], {}, ⟨"debug", "pretty"⟩⟩, rfl, ?_, rfl, rfl, rfl⟩
    exact ((ofJson_by_shape listed).2.2.1 named listed_sameConfig_named _).mp rfl
  · exact ⟨_, rfl, (ofJson_by_shape (.obj [("plugin", .null)])).2.2.2 _ rfl⟩

end Config

end PluginChain
