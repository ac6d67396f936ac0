import PluginChain.Proofs.NumeralTexts
import PluginChain.Proofs.Records
import PluginChain.Proofs.SettingPlaces
set_option autoImplicit false

/-!
# Texts from the environment

A variable of the environment is a value before it is a text: a truth value or a number
that it spells is written out again where a text is wanted, in the one way in which such
values are written (`Environment.words`).  So a setting that is added to an environment is
taken as it stands exactly where it spells nothing else or is written in that way already
(`Config.load_with_variable`).  That holds in whatever order the variables are laid, as no
other one reaches into the setting.
-/

namespace PluginChain

/-- An integer in decimal digits spells no truth value. -/
theorem Scalar.bool?_toString (n : Int) : Scalar.bool? (toString n) = none := by
  have hletter : ∀ c ∈ (toString n).toList.map Char.toLower, c = '-' ∨ c.isDigit = true := by
    intro c hc
    obtain ⟨d, hd, rfl⟩ := List.mem_map.mp hc
    have hdigit (h : d ∈ Nat.toDigits 10 n.natAbs) : d.toLower.isDigit = true := by
      have hd := Nat.isDigit_of_mem_toDigits (by decide) (by decide) h
      rw [toLower_of_isDigit hd]
      exact hd
    rw [Numeral.toList_toString] at hd
    split_ifs at hd
    · rcases List.mem_cons.mp hd with rfl | hd
      · exact .inl rfl
      · exact .inr (hdigit hd)
    · exact .inr (hdigit hd)
  have hword {word : String} (letter : Char) (hmem : letter ∈ word.toList) (hsign : letter ≠ '-')
      (hdigit : letter.isDigit = false) :
      String.ofList ((toString n).toList.map Char.toLower) ≠ word := by
    rintro rfl
    rw [String.toList_ofList] at hmem
    rcases hletter letter hmem with h | h
    · exact hsign h
    · rw [hdigit] at h
      cases h
  unfold Scalar.bool?
  rw [if_neg (hword 't' (by decide) (by decide) rfl),
    if_neg (hword 'f' (by decide) (by decide) rfl)]

/-! ## The words of a variable -/

namespace Environment

/-- What a variable comes to as a text: a truth value in small letters, an integer of 64
bits in decimal digits, any other number in plain decimal form, and all else as it stands. -/
def words (value : String) : String :=
  match Scalar.bool? value with
  | some b => if b then "true" else "false"
  | none =>
    match Numeral.int64? value.toList with
    | some n => toString n
    | none =>
      match Numeral.float? value.toList with
      | some x => String.ofList (Numeral.plain x)
      | none => value

/-- A variable stands for its words where a text is wanted. -/
theorem text_setting (value : String) : (setting value).text = .ok (words value) := by
  have htext : (Scalar.ofText value).text? = some (words value) := by
    unfold Scalar.ofText words
    cases Scalar.bool? value with
    | some b => rfl
    | none =>
      cases Numeral.int64? value.toList with
      | some n => exact congrArg some (String.ofList_toList)
      | none => cases Numeral.float? value.toList <;> rfl
  unfold setting Setting.text
  dsimp only
  rw [htext]

/-- A text that spells no truth value and no number is taken as it stands. -/
theorem words_of_plain {value : String} (hbool : Scalar.bool? value = none)
    (hint : Numeral.int64? value.toList = none) (hfloat : Numeral.float? value.toList = none) :
    words value = value := by
  rw [words, hbool, hint, hfloat]

/-- An integer in decimal digits is taken as it stands. -/
theorem words_toString {n : Int} (h : Numeral.minInt64 ≤ n ∧ n ≤ Numeral.maxInt64) :
    words (toString n) = toString n := by
  rw [words, Scalar.bool?_toString, Numeral.int64?_toString h]

end Environment

/-! ## Settings that are texts -/

/-- The parts of a configuration that are texts. -/
inductive TextSetting where
  | directory
  | level
  | format
  deriving DecidableEq, Repr

namespace TextSetting

/-- The key of the table that the setting stands in. -/
def table : TextSetting → String
  | .directory => "plugin"
  | .level | .format => "logging"

/-- The key of the setting in its table. -/
def key : TextSetting → String
  | .directory => "directory"
  | .level => "level"
  | .format => "format"

/-- The keys that lead to the setting. -/
def keys (t : TextSetting) : List String := [t.table, t.key]

/-- The setting in a configuration. -/
def ofConfig (t : TextSetting) (c : Config) : String :=
  match t with
  | .directory => c.plugin.directory
  | .level => c.logging.level
  | .format => c.logging.format

/-- The variable of the setting, in capital letters. -/
def variableName : TextSetting → String
  | .directory => "DOCPIPE__PLUGIN__DIRECTORY"
  | .level => "DOCPIPE__LOGGING__LEVEL"
  | .format => "DOCPIPE__LOGGING__FORMAT"

theorem place?_variableName (t : TextSetting) :
    Environment.place? t.variableName = some (.ofKeys t.keys) := by
  cases t <;> decide +kernel

end TextSetting

/-! ## Reading tables -/

section

variable {origin? : Option String} {fields : List (String × Setting)}

theorem Config.read_table_iff {c : Config} :
    read (Setting.table origin? fields) = .ok c ↔
      (Parts.named fields).Gives recordType "plugins" (Format.list PluginEntry.read) [] c.plugins ∧
      (Parts.named fields).Gives recordType "plugin" PluginSettings.read {} c.plugin ∧
      (Parts.named fields).Gives recordType "logging" LogSettings.read {} c.logging := by
  rw [Config.read_eq_ok_iff]
  constructor
  · rintro ⟨p, hp, hplugins, hplugin, hlogging, -⟩
    cases hp
    exact ⟨hplugins, hplugin, hlogging⟩
  · rintro ⟨hplugins, hplugin, hlogging⟩
    exact ⟨_, rfl, hplugins, hplugin, hlogging, rfl⟩

theorem PluginSettings.read_table_iff {s : PluginSettings} :
    read (Setting.table origin? fields) = .ok s ↔
      (Parts.named fields).Gives recordType "directory" Format.text
        ({} : PluginSettings).directory s.directory := by
  rw [PluginSettings.read_eq_ok_iff]
  constructor
  · rintro ⟨p, hp, hdirectory, -⟩
    cases hp
    exact hdirectory
  · intro hdirectory
    exact ⟨_, rfl, hdirectory, rfl⟩

theorem LogSettings.read_table_iff {s : LogSettings} :
    read (Setting.table origin? fields) = .ok s ↔
      (Parts.named fields).Gives recordType "level" Format.text ({} : LogSettings).level s.level ∧
      (Parts.named fields).Gives recordType "format" Format.text
        ({} : LogSettings).format s.format := by
  rw [LogSettings.read_eq_ok_iff]
  constructor
  · rintro ⟨p, hp, hlevel, hformat, -⟩
    cases hp
    exact ⟨hlevel, hformat⟩
  · rintro ⟨hlevel, hformat⟩
    exact ⟨_, rfl, hlevel, hformat, rfl⟩

variable {α : Type} {t : RecordType} {field : String} {reader : Setting → Except SettingFailure α}
  {default a : α}

theorem Parts.gives_named_of_get? {v : Setting} (h : Keyed.get? field fields = some v) :
    (Parts.named fields).Gives t field reader default a ↔ reader v = .ok a := by
  have hget : (Parts.named fields).get? t field = some v := h
  unfold Parts.Gives
  rw [hget]

theorem Parts.gives_named_of_absent (h : Keyed.get? field fields = none) :
    (Parts.named fields).Gives t field reader default a ↔ a = default := by
  have hget : (Parts.named fields).get? t field = none := h
  unfold Parts.Gives
  rw [hget]

theorem Parts.gives_named_congr {fields' : List (String × Setting)}
    (h : Keyed.get? field fields' = Keyed.get? field fields) :
    (Parts.named fields').Gives t field reader default a ↔
      (Parts.named fields).Gives t field reader default a := by
  have hget : (Parts.named fields').get? t field = (Parts.named fields).get? t field := h
  unfold Parts.Gives
  rw [hget]

end

theorem Setting.at?_pair_iff {first second : String} {s v : Setting} :
    at? [first, second] s = some v ↔
      ∃ o inner, s.get? first = some (.table o inner) ∧ Keyed.get? second inner = some v := by
  constructor
  · intro h
    obtain ⟨below, hbelow, hv⟩ := Option.bind_eq_some_iff.mp h
    obtain ⟨v', hv', heq⟩ := Option.bind_eq_some_iff.mp hv
    obtain ⟨o, inner, rfl⟩ := (isTable_of_get? hv').exists_eq
    rw [← Option.some.inj heq]
    exact ⟨o, inner, hbelow, hv'⟩
  · rintro ⟨o, inner, hbelow, hv⟩
    exact Option.bind_eq_some_iff.mpr ⟨_, hbelow, Option.bind_eq_some_iff.mpr ⟨v, hv, rfl⟩⟩

/-! ## One more variable -/

namespace Config

open Setting (at? Beside)

theorem ofSettings_eq_ok_iff {fields : List (String × Setting)} {env : Environment}
    {config : Config} :
    ofSettings fields env = .ok config ↔ read (settings fields env) = .ok config := by
  unfold ofSettings
  cases read (settings fields env) <;> simp

theorem load_eq_ok_iff {fs : FileSystem} {env : Environment} {path : String} {config : Config} :
    load fs env path = .ok config ↔
      ∃ fields, ConfigFile.read fs path = .ok fields ∧ read (settings fields env) = .ok config := by
  unfold load
  cases ConfigFile.read fs path with
  | error problem => simp
  | ok fields => simp only [Except.ok.injEq, exists_eq_left', ofSettings_eq_ok_iff]

theorem isTable_settings (fields : List (String × Setting)) (env : Environment) :
    (settings fields env).IsTable :=
  Environment.isTable_overlay (ConfigFile.isTable_overlay trivial)

/-- The fields of a log section that was read are texts, whatever spells the section. -/
theorem exists_log_texts {s : Setting} {c : Config} (hs : s.IsTable) (hread : read s = .ok c) :
    ∃ l : LogSettings,
      (Parts.named (s.get "logging").fields).Gives LogSettings.recordType "level" Format.text
        ({} : LogSettings).level l.level ∧
      (Parts.named (s.get "logging").fields).Gives LogSettings.recordType "format" Format.text
        ({} : LogSettings).format l.format := by
  obtain ⟨origin?, fields, rfl⟩ := hs.exists_eq
  obtain ⟨-, -, hlogging⟩ := read_table_iff.mp hread
  cases hget : Keyed.get? "logging" fields with
  | none =>
    have hnothing : (Setting.table origin? fields).get "logging" = .nothing := by
      unfold Setting.get Setting.get? Setting.fields
      rw [hget, Option.getD_none]
    rw [hnothing]
    exact ⟨{}, rfl, rfl⟩
  | some v =>
    rw [Setting.get_of_get? (s := .table origin? fields) hget]
    cases v with
    | scalar => exact ⟨{}, rfl, rfl⟩
    | list => exact ⟨{}, rfl, rfl⟩
    | table o inner =>
      have hinner : LogSettings.read (Setting.table o inner) = .ok c.logging :=
        (Parts.gives_named_of_get? hget).mp hlogging
      exact ⟨c.logging, LogSettings.read_table_iff.mp hinner⟩

/-- A text that is laid over settings that were read is read in its place, and the other
sections are read as they were. -/
theorem read_beside {s s' v : Setting} {c : Config} {t : TextSetting} {text : String}
    (hs : s.IsTable) (hbeside : Beside t.keys s s') (hat : at? t.keys s' = some v)
    (htext : v.text = .ok text) (hread : read s = .ok c) :
    ∃ c', read s' = .ok c' ∧ t.ofConfig c' = text ∧ c'.plugins = c.plugins ∧
      ∀ other : TextSetting, other.table ≠ t.table → other.ofConfig c' = other.ofConfig c := by
  obtain ⟨l, hlevel, hformat⟩ := exists_log_texts hs hread
  obtain ⟨origin?, fields, rfl⟩ := hs.exists_eq
  obtain ⟨hplugins, hplugin, hlogging⟩ := read_table_iff.mp hread
  obtain ⟨o, inner, hsection, hv⟩ := Setting.at?_pair_iff.mp hat
  obtain ⟨o', fields', rfl⟩ := (Setting.isTable_of_get? hsection).exists_eq
  obtain ⟨hothers, hinner, -⟩ := hbeside
  rw [Setting.get_of_get? hsection] at hinner
  cases t with
  | directory =>
    have hdirectory : PluginSettings.read (Setting.table o inner) = .ok ⟨text⟩ :=
      PluginSettings.read_table_iff.mpr ((Parts.gives_named_of_get? hv).mpr htext)
    refine ⟨{ c with plugin := ⟨text⟩ }, read_table_iff.mpr ⟨?_, ?_, ?_⟩, rfl, rfl, ?_⟩
    · exact (Parts.gives_named_congr (hothers "plugins" (by decide))).mpr hplugins
    · exact (Parts.gives_named_of_get? hsection).mpr hdirectory
    · exact (Parts.gives_named_congr (hothers "logging" (by decide))).mpr hlogging
    · intro other hother
      cases other with
      | directory => exact absurd rfl hother
      | level | format => rfl
  | level =>
    have hlog : LogSettings.read (Setting.table o inner) = .ok ⟨text, l.format⟩ :=
      LogSettings.read_table_iff.mpr ⟨(Parts.gives_named_of_get? hv).mpr htext,
        (Parts.gives_named_congr (hinner "format" (by decide))).mpr hformat⟩
    refine ⟨{ c with logging := ⟨text, l.format⟩ }, read_table_iff.mpr ⟨?_, ?_, ?_⟩, rfl, rfl, ?_⟩
    · exact (Parts.gives_named_congr (hothers "plugins" (by decide))).mpr hplugins
    · exact (Parts.gives_named_congr (hothers "plugin" (by decide))).mpr hplugin
    · exact (Parts.gives_named_of_get? hsection).mpr hlog
    · intro other hother
      cases other with
      | directory => rfl
      | level | format => exact absurd rfl hother
  | format =>
    have hlog : LogSettings.read (Setting.table o inner) = .ok ⟨l.level, text⟩ :=
      LogSettings.read_table_iff.mpr
        ⟨(Parts.gives_named_congr (hinner "level" (by decide))).mpr hlevel,
          (Parts.gives_named_of_get? hv).mpr htext⟩
    refine ⟨{ c with logging := ⟨l.level, text⟩ }, read_table_iff.mpr ⟨?_, ?_, ?_⟩, rfl, rfl, ?_⟩
    · exact (Parts.gives_named_congr (hothers "plugins" (by decide))).mpr hplugins
    · exact (Parts.gives_named_congr (hothers "plugin" (by decide))).mpr hplugin
    · exact (Parts.gives_named_of_get? hsection).mpr hlog
    · intro other hother
      cases other with
      | directory => rfl
      | level | format => exact absurd rfl hother

/-- A variable for a text that is laid into settings that make up a configuration, where
none that is laid later reaches into that text. -/
theorem ofSettings_with_variable {fields : List (String × Setting)} {before after : Environment}
    {name : String} {config : Config} {t : TextSetting}
    (hsettings : ofSettings fields (before ++ after) = .ok config)
    (hname : Environment.place? name = some (.ofKeys t.keys)) (hafter : after.Apart t.keys)
    (value : String) :
    ∃ config', ofSettings fields (before ++ (name, value) :: after) = .ok config' ∧
      t.ofConfig config' = Environment.words value ∧ config'.plugins = config.plugins ∧
      ∀ other : TextSetting, other.table ≠ t.table →
        other.ofConfig config' = other.ofConfig config := by
  have hread := ofSettings_eq_ok_iff.mp hsettings
  have htable := isTable_settings fields (before ++ after)
  unfold settings at hread htable
  rw [Environment.overlay_append] at hread htable
  have hadded : settings fields (before ++ (name, value) :: after) =
      after.overlay (Place.set (.ofKeys t.keys) (Environment.setting value)
        (before.overlay (ConfigFile.overlay fields Setting.emptyTable))) := by
    rw [settings, Environment.overlay_append, Environment.overlay, hname]
  generalize before.overlay (ConfigFile.overlay fields Setting.emptyTable) = base
    at hread htable hadded
  have hbeside := Environment.beside_overlay
    (Setting.beside_set t.keys (Environment.setting value) base) hafter
  have hat : at? t.keys (after.overlay (Place.set (.ofKeys t.keys) (Environment.setting value)
      base)) = some (Environment.setting value) :=
    (Environment.at?_overlay_of_apart hafter).trans (Setting.at?_set_self _ _ _ _)
  obtain ⟨config', hread', hrest⟩ :=
    read_beside htable hbeside hat (Environment.text_setting value) hread
  rw [← hadded] at hread'
  exact ⟨config', ofSettings_eq_ok_iff.mpr hread', hrest⟩

/-- Take a file and an environment that load, whatever the order in which the settings are
laid, and add a variable for a text, where no other variable reaches into the same setting.
They still load, whatever the order: the text is the words of the variable, and the plugin
list and the other section are as they are without it.  The words are the variable as it
stands if it spells no truth value and no number, and also if it is an integer of 64 bits in
decimal digits. -/
theorem load_with_variable {fs : FileSystem} {env : Environment} {path name : String}
    {t : TextSetting}
    (hloads : ∀ answer, MayLoad fs env path answer → ∃ config, answer = .ok config)
    (hname : Environment.place? name = some (.ofKeys t.keys)) (hapart : env.Apart t.keys)
    (value : String) :
    (∀ answer, MayLoad fs ((name, value) :: env) path answer →
      ∃ config config', MayLoad fs env path (.ok config) ∧ answer = .ok config' ∧
        t.ofConfig config' = Environment.words value ∧ config'.plugins = config.plugins ∧
        ∀ other : TextSetting, other.table ≠ t.table →
          other.ofConfig config' = other.ofConfig config) ∧
    (Scalar.bool? value = none → Numeral.int64? value.toList = none →
      Numeral.float? value.toList = none → Environment.words value = value) ∧
    ∀ n, Numeral.minInt64 ≤ n ∧ n ≤ Numeral.maxInt64 → value = toString n →
      Environment.words value = value := by
  refine ⟨?_, Environment.words_of_plain, ?_⟩
  · intro answer hanswer
    cases hanswer with
    | unreadable hfile =>
      obtain ⟨config, hconfig⟩ := hloads _ (.unreadable hfile)
      cases hconfig
    | @laid _ fields _ hfile hfields hvars =>
      -- the variable is somewhere among the others, which come in an order of their own
      obtain ⟨before, after, rfl⟩ :=
        List.append_of_mem (hvars.mem_iff.mpr List.mem_cons_self)
      have hothers : (before ++ after).Perm env :=
        (List.perm_middle.symm.trans hvars).cons_inv
      have hafter : Environment.Apart after t.keys := by
        intro v hv
        exact hapart v (hothers.mem_iff.mp (List.mem_append_right _ hv))
      have hwithout := MayLoad.laid hfile hfields hothers
      obtain ⟨config, hconfig⟩ := hloads _ hwithout
      obtain ⟨config', hwith, hrest⟩ := ofSettings_with_variable hconfig hname hafter value
      exact ⟨config, config', hconfig ▸ hwithout, hwith, hrest⟩
  · rintro n hn rfl
    exact Environment.words_toString hn

/-- A load that succeeds has a configuration. -/
theorem exists_of_isOk {fs : FileSystem} {env : Environment} {path : String}
    (h : (load fs env path).isOk = true) : ∃ config, load fs env path = .ok config := by
  cases hload : load fs env path with
  | error f =>
    rw [hload] at h
    cases h
  | ok config => exact ⟨config, rfl⟩

/-- Without a file, at most one variable leaves a single order. -/
theorem eq_load_of_mayLoad {fs : FileSystem} {v : String × String} {path : String}
    {answer : Except Fault Config} (hfile : ConfigFile.read fs path = .ok [])
    (h : MayLoad fs [v] path answer) : answer = load fs [v] path := by
  unfold load
  cases h with
  | unreadable hfile' =>
    rw [hfile] at hfile'
    cases hfile'
  | laid hfile' hfields hvars =>
    rw [hfile] at hfile' ⊢
    cases hfile'
    rw [hfields.eq_nil, hvars.eq_singleton]

/-- A directory with the name of a number that ends in a zero, beside a level that is set,
loses the zero and leaves the level alone. -/
theorem load_with_decimal_as_directory :
    ∃ config config',
      load {} [("DOCPIPE__LOGGING__LEVEL", "debug")] "docpipe.toml" = .ok config ∧
      load {} [("DOCPIPE__PLUGIN__DIRECTORY", "2024.10"), ("DOCPIPE__LOGGING__LEVEL", "debug")]
        "docpipe.toml" = .ok config' ∧
      config'.plugin.directory = "2024.1" ∧ config'.logging.level = config.logging.level := by
  obtain ⟨config, hload⟩ : ∃ config,
      load {} [("DOCPIPE__LOGGING__LEVEL", "debug")] "docpipe.toml" = .ok config :=
    exists_of_isOk (by decide +kernel)
  have hloads : ∀ answer, MayLoad {} [("DOCPIPE__LOGGING__LEVEL", "debug")] "docpipe.toml" answer →
      answer = .ok config := by
    intro answer hanswer
    exact (eq_load_of_mayLoad rfl hanswer).trans hload
  have hapart : Environment.Apart [("DOCPIPE__LOGGING__LEVEL", "debug")]
      TextSetting.directory.keys := by
    intro v hv place hplace
    rw [List.mem_singleton.mp hv] at hplace
    obtain rfl := Option.some.inj ((TextSetting.place?_variableName .level).symm.trans hplace)
    exact .inl (by decide)
  have hwords : Environment.words "2024.10" = "2024.1" := by decide +kernel
  obtain ⟨before, config', hbefore, hload', hdirectory, -, hothers⟩ :=
    (load_with_variable (fun answer h => ⟨config, hloads answer h⟩)
      (TextSetting.place?_variableName .directory) hapart "2024.10").1 _ (mayLoad_load _ _ _)
  obtain rfl := Except.ok.inj (hloads _ hbefore)
  rw [hwords] at hdirectory
  exact ⟨before, config', hload, hload', hdirectory, hothers .level (by decide)⟩

/-- A directory with the name of a number that begins with zeros loses them. -/
theorem load_with_number_as_directory :
    ∃ config config',
      load {} [] "docpipe.toml" = .ok config ∧
      load {} [("DOCPIPE__PLUGIN__DIRECTORY", "007")] "docpipe.toml" = .ok config' ∧
      config'.plugin.directory ≠ "007" := by
  obtain ⟨config, hload⟩ : ∃ config, load {} [] "docpipe.toml" = .ok config :=
    exists_of_isOk (by decide +kernel)
  obtain ⟨config', hload'⟩ : ∃ config,
      load {} [("DOCPIPE__PLUGIN__DIRECTORY", "007")] "docpipe.toml" = .ok config :=
    exists_of_isOk (by decide +kernel)
  have hdirectory : (load {} [("DOCPIPE__PLUGIN__DIRECTORY", "007")] "docpipe.toml").toOption.map
      (·.plugin.directory) = some "7" := by decide +kernel
  rw [hload'] at hdirectory
  refine ⟨config, config', hload, hload', ?_⟩
  have hseven : config'.plugin.directory = "7" := Option.some.inj hdirectory
  rw [hseven]
  decide

end Config

end PluginChain
