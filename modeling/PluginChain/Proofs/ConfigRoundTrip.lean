import Mathlib
import PluginChain.Proofs.Copying
import PluginChain.Proofs.Layering
import PluginChain.Proofs.PlainForm
import PluginChain.Proofs.SavedFiles
set_option autoImplicit false

/-!
# Configurations as values and as files

A configuration is read back from the value that it is written as, and so reading a value
and writing it again gives a normal form of it (`Config.normalize`).  It is also read back
from a file with the text of that value, by a reader of another kind: what the file holds
becomes settings, and these are laid over one another.  The plugin list is laid down as a
whole, so the keys inside an option stay what they are, and the sections of a configuration
hold texts only, which are laid one by one.
-/

namespace PluginChain

/-! ## JSON values as settings -/

namespace Setting

variable {origin : String}

mutual

/-- A well-formed value that is read as settings is left as it is in plain form. -/
theorem toJson_ofJson : ∀ {v : Json}, v.WellFormed → (ofJson origin v).toJson = v
  | .null, _ | .bool _, _ | .int _, _ | .str _, _ => by simp [ofJson, toJson, Scalar.toJson]
  | .float x, h => by
    have hfinite : x.isFinite = true := h
    rw [ofJson, toJson, Scalar.toJson, if_pos hfinite]
  | .arr items, h => by
    rw [ofJson, toJson, itemsToJson_ofJsonItems h]
  | .obj fields, h => by
    rw [ofJson, toJson, fieldsToJson_ofJsonFields h.2, Json.ofFields_eq_obj h.1]

theorem itemsToJson_ofJsonItems : ∀ {items : List Json}, Json.WellFormedItems items →
    itemsToJson (ofJsonItems origin items) = items
  | [], _ => by rw [ofJsonItems, itemsToJson]
  | v :: rest, h => by
    rw [ofJsonItems, itemsToJson, toJson_ofJson h.1, itemsToJson_ofJsonItems h.2]

theorem fieldsToJson_ofJsonFields : ∀ {fields : List (String × Json)},
    Json.WellFormedFields fields → fieldsToJson (ofJsonFields origin fields) = fields
  | [], _ => by rw [ofJsonFields, fieldsToJson]
  | (key, v) :: rest, h => by
    rw [ofJsonFields, fieldsToJson, toJson_ofJson h.1, fieldsToJson_ofJsonFields h.2]

end

/-- The plain form of an entry, read as settings, spells the entry. -/
theorem spellsEntry_ofJson {e : PluginEntry} (h : e.option.WellFormed) :
    (ofJson origin e.toJson).SpellsEntry e := by
  rw [PluginEntry.toJson, ofJson]
  refine ⟨⟨ofJson origin (.str e.name), rfl, rfl⟩, ?_⟩
  have hoption : Keyed.get? "option" (ofJsonFields origin [("name", .str e.name),
      ("option", e.option)]) = some (ofJson origin e.option) := rfl
  rw [hoption, Option.map_some, toJson_ofJson h, Option.getD_some]

end Setting

/-! ## Round trips -/

namespace Config

variable {c : Config} {origin : String} {env : Environment}

/-- The configuration as a plain JSON value. -/
def toValue (c : Config) : Except Fault Json :=
  match c.toSerial.toJson with
  | .ok v => .ok v
  | .error m => .error (.ofMismatch m)

/-- A value read as a configuration and written again. -/
def normalize (v : Json) : Except Fault Json := ofJson v >>= toValue

theorem toValue_eq (c : Config) : c.toValue = .ok c.toJson := by
  rw [toValue, toJson_toSerial]

theorem ofJson_toJson (c : Config) : ofJson c.toJson = .ok c := by
  rw [ofJson, read_toJson]

theorem normalize_of_ofJson {v : Json} (h : ofJson v = .ok c) : normalize v = .ok c.toJson := by
  rw [normalize, h]
  exact c.toValue_eq

/-- The normal form of a value is the plain form of what it is read as. -/
theorem normalize_eq_ok_iff {v w : Json} :
    normalize v = .ok w ↔ ∃ c, ofJson v = .ok c ∧ c.toJson = w := by
  simp only [normalize, Except.bind_eq_ok_iff, toValue_eq, Except.ok.injEq]

/-- Values have the normal form of a configuration exactly if they are read as it. -/
theorem normalize_eq_toJson_iff {w : Json} : normalize w = .ok c.toJson ↔ ofJson w = .ok c := by
  constructor
  · intro h
    obtain ⟨c', hc', heq⟩ := normalize_eq_ok_iff.mp h
    -- What is read back tells configurations apart, so their plain forms do.
    have hsame := congrArg ofJson heq
    rw [ofJson_toJson, ofJson_toJson] at hsame
    rw [hc', Except.ok.inj hsame]
  · exact normalize_of_ofJson

/-- An environment without settings leaves the members of a configuration as they are, and
they are layers of it. -/
theorem layers_members (c : Config) (hordered : Keyed.Ordered Json.Ordered c.members)
    (henv : ∀ v ∈ env, Environment.place? v.1 = none) :
    Layers (Setting.ofJsonFields origin c.members) env where
  ordered := by
    rw [Setting.ofJsonFields_eq_map]
    exact hordered.map fun _ => Setting.ordered_ofJson
  plain := by
    have hkeys : ∀ key ∈ ["logging", "plugin", "plugins"],
        '.' ∉ key.toList ∧ '[' ∉ key.toList := by decide
    exact hkeys
  sections := by
    intro t v hv
    cases t with
    | directory | level | format =>
      obtain rfl := Option.some.inj hv
      trivial
  texts := by
    have hnone : (env.filterMap fun v => Environment.place? v.1) = [] :=
      List.filterMap_eq_nil_iff.mpr henv
    refine ⟨?_, ?_⟩
    · intro v hv place hplace
      rw [henv v hv] at hplace
      cases hplace
    · rw [hnone]
      exact List.nodup_nil

/-- The members of a configuration list its entries, if their options are well-formed. -/
theorem listsEntries_members (c : Config) (hoptions : ∀ e ∈ c.plugins, e.option.WellFormed) :
    ConfigFile.ListsEntries (Setting.ofJsonFields origin c.members) c.plugins := by
  have hentries (entries : List PluginEntry) (h : ∀ e ∈ entries, e.option.WellFormed) :
      List.Forall₂ (fun s e => s.SpellsEntry e)
        (Setting.ofJsonItems origin (entries.map PluginEntry.toJson)) entries := by
    induction entries with
    | nil =>
      rw [List.map_nil, Setting.ofJsonItems]
      exact .nil
    | cons e rest ih =>
      obtain ⟨he, hrest⟩ := List.forall_mem_cons.mp h
      rw [List.map_cons, Setting.ofJsonItems]
      exact .cons (Setting.spellsEntry_ofJson he) (ih hrest)
  have hlist : Keyed.get? "plugins" (Setting.ofJsonFields origin c.members) =
      some (.list (some origin) (Setting.ofJsonItems origin (c.plugins.map PluginEntry.toJson))) :=
    rfl
  unfold ConfigFile.ListsEntries
  rw [hlist]
  exact ⟨_, _, rfl, hentries c.plugins hoptions⟩

/-- Without settings in the environment, each text is what the members say. -/
theorem layered_members (c : Config) (henv : ∀ v ∈ env, Environment.place? v.1 = none)
    (t : TextSetting) :
    t.layered env (Setting.ofJsonFields origin c.members) = .ok (t.ofConfig c) := by
  have hunset : t.inEnvironment? env = none := by
    rw [TextSetting.inEnvironment?, Option.map_eq_none_iff, List.find?_eq_none]
    intro v hv
    rw [henv v hv]
    simp
  unfold TextSetting.layered
  rw [hunset]
  cases t with
  | directory | level | format => rfl

/-- A configuration saved to a file of JSON: the text of its plain form was written to a
path which, as it is spelled out from the root, can be followed too. -/
structure Saved (c : Config) (fs : FileSystem) (path : String) (fs' : FileSystem) : Prop where
  sound : fs.Sound
  extension : Path.extension? path = some "json"
  way : Path.isAbsolute path = false → ∃ r, fs.reach (Path.join fs.cwdPath path) = .ok r
  written : ∃ text, Json.parse text = .ok c.toJson ∧ fs.write path text.toUTF8 = (.ok (), fs')

/-- A configuration is read back from the value that it is written as.  So a value that is
read as a configuration has a normal form, which is its own and that of all values that are
read as the same configuration.  And a configuration whose options are well-formed is loaded
from the file to which it was saved, where the environment has no settings. -/
theorem round_trip (c : Config) :
    (∃ v, c.toValue = .ok v ∧ ofJson v = .ok c) ∧
    (∀ v, ofJson v = .ok c → ∃ w, normalize v = .ok w ∧ normalize w = .ok w ∧
      ∀ v', normalize v' = .ok w ↔ ofJson v' = .ok c) ∧
    ((∀ e ∈ c.plugins, e.option.WellFormed) →
      ∀ fs path fs', c.Saved fs path fs' →
        ∀ env : Environment, (∀ v ∈ env, Environment.place? v.1 = none) →
          load fs' env path = .ok c) := by
  refine ⟨⟨c.toJson, c.toValue_eq, c.ofJson_toJson⟩, fun v hv => ?_, ?_⟩
  · exact ⟨c.toJson, normalize_of_ofJson hv, normalize_of_ofJson c.ofJson_toJson,
      fun _ => normalize_eq_toJson_iff⟩
  · intro hoptions fs path fs' hsaved env henv
    obtain ⟨text, hparse, hwrite⟩ := hsaved.written
    have hread := hsaved.sound.read_spelledOut_of_write hwrite hsaved.way
    obtain ⟨origin, hfile⟩ := ConfigFile.read_json hread hsaved.extension hparse
    have hordered : Keyed.Ordered Json.Ordered c.members := by
      cases Json.ordered_of_parse hparse with
      | obj hkeys hvalues => exact ⟨hkeys, hvalues⟩
    apply load_eq_ok_iff.mpr
    refine ⟨_, hfile, ?_⟩
    apply (layers_members c hordered henv).read_iff.mpr
    exact ⟨listsEntries_members c hoptions, layered_members c henv⟩

/-- A configuration with texts that look like other values, and with an option whose keys
are no places. -/
def lookalikes : Config :=
  { plugins := [⟨"true", .obj [("A.b", .null), ("x[0]", .str "1e3")]⟩, ⟨"toc", .null⟩]
    plugin := ⟨"007"⟩ }

/-- It is loaded from a file in the working directory. -/
theorem round_trip_lookalikes :
    ∃ fs', lookalikes.Saved {} "c.json" fs' ∧
      load fs' [("HOME", "/root")] "c.json" = .ok lookalikes := by
  have hparse : Json.parse lookalikes.toJson.compact = .ok lookalikes.toJson := by cbv
  have hreach : (({} : FileSystem).reach
      (Path.join ({} : FileSystem).cwdPath "c.json")).toOption.isSome = true := by decide +kernel
  obtain ⟨⟨⟩, hwrite⟩ := OutputDir.eq_ok_of_isOk (x := FileSystem.write {} "c.json"
    lookalikes.toJson.compact.toUTF8) (by decide +kernel)
  obtain ⟨r, hr⟩ := Option.isSome_iff_exists.mp hreach
  generalize (FileSystem.write {} "c.json" lookalikes.toJson.compact.toUTF8).2 = fs' at hwrite
  have hsaved : lookalikes.Saved {} "c.json" fs' := by
    refine ⟨FileSystem.sound_of_empty rfl rfl, by decide +kernel, fun _ => ?_, _, hparse, hwrite⟩
    exact ⟨r, Except.eq_ok_of_toOption hr⟩
  have hoptions : ∀ e ∈ lookalikes.plugins, e.option.WellFormed := by
    have hnames : ["A.b", "x[0]"].Pairwise (· < ·) := by decide +kernel
    intro e he
    rcases List.mem_cons.mp he with rfl | he
    · exact ⟨hnames, trivial, trivial, trivial⟩
    · obtain rfl := List.mem_singleton.mp he
      trivial
  exact ⟨fs', hsaved, (round_trip lookalikes).2.2 hoptions _ _ _ hsaved _ (by decide +kernel)⟩

end Config

end PluginChain
