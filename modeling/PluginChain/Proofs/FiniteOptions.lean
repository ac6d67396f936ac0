import PluginChain.ConfigFile
import PluginChain.Proofs.OrderedKeys
import PluginChain.Proofs.SpelledTexts
set_option autoImplicit false

/-!
# Options that can be printed

Settings in plain form hold no float that is not finite, as such a float becomes null
(`Setting.finite_toJson`).  So the option of every entry of a configuration that loads has a
JSON text that spells it, and so has the configuration (`Config.finite_of_load`).
-/

namespace PluginChain

namespace Keyed

variable {α : Type} {kind : α → Prop}

/-- Values of one kind that are put under their keys stay of that kind. -/
theorem forall_ofList {fields : List (String × α)} (h : ∀ p ∈ fields, kind p.2) :
    ∀ p ∈ ofList fields, kind p.2 := by
  have hfold (fields : List (String × α)) (m : Keyed α) (hm : ∀ p ∈ m, kind p.2)
      (h : ∀ p ∈ fields, kind p.2) :
      ∀ p ∈ fields.foldl (fun m p => m.insert p.1 p.2) m, kind p.2 := by
    induction fields generalizing m with
    | nil => exact hm
    | cons q rest ih =>
      obtain ⟨hq, hrest⟩ := List.forall_mem_cons.mp h
      refine ih _ (fun p hp => ?_) hrest
      rcases mem_of_mem_insert hp with rfl | hp
      · exact hq
      · exact hm p hp
  exact hfold fields [] (by simp) h

end Keyed

namespace Setting

mutual

/-- Settings in plain form hold finite floats only. -/
theorem finite_toJson : ∀ s : Setting, s.toJson.Finite
  | .scalar _ v => by
    rw [toJson]
    cases v with
    | float x =>
      rw [Scalar.toJson]
      split_ifs with hfinite
      · exact .float hfinite
      · exact .null
    | nothing => exact .null
    | bool b => exact .bool b
    | int n => exact .int n
    | str s => exact .str s
  | .list _ items => by
    rw [toJson]
    exact .arr (finite_itemsToJson items)
  | .table _ fields => by
    rw [toJson]
    exact .obj (Keyed.forall_ofList (finite_fieldsToJson fields))

theorem finite_itemsToJson : ∀ items : List Setting, ∀ v ∈ itemsToJson items, v.Finite
  | [] => by simp [itemsToJson]
  | s :: rest => by
    rw [itemsToJson]
    exact List.forall_mem_cons.mpr ⟨finite_toJson s, finite_itemsToJson rest⟩

theorem finite_fieldsToJson : ∀ fields : List (String × Setting),
    ∀ p ∈ fieldsToJson fields, p.2.Finite
  | [] => by simp [fieldsToJson]
  | (key, s) :: rest => by
    rw [fieldsToJson]
    exact List.forall_mem_cons.mpr ⟨finite_toJson s, finite_fieldsToJson rest⟩

end

end Setting

/-- The option of an entry that is read from settings holds finite floats only. -/
theorem PluginEntry.finite_of_read {s : Setting} {e : PluginEntry} (h : read s = .ok e) :
    e.option.Finite := by
  obtain ⟨p, -, -, hoption, -⟩ := PluginEntry.read_eq_ok_iff.mp h
  rw [hoption]
  cases p.get? recordType "option" with
  | none => exact .null
  | some v => exact Setting.finite_toJson v

namespace Config

/-- So do the options of a configuration that is read from settings. -/
theorem finite_of_read {s : Setting} {config : Config} (h : read s = .ok config) :
    ∀ e ∈ config.plugins, e.option.Finite := by
  obtain ⟨p, -, hplugins, -⟩ := Config.read_eq_ok_iff.mp h
  unfold Parts.Gives at hplugins
  cases hlist : p.get? recordType "plugins" with
  | none =>
    rw [hlist] at hplugins
    rw [hplugins]
    simp
  | some v =>
    rw [hlist] at hplugins
    obtain ⟨items, -, hread⟩ := Format.list_eq_ok_iff.mp hplugins
    generalize config.plugins = entries at hread ⊢
    induction hread with
    | nil => simp
    | cons he _ ih => exact List.forall_mem_cons.mpr ⟨PluginEntry.finite_of_read he, ih⟩

/-- The options of a configuration that loads hold finite floats only. -/
theorem finite_of_load {fs : FileSystem} {environment : Environment} {path : String}
    {config : Config} (h : load fs environment path = .ok config) :
    ∀ e ∈ config.plugins, e.option.Finite := by
  unfold load at h
  split at h
  · cases h
  · unfold ofSettings at h
    split at h
    · next hread =>
      cases h
      exact finite_of_read hread
    · cases h

/-- A configuration with such options holds finite floats only in plain form. -/
theorem finite_toJson {config : Config} (h : ∀ e ∈ config.plugins, e.option.Finite) :
    config.toJson.Finite := by
  have hentries : ∀ v ∈ config.plugins.map PluginEntry.toJson, v.Finite := by
    intro v hv
    obtain ⟨e, he, rfl⟩ := List.mem_map.mp hv
    refine .obj (List.forall_mem_cons.mpr ⟨.str _, List.forall_mem_cons.mpr ⟨h e he, ?_⟩⟩)
    exact List.forall_mem_nil _
  refine .obj (List.forall_mem_cons.mpr ⟨?_, List.forall_mem_cons.mpr ⟨?_, ?_⟩⟩)
  · exact .obj (List.forall_mem_cons.mpr ⟨.str _, List.forall_mem_cons.mpr ⟨.str _,
      List.forall_mem_nil _⟩⟩)
  · exact .obj (List.forall_mem_cons.mpr ⟨.str _, List.forall_mem_nil _⟩)
  · exact List.forall_mem_cons.mpr ⟨.arr hentries, List.forall_mem_nil _⟩

end Config

end PluginChain
