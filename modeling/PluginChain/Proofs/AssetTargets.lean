import PluginChain.Proofs.AssetOptions
import PluginChain.Proofs.Containment
import PluginChain.Proofs.LastNames
import PluginChain.Proofs.LentOperations
set_option autoImplicit false

/-!
# Where assets are copied to

`copy-assets` finds the paths of its copy before it calls anything, so it refuses an option
without a call, or it makes one call of the operation that copies directories
(`CopyAssets.refuses_of_paths`, `CopyAssets.copiesOnce_of_paths`).  A target that the option does
not give is the last name of the source.  An output directory accepts every such name, as a name
is no way out of it, and the name is that of a child of the directory
(`OutputDir.resolve_name`).
-/

namespace PluginChain

/-- An output directory accepts a name, and the target is its child of that name. -/
theorem OutputDir.resolve_name (out : OutputDir) {name : String} (h : Path.IsName name) :
    out.resolve name = .ok (Path.join out.root name) ∧
      Path.moves (Path.join out.root name) = Path.moves out.root ++ [name] ∧
      ∀ fs : FileSystem, fs.place (Path.join out.root name) = fs.place out.root ++ [name] := by
  have hsegments : Path.allSegments name = [name] := by
    rw [Path.allSegments, Path.segments_of_slash_not_mem h.slash_not_mem, List.map_singleton,
      String.ofList_toList]
  have hinner : Path.isInner name = true := by
    rw [Path.isInner_iff, hsegments, List.mem_singleton]
    exact ⟨h.isAbsolute_eq, Ne.symm h.not_up⟩
  have hresolve : out.resolve name = .ok (Path.join out.root name) :=
    resolve_eq_ok_iff.mpr ⟨hinner, rfl⟩
  refine ⟨hresolve, ?_, fun fs => ?_⟩
  · rw [Path.moves_join _ h.isAbsolute_eq, h.moves_eq]
  · rw [place_of_resolve fs hresolve, h.moves_eq]

namespace Builtin.CopyAssets

variable {σ ω : Type} {scene : Scene σ ω (PublishData ω)} {options : Options}

/-- Whether a scene of the publish hook comes to one call, which copies a directory: the plugin
reports the copy exactly if the operation succeeds, and fails with it otherwise. -/
structure CopiesOnce (scene : Scene σ ω (PublishData ω)) (source target : String) : Prop where
  copied : ∀ left, scene.event.data.copyDir.part source target scene.host = (.ok (), left) →
    Publishes (fun _ => plugin) scene [.copyDir source target] (.ok ())
      { scene with host := left.note (copiedRecord source target) }
  failed : ∀ f left, scene.event.data.copyDir.part source target scene.host = (.error f, left) →
    Publishes (fun _ => plugin) scene [.copyDir source target] (.error f)
      { scene with host := left }

/-- Under an option that spells paths, the plugin copies what that asks for. -/
theorem handle_of_spells (hspells : SpellsPaths scene.event.option options) :
    (plugin : Plugin σ ω).handle .publish scene = copy options scene :=
  withOption_of_ok (readOption_eq_ok_iff.mpr hspells)

/-- Without paths for a copy nothing is done. -/
theorem copy_of_error {f : Fault} (hpaths : paths options = .error f) :
    copy options scene = (.error f, scene) := by
  rw [copy, hpaths]

/-- With paths for a copy, all is left to the operation, but for the report. -/
theorem copy_of_ok {source target : String} (hpaths : paths options = .ok (source, target)) :
    copy options scene =
      match scene.event.data.copyDir.part source target scene.host with
      | (.error f, left) => (.error f, { scene with host := left })
      | (.ok (), left) => (.ok (), { scene with host := left.note (copiedRecord source target) }) := by
  rcases hcall : scene.event.data.copyDir.part source target scene.host with ⟨f | ⟨⟩, left⟩ <;>
    simp only [copy, hpaths, hcall]

/-- Without a target in the option, the target is the last name of the source. -/
theorem paths_of_lastName {source name : String} (h : Path.lastName? source = some name) :
    paths ⟨some source, none⟩ = .ok (source, name) := by
  rw [← Path.fileName?_eq_lastName?] at h
  simp only [paths, Option.orElse_none, h]

/-- A source without a last name leaves the target unknown. -/
theorem paths_of_no_lastName {source : String} (h : Path.lastName? source = none) :
    paths ⟨some source, none⟩ = .error (targetUnknown source) := by
  rw [← Path.fileName?_eq_lastName?] at h
  simp only [paths, Option.orElse_none, h]

/-- An option without paths for a copy is a matter of configuration. -/
theorem kind_of_paths_error {f : Fault} (hpaths : paths options = .error f) :
    f.kind = .configuration := by
  unfold paths at hpaths
  split at hpaths
  · rw [← Except.error.inj hpaths]
    rfl
  · split at hpaths
    · rw [← Except.error.inj hpaths]
      rfl
    · cases hpaths

/-- An option without paths for a copy is refused, and nothing is called. -/
theorem refuses_of_paths {f : Fault} (hspells : SpellsPaths scene.event.option options)
    (hpaths : paths options = .error f) :
    Publishes (fun _ => plugin) scene [] (.error f) scene := by
  constructor
  · rw [handle_of_spells hspells, copy_of_error hpaths]
  · intro notes
    have hnoted : SpellsPaths (scene.withNotes notes).event.option options := hspells
    rw [handle_of_spells hnoted, copy_of_error hpaths, List.append_nil]

/-- An option with paths for a copy makes one call. -/
theorem copiesOnce_of_paths {source target : String}
    (hspells : SpellsPaths scene.event.option options)
    (hpaths : paths options = .ok (source, target)) : CopiesOnce scene source target := by
  -- The operation that notes its calls does what the other one does.
  have hnoting (notes : List PublishCall) :
      (scene.withNotes notes).event.data.copyDir.part source target (scene.withNotes notes).host =
        ((scene.event.data.copyDir.part source target scene.host).1,
          (scene.event.data.copyDir.part source target scene.host).2.withNotes
            (notes ++ [.copyDir source target])) := rfl
  have hnoted (notes : List PublishCall) :
      SpellsPaths (scene.withNotes notes).event.option options := hspells
  constructor
  · intro left hleft
    refine ⟨?_, fun notes => ?_⟩
    · rw [handle_of_spells hspells, copy_of_ok hpaths, hleft]
    · rw [handle_of_spells (hnoted notes), copy_of_ok hpaths, hnoting, hleft]
      rfl
  · intro f left hleft
    refine ⟨?_, fun notes => ?_⟩
    · rw [handle_of_spells hspells, copy_of_ok hpaths, hleft]
    · rw [handle_of_spells (hnoted notes), copy_of_ok hpaths, hnoting, hleft]
      rfl

/-- An option that spells no paths is refused, and nothing is called. -/
theorem refuses_of_not_spells (h : ¬ ∃ options, SpellsPaths scene.event.option options) :
    ∃ m, Publishes (fun _ => plugin) scene [] (.error (optionFault identifier m)) scene := by
  rcases readOption_eq_ok_or identifier Options.ofJson scene.event.option with ⟨a, ha⟩ | ⟨m, hm⟩
  · exact absurd ⟨a, readOption_eq_ok_iff.mp ha⟩ h
  · refine ⟨m, withOption_of_error hm, fun notes => ?_⟩
    have hnoted : readOption identifier Options.ofJson (scene.withNotes notes).event.option = _ := hm
    rw [List.append_nil]
    exact withOption_of_error hnoted

/-- A copy comes to one call, which makes it no refusal. -/
theorem CopiesOnce.not_refuses {source target : String} (h : CopiesOnce scene source target)
    {result : Except Fault Unit} {after : Scene σ ω (PublishData ω)} :
    ¬ Publishes (fun _ => plugin) scene [] result after := by
  intro hnone
  rcases hleft : scene.event.data.copyDir.part source target scene.host with ⟨f | ⟨⟩, left⟩
  · exact absurd ((h.failed f left hleft).unique hnone).1 (List.cons_ne_nil _ _)
  · exact absurd ((h.copied left hleft).unique hnone).1 (List.cons_ne_nil _ _)

/-- Take an option with a source and no target.  It is refused as a configuration, without any
call, exactly if the source has no last name, which is to say that it says nothing or ends
upwards.  Otherwise the source is copied, in one call, to that name; every output directory
accepts the name, as that of its child.  With a target in the option, the source is copied to it
as it is.  Whatever the option, there is no other call than one such copy, or there is none and
nothing changes. -/
theorem targets_of_sources (scene : Scene σ ω (PublishData ω)) :
    (∀ source, SpellsPaths scene.event.option ⟨some source, none⟩ →
      ((∃ f, f.kind = .configuration ∧ Publishes (fun _ => plugin) scene [] (.error f) scene) ↔
        Path.moves source = [] ∨ (Path.moves source).getLast? = some "..") ∧
      ∀ name, (Path.moves source).getLast? = some name → name ≠ ".." →
        CopiesOnce scene source name ∧ ∀ out : OutputDir,
          out.resolve name = .ok (Path.join out.root name) ∧
            Path.moves (Path.join out.root name) = Path.moves out.root ++ [name] ∧
            ∀ fs : FileSystem, fs.place (Path.join out.root name) = fs.place out.root ++ [name]) ∧
    (∀ source target, SpellsPaths scene.event.option ⟨some source, some target⟩ →
      CopiesOnce scene source target) ∧
    ((∃ f, f.kind = .configuration ∧ Publishes (fun _ => plugin) scene [] (.error f) scene) ∨
      ∃ source target, CopiesOnce scene source target) := by
  refine ⟨fun source hspells => ?_, fun source target hspells => ?_, ?_⟩
  · have hname (name : String) (hsome : Path.lastName? source = some name) :
        CopiesOnce scene source name :=
      copiesOnce_of_paths hspells (paths_of_lastName hsome)
    refine ⟨⟨?_, fun hnone => ?_⟩, fun name hlast hup => ?_⟩
    · rintro ⟨f, -, hrefused⟩
      rw [← Path.lastName?_eq_none_iff, Option.eq_none_iff_forall_ne_some]
      exact fun name hsome => (hname name hsome).not_refuses hrefused
    · rw [← Path.lastName?_eq_none_iff] at hnone
      exact ⟨targetUnknown source, rfl, refuses_of_paths hspells (paths_of_no_lastName hnone)⟩
    · have hsome := Path.lastName?_eq_some_iff.mpr ⟨hlast, hup⟩
      exact ⟨hname name hsome, fun out => out.resolve_name (Path.isName_of_lastName? hsome)⟩
  · exact copiesOnce_of_paths hspells rfl
  · by_cases hspells : ∃ options, SpellsPaths scene.event.option options
    · obtain ⟨options, hspells⟩ := hspells
      cases hpaths : paths options with
      | error f => exact .inl ⟨f, kind_of_paths_error hpaths, refuses_of_paths hspells hpaths⟩
      | ok both => exact .inr ⟨both.1, both.2, copiesOnce_of_paths hspells hpaths⟩
    · obtain ⟨m, hrefused⟩ := refuses_of_not_spells hspells
      exact .inl ⟨_, rfl, hrefused⟩

end Builtin.CopyAssets

end PluginChain
