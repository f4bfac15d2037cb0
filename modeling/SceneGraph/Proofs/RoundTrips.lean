import SceneGraph.DocumentBuilding
import SceneGraph.Proofs.CompiledForms
import SceneGraph.Proofs.Restorations

/-!
# Round trips: compiling a valid document keeps its portable part

A valid document compiles, its scene is turned back, and the outcome is the portable part of the
document (`decompile_compile`). Assets are collected again from their list, entities from the nodes,
and settings are read back from the bag that they were put into.
-/
namespace SceneGraph

/-- Settings that went through one bag are read back from it. -/
theorem GameSettings.reader_toBag {g : GameSettings} (h : g.Separate) :
    reader.fromJson (.obj g.toBag) = .ok g := reader_layout h

theorem SceneNode.toEntity_ofEntity (e : Entity) :
    (ofEntity e).toEntity = Document.portableEntity e := by
  simp only [toEntity, ofEntity, Document.portableEntity, List.map_map]
  rfl

namespace Document
variable {d : Document}

/-- Assets keyed by their ids are collected again from their list. -/
theorem Forest.collect_assets (h : d.Forest) :
    Dict.ofList (d.assets.values.map fun a => (a.id, a)) = d.assets := by
  have hentries : (d.assets.values.map fun a => (a.id, a)) = d.assets.toList := by
    rw [Ascending.values, List.map_map]
    refine (List.map_congr_left fun entry he => ?_).trans (List.map_id _)
    exact Prod.ext (h.assetIds (Ascending.mem_toList_iff.mp he)) rfl
  refine Ascending.ext_find? fun key => Option.ext fun asset => ?_
  rw [hentries, Dict.find?_ofList_iff d.assets.keys_nodup, Ascending.mem_toList_iff]

theorem entity?_portable (d : Document) (id : String) :
    d.portable.entity? id = (d.entity? id).map portableEntity :=
  Ascending.find?_mapValues portableEntity d.entities id

section Valid
variable (hd : d.isValid = true)
include hd

/-- The document that the scene makes is the portable part of the one that made the scene. -/
theorem restored_scene : d.scene.restored d.gameSettings = d.portable := by
  have hforest := (isValid_iff.mp hd).1
  have hentities : (d.scene.restored d.gameSettings).entities = d.portable.entities := by
    refine Ascending.ext_find? fun id => Option.ext fun e => ?_
    refine (CompiledScene.entity?_restored (scene_ordered hd)).trans ?_
    refine Iff.trans ?_ (Eq.congr_left (entity?_portable d id)).symm
    rw [Option.map_eq_some_iff]
    constructor
    · rintro ⟨n, hn, rfl, rfl⟩
      obtain ⟨id, e, he, rfl⟩ := (mem_sceneNodes hd).mp hn
      obtain rfl := hforest.ids he
      exact ⟨e, he, (SceneNode.toEntity_ofEntity e).symm⟩
    · rintro ⟨e, he, rfl⟩
      exact ⟨.ofEntity e, (mem_sceneNodes hd).mpr ⟨id, e, he, rfl⟩, hforest.ids he,
        SceneNode.toEntity_ofEntity e⟩
  have hassets : (d.scene.restored d.gameSettings).assets = d.portable.assets :=
    hforest.collect_assets
  calc d.scene.restored d.gameSettings
      = { d.portable with
          entities := (d.scene.restored d.gameSettings).entities
          assets := (d.scene.restored d.gameSettings).assets } := rfl
    _ = d.portable := by rw [hentities, hassets]

theorem portable_isValid : d.portable.isValid = true :=
  restored_scene hd ▸ CompiledScene.restored_isValid (scene_ordered hd) d.gameSettings

theorem decompile_scene (hg : ∀ g ∈ d.gameSettings, g.Separate) :
    d.scene.decompile = .ok d.portable := by
  have hsettings : d.scene.readSettings = .ok d.gameSettings := by
    rw [CompiledScene.readSettings, scene]
    cases hs : d.gameSettings with
    | none => rfl
    | some g => simp only [Option.map_some, GameSettings.reader_toBag (hg g hs)]; rfl
  rw [CompiledScene.decompile_eq (scene_ordered hd), hsettings]
  exact congrArg Except.ok (restored_scene hd)

/-- A valid document compiles, its scene is turned back, and the result is the portable part of the
document. -/
theorem decompile_compile (hg : ∀ g ∈ d.gameSettings, g.Separate) :
    ∃ c, d.compile .default = .ok c ∧ c.scene.decompile = .ok d.portable :=
  ⟨_, compile_default hd, decompile_scene hd hg⟩

end Valid

/-- A scene with a lamp, an asset, a wire, settings, and some of what is not portable. -/
def furnished : Document :=
  let lamp := ((Entity.ofId "lamp" "Lamp").withParent "root").withTag "light"
  let light := (Component.ofType "Light").withProperty "intensity" (.int 2)
  let d := ((ofIds "scene" "root" "Scene").addEntity
    (lamp.withComponent { light with editorMeta := some .nil })).addAsset
      ⟨"wood", .texture, "Wood", some "wood.png", none, .nil⟩
  { (d.addWire ⟨"wire", "lamp", "click", "root", "show", .nil⟩).withMetadata "author" .null with
    gameSettings := some ⟨some "orbit", none, Dict.insert .nil "difficulty" (.int 3)⟩ }

theorem furnished_decompile_compile :
    furnished.isValid = true ∧ (∀ g ∈ furnished.gameSettings, g.Separate) ∧
      furnished.portable ≠ furnished ∧
      ∃ c, furnished.compile .default = .ok c ∧ c.scene.decompile = .ok furnished.portable := by
  have hvalid : furnished.isValid = true := by decide
  have hsettings : ∀ g ∈ furnished.gameSettings, g.Separate := by
    rintro g ⟨⟩
    exact ⟨by decide, by decide⟩
  exact ⟨hvalid, hsettings, by decide, decompile_compile hvalid hsettings⟩

end Document
end SceneGraph
