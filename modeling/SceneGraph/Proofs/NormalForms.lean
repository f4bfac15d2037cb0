import SceneGraph.Proofs.PortableParts

/-!
# Normal forms: what a scene becomes when it is turned back and compiled again

A scene need not come from compiling: its nodes may stand in any order with parents first, and its
assets in any order.
-/
namespace SceneGraph

namespace GameSettings
variable {settings : Bag} {g : GameSettings}

/-- The members, without the one with the key if it is null. -/
def eraseNull (members : Bag) (known : String) : Bag :=
  if members.find? known = some .null then members.erase known else members

theorem find?_eraseNull (members : Bag) (known key : String) :
    (eraseNull members known).find? key =
      if key = known ∧ members.find? known = some .null then none else members.find? key := by
  unfold eraseNull
  by_cases hn : members.find? known = some .null
  · simp [hn, Ascending.find?_erase]
  · simp [hn]

/-- The members without the known settings that are null. -/
def withoutNulls (settings : Bag) : Bag := eraseNull (eraseNull settings cameraKey) spawnKey

theorem find?_withoutNulls (settings : Bag) (key : String) :
    (withoutNulls settings).find? key =
      if (key = cameraKey ∨ key = spawnKey) ∧ settings.find? key = some .null then none
      else settings.find? key := by
  have hks : spawnKey ≠ cameraKey := by decide
  simp only [withoutNulls, find?_eraseNull]
  by_cases hc : key = cameraKey
  · subst hc
    simp [hks.symm]
  · by_cases hs : key = spawnKey
    · subst hs
      simp [hks]
    · simp [hc, hs]

/-- A known setting that is there is written as it was, unless it is null. -/
private theorem setting?_form {x : Option Json} {s : Option String} (h : setting? x = .ok s) :
    s.map Json.str = if x = some .null then none else x := by
  cases x with
  | none =>
    obtain rfl : none = s := Except.ok.inj h
    rfl
  | some j =>
    obtain ⟨rfl, rfl⟩ | ⟨hj, text, ht, rfl⟩ := Reader.nullable_ok_iff.mp h
    · rfl
    · cases j with
      | str read =>
        obtain rfl : read = text := Except.ok.inj ht
        rfl
      | _ => simp [Reader.fromJson, Source.ofJson, Reader.string] at ht

/-- Reading settings and writing them again loses the known ones that are null and nothing else. -/
theorem toBag_of_reader (h : reader.fromJson (.obj settings) = .ok g) :
    g.toBag = withoutNulls settings := by
  obtain ⟨hcamera, hspawn, hextra⟩ := reader_obj_iff.mp h
  obtain ⟨members, hm, hfind⟩ := find?_layout g
  have hbag : g.toBag = members := by rw [toBag, hm]; rfl
  refine Ascending.ext_find? fun key => ?_
  rw [hbag, hfind, hextra, find?_rest, find?_withoutNulls]
  by_cases hs : key = spawnKey
  · subst hs
    simpa using setting?_form hspawn
  · by_cases hc : key = cameraKey
    · subst hc
      simpa [hs] using setting?_form hcamera
    · simp [hs, hc]

end GameSettings

theorem SceneNode.ofEntity_toEntity (n : SceneNode) : ofEntity n.toEntity = n := by
  have hcomponents : (n.components.map (·.toComponent)).map NodeComponent.ofComponent =
      n.components := by
    rw [List.map_map]
    exact List.map_id _
  calc ofEntity n.toEntity
      = { n with components := (n.components.map (·.toComponent)).map .ofComponent } := rfl
    _ = n := by rw [hcomponents]

/-- An entity that comes from a node has nothing that a scene does not carry. -/
theorem SceneNode.portableEntity_toEntity (n : SceneNode) :
    Document.portableEntity n.toEntity = n.toEntity := by
  rw [← toEntity_ofEntity, ofEntity_toEntity]

namespace CompiledScene
variable {s : CompiledScene} {settings : Option GameSettings} {d : Document} {n : SceneNode}

theorem eq_restored (h : s.decompile = .ok d) :
    s.Ordered ∧ ∃ settings, s.readSettings = .ok settings ∧ d = s.restored settings := by
  have hordered : s.Ordered := issues_eq_nil_iff.mp (decompile_ok_iff.mp ⟨d, h⟩).1
  rw [decompile_eq hordered, map_ok_iff] at h
  obtain ⟨settings, hs, hd⟩ := h
  exact ⟨hordered, settings, hs, hd.symm⟩

theorem separate_of_readSettings (h : s.readSettings = .ok settings) :
    ∀ g ∈ settings, g.Separate := by
  intro g hg
  obtain rfl := Option.mem_def.mp hg
  unfold readSettings at h
  cases hs : s.gameSettings with
  | none => simp [hs] at h
  | some bag =>
    simp only [hs, mapError_ok_iff, map_ok_iff, Option.some.injEq, exists_eq_right] at h
    exact GameSettings.separate_of_reader h

theorem toBag_readSettings (h : s.readSettings = .ok settings) :
    settings.map (·.toBag) = s.gameSettings.map GameSettings.withoutNulls := by
  unfold readSettings at h
  cases hs : s.gameSettings with
  | none =>
    simp only [hs, Except.ok.injEq] at h
    rw [← h]
    rfl
  | some bag =>
    simp only [hs, mapError_ok_iff, map_ok_iff] at h
    obtain ⟨g, hg, rfl⟩ := h
    exact congrArg some (GameSettings.toBag_of_reader hg)

/-- The scene says what the other does: the nodes of the other, as they are and each once, its
assets in ascending order of their ids, its wires and its environment, the settings without nulls,
and the current schema version. -/
structure NormalFormOf (n s : CompiledScene) : Prop where
  id : n.id = s.id
  name : n.name = s.name
  root : n.rootNodeId = s.rootNodeId
  version : n.sourceSchemaVersion = currentSchemaVersion
  nodes : n.nodes.Perm s.nodes
  assets : n.assets.Perm s.assets
  sorted : n.assets.Pairwise (·.id < ·.id)
  wires : n.wires = s.wires
  environment : n.environment = s.environment
  gameSettings : n.gameSettings = s.gameSettings.map GameSettings.withoutNulls

section Ordered
variable (h : s.Ordered)
include h

theorem portable_restored (settings : Option GameSettings) :
    (s.restored settings).portable = s.restored settings := by
  have hentities : (s.restored settings).portable.entities = (s.restored settings).entities := by
    refine Ascending.ext_find? fun id => Option.ext fun e => ?_
    change (s.restored settings).portable.entity? id = some e ↔ _
    rw [Document.entity?_portable]
    simp only [Option.map_eq_some_iff, entity?_restored h]
    refine Iff.trans ?_ (entity?_restored h).symm
    constructor
    · rintro ⟨_, ⟨n, hn, rfl, rfl⟩, rfl⟩
      exact ⟨n, hn, rfl, n.portableEntity_toEntity.symm⟩
    · rintro ⟨n, hn, rfl, rfl⟩
      exact ⟨_, ⟨n, hn, rfl, rfl⟩, n.portableEntity_toEntity⟩
  calc (s.restored settings).portable
      = { s.restored settings with entities := (s.restored settings).portable.entities } := rfl
    _ = s.restored settings := by rw [hentities]

/-- Compiling puts the nodes in the order of the walk, and none is lost or added. -/
theorem nodes_perm (settings : Option GameSettings) :
    (s.restored settings).scene.nodes.Perm s.nodes := by
  have hd := restored_isValid h settings
  have hids : ((s.restored settings).scene.nodes.map (·.id)).Nodup :=
    (Document.scene_ordered hd).ids
  refine (List.perm_ext_iff_of_nodup (.of_map _ hids) (.of_map _ h.ids)).mpr fun n => ?_
  refine (Document.mem_sceneNodes hd).trans ?_
  constructor
  · rintro ⟨id, e, he, rfl⟩
    obtain ⟨m, hm, -, rfl⟩ := (entity?_restored h).mp he
    rwa [m.ofEntity_toEntity]
  · intro hn
    exact ⟨n.id, n.toEntity, (entity?_restored h).mpr ⟨n, hn, rfl, rfl⟩, n.ofEntity_toEntity⟩

theorem assets_perm (settings : Option GameSettings) :
    (s.restored settings).scene.assets.Perm s.assets := by
  have hkeys : ((s.assets.map fun a => (a.id, a)).map (·.1)).Nodup := by
    rw [List.map_map]
    exact h.assetIds
  have hids : ((s.restored settings).scene.assets.map (·.id)).Nodup :=
    (Document.scene_ordered (restored_isValid h settings)).assetIds
  refine (List.perm_ext_iff_of_nodup (.of_map _ hids) (.of_map _ h.assetIds)).mpr fun a => ?_
  refine Ascending.mem_values_iff.trans ?_
  simp only [restored, Dict.find?_ofList_iff hkeys, List.mem_map, Prod.mk.injEq]
  constructor
  · rintro ⟨_, b, hb, -, rfl⟩
    exact hb
  · intro ha
    exact ⟨a.id, a, ha, rfl, rfl⟩

theorem scene_normalFormOf (hs : s.readSettings = .ok settings) :
    (s.restored settings).scene.NormalFormOf s := by
  have hforest := (Document.isValid_iff.mp (restored_isValid h settings)).1
  constructor
  case id => rfl
  case name => rfl
  case root => rfl
  case version => rfl
  case wires => rfl
  case environment => rfl
  case nodes => exact nodes_perm h settings
  case assets => exact assets_perm h settings
  case sorted =>
    have hascending := (s.restored settings).assets.keys_ascending
    rw [← hforest.assets_ids] at hascending
    exact List.pairwise_map.mp hascending
  case gameSettings => exact toBag_readSettings hs

end Ordered

/-- A scene that is turned back into a document compiles again, to its normal form. The normal form
is turned back into the same document, and so compiling that once more changes nothing. -/
theorem recompiled_normal (h : s.decompile = .ok d) :
    ∃ c, d.compile .default = .ok c ∧ c.scene.NormalFormOf s ∧ c.scene.decompile = .ok d ∧
      (c.scene.decompile >>= fun d' => d'.compile .default) = .ok c := by
  obtain ⟨hordered, settings, hs, rfl⟩ := eq_restored h
  have hvalid := restored_isValid hordered settings
  have hcompile := Document.compile_default hvalid
  have hback : (s.restored settings).scene.decompile = .ok (s.restored settings) := by
    rw [Document.decompile_scene hvalid (separate_of_readSettings hs),
      portable_restored hordered settings]
  exact ⟨_, hcompile, scene_normalFormOf hordered hs, hback, by rw [hback]; exact hcompile⟩

/-- A scene whose nodes stand branch by branch, with assets out of order and a setting that is
null. -/
def branchwise : CompiledScene where
  id := "scene"
  name := "Scene"
  sourceSchemaVersion := 0
  nodes := [.ofEntity { Entity.ofId "root" "Root" with children := ["house", "tree"] },
    .ofEntity { (Entity.ofId "house" "House").withParent "root" with children := ["door"] },
    .ofEntity ((Entity.ofId "door" "Door").withParent "house"),
    .ofEntity ((Entity.ofId "tree" "Tree").withParent "root")]
  nodeIndex := Dict.ofList [("root", 0), ("house", 1), ("door", 2), ("tree", 3)]
  rootNodeId := "root"
  assets := [⟨"wood", .texture, "Wood", none, none, .nil⟩,
    ⟨"brass", .texture, "Brass", none, none, .nil⟩]
  wires := [⟨"bell", "door", "click", "house", "ring", .nil⟩]
  environment := .default
  gameSettings := some (Dict.ofList [("cameraMode", .null), ("difficulty", .int 3)])

theorem branchwise_recompiled : ∃ d c, branchwise.decompile = .ok d ∧
    d.compile .default = .ok c ∧ c.scene.NormalFormOf branchwise ∧ c.scene ≠ branchwise := by
  have hissues : branchwise.issues = [] := by decide
  have hsettings : ∀ bag, branchwise.gameSettings = some bag → GameSettings.Legible bag := by
    rintro bag ⟨⟩ key hkey j hj
    rcases List.mem_pair.mp hkey with rfl | rfl
    · exact .inl (Option.some.inj hj).symm
    · contradiction
  obtain ⟨d, hd⟩ := decompile_ok_iff.mpr ⟨hissues, hsettings⟩
  obtain ⟨c, hc, hnormal, -⟩ := recompiled_normal hd
  refine ⟨d, c, hd, hc, hnormal, fun he => ?_⟩
  have hversion : branchwise.sourceSchemaVersion = currentSchemaVersion := he ▸ hnormal.version
  exact absurd hversion (by decide)

end CompiledScene
end SceneGraph
