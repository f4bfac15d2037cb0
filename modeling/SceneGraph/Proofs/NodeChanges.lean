import SceneGraph.Proofs.CompiledForms
import SceneGraph.Proofs.Moves

/-!
# Node changes: an entity that is amended amends its node and nothing else of the scene

An entity that is amended stays where it is in the tree. So the walk is the same, the document stays
valid, and the compiled scene changes in the node of that entity only (`scene_amended`).
-/
namespace SceneGraph

/-- Replacing the value at a key keeps the number of entries. -/
theorem Dict.size_insert_of_find? {α : Type} {entries : Dict α} {key : String} {v : α}
    (h : entries.find? key = some v) (w : α) : (entries.insert key w).size = entries.size := by
  simp only [← Ascending.length_keys]
  refine ((List.perm_ext_iff_of_nodup (Ascending.keys_nodup _) entries.keys_nodup).mpr
    fun k => ?_).length_eq
  simp only [Ascending.mem_keys_iff, Dict.find?_insert]
  by_cases hk : k = key
  · simp [hk, h]
  · simp [hk]

namespace Document
variable {d d' : Document} {id : String} {e e' : Entity}

theorem generations_congr (h : d'.childrenOf = d.childrenOf) (n : Nat) (seen ids : List String) :
    d'.generations n seen ids = d.generations n seen ids := by
  induction n generalizing seen ids with
  | zero => rfl
  | succ n ih => simp only [generations_succ, h, ih]

section Amended
variable (he : d.entity? id = some e) (ha : e'.Amends e)
include he ha

theorem breadthFirst_amended : (d.putEntity id e').breadthFirst = d.breadthFirst := by
  have hchildren : (d.putEntity id e').childrenOf = d.childrenOf := by
    funext k
    by_cases hk : k = id
    · simp [childrenOf, hk, he, ha.children]
    · simp [childrenOf, hk]
  have hsize : (d.putEntity id e').entities.size = d.entities.size :=
    Dict.size_insert_of_find? he e'
  rw [breadthFirst, breadthFirst, hsize, generations_congr hchildren]
  rfl

theorem isValid_amended (hd : d.isValid = true) : (d.putEntity id e').isValid = true := by
  obtain ⟨hforest, hroot⟩ := isValid_iff.mp hd
  have hmove : Move (fun _ => True) d (d.putEntity id e') := .amend he ha
  refine isValid_iff.mpr ⟨hmove.forest hforest, ?_⟩
  intro k f hf hp
  rw [entity?_putEntity] at hf
  split at hf
  · rename_i hk
    obtain rfl := Option.some.inj hf
    exact hk ▸ hroot id e he (ha.parentId ▸ hp)
  · exact hroot k f hf hp

/-- The walk leads to the same entities, and only the amended one has another node. -/
theorem sceneNodes_amended (hd : d.isValid = true) {i : Nat} (hi : d.breadthFirst[i]? = some id) :
    (d.putEntity id e').sceneNodes = d.sceneNodes.set i (.ofEntity e') := by
  have hnode := (getElem?_sceneNodes hd).mpr ⟨id, e, hi, he, rfl⟩
  refine List.ext_getElem? fun j => Option.ext fun n => ?_
  rw [getElem?_sceneNodes (isValid_amended he ha hd), breadthFirst_amended he ha]
  by_cases hj : j = i
  · subst hj
    obtain ⟨hlt, -⟩ := List.getElem?_eq_some_iff.mp hnode
    simp [hi, hlt]
  · rw [List.getElem?_set_ne (Ne.symm hj), getElem?_sceneNodes hd]
    refine exists_congr fun k => exists_congr fun f => and_congr_right fun hk => ?_
    have hne : k ≠ id := by
      rintro rfl
      obtain ⟨hlt, hk⟩ := List.getElem?_eq_some_iff.mp hk
      obtain ⟨hlt', hi⟩ := List.getElem?_eq_some_iff.mp hi
      exact hj ((List.Nodup.getElem_inj_iff d.breadthFirst_nodup).mp (hk.trans hi.symm))
    rw [entity?_putEntity, if_neg hne]

/-- The node of the entity stands where it stood, all other nodes are the same, and so is the rest
of the scene. -/
theorem scene_amended (hd : d.isValid = true) : ∃ i, d.scene.indexOf? id = some i ∧
    d.scene.nodes[i]? = some (.ofEntity e) ∧
    (d.putEntity id e').scene =
      { d.scene with nodes := d.scene.nodes.set i (.ofEntity e') } := by
  obtain ⟨i, hi⟩ := List.mem_iff_getElem?.mp
    ((mem_breadthFirst hd).mpr (contains_iff.mpr ⟨e, he⟩))
  have hnode := (getElem?_sceneNodes hd).mpr ⟨id, e, hi, he, rfl⟩
  have hnodes := sceneNodes_amended he ha hd hi
  have hindex : (d.putEntity id e').scene.nodeIndex = d.scene.nodeIndex := by
    rw [nodeIndex_eq hd, nodeIndex_eq (isValid_amended he ha hd), breadthFirst_amended he ha]
  refine ⟨i, (indexOf?_scene hd).mpr hi, hnode, ?_⟩
  calc (d.putEntity id e').scene
      = { (d.putEntity id e').scene with
          nodes := (d.putEntity id e').sceneNodes
          nodeIndex := (d.putEntity id e').scene.nodeIndex } := rfl
    _ = { d.scene with nodes := d.scene.nodes.set i (.ofEntity e') } := by
        rw [hnodes, hindex]
        rfl

end Amended
end Document
end SceneGraph
