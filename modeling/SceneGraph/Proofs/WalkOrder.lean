import SceneGraph.Proofs.ValidDocuments

/-!
# The order of the walk: each entity of a valid document once, parents first

In a valid document the breadth-first walk lists every entity once and nothing else, and every
parent comes before its children.
-/
namespace SceneGraph
open Relation (ReflTransGen)

namespace Document
variable {d : Document} {n i : Nat} {seen ids : List String} {id p c : String}

theorem generations_nodup (d : Document) (n : Nat) (seen ids : List String) :
    (d.generations n seen ids).Nodup ∧ ∀ id ∈ d.generations n seen ids, id ∉ seen := by
  induction n generalizing seen ids with
  | zero => exact ⟨List.nodup_nil, by simp [generations]⟩
  | succ n ih =>
    rw [generations_succ]
    obtain ⟨hnodup, hnew⟩ := ih (freshAmong seen ids ++ seen)
      ((freshAmong seen ids).flatMap d.childrenOf)
    refine ⟨List.nodup_append.mpr ⟨freshAmong_nodup seen ids, hnodup, ?_⟩, fun id hid => ?_⟩
    · rintro id hid _ hlater rfl
      exact hnew id hlater (List.mem_append_left _ hid)
    · rcases List.mem_append.mp hid with hid | hid
      · exact (mem_freshAmong.mp hid).2
      · exact fun hs => hnew id hid (List.mem_append_right _ hs)

theorem breadthFirst_nodup (d : Document) : d.breadthFirst.Nodup :=
  (generations_nodup d _ _ _).1

/-- What the walk lists is where it began or a child of something listed before. -/
theorem listed_before (h : (d.generations n seen ids)[i]? = some c) :
    c ∈ ids ∨ ∃ j p, j < i ∧ (d.generations n seen ids)[j]? = some p ∧ c ∈ d.childrenOf p := by
  induction n generalizing seen ids i with
  | zero => simp [generations] at h
  | succ n ih =>
    rw [generations_succ] at h ⊢
    generalize hf : freshAmong seen ids = fresh at h ⊢
    by_cases hi : i < fresh.length
    · rw [List.getElem?_append_left hi] at h
      exact .inl (mem_freshAmong.mp (hf ▸ List.mem_of_getElem? h)).1
    · rw [List.getElem?_append_right (Nat.not_lt.mp hi)] at h
      right
      rcases ih h with hc | ⟨j, p, hj, hp, hc⟩
      · obtain ⟨p, hp, hc⟩ := List.mem_flatMap.mp hc
        obtain ⟨j, hj, rfl⟩ := List.mem_iff_getElem.mp hp
        exact ⟨j, _, by omega,
          by rw [List.getElem?_append_left hj, List.getElem?_eq_getElem hj], hc⟩
      · refine ⟨fresh.length + j, p, by omega, ?_, hc⟩
        rwa [List.getElem?_append_right (by omega), Nat.add_sub_cancel_left]

section Valid
variable (hd : d.isValid = true)
include hd

theorem contains_root : d.contains d.rootEntityId = true := by
  obtain ⟨n, hn, -⟩ := (isValid_iff.mp hd).1.tree.root
  obtain ⟨e, he, -⟩ := Option.map_eq_some_iff.mp hn
  exact contains_iff.mpr ⟨e, he⟩

/-- The walk lists the entities and nothing else. -/
theorem mem_breadthFirst : id ∈ d.breadthFirst ↔ d.contains id = true := by
  obtain ⟨hforest, hroot⟩ := isValid_iff.mp hd
  constructor
  · intro h
    obtain ⟨start, hs, hr⟩ := lists_of_mem_generations h
    obtain rfl := List.mem_singleton.mp hs
    rcases ReflTransGen.cases_tail hr with rfl | ⟨p, -, hl⟩
    · exact contains_root hd
    · obtain ⟨n, hn, -⟩ := hforest.tree.edges.mpr hl
      obtain ⟨e, he, -⟩ := Option.map_eq_some_iff.mp hn
      exact contains_iff.mpr ⟨e, he⟩
  · exact fun hid => (mem_breadthFirst_iff hid).mpr (reachable_of_forest hforest.tree hroot id hid)

theorem length_breadthFirst : d.breadthFirst.length = d.entities.size := by
  rw [← Ascending.length_keys]
  refine ((List.perm_ext_iff_of_nodup d.breadthFirst_nodup d.entities.keys_nodup).mpr
    fun id => ?_).length_eq
  rw [mem_breadthFirst hd, contains_iff, Ascending.mem_keys_iff]
  rfl

theorem breadthFirst_zero : d.breadthFirst[0]? = some d.rootEntityId := by
  obtain ⟨e, he⟩ := contains_iff.mp (contains_root hd)
  obtain ⟨n, hn⟩ : ∃ n, d.entities.size = n + 1 := by
    have hsize := @Ascending.length_le_size _ _ d.entities [d.rootEntityId]
      (List.nodup_singleton _) (by simpa using ⟨e, he⟩)
    exact Nat.exists_eq_add_one.mpr hsize
  rw [breadthFirst, hn, generations_succ]
  rfl

/-- Every parent is listed before its children. -/
theorem parent_listed_before (h : d.breadthFirst[i]? = some c) (hp : d.parent? c = some p) :
    ∃ j < i, d.breadthFirst[j]? = some p := by
  have hforest := (isValid_iff.mp hd).1
  rcases listed_before h with hc | ⟨j, q, hj, hq, hc⟩
  · obtain ⟨n, hn, hnone⟩ := hforest.tree.root
    obtain rfl := List.mem_singleton.mp hc
    exact absurd (parent_iff.mpr hp) (Outline.not_parent hn hnone p)
  · have hparent := hforest.tree.edges.mpr (lists_iff.mpr hc)
    obtain rfl := Outline.parent_unique hparent (parent_iff.mpr hp)
    exact ⟨j, hj, hq⟩

end Valid
end Document
end SceneGraph
