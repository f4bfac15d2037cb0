import SceneGraph.SceneValidation
import SceneGraph.Proofs.ValidDocuments

/-!
# Valid scenes are the indexed lists of nodes with parents before their children

`CompiledScene.Ordered` states the contract of a scene: a root that comes first, an index with the
place of every node and nothing else, parents before their children, and parents and children that
name each other. Validation accepts exactly these scenes.
-/
namespace SceneGraph

namespace CompiledScene

/-- The scene is what its validation asks for. -/
structure Ordered (s : CompiledScene) : Prop where
  ids : (s.nodes.map (·.id)).Nodup
  index : ∀ id i, s.indexOf? id = some i ↔ (s.nodes[i]?).map (·.id) = some id
  root : ∃ first, s.nodes[0]? = some first ∧ first.id = s.rootNodeId ∧ first.parentId = none
  parents : ∀ ⦃i n⦄, s.nodes[i]? = some n → 0 < i → ∃ j p, j < i ∧ s.nodes[j]? = some p ∧
    n.parentId = some p.id ∧ p.childIds.count n.id = 1
  children : ∀ n ∈ s.nodes, ∀ c ∈ n.childIds, ∃ child ∈ s.nodes,
    child.id = c ∧ child.parentId = some n.id
  types : ∀ n ∈ s.nodes, ∀ c ∈ n.components, c.componentType ≠ ""
  assetIds : (s.assets.map (·.id)).Nodup
  wires : (s.wires.map (·.id)).Nodup

variable {s : CompiledScene} {i : Nat} {n : SceneNode} {id : String}

theorem rootIssues_eq_nil_iff : s.rootIssues = [] ↔
    ∃ first, s.nodes[0]? = some first ∧ first.id = s.rootNodeId ∧ first.parentId = none := by
  unfold rootIssues
  cases s.nodes <;> simp

theorem indexIssues_eq_nil_iff {seen : List String} {nodes : List SceneNode} :
    s.indexIssues seen i nodes = [] ↔ (nodes.map (·.id)).Nodup ∧ (∀ n ∈ nodes, n.id ∉ seen) ∧
      ∀ j n, nodes[j]? = some n → s.indexOf? n.id = some (i + j) := by
  induction nodes generalizing seen i with
  | nil => simp [indexIssues]
  | cons n rest ih =>
    rw [indexIssues, List.append_eq_nil_iff, List.append_eq_nil_iff, issueUnless_eq_nil_iff]
    refine (and_congr (and_congr_right' (?_ : _ ↔ s.indexOf? n.id = some i)) ih).trans ?_
    · cases s.indexOf? n.id <;> simp
    simp only [List.map_cons, List.nodup_cons, List.forall_mem_cons, List.mem_map,
      Bool.not_eq_true', List.contains_eq_mem, decide_eq_false_iff_not]
    constructor
    · rintro ⟨⟨hs, hi⟩, hn, hnew, hrest⟩
      refine ⟨⟨?_, hn⟩, ⟨hs, fun m hm => List.not_mem_of_not_mem_cons (hnew m hm)⟩,
        fun j m hj => ?_⟩
      · rintro ⟨m, hm, he⟩
        exact List.ne_of_not_mem_cons (hnew m hm) he
      · cases j with
        | zero =>
          obtain rfl : n = m := by simpa using hj
          exact hi
        | succ j => simpa [Nat.add_right_comm, Nat.add_assoc] using hrest j m (by simpa using hj)
    · rintro ⟨⟨hfirst, hn⟩, ⟨hs, hnew⟩, hall⟩
      refine ⟨⟨hs, hall 0 n rfl⟩, hn, fun m hm => ?_, fun j m hj => ?_⟩
      · exact List.not_mem_cons_of_ne_of_not_mem (fun he => hfirst ⟨m, hm, he⟩) (hnew m hm)
      · simpa [Nat.add_right_comm, Nat.add_assoc] using hall (j + 1) m (by simpa using hj)

/-- An index of the right size that knows the place of every node knows nothing else. -/
private theorem index_iff (hn : (s.nodes.map (·.id)).Nodup) :
    ((∀ j n, s.nodes[j]? = some n → s.indexOf? n.id = some j) ∧
      s.nodeIndex.size = s.nodes.length) ↔
      ∀ id i, s.indexOf? id = some i ↔ (s.nodes[i]?).map (·.id) = some id := by
  constructor
  · rintro ⟨hplace, hsize⟩ id i
    have hsub : s.nodes.map (·.id) ⊆ s.nodeIndex.keys := fun id hid => by
      obtain ⟨n, hn, rfl⟩ := List.mem_map.mp hid
      obtain ⟨j, hj⟩ := List.mem_iff_getElem?.mp hn
      exact Ascending.mem_keys_iff.mpr ⟨j, hplace j n hj⟩
    have hperm : (s.nodes.map (·.id)).Perm s.nodeIndex.keys :=
      (List.subperm_of_subset hn hsub).perm_of_length_le (by simp [Ascending.length_keys, hsize])
    constructor
    · intro hi
      obtain ⟨n, hn, rfl⟩ := List.mem_map.mp
        (hperm.mem_iff.mpr (Ascending.mem_keys_iff.mpr ⟨i, hi⟩))
      obtain ⟨j, hj⟩ := List.mem_iff_getElem?.mp hn
      obtain rfl : i = j := Option.some.inj (hi.symm.trans (hplace j n hj))
      simp [hj]
    · intro hi
      obtain ⟨n, hn, rfl⟩ := Option.map_eq_some_iff.mp hi
      exact hplace i n hn
  · intro hindex
    refine ⟨fun j n hj => (hindex n.id j).mpr (by simp [hj]), ?_⟩
    have hperm : (s.nodes.map (·.id)).Perm s.nodeIndex.keys := by
      refine (List.perm_ext_iff_of_nodup hn s.nodeIndex.keys_nodup).mpr fun id => ?_
      rw [Ascending.mem_keys_iff, List.mem_iff_getElem?]
      simp only [List.getElem?_map]
      exact exists_congr fun i => (hindex id i).symm
    rw [← Ascending.length_keys, ← hperm.length_eq, List.length_map]

section Index
variable (hindex : ∀ id i, s.indexOf? id = some i ↔ (s.nodes[i]?).map (·.id) = some id)
include hindex

theorem node?_eq_some_iff : s.node? id = some n ↔ n ∈ s.nodes ∧ n.id = id := by
  simp only [node?, Option.bind_eq_some_iff, hindex]
  constructor
  · rintro ⟨i, hi, hn⟩
    exact ⟨List.mem_of_getElem? hn, by simpa [hn] using hi⟩
  · rintro ⟨hn, rfl⟩
    obtain ⟨i, hi⟩ := List.mem_iff_getElem?.mp hn
    exact ⟨i, by simp [hi], hi⟩

private theorem parentIssues_eq_nil_iff : s.parentIssues i n = [] ↔
    (n.parentId = none → i = 0) ∧ ∀ parent, n.parentId = some parent →
      ∃ j p, j < i ∧ s.nodes[j]? = some p ∧ p.id = parent ∧ p.childIds.count n.id = 1 := by
  unfold parentIssues
  cases hparent : n.parentId with
  | none => simp
  | some parent =>
    have hfound := hindex parent
    cases hj : s.indexOf? parent with
    | none =>
      simp only [hj, List.cons_ne_nil, false_iff, not_and, Option.some.injEq, forall_eq']
      rintro - ⟨j, p, -, hp, rfl, -⟩
      have hplace : s.indexOf? p.id = some j := (hfound j).mpr (by rw [hp]; rfl)
      simp [hj] at hplace
    | some j =>
      obtain ⟨p, hp, rfl⟩ := Option.map_eq_some_iff.mp ((hfound j).mp hj)
      have hcount : p.childIds.countP (· = n.id) = p.childIds.count n.id := rfl
      simp only [hj, hp, List.append_eq_nil_iff, issueUnless_eq_nil_iff, decide_eq_true_eq,
        hcount, reduceCtorEq, false_implies, true_and, Option.some.injEq, forall_eq']
      constructor
      · rintro ⟨hlt, hc⟩
        exact ⟨j, p, hlt, hp, rfl, hc⟩
      · rintro ⟨k, q, hlt, hq, hid, hc⟩
        have hk : s.indexOf? p.id = some k := (hfound k).mpr (by rw [hq]; exact congrArg some hid)
        obtain rfl : j = k := Option.some.inj (hj.symm.trans hk)
        obtain rfl : p = q := Option.some.inj (hp.symm.trans hq)
        exact ⟨hlt, hc⟩

private theorem childIssues_eq_nil_iff : s.childIssues n = [] ↔
    ∀ c ∈ n.childIds, ∃ child ∈ s.nodes, child.id = c ∧ child.parentId = some n.id := by
  simp only [childIssues, List.flatMap_eq_nil_iff, issueUnless_eq_nil_iff, decide_eq_true_eq,
    Option.bind_eq_some_iff, node?_eq_some_iff hindex, and_assoc]

private theorem nodeIssues_eq_nil_iff : s.nodeIssues i n = [] ↔
    ((n.parentId = none → i = 0) ∧ ∀ parent, n.parentId = some parent →
      ∃ j p, j < i ∧ s.nodes[j]? = some p ∧ p.id = parent ∧ p.childIds.count n.id = 1) ∧
    (∀ c ∈ n.childIds, ∃ child ∈ s.nodes, child.id = c ∧ child.parentId = some n.id) ∧
    ∀ c ∈ n.components, c.componentType ≠ "" := by
  simp [nodeIssues, parentIssues_eq_nil_iff hindex, childIssues_eq_nil_iff hindex, and_assoc]

end Index

/-- Validation accepts the scenes that are indexed and ordered. -/
theorem issues_eq_nil_iff : s.issues = [] ↔ s.Ordered := by
  have hnodes : (s.nodes.mapIdx s.nodeIssues).flatten = [] ↔
      ∀ i n, s.nodes[i]? = some n → s.nodeIssues i n = [] := by
    simp only [List.flatten_eq_nil_iff, List.mem_mapIdx]
    constructor
    · rintro h i n hn
      obtain ⟨hi, rfl⟩ := List.getElem?_eq_some_iff.mp hn
      exact h _ ⟨i, hi, rfl⟩
    · rintro h _ ⟨i, hi, rfl⟩
      exact h i _ (List.getElem?_eq_getElem hi)
  simp only [issues, List.append_eq_nil_iff, List.map_eq_nil_iff, issueUnless_eq_nil_iff,
    decide_eq_true_eq, rootIssues_eq_nil_iff, indexIssues_eq_nil_iff, repeatedAmong_eq_nil_iff,
    hnodes, Nat.zero_add, List.not_mem_nil, not_false_eq_true, implies_true, and_true, true_and]
  constructor
  · rintro ⟨⟨⟨⟨⟨⟨first, hfirst, hid, hnone⟩, hn, hplace⟩, hsize⟩, hissues⟩, hassets⟩, hwires⟩
    have hindex := (index_iff hn).mp ⟨hplace, hsize⟩
    have hall := fun i n h => (nodeIssues_eq_nil_iff hindex).mp (hissues i n h)
    refine ⟨hn, hindex, ⟨first, hfirst, hid, hnone⟩, fun i n h hi => ?_, fun n h => ?_,
      fun n h => ?_, hassets, hwires⟩
    · obtain ⟨⟨hroot, hparent⟩, -⟩ := hall i n h
      cases hp : n.parentId with
      | none => exact absurd (hroot hp) (Nat.ne_of_gt hi)
      | some parent =>
        obtain ⟨j, p, hj, hq, rfl, hc⟩ := hparent parent hp
        exact ⟨j, p, hj, hq, rfl, hc⟩
    · obtain ⟨i, hi⟩ := List.mem_iff_getElem?.mp h
      exact (hall i n hi).2.1
    · obtain ⟨i, hi⟩ := List.mem_iff_getElem?.mp h
      exact (hall i n hi).2.2
  · intro h
    obtain ⟨hplace, hsize⟩ := (index_iff h.ids).mpr h.index
    refine ⟨⟨⟨⟨⟨h.root, h.ids, hplace⟩, hsize⟩, fun i n hn => ?_⟩, h.assetIds⟩, h.wires⟩
    have hmem := List.mem_of_getElem? hn
    refine (nodeIssues_eq_nil_iff h.index).mpr ⟨?_, h.children n hmem, h.types n hmem⟩
    rcases Nat.eq_zero_or_pos i with rfl | hi
    · obtain ⟨first, hfirst, -, hnone⟩ := h.root
      obtain rfl : first = n := Option.some.inj (hfirst.symm.trans hn)
      simp [hnone]
    · obtain ⟨j, p, hj, hp, hparent, hc⟩ := h.parents hn hi
      refine ⟨fun hnone => by simp [hparent] at hnone, fun parent hq => ?_⟩
      exact ⟨j, p, hj, hp, Option.some.inj (hparent.symm.trans hq), hc⟩

end CompiledScene
end SceneGraph
