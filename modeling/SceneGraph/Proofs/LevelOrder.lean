import SceneGraph.DocumentBuilding
import SceneGraph.Proofs.CompiledForms
import SceneGraph.Proofs.RootedTrees

/-!
# Level order: the walk is the root and then, in order, the children of whatever it lists

This one equation places every node: the children of a node stand side by side, the children of
earlier nodes before those of later ones, and so the levels of the tree one after the other.
-/
namespace SceneGraph

theorem freshAmong_eq_self {seen ids : List String} (h : (ids ++ seen).Nodup) :
    freshAmong seen ids = ids := by
  induction ids generalizing seen with
  | nil => rfl
  | cons id ids ih =>
    obtain ⟨hid, hrest⟩ := List.nodup_cons.mp h
    have hseen : id ∉ seen := fun hs => hid (List.mem_append_right _ hs)
    have hnext : (ids ++ id :: seen).Nodup :=
      (List.perm_middle.nodup_iff).mpr (List.nodup_cons.mpr ⟨hid, hrest⟩)
    rw [freshAmong, if_neg (by simpa using hseen), ih hnext]

section Blocks
variable {α β : Type} {items : List α} {f : α → List β} {i k : Nat} {a : α} {b : β}

/-- What the elements before a position contribute comes first. -/
private theorem flatMap_split (h : items[i]? = some a) :
    items.flatMap f =
      (items.take i).flatMap f ++ (f a ++ (items.drop (i + 1)).flatMap f) := by
  obtain ⟨hi, rfl⟩ := List.getElem?_eq_some_iff.mp h
  calc items.flatMap f
      = (items.take i ++ items[i] :: items.drop (i + 1)).flatMap f := by
        rw [← List.drop_eq_getElem_cons hi, List.take_append_drop]
    _ = _ := by rw [List.flatMap_append, List.flatMap_cons]

theorem getElem?_flatMap (ha : items[i]? = some a) (hb : (f a)[k]? = some b) :
    (items.flatMap f)[((items.take i).flatMap f).length + k]? = some b := by
  have hk : k < (f a).length := (List.getElem?_eq_some_iff.mp hb).1
  rw [flatMap_split ha, List.getElem?_append_right (Nat.le_add_right _ _), Nat.add_sub_cancel_left,
    List.getElem?_append_left hk, hb]

/-- The blocks of later elements begin behind the block of an earlier one. -/
theorem length_flatMap_take_add_le {j : Nat} (ha : items[i]? = some a) (hij : i < j) :
    ((items.take i).flatMap f).length + (f a).length ≤ ((items.take j).flatMap f).length := by
  have htake : (items.take j)[i]? = some a := by rw [List.getElem?_take_of_lt hij, ha]
  rw [flatMap_split htake, List.take_take, Nat.min_eq_left (Nat.le_of_lt hij)]
  simp only [List.length_append]
  omega

end Blocks

namespace Document
variable {d : Document} {seen ids : List String} {n i j k l : Nat} {id p c : String}

/-- What has been listed, and what is listed next: entities, none of them twice, and each with its
parent among those listed. -/
private structure Frontier (d : Document) (seen ids : List String) : Prop where
  nodup : (ids ++ seen).Nodup
  entities : ∀ id ∈ ids ++ seen, d.contains id = true
  parents : ∀ id ∈ ids ++ seen, ∀ p, d.parent? id = some p → p ∈ seen

private theorem Frontier.next (h : d.Forest) (hf : d.Frontier seen ids) :
    d.Frontier (ids ++ seen) (ids.flatMap d.childrenOf) := by
  have hchild : ∀ c ∈ ids.flatMap d.childrenOf, ∃ p ∈ ids, d.parent? c = some p := by
    intro c hc
    obtain ⟨p, hp, hc⟩ := List.mem_flatMap.mp hc
    exact ⟨p, hp, parent_iff.mp (h.tree.edges.mpr (lists_iff.mpr hc))⟩
  obtain ⟨hids, -, hdisjoint⟩ := List.nodup_append.mp hf.nodup
  constructor
  case nodup =>
    refine List.nodup_append.mpr ⟨List.nodup_flatMap.mpr ⟨fun p _ => ?_, ?_⟩, hf.nodup, ?_⟩
    · cases he : d.entity? p with
      | none => simp [childrenOf, he]
      | some e => simpa [childrenOf, he] using h.tree.nodup (outline_of_entity? he)
    · refine hids.imp fun {p q} hpq => List.disjoint_left.mpr fun c hp hq => hpq ?_
      exact Outline.parent_unique (h.tree.edges.mpr (lists_iff.mpr hp))
        (h.tree.edges.mpr (lists_iff.mpr hq))
    · rintro c hc _ hlisted rfl
      obtain ⟨p, hp, hparent⟩ := hchild c hc
      exact hdisjoint p hp p (hf.parents c hlisted p hparent) rfl
  case entities =>
    intro id hid
    rcases List.mem_append.mp hid with hid | hid
    · obtain ⟨p, -, hparent⟩ := hchild id hid
      obtain ⟨e, he, -⟩ := Option.bind_eq_some_iff.mp hparent
      exact contains_iff.mpr ⟨e, he⟩
    · exact hf.entities id hid
  case parents =>
    intro id hid p hp
    rcases List.mem_append.mp hid with hid | hid
    · obtain ⟨q, hq, hparent⟩ := hchild id hid
      obtain rfl : p = q := Option.some.inj (hp.symm.trans hparent)
      exact List.mem_append_left _ hq
    · exact List.mem_append_right _ (hf.parents id hid p hp)

/-- With enough generations left the walk lists what is next, and then the children of all that it
lists. -/
private theorem generations_eq (h : d.Forest) (hf : d.Frontier seen ids)
    (hn : d.entities.size ≤ n + seen.length) :
    d.generations n seen ids = ids ++ (d.generations n seen ids).flatMap d.childrenOf := by
  induction n generalizing seen ids with
  | zero =>
    have hsize : (ids ++ seen).length ≤ d.entities.size :=
      Ascending.length_le_size hf.nodup fun id hid => contains_iff.mp (hf.entities id hid)
    have hnil : ids = [] := List.length_eq_zero_iff.mp (by simp at hsize; omega)
    simp [generations, hnil]
  | succ n ih =>
    cases ids with
    | nil => simp [generations_nil]
    | cons id ids =>
      have hrest := ih (hf.next h) (by simp; omega)
      rw [generations_succ, freshAmong_eq_self hf.nodup, List.flatMap_append, ← hrest]

/-- Where the children of the entity that the walk lists at a position begin. -/
def childStart (d : Document) (i : Nat) : Nat :=
  ((d.breadthFirst.take i).flatMap d.childrenOf).length + 1

theorem eq_of_getElem?_breadthFirst (hi : d.breadthFirst[i]? = some id)
    (hj : d.breadthFirst[j]? = some id) : i = j := by
  obtain ⟨hi, hid⟩ := List.getElem?_eq_some_iff.mp hi
  obtain ⟨hj, hjd⟩ := List.getElem?_eq_some_iff.mp hj
  exact (List.Nodup.getElem_inj_iff d.breadthFirst_nodup).mp (hid.trans hjd.symm)

/-- The children of an earlier entity end before those of a later one begin. -/
theorem childStart_le (hp : d.breadthFirst[i]? = some p) (hij : i < j) :
    d.childStart i + (d.childrenOf p).length ≤ d.childStart j := by
  have hblocks := @length_flatMap_take_add_le _ _ _ d.childrenOf _ _ _ hp hij
  simp only [childStart]
  omega

section Valid
variable (hd : d.isValid = true)
include hd

theorem parent?_root : d.parent? d.rootEntityId = none := by
  obtain ⟨e, he⟩ := contains_iff.mp (contains_root hd)
  rw [parent?, he, Option.bind_some, parentId_root hd he]

/-- The walk is the root and then the children of all that it lists, in order. -/
theorem breadthFirst_eq :
    d.breadthFirst = d.rootEntityId :: d.breadthFirst.flatMap d.childrenOf := by
  have hforest := (isValid_iff.mp hd).1
  refine generations_eq hforest ⟨by simp, ?_, ?_⟩ (Nat.le_refl _)
  · intro id hid
    obtain rfl : id = d.rootEntityId := by simpa using hid
    exact contains_root hd
  · intro id hid p hp
    obtain rfl : id = d.rootEntityId := by simpa using hid
    rw [parent?_root hd] at hp
    contradiction

/-- The children of what is listed at one position are listed side by side. -/
theorem getElem?_childStart (hp : d.breadthFirst[i]? = some p)
    (hc : (d.childrenOf p)[k]? = some c) : d.breadthFirst[d.childStart i + k]? = some c := by
  calc d.breadthFirst[d.childStart i + k]?
      = (d.rootEntityId :: d.breadthFirst.flatMap d.childrenOf)[d.childStart i + k]? :=
        congrArg (·[d.childStart i + k]?) (breadthFirst_eq hd)
    _ = (d.breadthFirst.flatMap d.childrenOf)[
          ((d.breadthFirst.take i).flatMap d.childrenOf).length + k]? := by
        rw [childStart, Nat.add_right_comm, List.getElem?_cons_succ]
    _ = some c := getElem?_flatMap hp hc

/-- Of two entities the one whose parent is listed earlier is listed earlier, and of two siblings
the one that their parent lists earlier. -/
theorem listed_before_iff {p' c' : String} {i' j' k' : Nat}
    (hp : d.breadthFirst[i]? = some p) (hc : (d.childrenOf p)[k]? = some c)
    (hj : d.breadthFirst[j]? = some c) (hp' : d.breadthFirst[i']? = some p')
    (hc' : (d.childrenOf p')[k']? = some c') (hj' : d.breadthFirst[j']? = some c') :
    j < j' ↔ i < i' ∨ i = i' ∧ k < k' := by
  have hplace : j = d.childStart i + k :=
    eq_of_getElem?_breadthFirst hj (getElem?_childStart hd hp hc)
  have hplace' : j' = d.childStart i' + k' :=
    eq_of_getElem?_breadthFirst hj' (getElem?_childStart hd hp' hc')
  have hk : k < (d.childrenOf p).length := (List.getElem?_eq_some_iff.mp hc).1
  have hk' : k' < (d.childrenOf p').length := (List.getElem?_eq_some_iff.mp hc').1
  rcases Nat.lt_trichotomy i i' with hi | rfl | hi
  · have hblocks := childStart_le hp hi
    omega
  · omega
  · have hblocks := childStart_le hp' hi
    omega

/-- Whatever stands behind the first place is a child of something that stands before it. -/
theorem exists_parent_place (hc : d.breadthFirst[j]? = some c) (hj : 0 < j) :
    ∃ (i k : Nat) (p : String), i < j ∧ d.breadthFirst[i]? = some p ∧ d.parent? c = some p ∧
      (d.childrenOf p)[k]? = some c := by
  obtain ⟨hforest, hroot⟩ := isValid_iff.mp hd
  obtain ⟨e, he⟩ := contains_iff.mp ((mem_breadthFirst hd).mp (List.mem_of_getElem? hc))
  have hne : c ≠ d.rootEntityId := by
    rintro rfl
    have hzero := eq_of_getElem?_breadthFirst hc (breadthFirst_zero hd)
    omega
  cases hp : e.parentId with
  | none => exact absurd (hroot c e he hp) hne
  | some p =>
    have hparent : d.parent? c = some p := by rw [parent?, he, Option.bind_some, hp]
    obtain ⟨i, hi, hpi⟩ := parent_listed_before hd hc hparent
    obtain ⟨k, hk⟩ := List.mem_iff_getElem?.mp
      (lists_iff.mp (hforest.tree.edges.mp (parent_iff.mpr hparent)))
    exact ⟨i, k, p, hi, hpi, hparent, hk⟩

end Valid

/-- A number of steps from child to parent leads to the root. -/
def IsDepth (d : Document) (id : String) (steps : Nat) : Prop :=
  d.above? steps id = some d.rootEntityId

theorem isDepth_succ (hp : d.parent? c = some p) : d.IsDepth c (n + 1) ↔ d.IsDepth p n := by
  rw [IsDepth, IsDepth, above?, hp, Option.bind_some]

section Valid
variable (hd : d.isValid = true)
include hd

theorem isDepth_root : d.IsDepth d.rootEntityId n ↔ n = 0 := by
  cases n with
  | zero => simp [IsDepth, above?]
  | succ n => simp [IsDepth, above?, parent?_root hd]

theorem isDepth_unique (hn : d.IsDepth id n) (hk : d.IsDepth id k) : n = k := by
  induction n generalizing id k with
  | zero =>
    obtain rfl : id = d.rootEntityId := Option.some.inj hn
    exact ((isDepth_root hd).mp hk).symm
  | succ n ih =>
    obtain ⟨p, hp, -⟩ := Option.bind_eq_some_iff.mp hn
    cases k with
    | zero =>
      obtain rfl : id = d.rootEntityId := Option.some.inj hk
      exact (isDepth_root hd).mp hn
    | succ k => rw [ih ((isDepth_succ hp).mp hn) ((isDepth_succ hp).mp hk)]

/-- A child is one level below its parent. -/
theorem exists_isDepth_parent (hp : d.parent? c = some p) (hn : d.IsDepth c n) :
    ∃ k, n = k + 1 ∧ d.IsDepth p k := by
  cases n with
  | zero =>
    obtain rfl : c = d.rootEntityId := Option.some.inj hn
    rw [parent?_root hd] at hp
    contradiction
  | succ k => exact ⟨k, rfl, (isDepth_succ hp).mp hn⟩

/-- Along the walk depths do not decrease: the parents of what is listed stand in the same order,
one level higher. -/
theorem depth_le (hij : i ≤ j) (hp : d.breadthFirst[i]? = some p) (hc : d.breadthFirst[j]? = some c)
    (hk : d.IsDepth p k) (hl : d.IsDepth c l) : k ≤ l := by
  induction j using Nat.strongRecOn generalizing i p c k l with
  | ind j ih =>
    rcases Nat.eq_zero_or_pos i with rfl | hi
    · obtain rfl : d.rootEntityId = p := Option.some.inj ((breadthFirst_zero hd).symm.trans hp)
      rw [(isDepth_root hd).mp hk]
      exact Nat.zero_le l
    · obtain ⟨a, m, q, -, hq, hpq, hmq⟩ := exists_parent_place hd hp hi
      obtain ⟨b, n, r, hb, hr, hcr, hnr⟩ := exists_parent_place hd hc (Nat.lt_of_lt_of_le hi hij)
      have hab : a ≤ b := by
        by_contra hba
        have hji := (listed_before_iff hd hr hnr hc hq hmq hp).mpr (.inl (by omega))
        omega
      obtain ⟨k, rfl, hqk⟩ := exists_isDepth_parent hd hpq hk
      obtain ⟨l, rfl, hrl⟩ := exists_isDepth_parent hd hcr hl
      have hle := ih b hb hab hq hr hqk hrl
      omega

end Valid
end Document

namespace CompiledScene

/-- The node at position `i` is child number `k` of the node at position `parentAt`. -/
def IsChildAt (s : CompiledScene) (parentAt k i : Nat) : Prop :=
  ∃ p n : SceneNode, s.nodes[parentAt]? = some p ∧ s.nodes[i]? = some n ∧
    n.parentId = some p.id ∧ p.childIds[k]? = some n.id

/-- The nodes are the entities of the document, each once and as it is, at the places that the
index states, level by level: nodes that are not as deep come first, and those of one level in the
order of their parents and of the children lists. -/
structure LevelOrder (d : Document) (s : CompiledScene) : Prop where
  once : ∀ {id : String} {e : Entity}, d.entity? id = some e →
    ∃! i : Nat, s.nodes[i]? = some (SceneNode.ofEntity e)
  entities : ∀ n ∈ s.nodes, ∃ id e, d.entity? id = some e ∧ SceneNode.ofEntity e = n
  index : ∀ (id : String) (i : Nat), s.indexOf? id = some i ↔ (s.nodes[i]?).map (·.id) = some id
  depth : ∀ n ∈ s.nodes, ∃! steps, d.IsDepth n.id steps
  levels : ∀ {i j k l : Nat} {m n : SceneNode}, s.nodes[i]? = some m → s.nodes[j]? = some n →
    i ≤ j → d.IsDepth m.id k → d.IsDepth n.id l → k ≤ l
  order : ∀ {p k i q l j : Nat}, s.IsChildAt p k i → s.IsChildAt q l j →
    (i < j ↔ p < q ∨ p = q ∧ k < l)
  parents : ∀ {i : Nat} {n : SceneNode}, s.nodes[i]? = some n → 0 < i →
    ∃ p k, p < i ∧ s.IsChildAt p k i
  siblings : ∀ {i : Nat} {n : SceneNode}, s.nodes[i]? = some n →
    ∃ start, ∀ k < n.childIds.length, s.IsChildAt i k (start + k)

end CompiledScene

namespace Document
variable {d : Document} {i j k p : Nat}

section Valid
variable (hd : d.isValid = true)
include hd

theorem isChildAt_scene : d.scene.IsChildAt p k i ↔ ∃ parent child,
    d.breadthFirst[p]? = some parent ∧ d.breadthFirst[i]? = some child ∧
      (d.childrenOf parent)[k]? = some child := by
  obtain ⟨hforest, -⟩ := isValid_iff.mp hd
  constructor
  · rintro ⟨m, n, hm, hn, -, hk⟩
    obtain ⟨parent, e, hparent, he, rfl⟩ := (getElem?_sceneNodes hd).mp hm
    obtain ⟨child, f, hchild, hf, rfl⟩ := (getElem?_sceneNodes hd).mp hn
    obtain rfl := hforest.ids hf
    exact ⟨parent, f.id, hparent, hchild, by rwa [childrenOf, he]⟩
  · rintro ⟨parent, child, hparent, hchild, hk⟩
    have hlists := lists_iff.mpr (List.mem_of_getElem? hk)
    obtain ⟨m, hm, hp⟩ := hforest.tree.edges.mpr hlists
    obtain ⟨f, hf, rfl⟩ := Option.map_eq_some_iff.mp hm
    obtain ⟨m, hm, -⟩ := hlists
    obtain ⟨e, he, rfl⟩ := Option.map_eq_some_iff.mp hm
    rw [childrenOf, he] at hk
    refine ⟨.ofEntity e, .ofEntity f, (getElem?_sceneNodes hd).mpr ⟨parent, e, hparent, he, rfl⟩,
      (getElem?_sceneNodes hd).mpr ⟨child, f, hchild, hf, rfl⟩, ?_, ?_⟩
    · exact hp.trans (congrArg some (hforest.ids he).symm)
    · exact hk.trans (congrArg some (hforest.ids hf).symm)

theorem getElem?_breadthFirst_id {n : SceneNode} (hn : d.scene.nodes[i]? = some n) :
    d.breadthFirst[i]? = some n.id := by
  rw [← getElem?_sceneNodes_id hd]
  exact congrArg (Option.map (·.id)) hn

theorem scene_levelOrder : d.scene.LevelOrder d := by
  have htree := isValid_iff_rootedTree.mp hd
  constructor
  case once =>
    intro id e he
    obtain ⟨i, hi⟩ := List.mem_iff_getElem?.mp ((mem_sceneNodes hd).mpr ⟨id, e, he, rfl⟩)
    exact ⟨i, hi, fun j hj => eq_of_getElem?_breadthFirst (getElem?_breadthFirst_id hd hj)
      (getElem?_breadthFirst_id hd hi)⟩
  case entities => exact fun n hn => (mem_sceneNodes hd).mp hn
  case index => exact (scene_ordered hd).index
  case depth =>
    intro n hn
    obtain ⟨id, e, he, rfl⟩ := (mem_sceneNodes hd).mp hn
    obtain ⟨steps, hsteps⟩ := htree.upward he
    obtain rfl := htree.ids he
    exact ⟨steps, hsteps, fun _ h => isDepth_unique hd h hsteps⟩
  case levels =>
    intro i j k l m n hm hn hij hk hl
    exact depth_le hd hij (getElem?_breadthFirst_id hd hm) (getElem?_breadthFirst_id hd hn) hk hl
  case order =>
    intro p k i q l j hi hj
    obtain ⟨parent, child, hp, hc, hk⟩ := (isChildAt_scene hd).mp hi
    obtain ⟨parent', child', hp', hc', hl⟩ := (isChildAt_scene hd).mp hj
    exact listed_before_iff hd hp hk hc hp' hl hc'
  case parents =>
    intro i n hn hi
    have hwalk := getElem?_breadthFirst_id hd hn
    obtain ⟨p, k, parent, hlt, hp, -, hk⟩ := exists_parent_place hd hwalk hi
    exact ⟨p, k, hlt, (isChildAt_scene hd).mpr ⟨parent, n.id, hp, hwalk, hk⟩⟩
  case siblings =>
    intro i n hn
    obtain ⟨id, e, hid, he, rfl⟩ := (getElem?_sceneNodes hd).mp hn
    refine ⟨d.childStart i, fun k hk => ?_⟩
    have hchild : (d.childrenOf id)[k]? = some e.children[k] := by
      rw [childrenOf, he]
      exact List.getElem?_eq_getElem hk
    exact (isChildAt_scene hd).mpr
      ⟨id, _, hid, getElem?_childStart hd hid hchild, hchild⟩

/-- A valid document compiles, to its entities in level order. -/
theorem compile_levelOrder : ∃ c, d.compile .default = .ok c ∧ c.scene.LevelOrder d :=
  ⟨_, compile_default hd, scene_levelOrder hd⟩

end Valid

/-- A house whose rooms are listed against the order of their ids, each with something in it. -/
def house : Document :=
  ((((ofIds "scene" "house" "House").addEntity ((Entity.ofId "kitchen" "Kitchen").withParent
    "house")).addEntity ((Entity.ofId "attic" "Attic").withParent "house")).addEntity
      ((Entity.ofId "box" "Box").withParent "attic")).addEntity
        ((Entity.ofId "table" "Table").withParent "kitchen")

theorem house_compile_levelOrder : house.isValid = true ∧
    house.breadthFirst = ["house", "kitchen", "attic", "table", "box"] ∧
      ∃ c, house.compile .default = .ok c ∧ c.scene.LevelOrder house := by
  have hvalid : house.isValid = true := by decide
  exact ⟨hvalid, by decide, compile_levelOrder hvalid⟩

end Document
end SceneGraph
