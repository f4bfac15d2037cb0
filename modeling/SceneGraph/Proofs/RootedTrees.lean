import SceneGraph.Proofs.ValidDocuments

/-!
# Rooted trees: validation accepts the documents in which every way up comes to the root

A rooted tree is a document in which some number of steps from child to parent leads from every
entity to the root, with the bookkeeping that belongs to it. Validation decides exactly that. Of any
document with a root it reports just those entities as unreachable that children lists do not lead
to.
-/
namespace SceneGraph
open Relation (ReflTransGen)

namespace Document

/-- The id that a number of steps from child to parent lead to. -/
def above? (d : Document) : Nat → String → Option String
  | 0, id => some id
  | steps + 1, id => (d.parent? id).bind (d.above? steps)

/-- The document is one tree, with the bookkeeping that belongs to it. Nothing is said of what can
be reached downwards: from each entity upwards there is a way to the root. -/
structure RootedTree (d : Document) : Prop where
  schema : d.schemaVersion ≤ currentSchemaVersion
  ids : ∀ ⦃id e⦄, d.entity? id = some e → e.id = id
  assetIds : ∀ ⦃id a⦄, d.assets.find? id = some a → a.id = id
  wires : (d.wiring.map (·.id)).Nodup
  types : ∀ ⦃id e⦄, d.entity? id = some e → ∀ c ∈ e.components, c.componentType ≠ ""
  root : ∃ e, d.entity? d.rootEntityId = some e ∧ e.parentId = none
  parents : ∀ ⦃id e⦄, d.entity? id = some e → id ≠ d.rootEntityId →
    ∃ parent p, e.parentId = some parent ∧ d.entity? parent = some p ∧ p.children.count id = 1
  children : ∀ ⦃id e⦄, d.entity? id = some e → ∀ c ∈ e.children,
    ∃ child, d.entity? c = some child ∧ child.parentId = some id
  upward : ∀ ⦃id e⦄, d.entity? id = some e → ∃ steps, d.above? steps id = some d.rootEntityId

variable {d : Document} {id a : String} {e : Entity}

theorem exists_above?_iff :
    (∃ steps, d.above? steps id = some a) ↔ ReflTransGen d.outline.Parent a id := by
  constructor
  · rintro ⟨steps, h⟩
    induction steps generalizing id with
    | zero =>
      obtain rfl : id = a := Option.some.inj h
      exact .refl
    | succ steps ih =>
      obtain ⟨p, hp, h⟩ := Option.bind_eq_some_iff.mp h
      exact (ih h).tail (parent_iff.mpr hp)
  · intro h
    induction h with
    | refl => exact ⟨0, rfl⟩
    | tail _ hp ih =>
      obtain ⟨steps, h⟩ := ih
      exact ⟨steps + 1, by rw [above?, parent_iff.mp hp, Option.bind_some, h]⟩

namespace RootedTree

/-- The parent that an entity names lists it once. -/
theorem listed (h : d.RootedTree) {parent : String} (he : d.entity? id = some e)
    (hp : e.parentId = some parent) :
    ∃ p, d.entity? parent = some p ∧ p.children.count id = 1 := by
  have hne : id ≠ d.rootEntityId := by
    rintro rfl
    obtain ⟨root, hroot, hnone⟩ := h.root
    rw [Option.some.inj (he.symm.trans hroot), hnone] at hp
    contradiction
  obtain ⟨q, p, hq, hentity, hcount⟩ := h.parents he hne
  obtain rfl : q = parent := Option.some.inj (hq.symm.trans hp)
  exact ⟨p, hentity, hcount⟩

/-- Children lists hold no entity twice: whatever they hold is listed once by its parent. -/
theorem nodup (h : d.RootedTree) (he : d.entity? id = some e) : e.children.Nodup := by
  refine List.nodup_iff_count_le_one.mpr fun c => ?_
  by_cases hc : c ∈ e.children
  · obtain ⟨child, hchild, hparent⟩ := h.children he c hc
    obtain ⟨p, hp, hcount⟩ := h.listed hchild hparent
    obtain rfl : e = p := Option.some.inj (he.symm.trans hp)
    exact Nat.le_of_eq hcount
  · rw [List.count_eq_zero_of_not_mem hc]
    exact Nat.zero_le 1

theorem forest (h : d.RootedTree) : d.Forest := by
  obtain ⟨root, hroot, hnone⟩ := h.root
  have hr : ∃ n, d.outline d.rootEntityId = some n ∧ n.parent = none :=
    ⟨_, outline_of_entity? hroot, hnone⟩
  refine ⟨h.schema, h.ids, ⟨hr, ?_, ?_, ?_, ?_⟩, h.types, h.assetIds, h.wires⟩
  · rintro p c ⟨n, hn, hp⟩
    obtain ⟨e, he, rfl⟩ := Option.map_eq_some_iff.mp hn
    obtain ⟨q, hq, hcount⟩ := h.listed he hp
    exact ⟨_, outline_of_entity? hq, hcount⟩
  · rintro p n hn c hc
    obtain ⟨e, he, rfl⟩ := Option.map_eq_some_iff.mp hn
    obtain ⟨child, hchild, hparent⟩ := h.children he c hc
    exact ⟨_, outline_of_entity? hchild, hparent⟩
  · rintro p n hn
    obtain ⟨e, he, rfl⟩ := Option.map_eq_some_iff.mp hn
    exact h.nodup he
  · refine grounded_of_upward hr fun id hid => ?_
    obtain ⟨e, he⟩ := contains_iff.mp hid
    exact exists_above?_iff.mp (h.upward he)

theorem of_forest (h : d.Forest)
    (hroot : ∀ id e, d.entity? id = some e → e.parentId = none → id = d.rootEntityId) :
    d.RootedTree := by
  refine ⟨h.schema, h.ids, h.assetIds, h.wires, h.types, ?_, fun id e he hne => ?_,
    fun id e he c hc => ?_, fun id e he => ?_⟩
  · obtain ⟨n, hn, hnone⟩ := h.tree.root
    obtain ⟨e, he, rfl⟩ := Option.map_eq_some_iff.mp hn
    exact ⟨e, he, hnone⟩
  · cases hp : e.parentId with
    | none => exact absurd (hroot id e he hp) hne
    | some parent =>
      obtain ⟨n, hn, hcount⟩ := h.tree.listed ⟨_, outline_of_entity? he, hp⟩
      obtain ⟨p, hentity, rfl⟩ := Option.map_eq_some_iff.mp hn
      exact ⟨parent, p, rfl, hentity, hcount⟩
  · obtain ⟨n, hn, hp⟩ := h.tree.pointsBack (outline_of_entity? he) c hc
    obtain ⟨child, hchild, rfl⟩ := Option.map_eq_some_iff.mp hn
    exact ⟨child, hchild, hp⟩
  · have hbelow := reachable_of_forest h.tree hroot id (contains_iff.mpr ⟨e, he⟩)
    exact exists_above?_iff.mpr (ReflTransGen.mono (fun _ _ => h.tree.edges.mpr) _ _ hbelow)

end RootedTree

theorem isValid_iff_rootedTree : d.isValid = true ↔ d.RootedTree := by
  constructor
  · intro hd
    obtain ⟨hforest, hroot⟩ := isValid_iff.mp hd
    exact .of_forest hforest hroot
  · intro h
    refine isValid_iff.mpr ⟨h.forest, fun id e he hnone => ?_⟩
    by_contra hne
    obtain ⟨parent, -, hparent, -⟩ := h.parents he hne
    rw [hnone] at hparent
    contradiction

@[simp] theorem mem_issueUnless_iff {α : Type} {condition : Bool} {issue i : α} :
    i ∈ issueUnless condition issue ↔ condition = false ∧ i = issue := by
  cases condition <;> simp [issueUnless]

private theorem unreachable_not_mem_childIssues {seen children : List String} :
    .unreachable id ∉ d.childIssues e seen children := by
  induction children generalizing seen with
  | nil => simp [childIssues]
  | cons c rest ih =>
    unfold childIssues childIssue
    split
    · simp [ih]
    · split <;> simp [ih]

private theorem unreachable_not_mem_entityIssues : .unreachable id ∉ d.entityIssues e := by
  have hparent : .unreachable id ∉ d.parentIssues e := by
    unfold parentIssues
    split
    · simp
    · split <;> simp
  have htypes : .unreachable id ∉ componentTypeIssues e := by
    simp [componentTypeIssues]
  simp [entityIssues, hparent, htypes, unreachable_not_mem_childIssues]

/-- Of all checks only the search for what can be reached reports unreachable entities. -/
theorem unreachable_mem_issues :
    .unreachable id ∈ d.issues ↔ .unreachable id ∈ d.reachabilityIssues := by
  have hroot : .unreachable id ∉ d.rootIssues := by
    unfold rootIssues
    split <;> simp
  simp [issues, hroot, unreachable_not_mem_entityIssues]

theorem unreachable_mem_reachabilityIssues : .unreachable id ∈ d.reachabilityIssues ↔
    d.contains d.rootEntityId = true ∧ d.contains id = true ∧
      ¬ ReflTransGen d.outline.Lists d.rootEntityId id := by
  unfold reachabilityIssues
  by_cases hroot : d.contains d.rootEntityId = true
  · rw [if_pos (show d.entities.contains d.rootEntityId = true from hroot)]
    simp only [List.mem_flatMap, mem_issueUnless_iff, DocumentIssue.unreachable.injEq,
      Ascending.mem_keys_iff, ← Ascending.contains_iff, hroot, true_and]
    constructor
    · rintro ⟨key, hkey, hunseen, rfl⟩
      have hid : d.contains id = true := hkey
      refine ⟨hid, fun hr => ?_⟩
      simp [(mem_breadthFirst_iff hid).mpr hr] at hunseen
    · rintro ⟨hid, hunreached⟩
      refine ⟨id, hid, ?_, rfl⟩
      simpa using fun hm => hunreached ((mem_breadthFirst_iff hid).mp hm)
  · rw [if_neg (show ¬ d.entities.contains d.rootEntityId = true from hroot)]
    simp [hroot]

/-- Validation accepts the rooted trees and nothing else. Of whatever other document has its root,
it reports as unreachable the entities that no children lists lead to from there; where the root is
missing, it reports none. -/
theorem validation_decides_rootedTree (d : Document) :
    (d.isValid = true ↔ d.RootedTree) ∧
      ∀ id, .unreachable id ∈ d.issues ↔ d.contains d.rootEntityId = true ∧
        d.contains id = true ∧ ¬ ReflTransGen d.outline.Lists d.rootEntityId id :=
  ⟨isValid_iff_rootedTree, fun _ =>
    unreachable_mem_issues.trans unreachable_mem_reachabilityIssues⟩

/-- Two entities that list each other, apart from a root that lists a missing one. -/
example :
    let root := { Entity.ofId "root" "Root" with children := ["ghost"] }
    let lamp := { Entity.ofId "lamp" "Lamp" with parentId := some "chair", children := ["chair"] }
    let chair := { Entity.ofId "chair" "Chair" with parentId := some "lamp", children := ["lamp"] }
    let d := (((ofIds "scene" "root" "Scene").putEntity "root" root).putEntity "lamp" lamp).putEntity
      "chair" chair
    d.issues = [.childMissing "root" "ghost", .unreachable "chair", .unreachable "lamp"] := by
  decide

end Document
end SceneGraph
