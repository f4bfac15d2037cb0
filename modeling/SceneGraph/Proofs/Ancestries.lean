import SceneGraph.DocumentBuilding
import SceneGraph.Proofs.RootedTrees

/-!
# Ancestries: the two walks upwards, the one that looks for an id and the one that lists

Both stop after as many steps as there are entities. A chain of parents that runs in a circle or
comes to an id without an entity is followed like any other.
-/
namespace SceneGraph
open Relation (ReflTransGen TransGen)

namespace Document
variable {d : Document} {id a p : String} {e : Entity} {steps : Nat}

/-- From an id without an entity the walk goes no further. -/
theorem reaches_of_entity?_none (hp : d.entity? p = none) :
    d.reaches a steps p = true ↔ p = a := by
  have hparent : d.parent? p = none := by rw [parent?, hp, Option.bind_none]
  cases steps <;> simp [reaches, hparent]

/-- Where entities stand under their ids, both walks pass the same entities. -/
theorem mem_climb_iff (hids : ∀ ⦃id e⦄, d.entity? id = some e → e.id = id)
    (ha : d.contains a = true) (he : d.entity? id = some e) :
    a ∈ d.climb steps e ↔ d.reaches a steps id = true := by
  have hhere : ∀ {id e}, d.entity? id = some e → (a = e.id ↔ id = a) := by
    intro id e he
    rw [hids he]
    exact eq_comm
  induction steps generalizing id e with
  | zero => rw [climb, reaches, List.mem_singleton, beq_iff_eq, hhere he]
  | succ steps ih =>
    have hparent : d.parent? id = e.parentId := parent?_of_entity? he
    rw [climb, reaches, hparent, List.mem_cons, Bool.or_eq_true, beq_iff_eq, hhere he]
    refine or_congr_right ?_
    cases hp : e.parentId with
    | none => simp
    | some p =>
      cases hentity : d.entity? p with
      | some parent => simpa [hentity] using ih hentity
      | none =>
        have hne : p ≠ a := by
          rintro rfl
          rw [not_contains_iff.mpr hentity] at ha
          contradiction
        simp [hentity, reaches_of_entity?_none hentity, hne]

theorem mem_ancestry_iff (hids : ∀ ⦃id e⦄, d.entity? id = some e → e.id = id)
    (ha : d.contains a = true) (hid : d.contains id = true) :
    a ∈ d.ancestry id ↔ d.isAncestor a id = true := by
  obtain ⟨e, he⟩ := contains_iff.mp hid
  rw [ancestry, he]
  exact mem_climb_iff hids ha he

theorem head?_climb : (d.climb steps e).head? = some e.id := by
  cases steps <;> rfl

/-- No entity of a forest stands above itself, so none is listed twice. -/
theorem Forest.nodup_climb (h : d.Forest) (he : d.entity? id = some e) :
    (d.climb steps e).Nodup := by
  induction steps generalizing id e with
  | zero => exact List.nodup_singleton e.id
  | succ steps ih =>
    rw [climb]
    cases hb : e.parentId.bind d.entity? with
    | none => exact List.nodup_singleton e.id
    | some parent =>
      obtain ⟨p, hp, hparent⟩ := Option.bind_eq_some_iff.mp hb
      have hedge : d.outline.Parent p id := ⟨_, outline_of_entity? he, hp⟩
      refine List.nodup_cons.mpr ⟨fun hm => ?_, ih hparent⟩
      rw [h.ids he, mem_climb_iff h.ids (contains_iff.mpr ⟨e, he⟩) hparent] at hm
      exact h.tree.acyclic id (.tail' (reflTransGen_of_reaches hm) hedge)

/-- Nothing is listed behind the root, which has no parent. -/
theorem Forest.getLast?_climb (h : d.Forest) (he : d.entity? id = some e)
    (hm : d.rootEntityId ∈ d.climb steps e) :
    (d.climb steps e).getLast? = some d.rootEntityId := by
  induction steps generalizing id e with
  | zero =>
    have hroot : d.rootEntityId = e.id := List.mem_singleton.mp hm
    simp [climb, hroot]
  | succ steps ih =>
    rw [climb] at hm ⊢
    cases hb : e.parentId.bind d.entity? with
    | none =>
      rw [hb] at hm
      have hroot : d.rootEntityId = e.id := List.mem_singleton.mp hm
      simp [hroot]
    | some parent =>
      obtain ⟨p, hp, hparent⟩ := Option.bind_eq_some_iff.mp hb
      have hne : d.rootEntityId ≠ e.id := by
        intro hroot
        obtain ⟨n, hn, hnone⟩ := h.tree.root
        rw [hroot, h.ids he, outline_of_entity? he] at hn
        obtain rfl := Option.some.inj hn
        rw [hp] at hnone
        contradiction
      have hmem : d.rootEntityId ∈ d.climb steps parent := by
        rw [hb] at hm
        exact (List.mem_cons.mp hm).resolve_left hne
      have hlast := ih hparent hmem
      rw [List.getLast?_cons, hlast]
      rfl

theorem Forest.ancestry_nodup (h : d.Forest) (hid : d.contains id = true) :
    (d.ancestry id).Nodup ∧ (d.ancestry id).head? = some id := by
  obtain ⟨e, he⟩ := contains_iff.mp hid
  rw [ancestry, he]
  exact ⟨h.nodup_climb he, head?_climb.trans (congrArg some (h.ids he))⟩

/-- In a valid document every way up ends at the root, and the walk gets there. -/
theorem getLast?_ancestry (hd : d.isValid = true) (hid : d.contains id = true) :
    (d.ancestry id).getLast? = some d.rootEntityId := by
  have h : d.RootedTree := isValid_iff_rootedTree.mp hd
  obtain ⟨root, hroot, -⟩ := h.root
  obtain ⟨e, he⟩ := contains_iff.mp hid
  have hmem : d.rootEntityId ∈ d.ancestry id :=
    (mem_ancestry_iff h.ids (contains_iff.mpr ⟨root, hroot⟩) hid).mpr
      (isAncestor_iff.mpr (exists_above?_iff.mp (h.upward he)))
  rw [ancestry, he] at hmem ⊢
  exact h.forest.getLast?_climb he hmem

/-- In whatever document, the walk that looks for an id finds it exactly when some number of steps
from child to parent leads there, however long the way. Where entities stand under their ids, the
walk that lists passes the same entities, and in a valid document it lists each of them once, from
the entity itself to the root. -/
theorem ancestor_queries_exact (d : Document) :
    (∀ a id, d.isAncestor a id = true ↔ ∃ steps, d.above? steps id = some a) ∧
    ((∀ id e, d.entity? id = some e → e.id = id) → ∀ a id, d.contains a = true →
      d.contains id = true → (d.isAncestor a id = true ↔ a ∈ d.ancestry id)) ∧
    (d.isValid = true → ∀ id, d.contains id = true → (d.ancestry id).Nodup ∧
      (d.ancestry id).head? = some id ∧
      (d.ancestry id).getLast? = some d.rootEntityId) := by
  refine ⟨fun a id => isAncestor_iff.trans exists_above?_iff.symm,
    fun hids a id ha hid => (mem_ancestry_iff (fun id e => hids id e) ha hid).symm,
    fun hd id hid => ?_⟩
  obtain ⟨hnodup, hhead⟩ := (isValid_iff_rootedTree.mp hd).forest.ancestry_nodup hid
  exact ⟨hnodup, hhead, getLast?_ancestry hd hid⟩

/-- A lamp on a table. -/
def lamplit : Document :=
  ((ofIds "scene" "root" "Scene").addEntity
    ((Entity.ofId "table" "Table").withParent "root")).addEntity
      ((Entity.ofId "lamp" "Lamp").withParent "table")

/-- The same with a clock and a shelf that each hang on the other. -/
def entangled : Document :=
  (lamplit.putEntity "clock" ((Entity.ofId "clock" "Clock").withParent "shelf")).putEntity
    "shelf" ((Entity.ofId "shelf" "Shelf").withParent "clock")

theorem entangled_ancestor_queries :
    (∃ steps, entangled.above? steps "clock" = some "shelf") ∧
    (¬ ∃ steps, entangled.above? steps "clock" = some "root") ∧
    (∀ id e, entangled.entity? id = some e → e.id = id) ∧
    entangled.contains "shelf" = true ∧ entangled.contains "clock" = true ∧
    "shelf" ∈ entangled.ancestry "clock" ∧
    lamplit.isValid = true ∧ lamplit.contains "lamp" = true ∧ (lamplit.ancestry "lamp").Nodup ∧
    (lamplit.ancestry "lamp").head? = some "lamp" ∧
    (lamplit.ancestry "lamp").getLast? = some "root" := by
  obtain ⟨hfound, hlisted, -⟩ := ancestor_queries_exact entangled
  obtain ⟨-, -, htree⟩ := ancestor_queries_exact lamplit
  have hids : ∀ id e, entangled.entity? id = some e → e.id = id := by
    have hentries : ∀ entry ∈ entangled.entities.toList, entry.2.id = entry.1 := by decide
    exact fun id e he => hentries (id, e) (Ascending.mem_toList_iff.mpr he)
  have hshelf : entangled.contains "shelf" = true := by decide
  have hclock : entangled.contains "clock" = true := by decide
  have habove : entangled.isAncestor "shelf" "clock" = true := by decide
  have hroot : ¬ entangled.isAncestor "root" "clock" = true := by decide
  have hvalid : lamplit.isValid = true := by decide
  have hlamp : lamplit.contains "lamp" = true := by decide
  exact ⟨(hfound _ _).mp habove, fun h => hroot ((hfound _ _).mpr h), hids, hshelf, hclock,
    (hlisted hids _ _ hshelf hclock).mp habove, hvalid, hlamp, htree hvalid _ hlamp⟩

end Document
end SceneGraph
