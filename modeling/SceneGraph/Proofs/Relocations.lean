import SceneGraph.DocumentBuilding
import SceneGraph.Proofs.EditMoves
import SceneGraph.Proofs.EngineTraces
import SceneGraph.Proofs.ValidDocuments

/-!
# Relocations: which moves would close a circle, and what the others change

The guard walks upwards from the new parent, by the parents that entities state. A circle is one of
children lists. In a forest both are the same.
-/
namespace SceneGraph
open Relation (ReflTransGen)

namespace Document
variable {d : Document} {id p q c k : String} {index : Option Nat} {e : Entity}

/-- Both entities exist, the first is not the root, and the second is neither the first nor listed
below it. -/
structure MayMove (d : Document) (id parent : String) : Prop where
  entity : d.contains id = true
  target : d.contains parent = true
  notRoot : id ≠ d.rootEntityId
  outside : ¬ ReflTransGen d.outline.Lists id parent

/-- An entity has come below a parent, at a place among the children that were there and without
stirring them. A former parent has lost it. Nothing else has changed. -/
structure Relocated (d d' : Document) (id parent : String) (index : Option Nat) : Prop where
  rest : { d' with entities := d.entities } = d
  moved : d'.entity? id = (d.entity? id).map ({ · with parentId := some parent })
  others : ∀ k, k ≠ id → k ≠ parent → d.parent? id ≠ some k → d'.entity? k = d.entity? k
  left : ∀ old, d.parent? id = some old → old ≠ parent → d'.entity? old =
    (d.entity? old).map fun e => { e with children := e.children.filter (· ≠ id) }
  joined : ∃ e before later, d.entity? parent = some e ∧
    before ++ later = e.children.filter (· ≠ id) ∧
    before.length = index.elim (before ++ later).length (min · (before ++ later).length) ∧
    d'.entity? parent = some { e with children := before ++ id :: later }

theorem isAncestor_eq_false_iff (h : d.Forest) :
    d.isAncestor id p = false ↔ ¬ ReflTransGen d.outline.Lists id p := by
  have hedges : d.outline.Parent = d.outline.Lists := by
    funext p c
    exact propext h.tree.edges
  rw [← hedges, ← isAncestor_iff, Bool.not_eq_true]

theorem isRoot_eq_false_iff : d.isRoot id = false ↔ id ≠ d.rootEntityId := by
  rw [Bool.eq_false_iff, ne_eq, isRoot_iff, eq_comm]

theorem addChild_accepted_iff (h : d.Forest) :
    (∃ a, Edit.applyAddChild d p c index = .ok a) ↔ d.MayMove c p ∧ d.parent? c = none := by
  simp only [Edit.applyAddChild_ok_iff, isAncestor_eq_false_iff h, isRoot_eq_false_iff]
  constructor
  · rintro ⟨_, ep, ec, hp, hc, hroot, hdetached, hout, -⟩
    exact ⟨⟨contains_iff.mpr ⟨ec, hc⟩, contains_iff.mpr ⟨ep, hp⟩, hroot, hout⟩,
      (parent?_of_entity? hc).trans hdetached⟩
  · rintro ⟨⟨hc, hp, hroot, hout⟩, hdetached⟩
    obtain ⟨ec, hc⟩ := contains_iff.mp hc
    obtain ⟨ep, hp⟩ := contains_iff.mp hp
    rw [parent?_of_entity? hc] at hdetached
    exact ⟨_, ep, ec, hp, hc, hroot, hdetached, hout, rfl⟩

theorem reparent_accepted_iff (h : d.Forest) :
    (∃ a, Edit.applyReparent d c q index = .ok a) ↔
      d.MayMove c q ∧ ∃ p, d.parent? c = some p := by
  simp only [Edit.applyReparent_ok_iff h.tree, isAncestor_eq_false_iff h, isRoot_eq_false_iff]
  constructor
  · rintro ⟨_, ec, p, _, _, _, hc, hroot, hparent, hq, hout, -⟩
    exact ⟨⟨contains_iff.mpr ⟨ec, hc⟩, hq, hroot, hout⟩, p,
      (parent?_of_entity? hc).trans hparent⟩
  · rintro ⟨⟨hc, hq, hroot, hout⟩, p, hparent⟩
    obtain ⟨ec, hc⟩ := contains_iff.mp hc
    rw [parent?_of_entity? hc] at hparent
    -- Whatever parent an entity of a forest states lists it, so detaching it cannot fail.
    obtain ⟨hpc, ep, i, hp, -, hi⟩ := h.place hc hparent
    have hqc : q ≠ c := by
      rintro rfl
      exact hout .refl
    obtain ⟨et, het⟩ :
        ∃ et, (d.turn p (ep.children.eraseIdx i) c none).entity? q = some et := by
      obtain ⟨eq, heq⟩ := contains_iff.mp hq
      rw [entity?_turn hpc, if_neg hqc]
      split
      · exact ⟨_, congrArg (Option.map _) hp⟩
      · exact ⟨eq, heq⟩
    exact ⟨_, ec, p, ep, i, et, hc, hroot, hparent, hq, hout, hp, hi, het, rfl⟩

/-- Only its parent lists an entity. -/
theorem Forest.filter_children (h : d.Forest) (he : d.entity? p = some e)
    (hc : d.parent? c ≠ some p) : e.children.filter (· ≠ c) = e.children := by
  refine List.filter_eq_self.mpr fun child hchild => ?_
  have hne : child ≠ c := by
    rintro rfl
    exact hc (parent_iff.mp (h.tree.pointsBack (outline_of_entity? he) _ hchild))
  simpa using hne

theorem addChild_relocated {a : Applied} (h : d.Forest)
    (ha : Edit.applyAddChild d p c index = .ok a) : d.Relocated a.document c p index := by
  obtain ⟨ep, ec, hp, hc, -, hdetached, hout, rfl⟩ := Edit.applyAddChild_ok_iff.mp ha
  have hpc : p ≠ c := ne_of_isAncestor hout
  have hnone : d.parent? c = none := (parent?_of_entity? hc).trans hdetached
  constructor
  case rest => rfl
  case moved => rw [entity?_turn hpc, if_pos rfl]
  case others =>
    intro k hkc hkp _
    rw [entity?_turn hpc, if_neg hkc, if_neg hkp]
  case left =>
    intro old hold
    rw [hnone] at hold
    contradiction
  case joined =>
    obtain ⟨before, later, hitems, hinsert, hlength⟩ := insertClamped_split ep.children index c
    refine ⟨ep, before, later, hp, ?_, hitems ▸ hlength, ?_⟩
    · rw [hitems, h.filter_children hp (by simp [hnone])]
    · rw [entity?_turn hpc, if_neg hpc, if_pos rfl, hp, hinsert]
      rfl

/-- After the first half of a move the new parent differs from what it was at most in children, from
which the entity is taken out. Both parents may be the same. -/
private theorem target_of_detached {ep et : Entity} (h : d.Forest) (hup : d.parent? c = some p)
    (hp : d.entity? p = some ep) (hqc : q ≠ c)
    (het : (d.turn p (ep.children.filter (· ≠ c)) c none).entity? q = some et) :
    ∃ eq, d.entity? q = some eq ∧ et.children = eq.children.filter (· ≠ c) ∧
      ∀ children, { et with children := children } = { eq with children := children } := by
  have hpc : p ≠ c := by
    obtain ⟨ec, hc, hparent⟩ := Option.bind_eq_some_iff.mp hup
    exact (h.place hc hparent).1
  rw [entity?_turn hpc, if_neg hqc] at het
  by_cases hqp : q = p
  · subst hqp
    rw [if_pos rfl, hp] at het
    obtain rfl := Option.some.inj het
    exact ⟨ep, hp, rfl, fun _ => rfl⟩
  · rw [if_neg hqp] at het
    have hother : d.parent? c ≠ some q := fun hq =>
      hqp (Option.some.inj (hq.symm.trans hup))
    exact ⟨et, het, (h.filter_children het hother).symm, fun _ => rfl⟩

theorem reparent_relocated {a : Applied} (h : d.Forest)
    (ha : Edit.applyReparent d c q index = .ok a) : d.Relocated a.document c q index := by
  obtain ⟨ec, p, ep, i, et, hc, -, hparent, -, hout, hp, hi, het, rfl⟩ :=
    (Edit.applyReparent_ok_iff h.tree).mp ha
  have hqc : q ≠ c := ne_of_isAncestor hout
  have hup : d.parent? c = some p := (parent?_of_entity? hc).trans hparent
  have hpc : p ≠ c := (h.place hc hparent).1
  have hsiblings : ep.children.filter (· ≠ c) = ep.children.eraseIdx i :=
    Entity.filter_children (h.tree.nodup (outline_of_entity? hp)) hi
  rw [← hsiblings] at het
  simp only [← hsiblings]
  constructor
  case rest => rfl
  case moved =>
    rw [entity?_turn hqc, if_pos rfl, entity?_turn hpc, if_pos rfl, Option.map_map]
    rfl
  case others =>
    intro k hkc hkq hkp
    have hkp : k ≠ p := by
      rintro rfl
      exact hkp hup
    rw [entity?_turn hqc, if_neg hkc, if_neg hkq, entity?_turn hpc, if_neg hkc, if_neg hkp]
  case left =>
    intro old hold hne
    obtain rfl : p = old := Option.some.inj (hup.symm.trans hold)
    rw [entity?_turn hqc, if_neg hpc, if_neg hne, entity?_turn hpc, if_neg hpc, if_pos rfl, hp]
    rfl
  case joined =>
    obtain ⟨eq, heq, hchildren, hback⟩ := target_of_detached h hup hp hqc het
    obtain ⟨before, later, hitems, hinsert, hlength⟩ := insertClamped_split et.children index c
    refine ⟨eq, before, later, heq, hitems.trans hchildren, hitems ▸ hlength, ?_⟩
    rw [entity?_turn hqc, if_neg hqc, if_pos rfl, het, hinsert]
    exact congrArg some (hback _)

/-- In a forest, whose trees may hang below the root or be detached, moving an attached entity and
attaching a detached one are accepted exactly when both entities exist, the one to be moved is not
the root and the new parent is not part of the tree below it. They give it its new place and change
nothing else. -/
theorem relocations_accepted_iff (h : d.Forest) {envelope : Envelope}
    (hv : envelope.version ≤ currentOpVersion) (registry : Option Registry) (stamps : Stamps)
    (id parent : String) (index : Option Nat) :
    (∀ oldParent oldIndex,
      let op := Op.edit envelope (.reparent id parent index oldParent oldIndex)
      ((∃ d', d.Accepts registry stamps op d') ↔
        d.MayMove id parent ∧ ∃ p, d.parent? id = some p) ∧
      ∀ d', d.Accepts registry stamps op d' → d.Relocated d' id parent index) ∧
    let op := Op.edit envelope (.addChild parent id index)
    ((∃ d', d.Accepts registry stamps op d') ↔ d.MayMove id parent ∧ d.parent? id = none) ∧
      ∀ d', d.Accepts registry stamps op d' → d.Relocated d' id parent index := by
  refine ⟨fun _ _ => ⟨?_, fun d' hd => ?_⟩, ?_, fun d' hd => ?_⟩
  · exact (exists_accepts_edit_iff hv).trans (reparent_accepted_iff h)
  · obtain ⟨-, a, ha, rfl⟩ := accepts_edit_iff.mp hd
    exact reparent_relocated h ha
  · exact (exists_accepts_edit_iff hv).trans (addChild_accepted_iff h)
  · obtain ⟨-, a, ha, rfl⟩ := accepts_edit_iff.mp hd
    exact addChild_relocated h ha

/-- A garden with two trees, one of which has been taken out with its nest. -/
def garden : Document :=
  ((ofIds "garden" "root" "Garden").addEntity
    ((Entity.ofId "pond" "Pond").withParent "root")).addEntity
      ((Entity.ofId "oak" "Oak").withParent "root")

def uprooted : Document := garden.turn "root" ["pond"] "oak" none

theorem garden_relocations :
    garden.Forest ∧ uprooted.Forest ∧ Envelope.plain.version ≤ currentOpVersion ∧
      (∃ d', garden.Accepts none .plain (.edit .plain (.reparent "oak" "root" (some 0) none none))
          d' ∧ garden.Relocated d' "oak" "root" (some 0)) ∧
      (¬ ∃ d', garden.Accepts none .plain (.edit .plain (.move "oak" "oak")) d') ∧
      ∃ d', uprooted.Accepts none .plain (.edit .plain (.addChild "pond" "oak" none)) d' ∧
        uprooted.Relocated d' "oak" "pond" none := by
  have hv : Envelope.plain.version ≤ currentOpVersion := by decide
  have hgarden : garden.Forest := (isValid_iff.mp (by decide)).1
  have huprooted : uprooted.Forest :=
    @Edit.apply_forest none garden ⟨uprooted, .addChild "root" "oak" (some 1), []⟩
      (.removeChild "root" "oak") hgarden (by rfl)
  have hoak : garden.MayMove "oak" "root" :=
    ⟨by decide, by decide, by decide, (isAncestor_eq_false_iff hgarden).mp (by decide)⟩
  have hout : uprooted.MayMove "oak" "pond" :=
    ⟨by decide, by decide, by decide, (isAncestor_eq_false_iff huprooted).mp (by decide)⟩
  obtain ⟨hmove, heffect⟩ :=
    (relocations_accepted_iff hgarden hv none .plain "oak" "root" (some 0)).1 none none
  obtain ⟨hcircle, -⟩ :=
    (relocations_accepted_iff hgarden hv none .plain "oak" "oak" none).1 none none
  obtain ⟨-, hattach, hattached⟩ :=
    relocations_accepted_iff huprooted hv none .plain "oak" "pond" none
  obtain ⟨d₁, h₁⟩ := hmove.mpr ⟨hoak, "root", by decide⟩
  obtain ⟨d₂, h₂⟩ := hattach.mpr ⟨hout, by decide⟩
  exact ⟨hgarden, huprooted, hv, ⟨d₁, h₁, heffect d₁ h₁⟩,
    fun h => (hcircle.mp h).1.outside .refl, d₂, h₂, hattached d₂ h₂⟩

end Document
end SceneGraph
