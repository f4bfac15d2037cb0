import SceneGraph.EditEffects
import SceneGraph.Proofs.DictionaryLaws
import SceneGraph.Proofs.Outlines
import Mathlib.Data.List.Chain

/-!
# Documents as forests, and what the bounded walk upwards finds in them

`Document.Forest` is what validation asks of a document, save that entities other than the root may
be detached. It is stated through the outline of the document, the parents and children lists. Ways
up that take no id twice are no longer than there are entities, so the bounded walk finds every
ancestor in whatever document.
-/
namespace SceneGraph
open Relation (ReflTransGen TransGen)

namespace Document

def outline (d : Document) : Outline := fun id => (d.entity? id).map fun e => ⟨e.parentId, e.children⟩

/-- The document is what validation asks for, save that entities other than the root may be
detached. -/
structure Forest (d : Document) : Prop where
  schema : d.schemaVersion ≤ currentSchemaVersion
  ids : ∀ ⦃id e⦄, d.entity? id = some e → e.id = id
  tree : d.outline.Forest d.rootEntityId
  types : ∀ ⦃id e⦄, d.entity? id = some e → ∀ c ∈ e.components, c.componentType ≠ ""
  assetIds : ∀ ⦃id a⦄, d.assets.find? id = some a → a.id = id
  wires : (d.wiring.map (·.id)).Nodup

variable {d : Document} {id p c a : String} {e : Entity}

theorem contains_iff : d.contains id = true ↔ ∃ e, d.entity? id = some e := Ascending.contains_iff

theorem not_contains_iff : d.contains id = false ↔ d.entity? id = none :=
  Ascending.not_contains_iff

theorem outline_of_entity? (h : d.entity? id = some e) :
    d.outline id = some ⟨e.parentId, e.children⟩ := by
  simp [outline, h]

theorem parent?_of_entity? (he : d.entity? id = some e) : d.parent? id = e.parentId := by
  rw [parent?, he, Option.bind_some]

theorem parent_iff : d.outline.Parent p c ↔ d.parent? c = some p := by
  cases h : d.entity? c <;> simp [Outline.Parent, outline, parent?, h]

theorem entity?_ofIds (document root name id : String) : (ofIds document root name).entity? id =
    if id = root then some (.ofId root "Root") else none := by
  simp [ofIds, entity?, Dict.find?_insert]

/-- A document that holds nothing but its root is a forest. -/
theorem forest_ofIds (document root name : String) : (ofIds document root name).Forest := by
  have houtline : (ofIds document root name).outline =
      fun id => if id = root then some ⟨none, []⟩ else none := by
    funext id
    rw [outline, entity?_ofIds]
    split <;> rfl
  have htree : (ofIds document root name).outline.Forest root := houtline ▸ .single root
  have hentity : ∀ {id e}, (ofIds document root name).entity? id = some e →
      id = root ∧ e = .ofId root "Root" := by
    intro id e h
    rw [entity?_ofIds] at h
    split at h
    · exact ⟨‹id = root›, (Option.some.inj h).symm⟩
    · contradiction
  refine ⟨Nat.le_refl _, fun id e he => ?_, htree, fun id e he => ?_, ?_, List.nodup_nil⟩
  · obtain ⟨rfl, rfl⟩ := hentity he
    rfl
  · rw [(hentity he).2]
    exact fun c hc => absurd hc List.not_mem_nil
  · simp [ofIds]

theorem reflTransGen_of_reaches {steps : Nat} (h : d.reaches a steps id = true) :
    ReflTransGen d.outline.Parent a id := by
  induction steps generalizing id with
  | zero =>
    obtain rfl : id = a := by simpa [reaches] using h
    exact .refl
  | succ steps ih =>
    simp only [reaches, Bool.or_eq_true, beq_iff_eq] at h
    rcases h with rfl | h
    · exact .refl
    · split at h
      · rename_i parent hp
        exact (ih h).tail (parent_iff.mpr hp)
      · contradiction

private theorem reaches_of_chain {steps : Nat} {above : List String}
    (hc : List.IsChain (fun c p => d.outline.Parent p c) (id :: above))
    (hlast : (id :: above).getLast (by simp) = a) (hl : above.length ≤ steps) :
    d.reaches a steps id = true := by
  induction above generalizing id steps with
  | nil =>
    obtain rfl : id = a := hlast
    cases steps <;> simp [reaches]
  | cons parent above ih =>
    cases steps with
    | zero => simp at hl
    | succ steps =>
      have hp : d.parent? id = some parent := parent_iff.mp (List.isChain_cons_cons.mp hc).1
      have hr := ih (List.isChain_cons_cons.mp hc).2 hlast (Nat.le_of_succ_le_succ hl)
      simp [reaches, hp, hr]

/-- A way up that comes back to an id can be cut short, so some way takes no id twice. -/
private theorem exists_nodup_chain (h : ReflTransGen d.outline.Parent a id) :
    ∃ above : List String, (id :: above).Nodup ∧
      List.IsChain (fun c p => d.outline.Parent p c) (id :: above) ∧
      (id :: above).getLast (by simp) = a := by
  induction h with
  | refl => exact ⟨[], List.nodup_singleton a, .singleton a, rfl⟩
  | @tail p c _ hp ih =>
    obtain ⟨above, hn, hc, hlast⟩ := ih
    by_cases hm : c ∈ p :: above
    · obtain ⟨before, after, hsplit⟩ := List.append_of_mem hm
      have hsuffix : c :: after <:+ p :: above := ⟨before, hsplit.symm⟩
      exact ⟨after, hn.sublist hsuffix.sublist, hc.suffix hsuffix,
        (hsuffix.getLast (by simp)).trans hlast⟩
    · exact ⟨p :: above, List.nodup_cons.mpr ⟨hm, hn⟩, .cons_cons hp hc, hlast⟩

/-- All on the way up but the last are entities, so a way that takes no id twice is no longer than
there are entities. -/
private theorem length_chain {above : List String} (hn : (id :: above).Nodup)
    (hc : List.IsChain (fun c p => d.outline.Parent p c) (id :: above)) :
    above.length ≤ d.entities.size := by
  have hlength : (id :: above).dropLast.length = above.length := by simp
  rw [← hlength]
  refine Ascending.length_le_size (hn.sublist (List.dropLast_sublist _)) fun c hm => ?_
  obtain ⟨i, hi, rfl⟩ := List.mem_iff_getElem.mp hm
  obtain ⟨n, hnode, -⟩ := List.isChain_iff_getElem.mp hc i (by simpa using hi)
  obtain ⟨e, he, -⟩ := Option.map_eq_some_iff.mp hnode
  rw [List.getElem_dropLast]
  exact ⟨e, he⟩

/-- In whatever document, chains of parents that run in a circle or lead nowhere included, the
bounded walk finds every ancestor. -/
theorem isAncestor_iff : d.isAncestor a id = true ↔ ReflTransGen d.outline.Parent a id := by
  refine ⟨reflTransGen_of_reaches, fun ha => ?_⟩
  obtain ⟨above, hn, hc, hlast⟩ := exists_nodup_chain ha
  exact reaches_of_chain hc hlast (length_chain hn hc)

theorem ne_of_isAncestor (ha : d.isAncestor a id = false) : id ≠ a := by
  rintro rfl
  simp [isAncestor_iff.mpr .refl] at ha

end Document
end SceneGraph
