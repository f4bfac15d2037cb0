import SceneGraph.Proofs.ListPlaces
import SceneGraph.Proofs.PropertyReversals
import SceneGraph.Proofs.TreeMoves

/-!
# Moves: the small changes that edits are made of, and what they keep

Edits are made of moves: one entity is amended, planted or uprooted, one edge is linked or unlinked,
an asset is added or removed, or the document says something else of itself. Moves turn forests into
forests and keep documents well formed. `WellFormed` is what holds of every document that edits make
from a valid one.
-/
namespace SceneGraph
open Relation (ReflTransGen)

/-- An entity that differs from another in what it holds, not in where it stands. -/
structure Entity.Amends (e' e : Entity) : Prop where
  id : e'.id = e.id
  parentId : e'.parentId = e.parentId
  children : e'.children = e.children
  types : (∀ c ∈ e.components, c.componentType ≠ "") → ∀ c ∈ e'.components, c.componentType ≠ ""
  transform : e.transform.isFinite = true → e'.transform.isFinite = true

namespace Document

/-- What holds of every document that edits make from a valid one. New entities have to have
finite transforms; those of documents and operations that were read from JSON do. -/
structure WellFormed (d : Document) : Prop extends Forest d, Readable d where
  names : ∀ ⦃id e⦄, d.entity? id = some e → id ≠ d.rootEntityId → id ≠ "" ∧ id ≠ documentTarget
  transforms : ∀ ⦃id e⦄, d.entity? id = some e → e.transform.isFinite = true
  assetNames : ∀ ⦃id a⦄, d.assets.find? id = some a → id ≠ ""

/-- A change of one entity or edge, of the assets, or of what the document says of itself. A
transform that comes with a new entity has to fit. -/
inductive Move (fits : Transform → Prop) (d : Document) : Document → Prop
  | amend {id : String} {e e' : Entity} (he : d.entity? id = some e) (ha : e'.Amends e) :
      Move fits d (d.putEntity id e')
  | plant {e : Entity} (hn : e.id ≠ "") (hr : e.id ≠ documentTarget) (he : d.entity? e.id = none)
      (hp : e.parentId = none) (hc : e.children = []) (ht : e.components = [])
      (hf : fits e.transform) : Move fits d (d.putEntity e.id e)
  | uproot {id : String} {e : Entity} (he : d.entity? id = some e) (hr : id ≠ d.rootEntityId)
      (hp : e.parentId = none) (hc : e.children = []) : Move fits d (d.eraseEntity id)
  | link {p c : String} {ep ec : Entity} {children : List String} (hp : d.entity? p = some ep)
      (hc : d.entity? c = some ec) (hd : ec.parentId = none) (hr : c ≠ d.rootEntityId)
      (ha : ¬ ReflTransGen d.outline.Parent c p) (hl : children.Perm (c :: ep.children)) :
      Move fits d (d.turn p children c (some p))
  | unlink {p c : String} {ep : Entity} {children : List String} (hp : d.entity? p = some ep)
      (hc : d.outline.Parent p c) (hl : ep.children.Perm (c :: children)) :
      Move fits d (d.turn p children c none)
  | addAsset {a : Asset} (hn : a.id ≠ "") :
      Move fits d { d with assets := Dict.insert d.assets a.id a }
  | removeAsset {id : String} : Move fits d { d with assets := d.assets.erase id }
  | describe {d' : Document} (hs : d'.schemaVersion = d.schemaVersion)
      (hr : d'.rootEntityId = d.rootEntityId) (he : d'.entities = d.entities)
      (ha : d'.assets = d.assets) (hw : d'.wiring = d.wiring) (hd : d.Readable → d'.Readable) :
      Move fits d d'

variable {d d' : Document} {fits : Transform → Prop} {id p c : String} {e e' ec : Entity}
  {children : List String} {parent : Option String}

/-- A document that holds nothing but its root is well formed. -/
theorem wellFormed_ofIds (document root name : String) : (ofIds document root name).WellFormed := by
  have hf := forest_ofIds document root name
  refine { toForest := hf, environment := ?_, gameSettings := by simp [ofIds],
           names := fun id e he hr => ?_, transforms := fun id e he => ?_,
           assetNames := by simp [ofIds] }
  · exact (by decide : Environment.default.isFinite = true)
  all_goals
    rw [entity?_ofIds] at he
    split at he
  · exact absurd ‹id = root› hr
  · contradiction
  · rw [← Option.some.inj he]
    exact (by decide : Transform.identity.isFinite = true)
  · contradiction

theorem outline_putEntity (d : Document) (id : String) (e : Entity) : (d.putEntity id e).outline =
    fun k => if k = id then some ⟨e.parentId, e.children⟩ else d.outline k := by
  funext k
  simp only [outline, entity?_putEntity]
  split <;> rfl

theorem outline_eraseEntity (d : Document) (id : String) : (d.eraseEntity id).outline =
    fun k => if k = id then none else d.outline k := by
  funext k
  simp only [outline, entity?_eraseEntity]
  split <;> rfl

/-- A turn leaves everything but edges alone. -/
theorem contents_turn (hpc : p ≠ c) (h : (d.turn p children c parent).entity? id = some e') :
    ∃ e, d.entity? id = some e ∧ e'.id = e.id ∧ e'.components = e.components ∧
      e'.transform = e.transform := by
  rw [entity?_turn hpc] at h
  split at h
  · rename_i hk
    obtain ⟨e, he, rfl⟩ := Option.map_eq_some_iff.mp h
    exact ⟨e, hk ▸ he, rfl, rfl, rfl⟩
  · split at h
    · rename_i hk
      obtain ⟨e, he, rfl⟩ := Option.map_eq_some_iff.mp h
      exact ⟨e, hk ▸ he, rfl, rfl, rfl⟩
    · exact ⟨e', h, rfl, rfl, rfl⟩

theorem Forest.turn (h : d.Forest) (hpc : p ≠ c)
    (ht : (d.outline.turn p children c parent).Forest d.rootEntityId) :
    (d.turn p children c parent).Forest := by
  refine ⟨h.schema, fun id e' he => ?_, outline_turn hpc ▸ ht, fun id e' he => ?_, h.assetIds,
    h.wires⟩
  · obtain ⟨e, hd, hid, -⟩ := contents_turn hpc he
    exact hid.trans (h.ids hd)
  · obtain ⟨e, hd, -, ht, -⟩ := contents_turn hpc he
    exact ht ▸ h.types hd

theorem Forest.putEntity (h : d.Forest) (he : e.id = id)
    (ht : ∀ c ∈ e.components, c.componentType ≠ "")
    (hf : (d.putEntity id e).outline.Forest d.rootEntityId) : (d.putEntity id e).Forest := by
  refine ⟨h.schema, fun k e' hk => ?_, hf, fun k e' hk => ?_, h.assetIds, h.wires⟩
  all_goals
    rw [entity?_putEntity] at hk
    split at hk
  · obtain rfl := Option.some.inj hk
    simp_all
  · exact h.ids hk
  · exact Option.some.inj hk ▸ ht
  · exact h.types hk

theorem ne_of_parent (h : d.Forest) (hc : d.outline.Parent p c) : p ≠ c := by
  rintro rfl
  exact h.tree.acyclic p (.single hc)

/-- The parent of an entity lists it at one place. -/
theorem Forest.place (h : d.Forest) (hc : d.entity? c = some ec) (hp : ec.parentId = some p) :
    p ≠ c ∧ ∃ ep i, d.entity? p = some ep ∧ ep.children.Nodup ∧ ep.childIndex? c = some i := by
  have hparent : d.outline.Parent p c := ⟨_, outline_of_entity? hc, hp⟩
  obtain ⟨m, hm, -⟩ := h.tree.listed hparent
  obtain ⟨ep, hep, rfl⟩ := Option.map_eq_some_iff.mp hm
  have hmem : c ∈ ep.children := (Outline.lists_iff hm).mp (h.tree.edges.mp hparent)
  obtain ⟨i, hi⟩ := Entity.childIndex?_of_mem hmem
  exact ⟨ne_of_parent h hparent, ep, i, hep, h.tree.nodup hm, hi⟩

/-- However an entity is turned, below it stands only what stood there before. -/
theorem below_of_turn {r : String} (hpc : p ≠ c) (hc : d.entity? c = some ec)
    (h : ReflTransGen (d.turn p children c parent).outline.Parent c r) :
    ReflTransGen d.outline.Parent c r := by
  induction h with
  | refl => exact .refl
  | tail _ hedge ih =>
    rw [outline_turn hpc, Outline.parent_turn hpc (outline_of_entity? hc)] at hedge
    rcases hedge with ⟨rfl, -⟩ | ⟨-, hedge⟩
    · exact .refl
    · exact ih.tail hedge

/-- An entity does not come to stand above its parent by being turned. -/
theorem Forest.not_above {q : String} (h : d.Forest) (hparent : d.outline.Parent q c) (hpc : p ≠ c)
    (hc : d.entity? c = some ec) :
    ¬ ReflTransGen (d.turn p children c parent).outline.Parent c q := fun hr =>
  h.tree.acyclic c (.tail' (below_of_turn hpc hc hr) hparent)

theorem Forest.new_not_root (h : d.Forest) (hc : d.entity? c = none) : d.isRoot c = false := by
  rw [Bool.eq_false_iff, ne_eq, isRoot_iff]
  rintro rfl
  obtain ⟨m, hm, -⟩ := h.tree.root
  simp [outline, hc] at hm

/-- An entity with a parent is not the root. -/
theorem Forest.not_root (h : d.Forest) (hc : d.entity? c = some ec) (hp : ec.parentId = some p) :
    d.isRoot c = false := by
  rw [Bool.eq_false_iff, ne_eq, isRoot_iff]
  rintro rfl
  obtain ⟨m, hm, hroot⟩ := h.tree.root
  exact Outline.not_parent hm hroot p ⟨_, outline_of_entity? hc, hp⟩

/-- Moves turn forests into forests. -/
theorem Move.forest (h : d.Forest) (hm : Move fits d d') : d'.Forest := by
  cases hm with
  | @amend id e e' he ha =>
    refine h.putEntity (ha.id.trans (h.ids he)) (ha.types (h.types he)) ?_
    have hsame : (d.putEntity id e').outline = d.outline := by
      rw [outline_putEntity]
      funext k
      by_cases hk : k = id
      · rw [if_pos hk, hk, outline_of_entity? he, ha.parentId, ha.children]
      · rw [if_neg hk]
    exact hsame ▸ h.tree
  | @plant e hn hr he hp hc ht hf =>
    refine h.putEntity rfl (by simp [ht]) ?_
    rw [outline_putEntity, hp, hc]
    exact h.tree.plant (by simp [outline, he])
  | @uproot id e he hr hp hc =>
    refine ⟨h.schema, fun k e' hk => ?_, ?_, fun k e' hk => ?_, h.assetIds, h.wires⟩
    · rw [entity?_eraseEntity] at hk
      split at hk
      · contradiction
      · exact h.ids hk
    · rw [outline_eraseEntity]
      exact h.tree.uproot (outline_of_entity? he) hp hc hr
    · rw [entity?_eraseEntity] at hk
      split at hk
      · contradiction
      · exact h.types hk
  | @link p c ep ec children hp hc hd hr ha hl =>
    have hpc : p ≠ c := fun e => ha (e ▸ .refl)
    exact h.turn hpc (h.tree.link (outline_of_entity? hp) (outline_of_entity? hc) hd hr ha hl)
  | @unlink p c ep children hp hc hl =>
    exact h.turn (ne_of_parent h hc) (h.tree.unlink (outline_of_entity? hp) hc hl)
  | @addAsset a hn =>
    refine ⟨h.schema, h.ids, h.tree, h.types, fun k b hk => ?_, h.wires⟩
    rw [Dict.find?_insert] at hk
    split at hk
    · rename_i he
      rw [← Option.some.inj hk, he]
    · exact h.assetIds hk
  | @removeAsset id =>
    refine ⟨h.schema, h.ids, h.tree, h.types, fun k b hk => ?_, h.wires⟩
    rw [Ascending.find?_erase] at hk
    split at hk
    · contradiction
    · exact h.assetIds hk
  | describe hs hr he ha hw hd =>
    have houtline : d'.outline = d.outline := by
      funext k
      simp only [outline, entity?, he]
    refine ⟨hs ▸ h.schema, fun k e hk => ?_, houtline ▸ hr ▸ h.tree, fun k e hk => ?_,
      ha ▸ h.assetIds, hw ▸ h.wires⟩
    · exact h.ids (by simpa only [entity?, he] using hk)
    · exact h.types (by simpa only [entity?, he] using hk)

theorem Move.rootEntityId (hm : Move fits d d') : d'.rootEntityId = d.rootEntityId := by
  cases hm with
  | describe hs hr => exact hr
  | _ => rfl

/-- What moves keep of names and numbers, entity by entity. -/
private theorem Move.entities (h : d.WellFormed) (hm : Move (·.isFinite = true) d d') :
    ∀ id e, d'.entity? id = some e →
      (id ≠ d.rootEntityId → id ≠ "" ∧ id ≠ documentTarget) ∧ e.transform.isFinite = true := by
  have hold : ∀ id e, d.entity? id = some e →
      (id ≠ d.rootEntityId → id ≠ "" ∧ id ≠ documentTarget) ∧ e.transform.isFinite = true :=
    fun id e he => ⟨h.names he, h.transforms he⟩
  have hturn : ∀ {p c : String} {children : List String} {parent : Option String}, p ≠ c →
      ∀ id e, (d.turn p children c parent).entity? id = some e →
        (id ≠ d.rootEntityId → id ≠ "" ∧ id ≠ documentTarget) ∧ e.transform.isFinite = true := by
    intro p c children parent hpc id e' he
    obtain ⟨e, hd, -, -, ht⟩ := contents_turn hpc he
    exact ⟨(hold id e hd).1, ht ▸ (hold id e hd).2⟩
  intro id e he'
  cases hm with
  | @amend k e₀ e' he ha =>
    rw [entity?_putEntity] at he'
    split at he'
    · rename_i hk
      obtain rfl := Option.some.inj he'
      exact ⟨hk ▸ h.names he, ha.transform (h.transforms he)⟩
    · exact hold id e he'
  | @plant n hn hr he hp hc ht hf =>
    rw [entity?_putEntity] at he'
    split at he'
    · rename_i hk
      obtain rfl := Option.some.inj he'
      exact ⟨fun _ => hk ▸ ⟨hn, hr⟩, hf⟩
    · exact hold id e he'
  | uproot he hr hp hc =>
    rw [entity?_eraseEntity] at he'
    split at he'
    · contradiction
    · exact hold id e he'
  | @link p c _ _ _ hp hc hd hr ha hl =>
    have hpc : p ≠ c := fun e => ha (e ▸ .refl)
    exact hturn hpc id e he'
  | unlink hp hc hl => exact hturn (ne_of_parent h.toForest hc) id e he'
  | addAsset hn => exact hold id e he'
  | removeAsset => exact hold id e he'
  | describe hs hr he ha hw hd => exact hold id e (by simpa only [entity?, he] using he')

theorem Move.wellFormed (h : d.WellFormed) (hm : Move (·.isFinite = true) d d') :
    d'.WellFormed := by
  have hentities := hm.entities h
  refine { hm.forest h.toForest with
    names := fun id e he => hm.rootEntityId ▸ (hentities id e he).1
    transforms := fun id e he => (hentities id e he).2
    environment := ?_
    gameSettings := ?_
    assetNames := ?_ }
  · cases hm with
    | describe hs hr he ha hw hd => exact (hd h.toReadable).environment
    | _ => exact h.environment
  · cases hm with
    | describe hs hr he ha hw hd => exact (hd h.toReadable).gameSettings
    | _ => exact h.gameSettings
  · intro id b hb
    cases hm with
    | addAsset hn =>
      rw [Dict.find?_insert] at hb
      split at hb
      · rename_i hk
        exact hk ▸ hn
      · exact h.assetNames hb
    | removeAsset =>
      rw [Ascending.find?_erase] at hb
      split at hb
      · contradiction
      · exact h.assetNames hb
    | describe hs hr he ha hw hd => exact h.assetNames (ha ▸ hb)
    | _ => exact h.assetNames hb

theorem Forest.moves (h : d.Forest) (hm : ReflTransGen (Move fits) d d') : d'.Forest := by
  induction hm with
  | refl => exact h
  | tail _ hmove ih => exact hmove.forest ih

theorem WellFormed.moves (h : d.WellFormed) (hm : ReflTransGen (Move (·.isFinite = true)) d d') :
    d'.WellFormed := by
  induction hm with
  | refl => exact h
  | tail _ hmove ih => exact hmove.wellFormed ih

end Document
end SceneGraph
