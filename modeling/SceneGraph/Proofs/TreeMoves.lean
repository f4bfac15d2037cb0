import SceneGraph.Proofs.Forests
import SceneGraph.Proofs.ValueReading

/-!
# Tree moves: structural edits as turns of one edge

A turn gives one entity another list of children and a second one another parent. All moves of
entities are made of turns, and a turn is undone by turning back.
-/
namespace SceneGraph

namespace Document
variable {d : Document} {id p c k : String} {e ep ec : Entity} {children : List String}
  {parent : Option String}

@[simp] theorem entity?_updateEntity (d : Document) (id : String) (f : Entity → Entity)
    (k : String) : (d.updateEntity id f).entity? k =
      if k = id then (d.entity? id).map f else d.entity? k :=
  Dict.find?_modify d.entities id f k

@[simp] theorem entity?_putEntity (d : Document) (id : String) (e : Entity) (k : String) :
    (d.putEntity id e).entity? k = if k = id then some e else d.entity? k :=
  Dict.find?_insert d.entities id e k

theorem entity?_putEntity_self (d : Document) (id : String) (e : Entity) :
    (d.putEntity id e).entity? id = some e := by
  simp

/-- The document without the entity under a key. -/
def eraseEntity (d : Document) (id : String) : Document :=
  { d with entities := d.entities.erase id }

@[simp] theorem entity?_eraseEntity (d : Document) (id k : String) :
    (d.eraseEntity id).entity? k = if k = id then none else d.entity? k :=
  Ascending.find?_erase d.entities id k

/-- Documents that differ at most in their entities are the same when look-ups are. -/
theorem eq_of_entity? {m m' : Dict Entity} (h : ∀ id, m.find? id = m'.find? id) :
    { d with entities := m } = { d with entities := m' } := by
  rw [Ascending.ext_find? h]

theorem updateEntity_congr {f g : Entity → Entity}
    (h : ∀ e, d.entity? id = some e → f e = g e) : d.updateEntity id f = d.updateEntity id g := by
  refine eq_of_entity? fun k => ?_
  rw [Dict.find?_modify, Dict.find?_modify]
  split
  · exact Option.map_congr h
  · rfl

theorem putEntity_putEntity (d : Document) (id : String) (e e' : Entity) :
    (d.putEntity id e).putEntity id e' = d.putEntity id e' := by
  simp [putEntity]

theorem putEntity_self (h : d.entity? id = some e) : d.putEntity id e = d := by
  simp [putEntity, Dict.insert_of_find? h]

/-- Putting an entity back undoes its replacement. -/
theorem putEntity_back (h : d.entity? id = some e) (e' : Entity) :
    (d.putEntity id e').putEntity id e = d := by
  rw [putEntity_putEntity, putEntity_self h]

theorem eraseEntity_putEntity (h : d.entity? id = none) (e : Entity) :
    (d.putEntity id e).eraseEntity id = d := by
  simp [putEntity, eraseEntity, Ascending.erase_of_find?_none h]

theorem putEntity_eraseEntity (d : Document) (id : String) (e : Entity) :
    (d.eraseEntity id).putEntity id e = d.putEntity id e := by
  simp [putEntity, eraseEntity]

@[simp] theorem getEntity_ok_iff : d.getEntity id = .ok e ↔ d.entity? id = some e := by
  unfold getEntity
  cases d.entity? id <;> simp

@[simp] theorem getParent_ok_iff : d.getParent id = .ok e ↔ d.entity? id = some e := by
  unfold getParent
  cases d.entity? id <;> simp

theorem listChild_none_ok_iff {index : Option Nat} {d' : Document} :
    d.listChild none index c = .ok d' ↔ d = d' := by
  simp [listChild]

theorem listChild_some_ok_iff {index : Option Nat} {d' : Document} :
    d.listChild (some p) index c = .ok d' ↔ ∃ ep, d.entity? p = some ep ∧
      d' = d.updateEntity p ({ · with children := insertClamped ep.children index c }) := by
  simp only [listChild]
  cases hp : d.entity? p with
  | none => simp [not_contains_iff.mpr hp]
  | some ep =>
    rw [if_pos (contains_iff.mpr ⟨ep, hp⟩),
      @updateEntity_congr d p _ ({ · with children := insertClamped ep.children index c })
        fun e he => by rw [Option.some.inj (hp.symm.trans he)]]
    simp [eq_comm]

theorem isRoot_iff : d.isRoot id = true ↔ d.rootEntityId = id := beq_iff_eq

def turn (d : Document) (p : String) (children : List String) (c : String)
    (parent : Option String) : Document :=
  (d.updateEntity p ({ · with children })).updateEntity c ({ · with parentId := parent })

theorem update_children (hp : d.entity? p = some ep) (f : List String → List String) :
    (d.updateEntity p fun e => { e with children := f e.children }) =
      d.updateEntity p ({ · with children := f ep.children }) :=
  updateEntity_congr fun e he => by rw [Option.some.inj (hp.symm.trans he)]

theorem turn_of_update (hp : d.entity? p = some ep) (f : List String → List String) :
    ((d.updateEntity p fun e => { e with children := f e.children }).updateEntity c
      ({ · with parentId := parent })) = d.turn p (f ep.children) c parent := by
  rw [update_children hp f, turn]

theorem entity?_turn (hpc : p ≠ c) (k : String) : (d.turn p children c parent).entity? k =
    if k = c then (d.entity? c).map ({ · with parentId := parent })
    else if k = p then (d.entity? p).map ({ · with children }) else d.entity? k := by
  simp only [turn, entity?_updateEntity, if_neg hpc.symm]

theorem entity?_update_eq_turn {q : String} (hqc : q ≠ c) :
    (d.updateEntity p ({ · with children })).entity? q =
      (d.turn p children c parent).entity? q := by
  simp only [turn, entity?_updateEntity, if_neg hqc]

theorem outline_turn (hpc : p ≠ c) :
    (d.turn p children c parent).outline = d.outline.turn p children c parent := by
  funext k
  simp only [outline, Outline.turn, entity?_turn hpc]
  by_cases hkc : k = c
  · simp [hkc, Function.comp_def]
  · by_cases hkp : k = p
    · simp [hkp, hpc, Function.comp_def]
    · simp [hkc, hkp]

theorem turn_turn (hpc : p ≠ c) (children' : List String) (parent' : Option String) :
    (d.turn p children c parent).turn p children' c parent' = d.turn p children' c parent' := by
  refine eq_of_entity? fun k => ?_
  change ((d.turn p children c parent).turn p children' c parent').entity? k =
    (d.turn p children' c parent').entity? k
  simp only [entity?_turn hpc, if_neg hpc, if_true]
  by_cases hkc : k = c
  · simp [hkc, Function.comp_def]
  · by_cases hkp : k = p
    · simp [hkp, hpc, Function.comp_def]
    · simp [hkc, hkp]

theorem turn_self (hpc : p ≠ c) (hp : d.entity? p = some ep) (hc : d.entity? c = some ec) :
    d.turn p ep.children c ec.parentId = d := by
  refine @eq_of_entity? d _ d.entities fun k => ?_
  change (d.turn p ep.children c ec.parentId).entity? k = d.entity? k
  rw [entity?_turn hpc]
  by_cases hkc : k = c
  · simp [hkc, hc]
  · by_cases hkp : k = p
    · simp [hkp, hpc, hp]
    · simp [hkc, hkp]

/-- Two turns of one entity in a row, from one parent to another. -/
theorem turn_turn_of_update {q : String} {children' : List String} (hpc : p ≠ c) (hqc : q ≠ c)
    (parent' : Option String) :
    ((d.updateEntity p ({ · with children })).updateEntity q
      ({ · with children := children' })).updateEntity c ({ · with parentId := parent }) =
      (d.turn p children c parent').turn q children' c parent := by
  refine eq_of_entity? fun k => ?_
  change (((d.updateEntity p ({ · with children })).updateEntity q
      ({ · with children := children' })).updateEntity c
        ({ · with parentId := parent })).entity? k =
    ((d.turn p children c parent').turn q children' c parent).entity? k
  simp only [entity?_turn hpc, entity?_turn hqc, entity?_updateEntity, if_neg hqc, if_neg hqc.symm,
    if_neg hpc.symm, if_true]
  by_cases hkc : k = c
  · simp [hkc, Function.comp_def]
  · simp [hkc]

/-- A new entity below a parent is a detached one that is then turned to the parent. -/
theorem putEntity_of_update (hpc : p ≠ c) (he : e.parentId = some p) :
    (d.updateEntity p ({ · with children })).putEntity c e =
      (d.putEntity c { e with parentId := none }).turn p children c (some p) := by
  refine eq_of_entity? fun k => ?_
  change ((d.updateEntity p ({ · with children })).putEntity c e).entity? k =
    ((d.putEntity c { e with parentId := none }).turn p children c (some p)).entity? k
  simp only [entity?_turn hpc, entity?_updateEntity, entity?_putEntity, if_neg hpc, if_true]
  by_cases hkc : k = c
  · simp [hkc, ← he]
  · simp [hkc]

theorem eraseEntity_of_update (hpc : p ≠ c) (parent : Option String) :
    (d.updateEntity p ({ · with children })).eraseEntity c =
      (d.turn p children c parent).eraseEntity c := by
  refine eq_of_entity? fun k => ?_
  change ((d.updateEntity p ({ · with children })).eraseEntity c).entity? k =
    ((d.turn p children c parent).eraseEntity c).entity? k
  simp only [entity?_turn hpc, entity?_updateEntity, entity?_eraseEntity]
  by_cases hkc : k = c <;> simp [hkc]

/-- Turning back undoes a turn. -/
theorem turn_back (hpc : p ≠ c) (hp : d.entity? p = some ep) (hc : d.entity? c = some ec) :
    (d.turn p children c parent).turn p ep.children c ec.parentId = d := by
  rw [turn_turn hpc, turn_self hpc hp hc]

end Document

namespace Edit

@[simp] theorem ensure_ok_iff {condition : Bool} {error : OpError} {u : Unit} :
    ensure condition error = .ok u ↔ condition = true := by
  cases condition <;> simp [ensure]

variable {d : Document} {id p c : String} {index : Option Nat} {a : Applied}

theorem applyAddChild_ok_iff : applyAddChild d p c index = .ok a ↔
    ∃ ep ec, d.entity? p = some ep ∧ d.entity? c = some ec ∧ d.isRoot c = false ∧
      ec.parentId = none ∧ d.isAncestor c p = false ∧
      a = ⟨d.turn p (insertClamped ep.children index c) c (some p), .removeChild p c, []⟩ := by
  simp only [applyAddChild, bind_ok_iff, ensure_ok_iff, exists_const, Document.getEntity_ok_iff,
    Document.contains_iff, Bool.not_eq_true']
  constructor
  · rintro ⟨⟨ep, hp⟩, ec, hc, hroot, h⟩
    cases hpar : ec.parentId with
    | some parent => simp [hpar] at h
    | none =>
      simp only [hpar, bind_ok_iff, ensure_ok_iff, exists_const, pure_ok_iff,
        Bool.not_eq_true'] at h
      exact ⟨ep, ec, hp, hc, hroot, hpar, h.1, by
        rw [← h.2, Document.turn_of_update hp (insertClamped · index c)]⟩
  · rintro ⟨ep, ec, hp, hc, hroot, hpar, ha, rfl⟩
    refine ⟨⟨ep, hp⟩, ec, hc, hroot, ?_⟩
    simp only [hpar, ha, ensure_ok_iff, bind_ok_iff, exists_const, pure_ok_iff]
    exact ⟨rfl, by rw [Document.turn_of_update hp (insertClamped · index c)]⟩

theorem applyRemoveChild_ok_iff : applyRemoveChild d p c = .ok a ↔
    ∃ ep ec i, d.entity? p = some ep ∧ d.entity? c = some ec ∧ ec.parentId = some p ∧
      ep.childIndex? c = some i ∧
      a = ⟨d.turn p (ep.children.eraseIdx i) c none, .addChild p c (some i), []⟩ := by
  simp only [applyRemoveChild, bind_ok_iff, ensure_ok_iff, exists_const,
    Document.getEntity_ok_iff, Document.getParent_ok_iff, decide_eq_true_eq]
  constructor
  · rintro ⟨ec, hc, ep, hp, hpar, h⟩
    cases hi : ep.childIndex? c with
    | none => simp [hi] at h
    | some i =>
      simp only [hi, pure_ok_iff] at h
      exact ⟨ep, ec, i, hp, hc, hpar, hi, by
        rw [← h, Document.turn_of_update hp (·.eraseIdx i)]⟩
  · rintro ⟨ep, ec, i, hp, hc, hpar, hi, rfl⟩
    refine ⟨ec, hc, ep, hp, hpar, ?_⟩
    simp only [hi, pure_ok_iff, Document.turn_of_update hp (·.eraseIdx i)]

theorem applyReparent_ok_iff {q : String} (h : d.outline.Forest d.rootEntityId) :
    applyReparent d c q index = .ok a ↔
    ∃ ec p ep i et, d.entity? c = some ec ∧ d.isRoot c = false ∧ ec.parentId = some p ∧
      d.contains q = true ∧ d.isAncestor c q = false ∧ d.entity? p = some ep ∧
      ep.childIndex? c = some i ∧ (d.turn p (ep.children.eraseIdx i) c none).entity? q = some et ∧
      a = ⟨(d.turn p (ep.children.eraseIdx i) c none).turn q (insertClamped et.children index c) c
        (some q), .reparent c p (some i) (some q) (some (clampIndex et.children index)), []⟩ := by
  have hdocument : ∀ {ep et : Entity} {p : String} {i : Nat}, p ≠ c → q ≠ c →
      (d.turn p (ep.children.eraseIdx i) c none).entity? q = some et →
      ((d.updateEntity p ({ · with children := ep.children.eraseIdx i })).updateEntity q
          fun e => { e with children := insertClamped e.children index c }).updateEntity c
            ({ · with parentId := some q }) =
        (d.turn p (ep.children.eraseIdx i) c none).turn q (insertClamped et.children index c) c
          (some q) := by
    intro ep et p i hpc hqc het
    rw [← Document.entity?_update_eq_turn hqc] at het
    rw [Document.update_children het (insertClamped · index c),
      Document.turn_turn_of_update hpc hqc none]
  have hne : ∀ {ec : Entity} {p : String}, d.entity? c = some ec → ec.parentId = some p →
      d.isAncestor c q = false → p ≠ c ∧ q ≠ c := by
    intro ec p hc hpar ha
    refine ⟨?_, Document.ne_of_isAncestor ha⟩
    rintro rfl
    exact h.acyclic p (.single ⟨_, Document.outline_of_entity? hc, hpar⟩)
  simp only [applyReparent, bind_ok_iff, ensure_ok_iff, exists_const, Document.getEntity_ok_iff,
    Bool.not_eq_true']
  constructor
  · rintro ⟨ec, hc, hroot, h⟩
    cases hpar : ec.parentId with
    | none => simp [hpar] at h
    | some p =>
      simp only [hpar, bind_ok_iff, ensure_ok_iff, exists_const, Document.getEntity_ok_iff,
        Bool.not_eq_true'] at h
      obtain ⟨hq, ha, ep, hp, h⟩ := h
      cases hi : ep.childIndex? c with
      | none => simp [hi] at h
      | some i =>
        simp only [hi, bind_ok_iff, Document.getEntity_ok_iff, pure_ok_iff,
          Document.update_children hp (·.eraseIdx i)] at h
        obtain ⟨et, het, rfl⟩ := h
        obtain ⟨hpc, hqc⟩ := hne hc hpar ha
        rw [Document.entity?_update_eq_turn hqc] at het
        exact ⟨ec, p, ep, i, et, hc, hroot, hpar, hq, ha, hp, hi, het, by
          rw [hdocument hpc hqc het]⟩
  · rintro ⟨ec, p, ep, i, et, hc, hroot, hpar, hq, ha, hp, hi, het, rfl⟩
    obtain ⟨hpc, hqc⟩ := hne hc hpar ha
    refine ⟨ec, hc, hroot, ?_⟩
    simp only [hpar, bind_ok_iff, ensure_ok_iff, exists_const, Document.getEntity_ok_iff,
      Bool.not_eq_true', ha, hq, true_and]
    refine ⟨ep, hp, ?_⟩
    simp only [hi, bind_ok_iff, Document.getEntity_ok_iff, pure_ok_iff,
      Document.update_children hp (·.eraseIdx i)]
    exact ⟨et, (Document.entity?_update_eq_turn hqc).trans het, by rw [hdocument hpc hqc het]⟩

theorem applyCreate_ok_iff {n : NewEntity} : applyCreate d n = .ok a ↔
    n.entityId ≠ "" ∧ n.entityId ≠ documentTarget ∧ d.entity? n.entityId = none ∧
      ∃ linked, d.listChild n.parentId n.index n.entityId = .ok linked ∧
        a = ⟨linked.putEntity n.entityId n.entity, .deleteEntity n.entityId (some n.entity), []⟩ := by
  simp only [applyCreate, bind_ok_iff, ensure_ok_iff, exists_const, pure_ok_iff, Bool.not_eq_true',
    Document.not_contains_iff, decide_eq_true_eq, @eq_comm _ _ a]
  simp

theorem applyDelete_ok_iff : applyDelete d id = .ok a ↔
    ∃ e, d.entity? id = some e ∧ d.isRoot id = false ∧ e.children = [] ∧
      a = ⟨(match e.parentId with
          | none => d
          | some p => d.updateEntity p fun q =>
            { q with children := q.children.filter (· ≠ id) }).eraseEntity id,
        .createEntity (.ofEntity e ((e.parentId.bind d.entity?).bind (·.childIndex? id))),
        e.components.mapIdx fun i c => .addComponent id c (some i)⟩ := by
  simp only [applyDelete, bind_ok_iff, ensure_ok_iff, exists_const, pure_ok_iff, Bool.not_eq_true',
    Document.getEntity_ok_iff, List.isEmpty_iff, @eq_comm _ _ a]
  rfl

end Edit
end SceneGraph
