import SceneGraph.DocumentBuilding
import SceneGraph.Proofs.ContentReversals
import SceneGraph.Proofs.EngineTraces
import SceneGraph.Proofs.ValidDocuments

/-!
# Deletions: which of them can be taken back

Deleting an entity or an asset can be taken back if and only if its id may be given to a new one.
Valid documents may have ids that may not: the empty one, and the one that stands for the document.
`deletion_undone_iff` covers all valid documents, and `misnamed` is one where something is lost.
-/
namespace SceneGraph

namespace Edit

/-- The edit takes away an entity or an asset. -/
def isDeletion : Edit → Bool
  | deleteEntity .. => true
  | removeAsset .. => true
  | _ => false

/-- Why nothing new may get the name of what the edit takes away, if so. -/
def refusal : Edit → Option OpError
  | deleteEntity id _ =>
    if id = "" then some (.invalidValue "entityId" "entity id must not be empty")
    else if id = documentTarget then some (.reservedId id)
    else none
  | removeAsset id _ =>
    if id = "" then some (.invalidValue "asset.id" "asset id must not be empty") else none
  | _ => none

open Document
variable {registry : Option Registry} {d : Document} {id : String} {e : Edit} {a : Applied}
  {cause : OpError}

theorem refusal_deleteEntity_eq_none_iff {old : Option Entity} :
    (deleteEntity id old).refusal = none ↔ id ≠ "" ∧ id ≠ documentTarget := by
  by_cases hn : id = ""
  · simp [refusal, hn]
  · rw [refusal, if_neg hn]
    by_cases hr : id = documentTarget <;> simp [hn, hr]

theorem refusal_removeAsset_eq_none_iff {old : Option Asset} :
    (removeAsset id old).refusal = none ↔ id ≠ "" := by
  simp [refusal]

/-- No entity is created under a refused id, whatever the document holds. -/
theorem applyCreate_refused {n : NewEntity} {old : Option Entity}
    (h : (deleteEntity n.entityId old).refusal = some cause) : applyCreate d n = .error cause := by
  simp only [refusal] at h
  split at h
  · rename_i hempty
    obtain rfl := Option.some.inj h
    simp [applyCreate, ensure, hempty]
    rfl
  · rename_i hempty
    split at h
    · rename_i htarget
      obtain rfl := Option.some.inj h
      simp [applyCreate, ensure, htarget]
      rfl
    · contradiction

theorem applyAddAsset_refused {asset : Asset} {old : Option Asset}
    (h : (removeAsset asset.id old).refusal = some cause) :
    applyAddAsset d asset = .error cause := by
  simp only [refusal] at h
  split at h
  · rename_i hempty
    obtain rfl := Option.some.inj h
    simp [applyAddAsset, ensure, hempty]
    rfl
  · contradiction

/-- A deletion changes the document. Where the name may be given again, the way back is open; where
it may not, its first step is rejected. -/
theorem inverse_of_deletion (h : d.Forest) (he : e.isDeletion = true)
    (ha : e.apply registry d = .ok a) :
    a.document ≠ d ∧
      (e.refusal = none → ∃ b forth, a.inverse.apply none a.document = .ok b ∧
        Trace none b.document a.sequel d forth) ∧
      ∀ cause, e.refusal = some cause → a.inverse.apply none a.document = .error cause := by
  cases e with
  | deleteEntity id old =>
    refine ⟨?_, fun hr => ?_, fun cause hr => ?_⟩
    · obtain ⟨e, hfound, -, -, rfl⟩ := applyDelete_ok_iff.mp ha
      rintro (hsame : Document.eraseEntity _ id = d)
      rw [← hsame, entity?_eraseEntity, if_pos rfl] at hfound
      contradiction
    · obtain ⟨hn, hr⟩ := refusal_deleteEntity_eq_none_iff.mp hr
      exact delete_recreated h ha hn hr
    · obtain ⟨e, hfound, -, -, rfl⟩ := applyDelete_ok_iff.mp ha
      obtain rfl : e.id = id := h.ids hfound
      exact applyCreate_refused hr
  | removeAsset id old =>
    obtain ⟨asset, hasset, rfl⟩ := applyRemoveAsset_ok_iff.mp ha
    obtain rfl : asset.id = id := h.assetIds hasset
    refine ⟨fun hsame => ?_, fun hr => ?_, fun cause hr => applyAddAsset_refused hr⟩
    · have hgone : (d.assets.erase asset.id).find? asset.id = none := by
        simp [Ascending.find?_erase]
      have hassets : d.assets.erase asset.id = d.assets := congrArg Document.assets hsame
      exact Option.some_ne_none asset (hasset.symm.trans (hassets ▸ hgone))
    · refine ⟨_, [], applyAddAsset_ok_iff.mpr ⟨refusal_removeAsset_eq_none_iff.mp hr, ?_, rfl⟩, ?_⟩
      · simp [Ascending.find?_erase]
      · simp only [Dict.insert_erase, Dict.insert_of_find? hasset]
        exact .nil
  | _ => contradiction

end Edit

namespace Document
variable {registry : Option Registry} {d d₁ : Document} {stamps : Stamps} {envelope : Envelope}
  {inverse : Op} {rollbacks : List Rollback} {e : Edit}

/-- Deleting an entity or an asset of a valid document can be taken back exactly when its id may be
given to a new one, and then the document is as it was. Otherwise the inverse is rejected for that
reason, and what was deleted is lost. -/
theorem deletion_undone_iff (hd : d.isValid = true) (he : e.isDeletion = true)
    (h : d.apply registry stamps (.edit envelope e) = ⟨d₁, .ok inverse, rollbacks⟩)
    (undoStamps : Stamps) :
    let undone := d₁.apply none undoStamps inverse
    d₁ ≠ d ∧ (e.refusal = none → ∃ again, undone = ⟨d, .ok again, []⟩) ∧
      ∀ cause, e.refusal = some cause →
        ∃ lost, undone = .reject d₁ lost ∧ lost.rootCause = cause.rootCause := by
  intro undone
  obtain ⟨-, a, ha, rfl, rfl, -⟩ := Engine.applyUndoing_edit_ok_iff.mp h
  obtain ⟨hne, hback, hlost⟩ := Edit.inverse_of_deletion (isValid_iff.mp hd).1 he ha
  refine ⟨hne, fun hr => ?_, fun cause hr => ?_⟩
  · obtain ⟨b, forth, hb, ht⟩ := hback hr
    exact Engine.inverseOp_accepted hb ht
  · exact Engine.inverseOp_rejected (hlost cause hr)

/-- A scene with a lamp and an asset under ids that may not be given to new ones. -/
def misnamed : Document :=
  ((ofIds "scene" "root" "Scene").addEntity (((Entity.ofId documentTarget "Lamp").withParent
    "root").withComponent (.ofType "Light"))).addAsset ⟨"", .texture, "Wood", none, none, .nil⟩

/-- The scene is valid, its lamp and its asset are deleted, and neither comes back. -/
theorem misnamed_deletions_lost :
    misnamed.isValid = true ∧
      (∃ d₁ inverse, misnamed.apply none .plain
          (.edit .plain (.deleteEntity documentTarget none)) = ⟨d₁, .ok inverse, []⟩ ∧
        d₁ ≠ misnamed ∧ ∃ lost, d₁.apply none .plain inverse = .reject d₁ lost ∧
          lost.rootCause = .reservedId documentTarget) ∧
      ∃ d₁ inverse, misnamed.apply none .plain (.edit .plain (.removeAsset "" none)) =
          ⟨d₁, .ok inverse, []⟩ ∧
        d₁ ≠ misnamed ∧ ∃ lost, d₁.apply none .plain inverse = .reject d₁ lost ∧
          lost.rootCause = .invalidValue "asset.id" "asset id must not be empty" := by
  have hvalid : misnamed.isValid = true := by decide
  have hentity : misnamed.apply none .plain
      (.edit .plain (.deleteEntity documentTarget none)) = ⟨_, .ok _, []⟩ := rfl
  have hasset : misnamed.apply none .plain
      (.edit .plain (.removeAsset "" none)) = ⟨_, .ok _, []⟩ := rfl
  obtain ⟨hne, -, hlost⟩ := deletion_undone_iff hvalid rfl hentity .plain
  obtain ⟨hne', -, hlost'⟩ := deletion_undone_iff hvalid rfl hasset .plain
  exact ⟨hvalid, ⟨_, _, hentity, hne, hlost _ rfl⟩, _, _, hasset, hne', hlost' _ rfl⟩

end Document
end SceneGraph
