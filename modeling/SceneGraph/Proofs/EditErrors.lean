import SceneGraph.EditEffects

/-!
# Edit errors: an edit is rejected for reasons of its own

An edit that is rejected by itself is rejected with a direct error, never with that of a batch or of
a rollback. Each guard and each look-up that edits are made of fails directly, and failing directly
is kept by sequencing.
-/
namespace SceneGraph

namespace OpError

/-- The error is not that of a batch or of a rollback. -/
def isDirect : OpError → Bool
  | batchFailed .. | rollbackFailed .. => false
  | _ => true

end OpError

/-- A step that fails with direct errors only. -/
structure FailsDirectly {α : Type} (x : Except OpError α) : Prop where
  direct : ∀ error, x = .error error → error.isDirect = true

namespace FailsDirectly
variable {ε α β : Type} {x : Except OpError α} {f : α → Except OpError β}

theorem ok (a : α) : FailsDirectly (.ok a : Except OpError α) := ⟨nofun⟩

theorem pure (a : α) : FailsDirectly (Pure.pure a : Except OpError α) := ⟨nofun⟩

theorem error {error : OpError} (h : error.isDirect = true) :
    FailsDirectly (.error error : Except OpError α) := ⟨fun _ he => Except.error.inj he ▸ h⟩

theorem bind (hx : FailsDirectly x) (hf : ∀ a, FailsDirectly (f a)) :
    FailsDirectly (x >>= f) := by
  cases x with
  | error e => exact error (hx.direct e rfl)
  | ok a => exact hf a

theorem mapError (x : Except ε α) {f : ε → OpError} (hf : ∀ e, (f e).isDirect = true) :
    FailsDirectly (x.mapError f) := by
  cases x with
  | error e => exact error (hf e)
  | ok a => exact ok a

theorem check {condition : Bool} {e : OpError} (h : e.isDirect = true) :
    FailsDirectly (Edit.ensure condition e) := by
  cases condition with
  | false => exact error h
  | true => exact ok ()

end FailsDirectly

namespace PropertyWrite
open FailsDirectly

theorem inField_failsDirectly {α : Type} (read : Reader α) (stored : Json) (text : String)
    (path : Path) (value : Option Json) : FailsDirectly (inField read stored text path value) :=
  (mapError _ fun _ => rfl).bind fun _ => (mapError _ fun _ => rfl).bind fun _ => pure _

theorem address_failsDirectly (removable? : Path → Option Bool) (text : String)
    (value : Option Json) : FailsDirectly (address removable? text value) := by
  refine (mapError _ fun _ => rfl).bind fun path => ?_
  split
  · refine bind ?_ fun _ => pure _
    unfold refuseRemoval
    split
    · exact error rfl
    · exact ok ()
  · exact error rfl

end PropertyWrite

open FailsDirectly PropertyWrite

theorem Entity.setProperty_failsDirectly (e : Entity) (text : String) (value : Option Json) :
    FailsDirectly (e.setProperty text value) := by
  refine (address_failsDirectly _ text value).bind fun path => ?_
  unfold writeField
  split
  all_goals exact (inField_failsDirectly ..).bind fun _ => pure _

theorem Document.setProperty_failsDirectly (d : Document) (text : String) (value : Option Json) :
    FailsDirectly (d.setProperty text value) := by
  refine (address_failsDirectly _ text value).bind fun path => ?_
  unfold writeField
  split
  all_goals exact (inField_failsDirectly ..).bind fun _ => pure _

theorem Component.setProperty_failsDirectly (c : Component) (text : String)
    (value : Option Json) : FailsDirectly (c.setProperty text value) :=
  ((mapError _ fun _ => rfl).bind fun _ => mapError _ fun _ => rfl).bind fun _ => pure _

namespace Document
variable (d : Document) (id : String)

theorem getEntity_failsDirectly : FailsDirectly (d.getEntity id) := by
  unfold getEntity
  split
  · exact ok _
  · exact error rfl

theorem getParent_failsDirectly : FailsDirectly (d.getParent id) := by
  unfold getParent
  split
  · exact ok _
  · exact error rfl

theorem getComponent_failsDirectly (componentType : String) :
    FailsDirectly (d.getComponent id componentType) := by
  refine (d.getEntity_failsDirectly id).bind fun e => ?_
  split
  · exact pure _
  · exact error rfl

theorem listChild_failsDirectly (parent : Option String) (index : Option Nat) :
    FailsDirectly (d.listChild parent index id) := by
  unfold listChild
  split
  · exact ok _
  · split
    · exact ok _
    · exact error rfl

theorem writeProperty_failsDirectly (path : String) (value : Option Json) :
    FailsDirectly (d.writeProperty id path value) := by
  unfold writeProperty
  split
  · exact d.setProperty_failsDirectly path value
  · exact (d.getEntity_failsDirectly id).bind fun e =>
      (e.setProperty_failsDirectly path value).bind fun _ => pure _

end Document

namespace KeyframeTrack
variable (track : String) (keyframes : List Json)

theorem admitted_failsDirectly (keyframe : Json) : FailsDirectly (admitted track keyframe) := by
  unfold admitted
  split
  · exact error rfl
  · split
    · exact error rfl
    · split
      · exact error rfl
      · exact ok _

theorem add_failsDirectly (keyframe : Json) (time : Binary64) (index : Option Nat) :
    FailsDirectly (add track keyframe time index keyframes) := by
  unfold add
  split
  · exact error rfl
  · exact ok _

theorem remove_failsDirectly (time : Binary64) : FailsDirectly (remove track time keyframes) := by
  unfold remove
  split
  · exact error rfl
  · exact ok _

theorem setValue_failsDirectly (time : Binary64) (value : Json) :
    FailsDirectly (setValue track time value keyframes) := by
  unfold setValue
  split
  · exact error rfl
  · split
    · split
      · exact ok _
      · exact error rfl
    · exact error rfl

end KeyframeTrack

theorem Entity.editTrack_failsDirectly {α : Type} (e : Entity) (track : String)
    {change : List Json → Except OpError (List Json × α)}
    (hc : ∀ keyframes, FailsDirectly (change keyframes)) :
    FailsDirectly (e.editTrack track change) := by
  unfold editTrack
  split
  · split
    · exact (hc _).bind fun _ => (mapError _ fun _ => rfl).bind fun _ => pure _
    · exact error rfl
  · exact error rfl

namespace Edit
open Document

/-- An edit that is rejected is so for a reason of its own. -/
theorem apply_failsDirectly (registry : Option Registry) (d : Document) (e : Edit) :
    FailsDirectly (e.apply registry d) := by
  cases e with
  | createEntity n =>
    exact (check rfl).bind fun _ => (check rfl).bind fun _ => (check rfl).bind fun _ =>
      (d.listChild_failsDirectly ..).bind fun _ => pure _
  | deleteEntity id =>
    exact (d.getEntity_failsDirectly id).bind fun _ => (check rfl).bind fun _ =>
      (check rfl).bind fun _ => pure _
  | setProperty id path value => exact (d.writeProperty_failsDirectly ..).bind fun _ => pure _
  | addChild p c index =>
    refine (check rfl).bind fun _ => (d.getEntity_failsDirectly c).bind fun _ =>
      (check rfl).bind fun _ => ?_
    split
    · exact error rfl
    · exact (check rfl).bind fun _ => pure _
  | removeChild p c =>
    refine (d.getEntity_failsDirectly c).bind fun _ => (d.getParent_failsDirectly p).bind fun _ =>
      (check rfl).bind fun _ => ?_
    split
    · exact error rfl
    · exact pure _
  | reparent c q index =>
    refine (d.getEntity_failsDirectly c).bind fun _ => (check rfl).bind fun _ => ?_
    split
    · exact error rfl
    · refine (check rfl).bind fun _ => (check rfl).bind fun _ =>
        (d.getEntity_failsDirectly _).bind fun _ => ?_
      split
      · exact error rfl
      · exact (getEntity_failsDirectly _ q).bind fun _ => pure _
  | addComponent id c index =>
    exact (d.getEntity_failsDirectly id).bind fun _ => (check rfl).bind fun _ =>
      (check rfl).bind fun _ => pure _
  | removeComponent id t index =>
    refine (d.getEntity_failsDirectly id).bind fun _ => ?_
    dsimp only
    split
    · exact error rfl
    · exact (check rfl).bind fun _ => pure _
  | setComponentProperty id t path value =>
    exact (d.getComponent_failsDirectly id t).bind fun _ =>
      (Component.setProperty_failsDirectly ..).bind fun _ => pure _
  | addAsset asset => exact (check rfl).bind fun _ => (check rfl).bind fun _ => pure _
  | removeAsset id =>
    simp only [apply, applyRemoveAsset]
    split
    · exact ok _
    · exact error rfl
  | replaceAssetRef id t path old new =>
    refine (check rfl).bind fun _ => (mapError _ fun _ => rfl).bind fun _ =>
      (d.getComponent_failsDirectly id t).bind fun (_, c) => ?_
    dsimp only
    split
    · exact error rfl
    · exact (check rfl).bind fun _ => (mapError _ fun _ => rfl).bind fun _ => pure _
  | addKeyframe id track keyframe index =>
    exact (d.getEntity_failsDirectly id).bind fun e =>
      ((KeyframeTrack.admitted_failsDirectly ..).bind fun _ =>
        e.editTrack_failsDirectly track fun _ => KeyframeTrack.add_failsDirectly ..).bind
          fun _ => pure _
  | removeKeyframe id track time =>
    exact (d.getEntity_failsDirectly id).bind fun e =>
      (e.editTrack_failsDirectly track fun _ => KeyframeTrack.remove_failsDirectly ..).bind
        fun _ => pure _
  | setKeyframeValue id track time value =>
    exact (d.getEntity_failsDirectly id).bind fun e =>
      (e.editTrack_failsDirectly track fun _ => KeyframeTrack.setValue_failsDirectly ..).bind
        fun _ => pure _

end Edit
end SceneGraph
