import SceneGraph.Proofs.ComponentSlots
import SceneGraph.Proofs.KeyframeLists

/-!
# Animation tracks: changes of keyframes inside an entity, and the way back

The keyframes of an entity's track stand deep in the properties of its first animation component.
They are read there (`keyframes?`) and put back there (`withKeyframes`), so what was shown of lists
of keyframes holds of entities. A removed keyframe can be added again exactly when it is restorable.
-/
namespace SceneGraph

namespace Entity
open KeyframeTrack

/-- The keyframes of a track of the first animation component. -/
def keyframes? (e : Entity) (track : String) : Option (List Json) :=
  match (e.component? Component.animationType).bind (Bag.get? ·.properties (path track)) with
  | some (.arr keyframes) => some keyframes
  | _ => none

/-- The track has a keyframe at the time that could be added again where it stood. -/
def Restorable (e : Entity) (track : String) (time : Binary64) : Prop :=
  ∃ keyframes, e.keyframes? track = some keyframes ∧ KeyframeTrack.Restorable keyframes time

variable {e e' : Entity} {track : String} {keyframes keyframes' : List Json} {k v previous : Json}
  {time : Binary64} {index : Option Nat} {i : Nat}

theorem keyframes?_iff : e.keyframes? track = some keyframes ↔
    ∃ c, e.component? Component.animationType = some c ∧
      Bag.get? c.properties (path track) = some (.arr keyframes) := by
  unfold keyframes?
  constructor
  · intro h
    split at h
    · rename_i stored hs
      obtain ⟨c, hc, hg⟩ := Option.bind_eq_some_iff.mp hs
      obtain rfl := Option.some.inj h
      exact ⟨c, hc, hg⟩
    · contradiction
  · rintro ⟨c, hc, hg⟩
    simp only [hc, Option.bind_some, hg]

/-- The entity with other keyframes in the track. -/
def withKeyframes (e : Entity) (track : String) (keyframes : List Json) : Entity :=
  match e.component? Component.animationType with
  | some c => e.setComponent Component.animationType
      { c with properties := c.properties.assign (path track) (some (.arr keyframes)) }
  | none => e

private theorem withKeyframes_eq {c : Component}
    (hc : e.component? Component.animationType = some c) (keyframes : List Json) :
    e.withKeyframes track keyframes = e.setComponent Component.animationType
      { c with properties := c.properties.assign (path track) (some (.arr keyframes)) } := by
  rw [withKeyframes, hc]

theorem keyframes?_withKeyframes (h : e.keyframes? track = some keyframes)
    (keyframes' : List Json) :
    (e.withKeyframes track keyframes').keyframes? track = some keyframes' := by
  obtain ⟨c, hc, hg⟩ := keyframes?_iff.mp h
  rw [withKeyframes_eq hc]
  exact keyframes?_iff.mpr ⟨_, component?_setProperties hc _,
    Bag.get?_assign (Bag.open_of_get? hg) _⟩

theorem withKeyframes_withKeyframes (h : e.keyframes? track = some keyframes)
    (keyframes' keyframes'' : List Json) :
    (e.withKeyframes track keyframes').withKeyframes track keyframes'' =
      e.withKeyframes track keyframes'' := by
  obtain ⟨c, hc, hg⟩ := keyframes?_iff.mp h
  have hopen := Bag.open_of_get? hg
  have htype : c.componentType = Component.animationType := type_of_component? hc
  let properties := c.properties.assign (path track) (some (.arr keyframes'))
  rw [withKeyframes_eq hc, withKeyframes_eq hc,
    withKeyframes_eq (component?_setProperties hc properties), Bag.assign_assign hopen]
  exact @setComponent_setComponent e _ c { c with properties } hc htype _

theorem withKeyframes_self (h : e.keyframes? track = some keyframes) :
    e.withKeyframes track keyframes = e := by
  obtain ⟨c, hc, hg⟩ := keyframes?_iff.mp h
  rw [withKeyframes_eq hc, ← hg, Bag.assign_get? (Bag.open_of_get? hg)]
  exact setComponent_self hc

section Changes
variable {β γ : Type} {change : List Json → Except OpError (List Json × β)}
  {undo : List Json → Except OpError (List Json × γ)} {x : β} {y : γ}

theorem editTrack_iff : e.editTrack track change = .ok (e', x) ↔
    ∃ keyframes keyframes', e.keyframes? track = some keyframes ∧
      change keyframes = .ok (keyframes', x) ∧ e' = e.withKeyframes track keyframes' := by
  rw [editTrack_ok_iff]
  constructor
  · rintro ⟨c, keyframes, changed, hc, hg, hchange, rfl⟩
    exact ⟨keyframes, changed, keyframes?_iff.mpr ⟨c, hc, hg⟩, hchange,
      (withKeyframes_eq hc changed).symm⟩
  · rintro ⟨keyframes, changed, hk, hchange, rfl⟩
    obtain ⟨c, hc, hg⟩ := keyframes?_iff.mp hk
    exact ⟨c, keyframes, changed, hc, hg, hchange, withKeyframes_eq hc changed⟩

/-- An accepted change changes the keyframes of its track. -/
theorem keyframes?_of_editTrack (h : e.editTrack track change = .ok (e', x)) :
    ∃ keyframes keyframes', e.keyframes? track = some keyframes ∧
      e'.keyframes? track = some keyframes' ∧ change keyframes = .ok (keyframes', x) := by
  obtain ⟨keyframes, changed, hk, hchange, rfl⟩ := editTrack_iff.mp h
  exact ⟨keyframes, changed, hk, keyframes?_withKeyframes hk changed, hchange⟩

theorem changed_of_editTrack (h : e.editTrack track change = .ok (e', x))
    (hk : e.keyframes? track = some keyframes) : ∃ keyframes',
      e'.keyframes? track = some keyframes' ∧ change keyframes = .ok (keyframes', x) := by
  obtain ⟨found, keyframes', hfound, hk', hchange⟩ := keyframes?_of_editTrack h
  obtain rfl : keyframes = found := Option.some.inj (hk.symm.trans hfound)
  exact ⟨keyframes', hk', hchange⟩

/-- A change of the keyframes that leads back leads the entity back as well. -/
theorem editTrack_back (h : e.editTrack track change = .ok (e', x))
    (hk : e.keyframes? track = some keyframes) (hk' : e'.keyframes? track = some keyframes')
    (hu : undo keyframes' = .ok (keyframes, y)) : e'.editTrack track undo = .ok (e, y) := by
  obtain ⟨-, changed, -, -, rfl⟩ := editTrack_iff.mp h
  refine editTrack_iff.mpr ⟨keyframes', keyframes, hk', hu, ?_⟩
  rw [withKeyframes_withKeyframes hk, withKeyframes_self hk]

end Changes

theorem removeKeyframe_of_add (h : e.addKeyframe track k index = .ok (e', i)) :
    ∃ t, Keyframe.timeOf? k = some t ∧ e'.removeKeyframe track t = .ok (e, i, k) ∧
      e'.Restorable track t := by
  obtain ⟨t, ht, h⟩ := bind_ok_iff.mp h
  obtain ⟨keyframes, keyframes', hk, hk', hadd⟩ := keyframes?_of_editTrack h
  obtain ⟨hremove, hr⟩ := remove_of_add ht hadd
  exact ⟨t, (admitted_ok_iff.mp ht).1, editTrack_back h hk hk' hremove, keyframes', hk', hr⟩

theorem removeKeyframe_ne (h : e.removeKeyframe track time = .ok (e', i, k)) : e' ≠ e := by
  rintro rfl
  obtain ⟨keyframes, keyframes', hk, hk', hremove⟩ := keyframes?_of_editTrack h
  obtain rfl : keyframes = keyframes' := Option.some.inj (hk.symm.trans hk')
  obtain ⟨-, hget, herase⟩ := remove_ok_iff.mp hremove
  obtain ⟨hi, -⟩ := List.getElem?_eq_some_iff.mp hget
  have hlen := congrArg List.length herase
  rw [List.length_eraseIdx_of_lt hi] at hlen
  omega

/-- A keyframe that was removed can be added where it stood exactly when it is restorable, and
that brings the entity back. -/
theorem addKeyframe_of_remove (h : e.removeKeyframe track time = .ok (e', i, k))
    {r : Entity × Nat} : e'.addKeyframe track k (some i) = .ok r ↔
      e.Restorable track time ∧ r = (e, i) := by
  obtain ⟨keyframes, keyframes', hk, hk', hremove⟩ := keyframes?_of_editTrack h
  have hrestorable : e.Restorable track time ↔
      ∃ t, admitted track k = .ok t ∧ position? keyframes' t = none := by
    simp [Restorable, hk, add_of_remove hremove]
  have hback : ∀ t, admitted track k = .ok t → position? keyframes' t = none →
      e'.addKeyframe track k (some i) = .ok (e, i) := fun t ht hfree =>
    bind_ok_iff.mpr ⟨t, ht, editTrack_back h hk hk' (add_back hremove hfree)⟩
  rw [hrestorable]
  constructor
  · intro hadd
    obtain ⟨t, ht, htrack⟩ := bind_ok_iff.mp hadd
    obtain ⟨_, -, hchange⟩ := changed_of_editTrack htrack hk'
    have hfree := (add_ok_iff.mp hchange).1
    exact ⟨⟨t, ht, hfree⟩, Except.ok.inj (hadd.symm.trans (hback t ht hfree))⟩
  · rintro ⟨⟨t, ht, hfree⟩, rfl⟩
    exact hback t ht hfree

theorem setKeyframeValue_back (h : e.setKeyframeValue track time v = .ok (e', previous)) :
    e'.setKeyframeValue track time previous = .ok (e, v) := by
  obtain ⟨keyframes, keyframes', hk, hk', hset⟩ := keyframes?_of_editTrack h
  exact editTrack_back h hk hk' (setValue_back hset)

end Entity
end SceneGraph
