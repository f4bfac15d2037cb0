import SceneGraph.Proofs.AnimationTracks
import Mathlib.Data.List.Perm.Basic

/-!
# Sorted tracks: keyframes in the order of their times, and what each change leaves of it

Times are compared by value: the integer 1 and the number 1.0 are one instant, and so are both
zeros.
-/
namespace SceneGraph

namespace KeyframeTrack
variable {track : String} {keyframes keyframes' new : List Json} {k k' first v previous : Json}
  {time t : Binary64} {index : Option Nat} {i : Nat}

/-- The keyframe has a value and a time that is finite and from 0 on. -/
def Proper (k : Json) : Prop :=
  ∃ t, Keyframe.timeOf? k = some t ∧ t.isFinite = true ∧ t.lt 0 = false ∧
    (k.member? "value").isSome = true

def Earlier (k k' : Json) : Prop :=
  ∃ t t', Keyframe.timeOf? k = some t ∧ Keyframe.timeOf? k' = some t' ∧ t.lt t' = true

/-- The second keyframe does not stand at the time of the first. -/
def Apart (k k' : Json) : Prop := ∀ t, Keyframe.timeOf? k = some t → isAt t k' = false

/-- All keyframes have values, and their times increase from each to the next. -/
structure Sorted (keyframes : List Json) : Prop where
  proper : ∀ k ∈ keyframes, Proper k
  ordered : keyframes.Pairwise Earlier

/-- The place of a keyframe's time among all numbers. -/
def instant (k : Json) : Int := ((Keyframe.timeOf? k).getD 0).order

theorem proper_iff (track : String) : Proper k ↔ ∃ t, admitted track k = .ok t := by
  simp only [Proper, admitted_ok_iff]

theorem instant_of_timeOf? (ht : Keyframe.timeOf? k = some t) : instant k = t.order := by
  rw [instant, ht, Option.getD_some]

theorem Proper.isAt_iff (h : Proper k) (ht : t.isFinite = true) :
    isAt t k = true ↔ instant k = t.order := by
  obtain ⟨s, hs, hf, -⟩ := h
  rw [isAt, hs, instant_of_timeOf? hs, Binary64.beq_iff hf ht]

theorem Proper.earlier_iff (h : Proper k) (h' : Proper k') :
    Earlier k k' ↔ instant k < instant k' := by
  obtain ⟨t, ht, hf, -⟩ := h
  obtain ⟨t', ht', hf', -⟩ := h'
  simp [Earlier, instant, ht, ht', Binary64.lt_iff hf hf']

theorem Proper.apart_iff (h : Proper k) (h' : Proper k') :
    Apart k k' ↔ instant k ≠ instant k' := by
  obtain ⟨t, ht, hf, -⟩ := h
  have hat : isAt t k' = true ↔ instant k = instant k' := by
    rw [h'.isAt_iff hf, instant_of_timeOf? ht, eq_comm]
  simp [Apart, ht, ← Bool.not_eq_true, hat]

/-- Proper keyframes are sorted when their instants increase. -/
theorem sorted_iff : Sorted keyframes ↔
    (∀ k ∈ keyframes, Proper k) ∧ (keyframes.map instant).Pairwise (· < ·) := by
  have hordered : (∀ k ∈ keyframes, Proper k) →
      (keyframes.Pairwise Earlier ↔ (keyframes.map instant).Pairwise (· < ·)) := by
    intro hproper
    rw [List.pairwise_map]
    exact List.Pairwise.iff_of_mem fun hk hk' => (hproper _ hk).earlier_iff (hproper _ hk')
  constructor
  · rintro ⟨hproper, ho⟩
    exact ⟨hproper, (hordered hproper).mp ho⟩
  · rintro ⟨hproper, ho⟩
    exact ⟨hproper, (hordered hproper).mpr ho⟩

theorem sorted_cons_iff : Sorted (first :: keyframes) ↔
    Proper first ∧ (∀ k ∈ keyframes, instant first < instant k) ∧ Sorted keyframes := by
  simp only [sorted_iff, List.forall_mem_cons, List.map_cons, List.pairwise_cons,
    List.forall_mem_map]
  tauto

/-- A sorted track is determined by the keyframes in it. -/
theorem Sorted.eq_of_perm (h : Sorted keyframes) (h' : Sorted keyframes')
    (hp : keyframes.Perm keyframes') : keyframes = keyframes' := by
  refine List.Perm.eq_of_pairwise (fun k k' hk hk' hlt hgt => ?_) h.ordered h'.ordered hp
  rw [(h.proper k hk).earlier_iff (h'.proper k' hk')] at hlt
  rw [(h'.proper k' hk').earlier_iff (h.proper k hk)] at hgt
  omega

theorem landing_cons (hk : Proper k) (hf : Proper first) (ht : Keyframe.timeOf? k = some t) :
    landing (first :: keyframes) t none =
      if instant k < instant first then 0 else landing keyframes t none + 1 := by
  obtain ⟨s, hs, hfs, -⟩ := hf
  obtain ⟨t', ht', hft, -⟩ := hk
  obtain rfl : t = t' := Option.some.inj (ht.symm.trans ht')
  have hlater : t.lt s = true ↔ instant k < instant first := by
    rw [instant_of_timeOf? ht, instant_of_timeOf? hs, Binary64.lt_iff hft hfs]
  simp only [landing, List.findIdx?_cons, hs]
  by_cases hlt : t.lt s = true
  · rw [if_pos hlt, if_pos (hlater.mp hlt)]
    rfl
  · rw [if_neg hlt, if_neg (hlt ∘ hlater.mpr)]
    cases keyframes.findIdx? _ <;> rfl

/-- A keyframe at an instant that is free goes where it keeps the track sorted. -/
theorem Sorted.insert (hs : Sorted keyframes) (hk : Proper k) (ht : Keyframe.timeOf? k = some t)
    (hfree : ∀ k' ∈ keyframes, instant k' ≠ instant k) :
    Sorted (keyframes.insertIdx (landing keyframes t none) k) := by
  induction keyframes with
  | nil => exact sorted_cons_iff.mpr ⟨hk, by simp, hs⟩
  | cons first keyframes ih =>
    obtain ⟨hfirst, hbefore, hrest⟩ := sorted_cons_iff.mp hs
    obtain ⟨hne, hfree⟩ := List.forall_mem_cons.mp hfree
    rw [landing_cons hk hfirst ht]
    by_cases hlt : instant k < instant first
    · rw [if_pos hlt, List.insertIdx_zero]
      refine sorted_cons_iff.mpr ⟨hk, List.forall_mem_cons.mpr ⟨hlt, fun k' hk' => ?_⟩, hs⟩
      exact hlt.trans (hbefore k' hk')
    · rw [if_neg hlt, List.insertIdx_succ_cons]
      refine sorted_cons_iff.mpr ⟨hfirst, fun k' hk' => ?_, ih hrest hfree⟩
      rcases List.eq_or_mem_of_mem_insertIdx hk' with rfl | hk'
      · omega
      · exact hbefore k' hk'

theorem perm_landing (keyframes : List Json) (t : Binary64) (index : Option Nat) (k : Json) :
    (keyframes.insertIdx (landing keyframes t index) k).Perm (k :: keyframes) :=
  List.perm_insertIdx k keyframes (landing_le keyframes t index)

/-- The look-up that finds no keyframe at a time means that the instant is free. -/
theorem Sorted.position?_eq_none_iff (hs : Sorted keyframes) (hk : admitted track k = .ok t) :
    position? keyframes t = none ↔ ∀ k' ∈ keyframes, instant k' ≠ instant k := by
  obtain ⟨ht, hf, -⟩ := admitted_ok_iff.mp hk
  rw [position?, List.findIdx?_eq_none_iff]
  refine forall₂_congr fun k' hk' => ?_
  rw [instant_of_timeOf? ht, Ne, ← (hs.proper k' hk').isAt_iff hf, Bool.not_eq_true]

theorem Sorted.exists_insert (hs : Sorted keyframes) (hk : Proper k)
    (hfree : ∀ k' ∈ keyframes, instant k' ≠ instant k) :
    ∃ keyframes', Sorted keyframes' ∧ keyframes'.Perm (k :: keyframes) := by
  have ⟨t, ht, _⟩ := hk
  exact ⟨_, hs.insert hk ht hfree, perm_landing keyframes t none k⟩

/-- Proper keyframes at instants that are free and different fit into a sorted track together. -/
theorem Sorted.exists_union (hs : Sorted keyframes) (hpropers : ∀ k ∈ new, Proper k)
    (hnodup : ((new ++ keyframes).map instant).Nodup) :
    ∃ keyframes', Sorted keyframes' ∧ keyframes'.Perm (new ++ keyframes) := by
  induction new with
  | nil => exact ⟨keyframes, hs, .refl _⟩
  | cons k new ih =>
    obtain ⟨hproper, hpropers⟩ := List.forall_mem_cons.mp hpropers
    obtain ⟨hfirst, hnodup⟩ := List.nodup_cons.mp hnodup
    obtain ⟨keyframes₁, hs₁, hp₁⟩ := ih hpropers hnodup
    have hfree : ∀ k' ∈ keyframes₁, instant k' ≠ instant k := by
      intro k' hk' hsame
      exact hfirst (List.mem_map.mpr ⟨k', hp₁.mem_iff.mp hk', hsame⟩)
    obtain ⟨keyframes', hs', hp'⟩ := hs₁.exists_insert hproper hfree
    exact ⟨keyframes', hs', hp'.trans (hp₁.cons k)⟩

theorem Sorted.eraseIdx (hs : Sorted keyframes) (i : Nat) : Sorted (keyframes.eraseIdx i) :=
  ⟨fun k hk => hs.proper k (List.mem_of_mem_eraseIdx hk),
    hs.ordered.sublist (List.eraseIdx_sublist keyframes i)⟩

/-- In a sorted track, no keyframe shares its time with one at another place. -/
theorem Sorted.ne_of_mem_eraseIdx (hs : Sorted keyframes) (hk : keyframes[i]? = some k)
    (hk' : k' ∈ keyframes.eraseIdx i) : instant k' ≠ instant k := by
  obtain ⟨hi, rfl⟩ := List.getElem?_eq_some_iff.mp hk
  obtain ⟨j, hj, hne, rfl⟩ := List.mem_eraseIdx_iff_getElem.mp hk'
  have hordered := List.pairwise_iff_getElem.mp (sorted_iff.mp hs).2
  rcases Nat.lt_or_gt_of_ne hne with hlt | hlt
  · have hinstants := hordered j i (by simpa using hj) (by simpa using hi) hlt
    simp only [List.getElem_map] at hinstants
    omega
  · have hinstants := hordered i j (by simpa using hi) (by simpa using hj) hlt
    simp only [List.getElem_map] at hinstants
    omega

/-- In a sorted track, every keyframe can be removed and added again. -/
theorem Sorted.restorable (hs : Sorted keyframes) (hp : position? keyframes time = some i) :
    Restorable keyframes time := by
  obtain ⟨k, hk, -⟩ := getElem?_position? hp
  have hproper := hs.proper k (List.mem_of_getElem? hk)
  obtain ⟨t, ht, hf, hl, hv⟩ := hproper
  refine ⟨i, k, t, hp, hk, ht, hf, hl, hv, fun other hother => ?_⟩
  have hne := hs.ne_of_mem_eraseIdx hk hother
  rw [instant_of_timeOf? ht, Ne, ← (hs.proper other (List.mem_of_mem_eraseIdx hother)).isAt_iff hf]
    at hne
  exact Bool.eq_false_iff.mpr hne

theorem Proper.withValue {members : Dict Json} (h : Proper (.obj members)) (v : Json) :
    Proper (.obj (Dict.insert members "value" v)) := by
  obtain ⟨t, ht, hf, hl, -⟩ := h
  exact ⟨t, by simpa [Keyframe.timeOf?, Json.member?] using ht, hf, hl, by simp [Json.member?]⟩

/-- Writing a value changes no time. -/
theorem map_timeOf?_setValue {members : Dict Json} (hk : keyframes[i]? = some (.obj members))
    (v : Json) : (keyframes.set i (.obj (Dict.insert members "value" v))).map Keyframe.timeOf? =
      keyframes.map Keyframe.timeOf? := by
  obtain ⟨hi, hget⟩ := List.getElem?_eq_some_iff.mp hk
  have htime : Keyframe.timeOf? (.obj (Dict.insert members "value" v)) =
      Keyframe.timeOf? keyframes[i] := by
    rw [hget]
    simp [Keyframe.timeOf?, Json.member?]
  rw [List.map_set, htime, ← List.getElem_map Keyframe.timeOf? (h := by simpa using hi),
    List.set_getElem_self]

theorem Sorted.setValue {members : Dict Json} (hs : Sorted keyframes)
    (hk : keyframes[i]? = some (.obj members)) (v : Json) :
    Sorted (keyframes.set i (.obj (Dict.insert members "value" v))) := by
  obtain ⟨hproper, hordered⟩ := sorted_iff.mp hs
  have hinstants : ∀ ks : List Json,
      ks.map instant = (ks.map Keyframe.timeOf?).map fun t => (t.getD 0).order := by
    intro ks
    rw [List.map_map]
    rfl
  refine sorted_iff.mpr ⟨fun k hmem => ?_, ?_⟩
  · rcases List.mem_or_eq_of_mem_set hmem with hmem | rfl
    · exact hproper k hmem
    · exact (hproper _ (List.mem_of_getElem? hk)).withValue v
  · rwa [hinstants, map_timeOf?_setValue hk, ← hinstants]

end KeyframeTrack

namespace Entity
open KeyframeTrack
variable {e e' : Entity} {track : String} {keyframes keyframes' new : List Json}
  {k v previous : Json} {time : Binary64} {i : Nat}

theorem addKeyframe_ok_iff {index : Option Nat} (hk : e.keyframes? track = some keyframes) :
    e.addKeyframe track k index = .ok (e', i) ↔ ∃ t, admitted track k = .ok t ∧
      position? keyframes t = none ∧ i = landing keyframes t index ∧
      e' = e.withKeyframes track (keyframes.insertIdx i k) := by
  simp only [addKeyframe, bind_ok_iff, editTrack_iff, add_ok_iff, hk, Option.some.injEq]
  constructor
  · rintro ⟨t, ht, _, _, rfl, ⟨hfree, hi, rfl⟩, rfl⟩
    exact ⟨t, ht, hfree, hi, rfl⟩
  · rintro ⟨t, ht, hfree, hi, rfl⟩
    exact ⟨t, ht, keyframes, _, rfl, ⟨hfree, hi, rfl⟩, rfl⟩

/-- To a sorted track, exactly the proper keyframes at free times can be added. Each goes where it
keeps the track sorted. -/
theorem addKeyframe_sorted_iff (hk : e.keyframes? track = some keyframes) (hs : Sorted keyframes) :
    (∃ i, e.addKeyframe track k none = .ok (e', i)) ↔
      Proper k ∧ (∀ k' ∈ keyframes, instant k' ≠ instant k) ∧
      ∃ keyframes', Sorted keyframes' ∧ keyframes'.Perm (k :: keyframes) ∧
        e' = e.withKeyframes track keyframes' := by
  simp only [addKeyframe_ok_iff hk]
  constructor
  · rintro ⟨i, t, ht, hp, rfl, rfl⟩
    have hproper : Proper k := (proper_iff track).mpr ⟨t, ht⟩
    have hfree := (hs.position?_eq_none_iff ht).mp hp
    have hsorted := hs.insert hproper (admitted_ok_iff.mp ht).1 hfree
    exact ⟨hproper, hfree, _, hsorted, perm_landing keyframes t none k, rfl⟩
  · rintro ⟨hproper, hfree, keyframes', hs', hp', rfl⟩
    obtain ⟨t, ht⟩ := (proper_iff track).mp hproper
    have hsorted := hs.insert hproper (admitted_ok_iff.mp ht).1 hfree
    have hsame := hs'.eq_of_perm hsorted (hp'.trans (perm_landing keyframes t none k).symm)
    exact ⟨_, t, ht, (hs.position?_eq_none_iff ht).mpr hfree, rfl, by rw [hsame]⟩

/-- Adds keyframes one after the other, each where its time puts it. -/
def addKeyframes (track : String) : Entity → List Json → Except OpError Entity
  | e, [] => .ok e
  | e, k :: new => do
    let (e, _) ← e.addKeyframe track k none
    e.addKeyframes track new

/-- To a sorted track, exactly the proper keyframes at free and different times can be added one
after the other. The track gets sorted with all of them, which does not depend on their order. -/
theorem addKeyframes_sorted_iff (hk : e.keyframes? track = some keyframes)
    (hs : Sorted keyframes) : e.addKeyframes track new = .ok e' ↔
      (∀ k ∈ new, Proper k) ∧ ((new ++ keyframes).map instant).Nodup ∧
      ∃ keyframes', Sorted keyframes' ∧ keyframes'.Perm (new ++ keyframes) ∧
        e' = e.withKeyframes track keyframes' := by
  induction new generalizing e keyframes with
  | nil =>
    have hinstants : (keyframes.map instant).Nodup := (sorted_iff.mp hs).2.imp Int.ne_of_lt
    constructor
    · rintro ⟨⟩
      exact ⟨by simp, hinstants, keyframes, hs, .refl _, (withKeyframes_self hk).symm⟩
    · rintro ⟨-, -, keyframes', hs', hp, rfl⟩
      rw [hs'.eq_of_perm hs hp, withKeyframes_self hk]
      rfl
  | cons k new ih =>
    have hfirst : ∀ keyframes₁ : List Json, keyframes₁.Perm (k :: keyframes) →
        (new ++ keyframes₁).Perm (k :: new ++ keyframes) := fun keyframes₁ hp₁ =>
      (hp₁.append_left new).trans List.perm_middle
    have hstep : e.addKeyframes track (k :: new) = .ok e' ↔ ∃ e₁,
        (∃ i, e.addKeyframe track k none = .ok (e₁, i)) ∧ e₁.addKeyframes track new = .ok e' := by
      simp only [addKeyframes, bind_ok_iff, Prod.exists, exists_and_right]
    simp only [hstep, addKeyframe_sorted_iff hk hs]
    constructor
    · rintro ⟨_, ⟨hproper, hfree, keyframes₁, hs₁, hp₁, rfl⟩, hrest⟩
      obtain ⟨hpropers, hnodup, keyframes', hs', hp', rfl⟩ :=
        (ih (keyframes?_withKeyframes hk _) hs₁).mp hrest
      exact ⟨List.forall_mem_cons.mpr ⟨hproper, hpropers⟩,
        ((hfirst _ hp₁).map instant).nodup_iff.mp hnodup, keyframes', hs',
        hp'.trans (hfirst _ hp₁), withKeyframes_withKeyframes hk _ _⟩
    · rintro ⟨hpropers, hnodup, keyframes', hs', hp', rfl⟩
      obtain ⟨hproper, hpropers⟩ := List.forall_mem_cons.mp hpropers
      have hfree : ∀ k' ∈ keyframes, instant k' ≠ instant k := by
        intro k' hk' hsame
        refine (List.nodup_cons.mp hnodup).1 ?_
        exact List.mem_map.mpr ⟨k', List.mem_append_right new hk', hsame⟩
      obtain ⟨keyframes₁, hs₁, hp₁⟩ := hs.exists_insert hproper hfree
      refine ⟨_, ⟨hproper, hfree, _, hs₁, hp₁, rfl⟩, ?_⟩
      refine (ih (keyframes?_withKeyframes hk _) hs₁).mpr ⟨hpropers,
        ((hfirst _ hp₁).map instant).nodup_iff.mpr hnodup, keyframes', hs',
        hp'.trans (hfirst _ hp₁).symm, (withKeyframes_withKeyframes hk _ _).symm⟩

/-- Proper keyframes at times that are free and different are added in whatever order. -/
theorem addKeyframes_of_apart (hk : e.keyframes? track = some keyframes) (hs : Sorted keyframes)
    (hpropers : ∀ k ∈ new, Proper k) (hnew : new.Pairwise Apart)
    (hfree : ∀ k ∈ new, ∀ k' ∈ keyframes, Apart k k') :
    ∃ e' keyframes', e'.keyframes? track = some keyframes' ∧ Sorted keyframes' ∧
      keyframes'.Perm (new ++ keyframes) ∧
      ∀ order : List Json, order.Perm new → e.addKeyframes track order = .ok e' := by
  have hnodup : ((new ++ keyframes).map instant).Nodup := by
    rw [List.map_append, List.nodup_append]
    refine ⟨?_, (sorted_iff.mp hs).2.imp Int.ne_of_lt, ?_⟩
    · refine List.pairwise_map.mpr (hnew.imp_of_mem fun hk hk' hne => ?_)
      exact ((hpropers _ hk).apart_iff (hpropers _ hk')).mp hne
    · simp only [List.forall_mem_map]
      intro k hk k' hk'
      exact ((hpropers k hk).apart_iff (hs.proper k' hk')).mp (hfree k hk k' hk')
  obtain ⟨keyframes', hs', hp'⟩ := hs.exists_union hpropers hnodup
  refine ⟨e.withKeyframes track keyframes', keyframes', keyframes?_withKeyframes hk _, hs', hp',
    fun order horder => ?_⟩
  have happend : (order ++ keyframes).Perm (new ++ keyframes) := horder.append_right keyframes
  exact (addKeyframes_sorted_iff hk hs).mpr ⟨fun k hk => hpropers k (horder.mem_iff.mp hk),
    (happend.map instant).nodup_iff.mpr hnodup, keyframes', hs', hp'.trans happend.symm, rfl⟩

theorem removeKeyframe_sorted (hk : e.keyframes? track = some keyframes) (hs : Sorted keyframes)
    (h : e.removeKeyframe track time = .ok (e', i, k)) :
    keyframes[i]? = some k ∧ isAt time k = true ∧
      e'.keyframes? track = some (keyframes.eraseIdx i) ∧
      e'.addKeyframe track k (some i) = .ok (e, i) := by
  obtain ⟨keyframes', hk', hremove⟩ := changed_of_editTrack h hk
  obtain ⟨hp, hget, rfl⟩ := remove_ok_iff.mp hremove
  obtain ⟨k', hget', hat⟩ := getElem?_position? hp
  obtain rfl : k = k' := Option.some.inj (hget.symm.trans hget')
  exact ⟨hget, hat, hk', (addKeyframe_of_remove h).mpr ⟨⟨keyframes, hk, hs.restorable hp⟩, rfl⟩⟩

theorem setKeyframeValue_keyframes (hk : e.keyframes? track = some keyframes)
    (h : e.setKeyframeValue track time v = .ok (e', previous)) :
    ∃ i members, keyframes[i]? = some (.obj members) ∧ isAt time (.obj members) = true ∧
      members.find? "value" = some previous ∧
      e'.keyframes? track = some (keyframes.set i (.obj (Dict.insert members "value" v))) := by
  obtain ⟨keyframes', hk', hset⟩ := changed_of_editTrack h hk
  obtain ⟨i, members, hp, hget, hv, rfl⟩ := setValue_ok_iff.mp hset
  obtain ⟨k, hget', hat⟩ := getElem?_position? hp
  obtain rfl := Option.some.inj (hget.symm.trans hget')
  exact ⟨i, members, hget, hat, hv, hk'⟩

/-- A keyframe that stands in a sorted track can be removed and its value can be set. -/
theorem changeable_of_mem (hk : e.keyframes? track = some keyframes) (hs : Sorted keyframes)
    (hmem : k ∈ keyframes) (hat : isAt time k = true) :
    (∃ r, e.removeKeyframe track time = .ok r) ∧
      ∀ v, ∃ r, e.setKeyframeValue track time v = .ok r := by
  obtain ⟨i, hp⟩ : ∃ i, position? keyframes time = some i := by
    refine Option.isSome_iff_exists.mp ?_
    rw [position?, List.findIdx?_isSome, List.any_eq_true]
    exact ⟨k, hmem, hat⟩
  obtain ⟨k', hget, -⟩ := getElem?_position? hp
  refine ⟨⟨_, editTrack_iff.mpr ⟨keyframes, _, hk, remove_ok_iff.mpr ⟨hp, hget, rfl⟩, rfl⟩⟩,
    fun v => ?_⟩
  obtain ⟨-, -, -, -, hv⟩ := hs.proper k' (List.mem_of_getElem? hget)
  cases k' with
  | obj members =>
    obtain ⟨previous, hprevious⟩ := Option.isSome_iff_exists.mp hv
    exact ⟨_, editTrack_iff.mpr ⟨keyframes, _, hk,
      setValue_ok_iff.mpr ⟨i, members, hp, hget, hprevious, rfl⟩, rfl⟩⟩
  | _ => contradiction

/-- A sorted track stays sorted. Adding keyframes gives the same track in every order, removing one
leaves the others, setting a value changes nothing else, and an addition and a removal take each
other back. -/
theorem sorted_track_changes (hk : e.keyframes? track = some keyframes) (hs : Sorted keyframes) :
    (∀ k e' i, e.addKeyframe track k none = .ok (e', i) → ∃ keyframes',
      e'.keyframes? track = some keyframes' ∧ Sorted keyframes' ∧
      keyframes'.Perm (k :: keyframes)) ∧
    (∀ time e' i k, e.removeKeyframe track time = .ok (e', i, k) →
      keyframes[i]? = some k ∧ isAt time k = true ∧
      e'.keyframes? track = some (keyframes.eraseIdx i) ∧ Sorted (keyframes.eraseIdx i) ∧
      e'.addKeyframe track k (some i) = .ok (e, i)) ∧
    (∀ time v e' previous, e.setKeyframeValue track time v = .ok (e', previous) →
      ∃ i members keyframes', keyframes[i]? = some (.obj members) ∧
        isAt time (.obj members) = true ∧ members.find? "value" = some previous ∧
        keyframes' = keyframes.set i (.obj (Dict.insert members "value" v)) ∧
        e'.keyframes? track = some keyframes' ∧ Sorted keyframes' ∧
        keyframes'.map Keyframe.timeOf? = keyframes.map Keyframe.timeOf?) ∧
    (∀ time k, k ∈ keyframes → isAt time k = true →
      (∃ r, e.removeKeyframe track time = .ok r) ∧
      ∀ v, ∃ r, e.setKeyframeValue track time v = .ok r) ∧
    (∀ k index e' i, e.addKeyframe track k index = .ok (e', i) → ∃ t,
      Keyframe.timeOf? k = some t ∧ e'.removeKeyframe track t = .ok (e, i, k)) ∧
    (∀ new, (∀ k ∈ new, Proper k) → new.Pairwise Apart →
      (∀ k ∈ new, ∀ k' ∈ keyframes, Apart k k') → ∃ e' keyframes',
        e'.keyframes? track = some keyframes' ∧ Sorted keyframes' ∧
        keyframes'.Perm (new ++ keyframes) ∧
        ∀ order : List Json, order.Perm new → e.addKeyframes track order = .ok e') := by
  refine ⟨fun k e' i h => ?added, fun time e' i k h => ?removed, fun time v e' previous h => ?set,
    fun time k => changeable_of_mem hk hs, fun k index e' i h => ?takenBack,
    fun new => addKeyframes_of_apart hk hs⟩
  case added =>
    obtain ⟨-, -, keyframes', hs', hp', rfl⟩ := (addKeyframe_sorted_iff hk hs).mp ⟨i, h⟩
    exact ⟨keyframes', keyframes?_withKeyframes hk _, hs', hp'⟩
  case removed =>
    obtain ⟨hget, hat, hk', hback⟩ := removeKeyframe_sorted hk hs h
    exact ⟨hget, hat, hk', hs.eraseIdx i, hback⟩
  case set =>
    obtain ⟨i, members, hget, hat, hv, hk'⟩ := setKeyframeValue_keyframes hk h
    exact ⟨i, members, _, hget, hat, hv, rfl, hk', hs.setValue hget v,
      map_timeOf?_setValue hget v⟩
  case takenBack =>
    obtain ⟨t, ht, hback, -⟩ := removeKeyframe_of_add h
    exact ⟨t, ht, hback⟩

/-- A lamp that is animated by one track. -/
def animatedLamp (keyframes : List Json) : Entity :=
  let bag (key : String) (value : Json) : Json := .obj (Dict.insert .nil key value)
  { Entity.ofId "lamp" "Lamp" with
    components := [(Component.ofType Component.animationType).withProperty tracksKey
      (bag "glow" (bag keyframesKey (.arr keyframes)))] }

theorem animatedLamp_changes :
    let k (time : Json) : Json := .obj (Dict.insert (Dict.insert .nil "time" time) "value" (.int 1))
    let first := k (.int 0)
    let last := k (.real 2)
    let e := animatedLamp [first, last]
    e.keyframes? "glow" = some [first, last] ∧ Sorted [first, last] ∧
    (∃ e' i keyframes', e.addKeyframe "glow" (k (.real 1)) none = .ok (e', i) ∧
      e'.keyframes? "glow" = some keyframes' ∧ Sorted keyframes' ∧
      keyframes'.Perm [k (.real 1), first, last] ∧
      e'.removeKeyframe "glow" 1 = .ok (e, i, k (.real 1))) ∧
    (∃ e', e.removeKeyframe "glow" 2 = .ok (e', 1, last) ∧ e'.keyframes? "glow" = some [first] ∧
      e'.addKeyframe "glow" last (some 1) = .ok (e, 1)) ∧
    ((∃ r, e.removeKeyframe "glow" 2 = .ok r) ∧ ∀ v, ∃ r, e.setKeyframeValue "glow" 2 v = .ok r) ∧
    (∃ e', e.setKeyframeValue "glow" 2 (.int 5) = .ok (e', .int 1) ∧
      ∃ keyframes', e'.keyframes? "glow" = some keyframes' ∧ Sorted keyframes') ∧
    ∃ e', e.addKeyframes "glow" [k (.int 3), k (.real 1)] = .ok e' ∧
      e.addKeyframes "glow" [k (.real 1), k (.int 3)] = .ok e' := by
  intro k first last e
  have hk : e.keyframes? "glow" = some [first, last] := rfl
  have hproper : ∀ time t, Keyframe.timeOf? (k time) = some t → t.isFinite = true →
      t.lt 0 = false → Proper (k time) := fun time t ht hf hl => ⟨t, ht, hf, hl, rfl⟩
  have hfirst : Proper first := hproper _ 0 rfl (by decide) (by decide)
  have hlast : Proper last := hproper _ 2 rfl (by decide) (by decide)
  have hone : Proper (k (.real 1)) := hproper _ 1 rfl (by decide) (by decide)
  have hthree : Proper (k (.int 3)) := hproper _ 3 rfl (by decide) (by decide)
  have hs : Sorted [first, last] := by
    refine sorted_iff.mpr ⟨?_, by decide⟩
    simp only [List.mem_cons, List.not_mem_nil, or_false, forall_eq_or_imp, forall_eq]
    exact ⟨hfirst, hlast⟩
  obtain ⟨hadded, hremoved, hset, hthere, hback, horder⟩ := sorted_track_changes hk hs
  have hadd : e.addKeyframe "glow" (k (.real 1)) none = .ok (_, 1) := rfl
  have hset' : e.setKeyframeValue "glow" 2 (.int 5) = .ok (_, .int 1) := rfl
  refine ⟨hk, hs, ?added, ?removed, ?changeable, ?set, ?order⟩
  case added =>
    obtain ⟨keyframes', hk', hs', hp'⟩ := hadded _ _ _ hadd
    obtain ⟨t, ht, hremove⟩ := hback _ _ _ _ hadd
    obtain rfl : 1 = t := Option.some.inj ht
    exact ⟨_, _, keyframes', hadd, hk', hs', hp', hremove⟩
  case removed =>
    have hremove : e.removeKeyframe "glow" 2 = .ok (_, 1, last) := rfl
    obtain ⟨-, -, hk', -, hadd'⟩ := hremoved _ _ _ _ hremove
    exact ⟨_, hremove, hk', hadd'⟩
  case changeable => exact hthere _ last (by simp) (by decide)
  case set =>
    obtain ⟨-, -, keyframes', -, -, -, -, hk', hs', -⟩ := hset _ _ _ _ hset'
    exact ⟨_, hset', keyframes', hk', hs'⟩
  case order =>
    have hpropers : ∀ k' ∈ [k (.int 3), k (.real 1)], Proper k' := by
      simp only [List.mem_cons, List.not_mem_nil, or_false, forall_eq_or_imp, forall_eq]
      exact ⟨hthree, hone⟩
    have hnew : [k (.int 3), k (.real 1)].Pairwise Apart := by
      exact List.pairwise_pair.mpr ((hthree.apart_iff hone).mpr (by decide))
    have hfree : ∀ k' ∈ [k (.int 3), k (.real 1)], ∀ k'' ∈ [first, last], Apart k' k'' := by
      simp only [List.mem_cons, List.not_mem_nil, or_false, forall_eq_or_imp, forall_eq]
      exact ⟨⟨(hthree.apart_iff hfirst).mpr (by decide), (hthree.apart_iff hlast).mpr (by decide)⟩,
        (hone.apart_iff hfirst).mpr (by decide), (hone.apart_iff hlast).mpr (by decide)⟩
    obtain ⟨e', -, -, -, -, hall⟩ := horder _ hpropers hnew hfree
    exact ⟨e', hall _ (.refl _), hall _ (.swap _ _ _)⟩

end Entity
end SceneGraph
