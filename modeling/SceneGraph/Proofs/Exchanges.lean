import Mathlib.Logic.Relation
import SceneGraph.Proofs.ComponentSlots

/-!
# Exchanges: changes that come to the same in either order

Changes of parts that have nothing to do with each other may always change places; changes of one
part may where that part allows it.
-/
namespace SceneGraph

section Exchange
variable {σ : Type} {R S : σ → σ → Prop} {s : σ}

/-- From a state on, one change after the other leads where the other after the one leads. -/
def Exchange (R S : σ → σ → Prop) (s : σ) : Prop :=
  ∀ s', Relation.Comp R S s s' ↔ Relation.Comp S R s s'

theorem Exchange.symm (h : Exchange R S s) : Exchange S R s := fun s' => (h s').symm

/-- Conditions that do not depend on the state change nothing. -/
theorem Exchange.guard_left {p : Prop} (h : p → Exchange R S s) :
    Exchange (fun s s' => p ∧ R s s') S s := by
  intro s'
  constructor
  · rintro ⟨m, ⟨hp, hm⟩, hs⟩
    obtain ⟨m', hm', hs'⟩ := (h hp s').mp ⟨m, hm, hs⟩
    exact ⟨m', hm', hp, hs'⟩
  · rintro ⟨m, hm, hp, hs⟩
    obtain ⟨m', hm', hs'⟩ := (h hp s').mpr ⟨m, hm, hs⟩
    exact ⟨m', ⟨hp, hm'⟩, hs'⟩

theorem Exchange.guard {p q : Prop} (h : p → q → Exchange R S s) :
    Exchange (fun s s' => p ∧ R s s') (fun s s' => q ∧ S s s') s :=
  guard_left fun hp => (guard_left fun hq => (h hp hq).symm).symm

end Exchange

/-- A part that can be replaced by another one. -/
structure Lens (σ α : Type) where
  get : σ → α
  set : σ → α → σ
  get_set : ∀ s a, get (set s a) = a
  set_set : ∀ s a a', set (set s a) a' = set s a'

namespace Lens
variable {σ α β : Type} {l : Lens σ α} {l' : Lens σ β} {R S : α → α → Prop} {T : β → β → Prop}
  {s s' : σ}

/-- A change of the part, and of nothing else. -/
def Lift (l : Lens σ α) (R : α → α → Prop) (s s' : σ) : Prop :=
  ∃ a, R (l.get s) a ∧ s' = l.set s a

theorem comp_lift_iff : Relation.Comp (l.Lift R) (l.Lift S) s s' ↔
    ∃ a, Relation.Comp R S (l.get s) a ∧ s' = l.set s a := by
  constructor
  · rintro ⟨_, ⟨b, hb, rfl⟩, a, ha, rfl⟩
    rw [l.get_set] at ha
    exact ⟨a, ⟨b, hb, ha⟩, l.set_set s b a⟩
  · rintro ⟨a, ⟨b, hb, ha⟩, rfl⟩
    exact ⟨l.set s b, ⟨b, hb, rfl⟩, a, (l.get_set s b).symm ▸ ha, (l.set_set s b a).symm⟩

theorem exchange (l : Lens σ α) (h : Exchange R S (l.get s)) :
    Exchange (l.Lift R) (l.Lift S) s := by
  intro s'
  simp only [comp_lift_iff, h _]

/-- Neither part is touched where the other one is replaced. -/
structure Apart (l : Lens σ α) (l' : Lens σ β) : Prop where
  left : ∀ s b, l.get (l'.set s b) = l.get s
  right : ∀ s a, l'.get (l.set s a) = l'.get s
  comm : ∀ s a b, l'.set (l.set s a) b = l.set (l'.set s b) a

theorem Apart.symm (h : l.Apart l') : l'.Apart l :=
  ⟨h.right, h.left, fun s b a => (h.comm s a b).symm⟩

theorem Apart.comp_lift_iff (h : l.Apart l') : Relation.Comp (l.Lift R) (l'.Lift T) s s' ↔
    ∃ a b, R (l.get s) a ∧ T (l'.get s) b ∧ s' = l'.set (l.set s a) b := by
  constructor
  · rintro ⟨_, ⟨a, ha, rfl⟩, b, hb, rfl⟩
    exact ⟨a, b, ha, h.right s a ▸ hb, rfl⟩
  · rintro ⟨a, b, ha, hb, rfl⟩
    exact ⟨l.set s a, ⟨a, ha, rfl⟩, b, (h.right s a).symm ▸ hb, rfl⟩

theorem Apart.exchange (h : l.Apart l') : Exchange (l.Lift R) (l'.Lift T) s := by
  intro s'
  rw [h.comp_lift_iff, h.symm.comp_lift_iff]
  constructor
  · rintro ⟨a, b, ha, hb, rfl⟩
    exact ⟨b, a, hb, ha, h.comm s a b⟩
  · rintro ⟨b, a, hb, ha, rfl⟩
    exact ⟨a, b, ha, hb, (h.comm s a b).symm⟩

end Lens

namespace Dict
variable {α : Type} {R S : α → α → Prop} {key key' : String} {d d' : Dict α}

theorem insert_comm (d : Dict α) (hk : key ≠ key') (a b : α) :
    insert (insert d key a) key' b = insert (insert d key' b) key a := by
  refine Ascending.ext_find? fun k => ?_
  simp only [find?_insert]
  by_cases h : k = key
  · simp [h, hk]
  · simp [h]

/-- A change of the entry under a key, which must be there. -/
def AtKey (key : String) (R : α → α → Prop) (d d' : Dict α) : Prop :=
  ∃ a a', d.find? key = some a ∧ R a a' ∧ d' = insert d key a'

theorem comp_atKey_iff : Relation.Comp (AtKey key R) (AtKey key S) d d' ↔
    ∃ a a', d.find? key = some a ∧ Relation.Comp R S a a' ∧ d' = insert d key a' := by
  constructor
  · rintro ⟨_, ⟨a, b, ha, hb, rfl⟩, b', c, hb', hc, rfl⟩
    obtain rfl : b = b' := by simpa using hb'
    exact ⟨a, c, ha, ⟨b, hb, hc⟩, insert_insert d key b c⟩
  · rintro ⟨a, c, ha, ⟨b, hb, hc⟩, rfl⟩
    exact ⟨_, ⟨a, b, ha, hb, rfl⟩, b, c, by simp, hc, (insert_insert d key b c).symm⟩

theorem exchange_atKey (h : ∀ a, d.find? key = some a → Exchange R S a) :
    Exchange (AtKey key R) (AtKey key S) d := by
  intro d'
  rw [comp_atKey_iff, comp_atKey_iff]
  refine exists_congr fun a => exists_congr fun a' => and_congr_right fun ha => ?_
  rw [h a ha a']

private theorem comp_atKey_ne_iff (hk : key ≠ key') :
    Relation.Comp (AtKey key R) (AtKey key' S) d d' ↔ ∃ a a' b b', d.find? key = some a ∧
      d.find? key' = some b ∧ R a a' ∧ S b b' ∧ d' = insert (insert d key a') key' b' := by
  constructor
  · rintro ⟨_, ⟨a, a', ha, hr, rfl⟩, b, b', hb, hs, rfl⟩
    rw [find?_insert, if_neg (Ne.symm hk)] at hb
    exact ⟨a, a', b, b', ha, hb, hr, hs, rfl⟩
  · rintro ⟨a, a', b, b', ha, hb, hr, hs, rfl⟩
    exact ⟨_, ⟨a, a', ha, hr, rfl⟩, b, b', by rw [find?_insert, if_neg (Ne.symm hk), hb], hs, rfl⟩

theorem exchange_atKey_of_ne (hk : key ≠ key') : Exchange (AtKey key R) (AtKey key' S) d := by
  intro d'
  rw [comp_atKey_ne_iff hk, comp_atKey_ne_iff (Ne.symm hk)]
  constructor
  · rintro ⟨a, a', b, b', ha, hb, hr, hs, rfl⟩
    exact ⟨b, b', a, a', hb, ha, hs, hr, insert_comm d hk a' b'⟩
  · rintro ⟨b, b', a, a', hb, ha, hs, hr, rfl⟩
    exact ⟨a, a', b, b', ha, hb, hr, hs, (insert_comm d hk a' b').symm⟩

end Dict

namespace Component
variable {R S : Component → Component → Prop} {t t' : String} {cs cs' : List Component} {i : Nat}
  {c c' : Component}

/-- A change of the first component of a type. -/
def AtType (t : String) (R : Component → Component → Prop) (cs cs' : List Component) : Prop :=
  ∃ i c c', cs.findIdx? (·.componentType = t) = some i ∧ cs[i]? = some c ∧ R c c' ∧
    cs' = cs.set i c'

/-- Where a component takes the place of another one of its type nothing else is found. -/
theorem findIdx?_set (hc : cs[i]? = some c) (ht : c'.componentType = c.componentType)
    (t : String) : (cs.set i c').findIdx? (·.componentType = t) =
      cs.findIdx? (·.componentType = t) := by
  have htypes : (cs.set i c').map (·.componentType) = cs.map (·.componentType) := by
    obtain ⟨hlt, rfl⟩ := List.getElem?_eq_some_iff.mp hc
    have hlt' : i < (cs.map (·.componentType)).length := by simpa using hlt
    have hget : (cs.map (·.componentType))[i] = cs[i].componentType := by simp
    rw [List.map_set, ht, ← hget, List.set_getElem_self]
  have hfind : ∀ items : List Component, items.findIdx? (·.componentType = t) =
      (items.map (·.componentType)).findIdx? (· = t) := by
    intro items
    rw [List.findIdx?_map]
    rfl
  rw [hfind, htypes, hfind]

private theorem type_of_findIdx? (hi : cs.findIdx? (·.componentType = t) = some i)
    (hc : cs[i]? = some c) : c.componentType = t := by
  obtain ⟨hlt, ht, -⟩ := List.findIdx?_eq_some_iff_getElem.mp hi
  obtain ⟨-, rfl⟩ := List.getElem?_eq_some_iff.mp hc
  simpa using ht

section
variable (hR : ∀ c c', R c c' → c'.componentType = c.componentType)
  (hS : ∀ c c', S c c' → c'.componentType = c.componentType)
include hR

theorem comp_atType_iff : Relation.Comp (AtType t R) (AtType t S) cs cs' ↔
    ∃ i c c', cs.findIdx? (·.componentType = t) = some i ∧ cs[i]? = some c ∧
      Relation.Comp R S c c' ∧ cs' = cs.set i c' := by
  have hset : ∀ {i c c'}, cs[i]? = some c → R c c' →
      (cs.set i c').findIdx? (·.componentType = t) = cs.findIdx? (·.componentType = t) ∧
        (cs.set i c')[i]? = some c' := by
    intro i c c' hc hr
    obtain ⟨hi, -⟩ := List.getElem?_eq_some_iff.mp hc
    exact ⟨findIdx?_set hc (hR c c' hr) t, by simp [hi]⟩
  constructor
  · rintro ⟨_, ⟨i, c, m, hi, hc, hr, rfl⟩, i', m', c', hi', hm', hs, rfl⟩
    obtain ⟨hfind, hget⟩ := hset hc hr
    obtain rfl : i = i' := Option.some.inj (hi.symm.trans (hfind.symm.trans hi'))
    obtain rfl : m = m' := Option.some.inj (hget.symm.trans hm')
    exact ⟨i, c, c', hi, hc, ⟨m, hr, hs⟩, List.set_set ..⟩
  · rintro ⟨i, c, c', hi, hc, ⟨m, hr, hs⟩, rfl⟩
    obtain ⟨hfind, hget⟩ := hset hc hr
    exact ⟨_, ⟨i, c, m, hi, hc, hr, rfl⟩, i, m, c', hfind.trans hi, hget, hs,
      (List.set_set ..).symm⟩

include hS

theorem exchange_atType (h : ∀ c ∈ cs, Exchange R S c) :
    Exchange (AtType t R) (AtType t S) cs := by
  intro cs'
  rw [comp_atType_iff hR, comp_atType_iff hS]
  refine exists_congr fun i => exists_congr fun c => exists_congr fun c' =>
    and_congr_right fun _ => and_congr_right fun hc => ?_
  rw [h c (List.mem_of_getElem? hc) c']

private theorem atType_swap (ht : t ≠ t') (h : Relation.Comp (AtType t R) (AtType t' S) cs cs') :
    Relation.Comp (AtType t' S) (AtType t R) cs cs' := by
  obtain ⟨_, ⟨i, c, c', hi, hc, hr, rfl⟩, j, k, k', hj, hk, hs, rfl⟩ := h
  have htype := hR c c' hr
  rw [findIdx?_set hc htype] at hj
  have hne : i ≠ j := by
    rintro rfl
    have hkc : k = c' := by
      obtain ⟨hlt, -⟩ := List.getElem?_eq_some_iff.mp hc
      simpa [hlt, eq_comm] using hk
    have hkt : k.componentType = t' := type_of_findIdx? ((findIdx?_set hc htype t').trans hj) hk
    exact ht (by rw [← type_of_findIdx? hi hc, ← htype, ← hkc, hkt])
  rw [List.getElem?_set_ne hne] at hk
  refine ⟨cs.set j k', ⟨j, k, k', hj, hk, hs, rfl⟩, i, c, c', ?_, ?_, hr, ?_⟩
  · rw [findIdx?_set hk (hS k k' hs), hi]
  · rw [List.getElem?_set_ne (Ne.symm hne), hc]
  · rw [List.set_comm _ _ hne]

/-- Components of different types may be changed in any order. -/
theorem exchange_atType_of_ne (ht : t ≠ t') : Exchange (AtType t R) (AtType t' S) cs :=
  fun _ => ⟨atType_swap hR hS ht, atType_swap hS hR (Ne.symm ht)⟩

end

end Component
end SceneGraph
