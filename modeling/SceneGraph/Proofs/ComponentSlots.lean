import SceneGraph.Proofs.ListPlaces
import SceneGraph.Proofs.Moves

/-!
# Component slots: the first component of a type, replaced and put back

Properties are written into the first component of a type, and keyframes into the first animation
component. Replacing that component and then replacing it by what was there changes nothing. The
edits of components are taken apart here in these terms.
-/
namespace SceneGraph

namespace Entity
variable {e : Entity} {componentType : String} {c c' : Component} {i : Nat}

theorem component?_iff : e.component? componentType = some c ↔
    ∃ i, e.componentIndex? componentType = some i ∧ e.components[i]? = some c := by
  rw [component?, List.find?_eq_some_iff_getElem]
  simp only [componentIndex?, List.findIdx?_eq_some_iff_getElem]
  constructor
  · rintro ⟨hc, i, hi, rfl, hbefore⟩
    exact ⟨i, ⟨hi, hc, fun j hj => by simpa using hbefore j hj⟩, List.getElem?_eq_getElem hi⟩
  · rintro ⟨i, ⟨hi, hc, hbefore⟩, hget⟩
    obtain ⟨-, rfl⟩ := List.getElem?_eq_some_iff.mp hget
    exact ⟨hc, i, hi, rfl, fun j hj => by simpa using hbefore j hj⟩

theorem type_of_component? (h : e.component? componentType = some c) :
    c.componentType = componentType := by
  simpa using List.find?_some h

theorem setComponent_eq (h : e.componentIndex? componentType = some i) (c : Component) :
    e.setComponent componentType c = { e with components := e.components.set i c } := by
  simp [setComponent, h]

private theorem componentIndex?_setComponent (h : e.componentIndex? componentType = some i)
    (hc : c.componentType = componentType) :
    (e.setComponent componentType c).componentIndex? componentType = some i := by
  rw [setComponent_eq h]
  obtain ⟨hi, -, hbefore⟩ := List.findIdx?_eq_some_iff_getElem.mp h
  refine List.findIdx?_eq_some_iff_getElem.mpr ⟨by simpa using hi, by simpa using hc, ?_⟩
  intro j hj
  simpa [List.getElem_set_ne (Nat.ne_of_gt hj)] using hbefore j hj

/-- The slot now holds what was put into it. -/
theorem component?_setComponent (h : e.component? componentType = some c)
    (hc : c'.componentType = componentType) :
    (e.setComponent componentType c').component? componentType = some c' := by
  obtain ⟨i, hi, hget⟩ := component?_iff.mp h
  obtain ⟨hlt, -⟩ := List.getElem?_eq_some_iff.mp hget
  refine component?_iff.mpr ⟨i, componentIndex?_setComponent hi hc, ?_⟩
  rw [setComponent_eq hi]
  simp [hlt]

/-- Of two components put into one slot, the later one stays. -/
theorem setComponent_setComponent (h : e.component? componentType = some c)
    (hc : c'.componentType = componentType) (c'' : Component) :
    (e.setComponent componentType c').setComponent componentType c'' =
      e.setComponent componentType c'' := by
  obtain ⟨i, hi, -⟩ := component?_iff.mp h
  rw [setComponent_eq (componentIndex?_setComponent hi hc), setComponent_eq hi, setComponent_eq hi,
    List.set_set]

theorem setComponent_self (h : e.component? componentType = some c) :
    e.setComponent componentType c = e := by
  obtain ⟨i, hi, hget⟩ := component?_iff.mp h
  obtain ⟨hlt, rfl⟩ := List.getElem?_eq_some_iff.mp hget
  rw [setComponent_eq hi, List.set_getElem_self]

/-- Putting the first component back undoes its replacement. -/
theorem setComponent_back (h : e.component? componentType = some c)
    (hc : c'.componentType = componentType) :
    (e.setComponent componentType c').setComponent componentType c = e := by
  rw [setComponent_setComponent h hc, setComponent_self h]

theorem component?_setProperties (h : e.component? componentType = some c) (properties : Bag) :
    (e.setComponent componentType { c with properties }).component? componentType =
      some { c with properties } :=
  component?_setComponent h (show c.componentType = componentType from type_of_component? h)

theorem setProperties_back (h : e.component? componentType = some c) (properties : Bag) :
    (e.setComponent componentType { c with properties }).setComponent componentType c = e :=
  @setComponent_back _ _ _ { c with properties } h
    (show c.componentType = componentType from type_of_component? h)

theorem amends_components {components : List Component}
    (h : ∀ c ∈ components, c ∈ e.components ∨ c.componentType ≠ "") :
    Amends { e with components } e :=
  ⟨rfl, rfl, rfl, fun ht c hc => (h c hc).elim (ht c) fun hn => hn, fun hf => hf⟩

theorem amends_setComponent (h : e.component? componentType = some c)
    (hc : c'.componentType = componentType) : (e.setComponent componentType c').Amends e := by
  obtain ⟨i, hi, hget⟩ := component?_iff.mp h
  rw [setComponent_eq hi]
  refine ⟨rfl, rfl, rfl, fun ht k hk => ?_, fun hf => hf⟩
  rcases List.mem_or_eq_of_mem_set hk with hk | rfl
  · exact ht k hk
  · rw [hc, ← type_of_component? h]
    exact ht c (List.mem_of_getElem? hget)

theorem amends_setProperties (h : e.component? componentType = some c) (properties : Bag) :
    (e.setComponent componentType { c with properties }).Amends e :=
  amends_setComponent h (show c.componentType = componentType from type_of_component? h)

end Entity

namespace Document
variable {d : Document} {id componentType : String} {e : Entity} {c c' : Component}

@[simp] theorem getComponent_ok_iff : d.getComponent id componentType = .ok (e, c) ↔
    d.entity? id = some e ∧ e.component? componentType = some c := by
  simp only [getComponent, bind_ok_iff, getEntity_ok_iff]
  constructor
  · rintro ⟨e', he, h⟩
    cases hc : e'.component? componentType with
    | none => simp [hc] at h
    | some c' =>
      simp only [hc, pure_ok_iff, Prod.mk.injEq] at h
      obtain ⟨rfl, rfl⟩ := h
      exact ⟨he, hc⟩
  · rintro ⟨he, hc⟩
    exact ⟨e, he, by simp [hc]⟩

end Document

namespace Edit
variable {registry : Option Registry} {d : Document} {id componentType path : String}
  {c : Component} {index : Option Nat} {value : Option Json} {a : Applied}

theorem applyAddComponent_ok_iff : applyAddComponent registry d id c index = .ok a ↔
    ∃ e, d.entity? id = some e ∧ c.componentType ≠ "" ∧
      (∀ r ∈ registry, r.isSingleton c.componentType = true →
        e.countComponents c.componentType = 0) ∧
      a = ⟨d.putEntity id { e with components := insertClamped e.components index c },
        .removeComponent id c.componentType (some (clampIndex e.components index)) (some c), []⟩ := by
  simp only [applyAddComponent, bind_ok_iff, ensure_ok_iff, exists_const, pure_ok_iff,
    Document.getEntity_ok_iff, @eq_comm _ _ a]
  refine exists_congr fun e => and_congr_right fun he => ?_
  cases registry with
  | none => simp
  | some r => cases hs : r.isSingleton c.componentType <;> simp [hs]

theorem applyAddComponent_unchecked {e : Entity} (he : d.entity? id = some e)
    (ht : c.componentType ≠ "") : applyAddComponent none d id c index =
      .ok ⟨d.putEntity id { e with components := insertClamped e.components index c },
        .removeComponent id c.componentType (some (clampIndex e.components index)) (some c), []⟩ :=
  applyAddComponent_ok_iff.mpr ⟨e, he, ht, by simp, rfl⟩

theorem applyRemoveComponent_ok_iff : applyRemoveComponent d id componentType index = .ok a ↔
    ∃ e place c, d.entity? id = some e ∧
      place = index.getD ((e.componentIndex? componentType).getD e.components.length) ∧
      e.components[place]? = some c ∧ c.componentType = componentType ∧
      a = ⟨d.putEntity id { e with components := e.components.eraseIdx place },
        .addComponent id c (some place), []⟩ := by
  simp only [applyRemoveComponent, bind_ok_iff, Document.getEntity_ok_iff]
  constructor
  · rintro ⟨e, he, h⟩
    generalize hp : index.getD ((e.componentIndex? componentType).getD e.components.length) =
      place at h
    cases hc : e.components[place]? with
    | none => simp [hc] at h
    | some c =>
      simp only [hc, bind_ok_iff, ensure_ok_iff, exists_const, pure_ok_iff,
        decide_eq_true_eq] at h
      exact ⟨e, place, c, he, hp.symm, hc, h.1, h.2.symm⟩
  · rintro ⟨e, place, c, he, rfl, hc, ht, rfl⟩
    refine ⟨e, he, ?_⟩
    simp only [hc, bind_ok_iff, ensure_ok_iff, exists_const, pure_ok_iff, decide_eq_true_eq]
    exact ⟨ht, trivial⟩

theorem applySetComponentProperty_ok_iff :
    applySetComponentProperty d id componentType path value = .ok a ↔
    ∃ e c c' w, d.entity? id = some e ∧ e.component? componentType = some c ∧
      c.setProperty path value = .ok (c', w) ∧
      a = ⟨d.putEntity id (e.setComponent componentType c'),
        .setComponentProperty id componentType w.inversePath w.prior.value w.current, []⟩ := by
  simp only [applySetComponentProperty, bind_ok_iff, Prod.exists, Document.getComponent_ok_iff,
    pure_ok_iff, @eq_comm _ _ a]
  constructor
  · rintro ⟨e, c, ⟨he, hc⟩, c', w, hw, rfl⟩
    exact ⟨e, c, c', w, he, hc, hw, rfl⟩
  · rintro ⟨e, c, c', w, he, hc, hw, rfl⟩
    exact ⟨e, c, ⟨he, hc⟩, c', w, hw, rfl⟩

theorem applyReplaceAssetRef_ok_iff {asset : String} :
    applyReplaceAssetRef d id componentType path asset = .ok a ↔
    ∃ steps e c current, d.assets.contains asset = true ∧ Path.ofText path = .ok steps ∧
      d.entity? id = some e ∧ e.component? componentType = some c ∧
      Bag.get? c.properties steps = some (.str current) ∧ d.assets.contains current = true ∧
      a = ⟨d.putEntity id (e.setComponent componentType
          { c with properties := c.properties.assign steps (some (.str asset)) }),
        .replaceAssetRef id componentType path asset current, []⟩ := by
  simp only [applyReplaceAssetRef, bind_ok_iff, ensure_ok_iff, exists_const, Prod.exists,
    mapError_ok_iff, Document.getComponent_ok_iff]
  constructor
  · rintro ⟨hasset, steps, hs, e, c, ⟨he, hc⟩, h⟩
    cases hg : Bag.get? c.properties steps with
    | none => simp [hg] at h
    | some j =>
      cases j with
      | str current =>
        simp only [hg, Option.bind_some, Json.asString?, bind_ok_iff, ensure_ok_iff, exists_const,
          mapError_ok_iff, pure_ok_iff, Bag.put_of_open (Bag.open_of_get? hg),
          Except.ok.injEq] at h
        obtain ⟨hcurrent, properties, rfl, h⟩ := h
        exact ⟨steps, e, c, current, hasset, hs, he, hc, hg, hcurrent, h.symm⟩
      | _ => simp [hg, Json.asString?] at h
  · rintro ⟨steps, e, c, current, hasset, hs, he, hc, hg, hcurrent, rfl⟩
    refine ⟨hasset, steps, hs, e, c, ⟨he, hc⟩, ?_⟩
    simp only [hg, Option.bind_some, Json.asString?, bind_ok_iff, ensure_ok_iff, exists_const,
      mapError_ok_iff, pure_ok_iff, Bag.put_of_open (Bag.open_of_get? hg), Except.ok.injEq]
    exact ⟨hcurrent, _, rfl, rfl⟩

end Edit

namespace Entity
open KeyframeTrack

/-- A keyframe list is changed in its place in the first animation component. -/
theorem editTrack_ok_iff {β : Type} {e e' : Entity} {track : String}
    {change : List Json → Except OpError (List Json × β)} {x : β} :
    e.editTrack track change = .ok (e', x) ↔
    ∃ c keyframes changed, e.component? Component.animationType = some c ∧
      Bag.get? c.properties (path track) = some (.arr keyframes) ∧
      change keyframes = .ok (changed, x) ∧
      e' = e.setComponent Component.animationType
        { c with properties := c.properties.assign (path track) (some (.arr changed)) } := by
  simp only [editTrack]
  constructor
  · intro h
    split at h
    · rename_i c hc
      split at h
      · rename_i keyframes hg
        simp only [bind_ok_iff, mapError_ok_iff, pure_ok_iff, Prod.exists, Prod.mk.injEq,
          Bag.put_of_open (Bag.open_of_get? hg), Except.ok.injEq] at h
        obtain ⟨changed, y, hchange, properties, rfl, he, rfl⟩ := h
        exact ⟨c, keyframes, changed, hc, hg, hchange, he.symm⟩
      · contradiction
    · contradiction
  · rintro ⟨c, keyframes, changed, hc, hg, hchange, rfl⟩
    simp only [hc, hg, hchange, bind_ok_iff, mapError_ok_iff, pure_ok_iff, Prod.exists,
      Prod.mk.injEq, Bag.put_of_open (Bag.open_of_get? hg), Except.ok.injEq]
    exact ⟨_, _, ⟨rfl, rfl⟩, _, rfl, rfl, rfl⟩

theorem amends_editTrack {β : Type} {e e' : Entity} {track : String}
    {change : List Json → Except OpError (List Json × β)} {x : β}
    (h : e.editTrack track change = .ok (e', x)) : e'.Amends e := by
  obtain ⟨c, keyframes, changed, hc, -, -, rfl⟩ := editTrack_ok_iff.mp h
  exact amends_setProperties hc _

end Entity
end SceneGraph
