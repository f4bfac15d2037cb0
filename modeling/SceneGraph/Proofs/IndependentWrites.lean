import SceneGraph.Proofs.AcceptedEdits
import SceneGraph.Proofs.EngineTraces
import SceneGraph.Proofs.PropertyParts

/-!
# Independent writes: property edits with nothing in common may change places

Writes of different entities, of an entity and of a component, of components of different types, or
at paths that part are independent. Two such edits that are accepted one after the other are
accepted in the other order, and lead to the same document.
-/
namespace SceneGraph

namespace Edit
open Document

/-- Two property edits with independent targets: of different entities, of an entity and of a
component, of components of different types, or at paths that part. -/
inductive Independent : Edit → Edit → Prop
  | properties {id id' path path' : String} {value value' old old' : Option Json}
      (h : id ≠ id' ∨ (Path.steps path).Apart (Path.steps path')) :
      Independent (setProperty id path value old) (setProperty id' path' value' old')
  | components {id id' t t' path path' : String} {value value' old old' : Option Json}
      (h : id ≠ id' ∨ t ≠ t' ∨ (Path.steps path).Apart (Path.steps path')) :
      Independent (setComponentProperty id t path value old)
        (setComponentProperty id' t' path' value' old')
  | propertyFirst {id id' t path path' : String} {value value' old old' : Option Json} :
      Independent (setProperty id path value old) (setComponentProperty id' t path' value' old')
  | componentFirst {id id' t path path' : String} {value value' old old' : Option Json} :
      Independent (setComponentProperty id t path value old) (setProperty id' path' value' old')

variable {registry : Option Registry} {d : Document} {id id' t t' path path' : String}
  {value value' old old' : Option Json} {e e' : Edit}

/-- What an edit that is accepted makes of a document. -/
def Leads (registry : Option Registry) (e : Edit) (d d' : Document) : Prop :=
  ∃ a, e.apply registry d = .ok a ∧ d' = a.document

theorem leads_setProperty_document (d₀ : Document) :
    (setProperty documentTarget path value old).Leads registry =
      Property.Sets Document.property d₀.removable? path value := by
  funext d d'
  rw [← Document.exists_setProperty_iff d₀]
  simp only [Leads, apply, applySetProperty_ok_iff, writeProperty_ok_iff, true_and, ne_eq,
    not_true_eq_false, false_and, or_false]
  refine propext ⟨?_, ?_⟩
  · rintro ⟨_, ⟨d', w, hw, rfl⟩, rfl⟩
    exact ⟨w, hw⟩
  · rintro ⟨w, hw⟩
    exact ⟨_, ⟨d', w, hw, rfl⟩, rfl⟩

theorem leads_setProperty_entity (hid : id ≠ documentTarget) :
    (setProperty id path value old).Leads registry =
      InEntity id (Property.Sets Entity.property Entity.removable? path value) := by
  funext d d'
  simp only [inEntity_iff, ← Entity.exists_setProperty_iff, Leads, apply, applySetProperty_ok_iff,
    writeProperty_ok_iff, hid, false_and, ne_eq, not_false_eq_true, true_and, false_or]
  refine propext ⟨?_, ?_⟩
  · rintro ⟨_, ⟨_, w, ⟨e, e', he, hw, rfl⟩, rfl⟩, rfl⟩
    exact ⟨e, e', he, ⟨w, hw⟩, rfl⟩
  · rintro ⟨e, e', he, ⟨w, hw⟩, rfl⟩
    exact ⟨_, ⟨_, w, ⟨e, e', he, hw, rfl⟩, rfl⟩, rfl⟩

theorem leads_setComponentProperty :
    (setComponentProperty id t path value old).Leads registry =
      InEntity id (Entity.SetsIn t path value) := by
  funext d d'
  simp only [inEntity_iff, Entity.setsIn_iff, Leads, apply, applySetComponentProperty_ok_iff]
  refine propext ⟨?_, ?_⟩
  · rintro ⟨_, ⟨e, c, c', w, he, hc, hw, rfl⟩, rfl⟩
    exact ⟨e, _, he, ⟨c, c', w, hc, hw, rfl⟩, rfl⟩
  · rintro ⟨e, _, he, ⟨c, c', w, hc, hw, rfl⟩, rfl⟩
    exact ⟨_, ⟨e, c, c', w, he, hc, hw, rfl⟩, rfl⟩

private theorem exchange_setProperty (hd : d.Readable)
    (ht : ∀ id e, d.entity? id = some e → e.transform.isFinite = true)
    (h : id ≠ id' ∨ (Path.steps path).Apart (Path.steps path')) :
    Exchange ((setProperty id path value old).Leads registry)
      ((setProperty id' path' value' old').Leads registry) d := by
  -- Each of the two is about the document itself or about an entity.
  by_cases hid : id = documentTarget
  · subst hid
    rw [leads_setProperty_document d]
    by_cases hid' : id' = documentTarget
    · subst hid'
      rw [leads_setProperty_document d]
      exact Document.exchange_sets hd d (h.resolve_left (· rfl))
    · rw [leads_setProperty_entity hid']
      exact exchange_sets_inEntity d d
  · rw [leads_setProperty_entity hid]
    by_cases hid' : id' = documentTarget
    · subst hid'
      rw [leads_setProperty_document d]
      exact (exchange_sets_inEntity d d).symm
    · rw [leads_setProperty_entity hid']
      exact exchange_inEntity fun heq e he =>
        Entity.exchange_sets (ht id e he) (h.resolve_left (· heq))

private theorem exchange_setComponentProperty
    (h : id ≠ id' ∨ t ≠ t' ∨ (Path.steps path).Apart (Path.steps path')) (d : Document) :
    Exchange ((setComponentProperty id t path value old).Leads registry)
      ((setComponentProperty id' t' path' value' old').Leads registry) d := by
  rw [leads_setComponentProperty, leads_setComponentProperty]
  exact exchange_inEntity fun heq e _ => Entity.exchange_setsIn (h.resolve_left (· heq)) e

private theorem exchange_property_component (d : Document) :
    Exchange ((setProperty id path value old).Leads registry)
      ((setComponentProperty id' t path' value' old').Leads registry) d := by
  rw [leads_setComponentProperty]
  by_cases hid : id = documentTarget
  · subst hid
    rw [leads_setProperty_document d]
    exact exchange_sets_inEntity d d
  · rw [leads_setProperty_entity hid]
    exact exchange_inEntity fun _ e _ => Entity.exchange_sets_setsIn e

theorem Independent.exchange (h : e.Independent e') (hd : d.Readable)
    (ht : ∀ id e, d.entity? id = some e → e.transform.isFinite = true) :
    Exchange (e.Leads registry) (e'.Leads registry) d := by
  cases h with
  | properties h => exact exchange_setProperty hd ht h
  | components h => exact exchange_setComponentProperty h d
  | propertyFirst => exact exchange_property_component d
  | componentFirst => exact (exchange_property_component d).symm

end Edit

namespace Document
variable {registry : Option Registry} {stamps stamps' : Stamps} {d d' d'' : Document}
  {envelope envelope' : Envelope} {e e' : Edit}

theorem accepts_edit_iff_leads : d.Accepts registry stamps (.edit envelope e) d' ↔
    envelope.version ≤ currentOpVersion ∧ e.Leads registry d d' :=
  accepts_edit_iff

/-- Independent property edits may change places: the other order is accepted as well, and gives
the same document. -/
theorem independent_edits_commute (hd : d.Readable)
    (ht : ∀ id e, d.entity? id = some e → e.transform.isFinite = true) (h : e.Independent e')
    (h₁ : d.Accepts registry stamps (.edit envelope e) d')
    (h₂ : d'.Accepts registry stamps' (.edit envelope' e') d'') :
    ∃ m, d.Accepts registry stamps (.edit envelope' e') m ∧
      m.Accepts registry stamps' (.edit envelope e) d'' := by
  obtain ⟨hv, hd'⟩ := accepts_edit_iff_leads.mp h₁
  obtain ⟨hv', hd''⟩ := accepts_edit_iff_leads.mp h₂
  obtain ⟨m, hm, hm'⟩ := (h.exchange hd ht d'').mp ⟨d', hd', hd''⟩
  exact ⟨m, accepts_edit_iff_leads.mpr ⟨hv', hm⟩, accepts_edit_iff_leads.mpr ⟨hv, hm'⟩⟩

/-- A garden whose game settings hold nothing but its weather. -/
def weathered (weather : Bag) : Document :=
  { ofIds "garden" "root" "Garden" with
    gameSettings := some
      { GameSettings.empty with extra := Dict.insert .nil "weather" (.obj weather) } }

/-- Whichever comes first has the game settings and the weather made. -/
theorem rain_and_wind_commute :
    let d := ofIds "garden" "root" "Garden"
    let rain : Edit :=
      .setProperty documentTarget "gameSettings.weather.rain" (some (.bool true)) none
    let wind : Edit :=
      .setProperty documentTarget "gameSettings.weather.wind" (some (.str "north")) none
    let d' := weathered (Dict.insert .nil "rain" (.bool true))
    let d'' := weathered (Dict.insert (Dict.insert .nil "rain" (.bool true)) "wind" (.str "north"))
    d.Readable ∧ (∀ id e, d.entity? id = some e → e.transform.isFinite = true) ∧
      rain.Independent wind ∧ d.Accepts none .plain (.edit .plain rain) d' ∧
      d'.Accepts none .plain (.edit .plain wind) d'' ∧
      ∃ m, d.Accepts none .plain (.edit .plain wind) m ∧
        m.Accepts none .plain (.edit .plain rain) d'' := by
  intro d rain wind d' d''
  have hd : d.Readable := ⟨by decide, nofun⟩
  have ht : ∀ id e, d.entity? id = some e → e.transform.isFinite = true := by
    intro id e he
    rw [entity?_ofIds] at he
    split at he
    · cases he
      decide
    · contradiction
  have h : rain.Independent wind := .properties (.inr ⟨by decide, by decide⟩)
  have accepted : ∀ {e : Edit} {d d' : Document},
      (e.apply none d).map (·.document) = .ok d' → d.Accepts none .plain (.edit .plain e) d' := by
    intro e d d' he
    obtain ⟨a, ha, rfl⟩ := map_ok_iff.mp he
    exact accepts_edit_iff.mpr ⟨Nat.le_refl _, a, ha, rfl⟩
  have h₁ : d.Accepts none .plain (.edit .plain rain) d' := accepted (by decide +kernel)
  have h₂ : d'.Accepts none .plain (.edit .plain wind) d'' := accepted (by decide +kernel)
  exact ⟨hd, ht, h, h₁, h₂, independent_edits_commute hd ht h h₁ h₂⟩

end Document
end SceneGraph
