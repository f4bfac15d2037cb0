import SceneGraph.Proofs.EntityChanges
import SceneGraph.Proofs.UndoDepths
import SceneGraph.Proofs.ValidDocuments

/-!
# Singletons: a registry keeps components single, and does nothing else

The engine is run twice over one tree of operations, with a registry and without.
-/
namespace SceneGraph

namespace Document
variable {r : Registry} {d d' : Document}

theorem singletonIssues_eq_nil_iff {e : Entity} : singletonIssues r e = [] ↔
    ∀ t, r.isSingleton t = true → e.countComponents t ≤ 1 := by
  have hmem : ∀ t, t ∈ (TextSet.ofList (e.components.map (·.componentType))).keys ↔
      0 < e.countComponents t := by
    intro t
    rw [TextSet.mem_keys_ofList, Entity.countComponents, List.countP_pos_iff]
    simp
  simp only [singletonIssues, List.flatMap_eq_nil_iff, issueUnless_eq_nil_iff, hmem]
  constructor
  · intro h t ht
    by_contra hc
    have hissue := h t (by omega)
    simp [ht] at hissue
    omega
  · intro h t _
    cases ht : r.isSingleton t with
    | true => simp [h t ht]
    | false => simp

theorem componentIssues_eq_nil_iff : d.componentIssues r = [] ↔
    ∀ id e, d.entity? id = some e → ∀ t, r.isSingleton t = true → e.countComponents t ≤ 1 := by
  simp only [componentIssues, List.flatMap_eq_nil_iff, Ascending.mem_values_iff,
    singletonIssues_eq_nil_iff]
  constructor
  · intro h id e he
    exact h e ⟨id, he⟩
  · rintro h e ⟨id, he⟩
    exact h id e he

/-- Descent under a registry does not make singletons plural. -/
theorem Descends.componentIssues (h : d'.Descends (some r) d) (hd : d.componentIssues r = []) :
    d'.componentIssues r = [] := by
  rw [componentIssues_eq_nil_iff] at hd ⊢
  intro id e' he' t ht
  obtain ⟨e, he, hdescends⟩ := h.entities he'
  have hbound := hdescends.single r rfl t ht
  have hbefore := hd id e he t ht
  omega

end Document

namespace Edit
variable {r : Registry} {d d' : Document} {e : Edit} {a : Applied} {edits back : List Edit}

/-- With the registry on, an accepted edit leaves singletons single. -/
theorem apply_componentIssues (hd : d.componentIssues r = [])
    (ha : e.apply (some r) d = .ok a) : a.document.componentIssues r = [] := by
  rcases apply_descends ha with hdescends | ⟨n, linked, -, hlinked, hdocument⟩ | ⟨_, -, hdocument⟩
  · exact hdescends.componentIssues hd
  · have hbefore := Document.componentIssues_eq_nil_iff.mp (hlinked.componentIssues hd)
    rw [hdocument, Document.componentIssues_eq_nil_iff]
    intro id x hx t ht
    rw [Document.entity?_putEntity] at hx
    split at hx
    · rw [← Option.some.inj hx]
      exact Nat.zero_le 1
    · exact hbefore id x hx t ht
  · rw [hdocument]
    exact hd

/-- The edit adds a component of a singleton type to an entity that has one of that type. -/
def Crowds (r : Registry) (d : Document) : Edit → Prop
  | addComponent id c _ => r.isSingleton c.componentType = true ∧
      ∃ e, d.entity? id = some e ∧ ∃ c' ∈ e.components, c'.componentType = c.componentType
  | _ => False

private theorem applyAddComponent_checked_iff {id : String} {c : Component} {index : Option Nat} :
    applyAddComponent (some r) d id c index = .ok a ↔
      applyAddComponent none d id c index = .ok a ∧ ¬ (addComponent id c index).Crowds r d := by
  have hcount : ∀ e : Entity, e.countComponents c.componentType = 0 ↔
      ¬ ∃ c' ∈ e.components, c'.componentType = c.componentType := by
    intro e
    simp [Entity.countComponents, List.countP_eq_zero]
  simp only [applyAddComponent_ok_iff, Crowds, Option.mem_some_iff, forall_eq', hcount]
  constructor
  · rintro ⟨e, he, ht, hsingle, rfl⟩
    refine ⟨⟨e, he, ht, by simp, rfl⟩, ?_⟩
    rintro ⟨hs, e', he', htaken⟩
    exact hsingle hs (Option.some.inj (he.symm.trans he') ▸ htaken)
  · rintro ⟨⟨e, he, ht, -, rfl⟩, hfree⟩
    exact ⟨e, he, ht, fun hs htaken => hfree ⟨hs, e, he, htaken⟩, rfl⟩

/-- The registry turns down the edits that crowd an entity, and no other. -/
theorem apply_checked_iff : e.apply (some r) d = .ok a ↔
    e.apply none d = .ok a ∧ ¬ e.Crowds r d := by
  cases e with
  | addComponent id c index => exact applyAddComponent_checked_iff
  | _ => exact (and_iff_left (not_false : ¬ False)).symm

/-- The edits of a row, each with the document that it finds, up to the first that is rejected. -/
def stages : Document → List Edit → List (Document × Edit)
  | _, [] => []
  | d, e :: edits => (d, e) :: match e.apply none d with
    | .ok a => stages a.document edits
    | .error _ => []

theorem applyRow_componentIssues (hd : d.componentIssues r = [])
    (h : applyRow (some r) d edits = .ok (d', back)) : d'.componentIssues r = [] := by
  induction edits generalizing d back with
  | nil =>
    obtain ⟨rfl, -⟩ := Prod.mk.inj (Except.ok.inj h)
    exact hd
  | cons e edits ih =>
    cases ha : e.apply (some r) d with
    | error error => simp [applyRow, ha] at h
    | ok a =>
      simp only [applyRow, ha, map_ok_iff, Prod.exists, Prod.mk.injEq] at h
      obtain ⟨_, later, hl, rfl, -⟩ := h
      exact ih (apply_componentIssues hd ha) hl

theorem applyRow_checked_iff : applyRow (some r) d edits = .ok (d', back) ↔
    applyRow none d edits = .ok (d', back) ∧
      ∀ stage ∈ stages d edits, ¬ stage.2.Crowds r stage.1 := by
  induction edits generalizing d d' back with
  | nil => simp [applyRow, stages]
  | cons e edits ih =>
    cases hplain : e.apply none d with
    | error error =>
      have hchecked : ∀ a, e.apply (some r) d ≠ .ok a := fun a ha => by
        simp [(apply_checked_iff.mp ha).1] at hplain
      cases ha : e.apply (some r) d with
      | ok a => exact absurd ha (hchecked a)
      | error _ => simp [applyRow, ha, hplain]
    | ok a =>
      by_cases hc : e.Crowds r d
      · cases ha : e.apply (some r) d with
        | ok a => exact absurd hc (apply_checked_iff.mp ha).2
        | error _ => simp [applyRow, stages, ha, hc]
      · have ha := apply_checked_iff.mpr ⟨hplain, hc⟩
        simp only [applyRow, stages, ha, hplain, map_ok_iff, Prod.exists, ih, Prod.mk.injEq,
          List.forall_mem_cons, hc, not_false_eq_true, true_and]
        constructor
        · rintro ⟨_, later, ⟨hrow, hfree⟩, rfl, rfl⟩
          exact ⟨⟨_, later, hrow, rfl, rfl⟩, hfree⟩
        · rintro ⟨⟨_, later, hrow, rfl, rfl⟩, hfree⟩
          exact ⟨_, later, ⟨hrow, hfree⟩, rfl, rfl⟩

end Edit

def Envelope.unstamped (envelope : Envelope) : Envelope :=
  { envelope with id := "", timestamp := 0 }

namespace Op

mutual
/-- The operation without the ids and times that envelopes are stamped with. -/
def unstamped : Op → Op
  | .edit envelope e => .edit envelope.unstamped e
  | .batch envelope ops => .batch envelope.unstamped (unstampedAll ops)

def unstampedAll : List Op → List Op
  | [] => []
  | op :: ops => unstamped op :: unstampedAll ops
end

end Op

/-- The stamps are all that inverses of one edit differ in. -/
theorem Applied.unstamped_inverseOp (a : Applied) (envelope : Envelope)
    (stamps otherStamps : Stamps) :
    (a.inverseOp envelope otherStamps).unstamped = (a.inverseOp envelope stamps).unstamped := by
  have hsteps : ∀ (edits : List Edit) (f g : Nat → Envelope),
      (∀ i, (f i).unstamped = (g i).unstamped) →
      Op.unstampedAll (edits.mapIdx fun i e => .edit (f i) e) =
        Op.unstampedAll (edits.mapIdx fun i e => .edit (g i) e) := by
    intro edits
    induction edits with
    | nil => exact fun _ _ _ => rfl
    | cons e edits ih =>
      intro f g hfg
      simp only [List.mapIdx_cons, Op.unstampedAll, Op.unstamped, hfg 0]
      rw [ih _ _ fun i => hfg (i + 1)]
  unfold inverseOp
  split
  · rfl
  · exact congrArg (Op.batch _) (hsteps (a.inverse :: a.sequel) _ _ fun _ => rfl)

namespace Engine
variable {undo : Applier} {registry : Option Registry} {r : Registry}

mutual
/-- What is accepted with a registry is accepted without it, to the same effect, and is taken back
by the same inverse, whatever stamps are supplied. -/
theorem applyUndoing_unchecked (stamps otherStamps : Stamps) {d : Document} {inverse : Op} :
    (op : Op) → (applyUndoing undo (some r) stamps d op).result = .ok inverse →
    ∃ other : Op, applyUndoing undo none otherStamps d op =
        ⟨(applyUndoing undo (some r) stamps d op).document, .ok other, []⟩ ∧
      other.unstamped = inverse.unstamped
  | .edit envelope e => fun h => by
    cases ho : applyUndoing undo (some r) stamps d (.edit envelope e) with
    | mk d' result rollbacks =>
      obtain rfl : result = .ok inverse := by rwa [ho] at h
      obtain ⟨hv, a, ha, rfl, rfl, -⟩ := applyUndoing_edit_ok_iff.mp ho
      have hplain := (Edit.apply_checked_iff.mp ha).1
      exact ⟨_, applyUndoing_edit_ok_iff.mpr ⟨hv, a, hplain, rfl, rfl, rfl⟩,
        a.unstamped_inverseOp envelope stamps otherStamps⟩
  | .batch envelope ops => fun h => by
    rw [applyUndoing] at h ⊢
    split at h
    · contradiction
    · rename_i hv
      obtain ⟨inverses, hi, rfl⟩ := map_ok_iff.mp h
      obtain ⟨others, ho, hsame⟩ := applyFrom_unchecked stamps otherStamps 0 rfl ops hi
      refine ⟨.batch (envelope.derive otherStamps.here) others, ?_, ?_⟩
      · rw [applyUndoing, if_neg hv, if_neg hv, ho]
        rfl
      · rw [Op.unstamped, Op.unstamped, hsame]
        rfl

theorem applyFrom_unchecked (stamps otherStamps : Stamps) {d : Document}
    {inverses others result : List Op} (index : Nat)
    (hsame : Op.unstampedAll others = Op.unstampedAll inverses) : (ops : List Op) →
    (applyFrom undo (some r) stamps d index inverses ops).result = .ok result →
    ∃ otherResult : List Op, applyFrom undo none otherStamps d index others ops =
        ⟨(applyFrom undo (some r) stamps d index inverses ops).document, .ok otherResult, []⟩ ∧
      Op.unstampedAll otherResult = Op.unstampedAll result
  | [] => fun h => by
    rw [applyFrom] at h ⊢
    obtain rfl := Except.ok.inj h
    exact ⟨others, by rw [applyFrom], hsame⟩
  | op :: ops => fun h => by
    rw [applyFrom] at h
    cases ho : (applyUndoing undo (some r) (stamps.below index) d op).result with
    | error source =>
      simp only [ho] at h
      exact absurd h (undoAll_rejects stamps _ inverses)
    | ok inverse =>
      simp only [ho, Outcome.after] at h
      obtain ⟨other, hother, hstamp⟩ :=
        applyUndoing_unchecked (stamps.below index) (otherStamps.below index) op ho
      have hnext : Op.unstampedAll (other :: others) = Op.unstampedAll (inverse :: inverses) := by
        rw [Op.unstampedAll, Op.unstampedAll, hstamp, hsame]
      obtain ⟨otherResult, hrest, hresult⟩ :=
        applyFrom_unchecked stamps otherStamps (index + 1) hnext ops h
      refine ⟨otherResult, ?_, hresult⟩
      rw [applyFrom, applyFrom, hother]
      simp only [ho, hrest, Outcome.after, List.append_nil]
end

/-- An operation is accepted exactly when no envelope is too new and its edits are accepted in a
row. -/
theorem accepted_iff {stamps : Stamps} {d : Document} {op : Op} :
    (∃ inverse, (applyUndoing undo registry stamps d op).result = .ok inverse) ↔
      op.UpToDate ∧ ∃ d' back, Edit.applyRow registry d op.steps = .ok (d', back) := by
  constructor
  · rintro ⟨inverse, h⟩
    obtain ⟨hrow, hu, -⟩ := row_of_applyUndoing stamps op h
    exact ⟨hu, _, _, hrow⟩
  · rintro ⟨hu, d', back, hrow⟩
    obtain ⟨inverse, h, -⟩ := applyUndoing_of_row stamps op hu hrow
    exact ⟨inverse, by rw [h]⟩

end Engine

namespace Document
variable {r : Registry} {d : Document}

/-- In a document whose singletons are single, what is accepted with the registry leaves them
single, and without the registry it is accepted to the same effect, and taken back by the same
inverse but for its stamps. And the registry turns down nothing but operations with an edit that,
where it runs, crowds an entity. -/
theorem registry_enforces_singletons (hd : d.componentIssues r = []) (op : Op)
    (stamps otherStamps : Stamps) :
    (∀ d' inverse rollbacks, d.apply (some r) stamps op = ⟨d', .ok inverse, rollbacks⟩ →
      d'.componentIssues r = [] ∧
        ∃ other : Op, d.apply none otherStamps op = ⟨d', .ok other, []⟩ ∧
          other.unstamped = inverse.unstamped) ∧
      ((∃ inverse, (d.apply (some r) stamps op).result = .ok inverse) ↔
        (∃ inverse, (d.apply none otherStamps op).result = .ok inverse) ∧
          ∀ stage ∈ Edit.stages d op.steps, ¬ stage.2.Crowds r stage.1) := by
  simp only [apply_eq]
  constructor
  · intro d' inverse rollbacks h
    have hresult := congrArg Outcome.result h
    obtain rfl := congrArg Outcome.document h
    obtain ⟨hrow, -⟩ := Engine.row_of_applyUndoing stamps op hresult
    exact ⟨Edit.applyRow_componentIssues hd hrow,
      Engine.applyUndoing_unchecked stamps otherStamps op hresult⟩
  · simp only [Engine.accepted_iff, Edit.applyRow_checked_iff, exists_and_right, and_assoc]

/-- A lamp is created and, in a batch within the batch, given one light, or two. -/
theorem lamp_lights_enforced :
    let d := ofIds "scene" "root" "Scene"
    let light : Op := .edit .plain (.attach "lamp" (.ofType "Light"))
    let lit (lights : List Op) : Op := .batch .plain
      [.edit .plain (.create "lamp" "Lamp" "root"), .batch .plain lights]
    d.componentIssues .builtin = [] ∧
      (∃ d' inverse, d.apply (some .builtin) .plain (lit [light]) = ⟨d', .ok inverse, []⟩ ∧
        d'.componentIssues .builtin = [] ∧
          ∃ other, d.apply none .plain (lit [light]) = ⟨d', .ok other, []⟩) ∧
      (∃ inverse, (d.apply none .plain (lit [light, light])).result = .ok inverse) ∧
      (¬ ∃ inverse, (d.apply (some .builtin) .plain (lit [light, light])).result = .ok inverse) ∧
      ∃ stage ∈ Edit.stages d (lit [light, light]).steps, stage.2.Crowds .builtin stage.1 := by
  intro d light lit
  have hd : d.componentIssues .builtin = [] := by decide
  have haccepted : ∃ inverse, (d.apply none .plain (lit [light, light])).result = .ok inverse :=
    ⟨_, rfl⟩
  have hrejected :
      ¬ ∃ inverse, (d.apply (some .builtin) .plain (lit [light, light])).result = .ok inverse := by
    rintro ⟨inverse, h⟩
    have hok : (d.apply (some .builtin) .plain (lit [light, light])).result.isOk = false := by
      decide
    rw [h] at hok
    exact Bool.noConfusion hok
  refine ⟨hd, ?_, haccepted, hrejected, ?_⟩
  · obtain ⟨hsingle, other, hother, -⟩ :=
      (registry_enforces_singletons hd (lit [light]) .plain .plain).1 _ _ _ rfl
    exact ⟨_, _, rfl, hsingle, other, hother⟩
  · have hdecided := (registry_enforces_singletons hd (lit [light, light]) .plain .plain).2
    by_contra hfree
    simp only [not_exists, not_and] at hfree
    exact hrejected (hdecided.mpr ⟨haccepted, hfree⟩)

end Document
end SceneGraph
