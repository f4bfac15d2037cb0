import SceneGraph.Proofs.BreadthFirst

/-!
# Valid documents are the forests in which only the root has no parent

Each check of validation is turned into a statement about the outline. Together they say that the
document is a forest and that no entity but the root is without a parent (`isValid_iff`). What can
be reached from the root then needs no check of its own.
-/
namespace SceneGraph
open Relation (ReflTransGen)

@[simp] theorem issueUnless_eq_nil_iff {α : Type} {condition : Bool} {issue : α} :
    issueUnless condition issue = [] ↔ condition = true := by
  cases condition <;> simp [issueUnless]

theorem repeatedAmong_eq_nil_iff {seen texts : List String} {index : Nat} :
    repeatedAmong seen index texts = [] ↔ texts.Nodup ∧ ∀ text ∈ texts, text ∉ seen := by
  induction texts generalizing seen index with
  | nil => simp [repeatedAmong]
  | cons text rest ih =>
    unfold repeatedAmong
    by_cases hs : text ∈ seen
    · simp [hs]
    · rw [if_neg (by simpa using hs), ih, List.nodup_cons, List.forall_mem_cons]
      simp only [List.mem_cons, not_or]
      constructor
      · rintro ⟨hn, hr⟩
        exact ⟨⟨fun ht => (hr text ht).1 rfl, hn⟩, hs, fun t ht => (hr t ht).2⟩
      · rintro ⟨⟨ht, hn⟩, -, hr⟩
        exact ⟨hn, fun t hm => ⟨fun he => ht (he ▸ hm), hr t hm⟩⟩

namespace Document
variable {d : Document} {e : Entity}

theorem rootIssues_eq_nil_iff :
    d.rootIssues = [] ↔ ∃ root, d.root? = some root ∧ root.parentId = none := by
  unfold rootIssues
  cases d.root? <;> simp

theorem parentIssues_eq_nil_iff : d.parentIssues e = [] ↔
    (e.parentId = none → e.id = d.rootEntityId) ∧
      ∀ parent, e.parentId = some parent →
        ∃ p, d.entity? parent = some p ∧ p.children.count e.id = 1 := by
  unfold parentIssues
  cases hp : e.parentId with
  | none => simp
  | some parent =>
    cases he : d.entity? parent with
    | none => simp [he]
    | some p =>
      have hcount : p.children.countP (· = e.id) = p.children.count e.id := rfl
      simp [he, hcount]

theorem childIssue_eq_nil_iff {c : String} : d.childIssue e c = [] ↔
    ∃ child, d.entity? c = some child ∧ child.parentId = some e.id := by
  unfold childIssue
  cases d.entity? c <;> simp

theorem childIssues_eq_nil_iff {seen children : List String} :
    d.childIssues e seen children = [] ↔ children.Nodup ∧ ∀ c ∈ children, c ∉ seen ∧
      ∃ child, d.entity? c = some child ∧ child.parentId = some e.id := by
  induction children generalizing seen with
  | nil => simp [childIssues]
  | cons c rest ih =>
    unfold childIssues
    by_cases hs : c ∈ seen
    · simp [hs]
    · rw [if_neg (by simpa using hs), List.append_eq_nil_iff, List.nodup_cons, List.forall_mem_cons]
      refine (and_congr childIssue_eq_nil_iff ih).trans ?_
      simp only [List.mem_cons, not_or]
      constructor
      · rintro ⟨hc, hn, hr⟩
        exact ⟨⟨fun hm => (hr c hm).1.1 rfl, hn⟩, ⟨hs, hc⟩, fun x hx =>
          ⟨(hr x hx).1.2, (hr x hx).2⟩⟩
      · rintro ⟨⟨hm, hn⟩, ⟨-, hc⟩, hr⟩
        exact ⟨hc, hn, fun x hx => ⟨⟨fun he => hm (he ▸ hx), (hr x hx).1⟩, (hr x hx).2⟩⟩

theorem componentTypeIssues_eq_nil_iff :
    componentTypeIssues e = [] ↔ ∀ c ∈ e.components, c.componentType ≠ "" := by
  simp only [componentTypeIssues, List.flatten_eq_nil_iff, List.mem_mapIdx]
  constructor
  · intro h c hc
    obtain ⟨i, hi, rfl⟩ := List.mem_iff_getElem.mp hc
    simpa using h _ ⟨i, hi, rfl⟩
  · rintro h _ ⟨i, hi, rfl⟩
    simpa using h _ (List.getElem_mem hi)

theorem reachabilityIssues_eq_nil_iff (hr : d.contains d.rootEntityId = true) :
    d.reachabilityIssues = [] ↔
      ∀ id, d.contains id = true → ReflTransGen d.outline.Lists d.rootEntityId id := by
  have hroot : d.entities.contains d.rootEntityId = true := hr
  simp only [reachabilityIssues, hroot, if_true, List.flatMap_eq_nil_iff, issueUnless_eq_nil_iff,
    List.contains_iff_mem, Ascending.mem_keys_iff]
  refine forall_congr' fun id => ?_
  rw [← Ascending.contains_iff]
  exact imp_congr_right fun hid => mem_breadthFirst_iff hid

/-- Where every way up comes to the root, which has no parent, all chains of parents end. -/
theorem grounded_of_upward (hr : ∃ n, d.outline d.rootEntityId = some n ∧ n.parent = none)
    (hall : ∀ id, d.contains id = true → ReflTransGen d.outline.Parent d.rootEntityId id) :
    WellFounded d.outline.Parent := by
  obtain ⟨n, hn, hd⟩ := hr
  have hbelow : ∀ id, ReflTransGen d.outline.Parent d.rootEntityId id →
      Acc d.outline.Parent id := by
    intro id h
    induction h with
    | refl => exact ⟨_, fun q hq => absurd hq (Outline.not_parent hn hd q)⟩
    | tail _ hp ih => exact ⟨_, fun q hq => Outline.parent_unique hp hq ▸ ih⟩
  refine ⟨fun id => ?_⟩
  by_cases hid : d.contains id = true
  · exact hbelow id (hall id hid)
  · refine ⟨_, fun q ⟨n, hn, _⟩ => ?_⟩
    obtain ⟨e, he, -⟩ := Option.map_eq_some_iff.mp hn
    exact absurd (contains_iff.mpr ⟨e, he⟩) hid

theorem reachable_of_forest (h : d.outline.Forest d.rootEntityId)
    (hroot : ∀ id e, d.entity? id = some e → e.parentId = none → id = d.rootEntityId) :
    ∀ id, d.contains id = true → ReflTransGen d.outline.Lists d.rootEntityId id := by
  intro id
  induction h.grounded.apply id with
  | intro id _ ih =>
    intro hid
    obtain ⟨e, he⟩ := contains_iff.mp hid
    cases hp : e.parentId with
    | none => exact hroot id e he hp ▸ .refl
    | some p =>
      have hparent : d.outline.Parent p id := ⟨_, outline_of_entity? he, hp⟩
      obtain ⟨n, hn, -⟩ := h.listed hparent
      obtain ⟨q, hq, -⟩ := Option.map_eq_some_iff.mp hn
      exact (ih p hparent (contains_iff.mpr ⟨q, hq⟩)).tail (h.edges.mp hparent)

private theorem isValid_iff_checks : d.isValid = true ↔
    d.schemaVersion ≤ currentSchemaVersion ∧ (∀ id e, d.entity? id = some e → id = e.id) ∧
      (∃ root, d.root? = some root ∧ root.parentId = none) ∧
      (∀ id e, d.entity? id = some e → d.parentIssues e = [] ∧ d.childIssues e [] e.children = [] ∧
        componentTypeIssues e = []) ∧
      d.reachabilityIssues = [] ∧ (∀ id a, d.assets.find? id = some a → id = a.id) ∧
      (d.wiring.map (·.id)).Nodup := by
  have hvalues : (∀ e ∈ d.entities.values, d.parentIssues e = [] ∧
      d.childIssues e [] e.children = [] ∧ componentTypeIssues e = []) ↔
      ∀ id e, d.entity? id = some e → d.parentIssues e = [] ∧
        d.childIssues e [] e.children = [] ∧ componentTypeIssues e = [] := by
    simp only [Ascending.mem_values_iff, entity?]
    constructor
    · exact fun h id e he => h e ⟨id, he⟩
    · rintro h e ⟨id, he⟩
      exact h id e he
  simp only [isValid, issues, List.isEmpty_iff, List.append_eq_nil_iff, issueUnless_eq_nil_iff,
    List.flatMap_eq_nil_iff, List.map_eq_nil_iff, repeatedAmong_eq_nil_iff,
    rootIssues_eq_nil_iff, entityIssues, hvalues, decide_eq_true_eq, Prod.forall,
    Ascending.mem_toList_iff, and_assoc]
  simp [entity?]

/-- Validation accepts the forests in which no entity but the root is without a parent. -/
theorem isValid_iff : d.isValid = true ↔
    d.Forest ∧ ∀ id e, d.entity? id = some e → e.parentId = none → id = d.rootEntityId := by
  rw [isValid_iff_checks]
  simp only [parentIssues_eq_nil_iff, childIssues_eq_nil_iff, componentTypeIssues_eq_nil_iff]
  constructor
  · rintro ⟨hschema, hids, ⟨root, hroot, hrp⟩, hentities, hreach, hassets, hwires⟩
    have hcontains : d.contains d.rootEntityId = true := contains_iff.mpr ⟨root, hroot⟩
    have hr : ∃ n, d.outline d.rootEntityId = some n ∧ n.parent = none :=
      ⟨_, outline_of_entity? hroot, hrp⟩
    have hb : ∀ p c, d.outline.Lists p c → d.outline.Parent p c := by
      rintro p c ⟨n, hn, hc⟩
      obtain ⟨e, he, rfl⟩ := Option.map_eq_some_iff.mp hn
      obtain ⟨-, child, hchild, hp⟩ := (hentities p e he).2.1.2 c hc
      exact ⟨_, outline_of_entity? hchild, hids p e he ▸ hp⟩
    refine ⟨⟨hschema, fun id e he => (hids id e he).symm, ⟨hr, ?_, ?_, ?_, ?_⟩,
      fun id e he => (hentities id e he).2.2, fun id a ha => (hassets id a ha).symm, hwires⟩, ?_⟩
    · rintro p c ⟨n, hn, hp⟩
      obtain ⟨e, he, rfl⟩ := Option.map_eq_some_iff.mp hn
      obtain ⟨q, hq, hcount⟩ := (hentities c e he).1.2 p hp
      exact ⟨_, outline_of_entity? hq, hids c e he ▸ hcount⟩
    · exact fun p n hn c hc => hb p c ⟨n, hn, hc⟩
    · rintro p n hn
      obtain ⟨e, he, rfl⟩ := Option.map_eq_some_iff.mp hn
      exact (hentities p e he).2.1.1
    · exact grounded_of_upward hr fun id hid =>
        ReflTransGen.mono hb _ _ ((reachabilityIssues_eq_nil_iff hcontains).mp hreach id hid)
    · exact fun id e he hp => (hids id e he).trans ((hentities id e he).1.1 hp)
  · rintro ⟨h, hroot⟩
    obtain ⟨n, hn, hrp⟩ := h.tree.root
    obtain ⟨root, hr, rfl⟩ := Option.map_eq_some_iff.mp hn
    have hcontains : d.contains d.rootEntityId = true := contains_iff.mpr ⟨root, hr⟩
    refine ⟨h.schema, fun id e he => (h.ids he).symm, ⟨root, hr, hrp⟩, fun id e he => ⟨⟨?_, ?_⟩,
      ⟨h.tree.nodup (outline_of_entity? he), fun c hc => ⟨by simp, ?_⟩⟩, h.types he⟩,
      (reachabilityIssues_eq_nil_iff hcontains).mpr (reachable_of_forest h.tree hroot),
      fun id a ha => (h.assetIds ha).symm, h.wires⟩
    · exact fun hp => h.ids he ▸ hroot id e he hp
    · intro parent hp
      obtain ⟨m, hm, hcount⟩ := h.tree.listed ⟨_, outline_of_entity? he, hp⟩
      obtain ⟨p, hpe, rfl⟩ := Option.map_eq_some_iff.mp hm
      exact ⟨p, hpe, (h.ids he).symm ▸ hcount⟩
    · obtain ⟨m, hm, hpc⟩ := h.tree.pointsBack (outline_of_entity? he) c hc
      obtain ⟨child, hchild, rfl⟩ := Option.map_eq_some_iff.mp hm
      exact ⟨child, hchild, (h.ids he).symm ▸ hpc⟩

end Document
end SceneGraph
