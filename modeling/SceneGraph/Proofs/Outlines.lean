import Mathlib.Data.List.Nodup
import Mathlib.Data.List.Perm.Basic
import Mathlib.Logic.Relation
import Mathlib.Order.WellFounded

/-!
# Outlines: forests of named nodes, and the four moves that keep them forests

Parents and children lists are kept twice over, so each move has to change both sides together.
-/
namespace SceneGraph
open Relation (ReflTransGen TransGen)

/-- The place of an entity in the tree. -/
structure Node where
  parent : Option String
  children : List String

/-- The nodes of a document by id. -/
abbrev Outline := String → Option Node

namespace Outline

def Parent (o : Outline) (p c : String) : Prop := ∃ n, o c = some n ∧ n.parent = some p
def Lists (o : Outline) (p c : String) : Prop := ∃ n, o p = some n ∧ c ∈ n.children

/-- Every node with a parent is listed by it once, every listed node points back, and every chain
of parents ends, at the root or at a node that is detached. -/
structure Forest (o : Outline) (root : String) : Prop where
  root : ∃ n, o root = some n ∧ n.parent = none
  listed : ∀ ⦃p c⦄, o.Parent p c → ∃ n, o p = some n ∧ n.children.count c = 1
  pointsBack : ∀ ⦃p n⦄, o p = some n → ∀ c ∈ n.children, o.Parent p c
  nodup : ∀ ⦃p n⦄, o p = some n → n.children.Nodup
  grounded : WellFounded o.Parent

variable {o o' : Outline} {root p c id : String} {n np nc : Node} {children : List String}

theorem not_parent (hc : o c = some n) (hd : n.parent = none) (q : String) : ¬ o.Parent q c := by
  rintro ⟨m, hm, hp⟩
  simp [Option.some.inj (hm.symm.trans hc), hd] at hp

theorem parent_unique {q : String} (hp : o.Parent p c) (hq : o.Parent q c) : p = q := by
  obtain ⟨n, hn, hp⟩ := hp
  obtain ⟨m, hm, hq⟩ := hq
  rw [Option.some.inj (hn.symm.trans hm)] at hp
  exact Option.some.inj (hp.symm.trans hq)

theorem lists_iff (hp : o p = some np) : o.Lists p c ↔ c ∈ np.children := by
  simp [Lists, hp]

namespace Forest

theorem edges (h : o.Forest root) {p c : String} : o.Parent p c ↔ o.Lists p c := by
  constructor
  · intro hp
    obtain ⟨n, hn, hc⟩ := h.listed hp
    exact ⟨n, hn, List.count_pos_iff.mp (by omega)⟩
  · rintro ⟨n, hn, hc⟩
    exact h.pointsBack hn c hc

/-- No node is its own proper ancestor. -/
theorem acyclic (h : o.Forest root) (id : String) : ¬ TransGen o.Parent id id :=
  h.grounded.transGen.irrefl.irrefl id

theorem of_edges (hr : ∃ n, o root = some n ∧ n.parent = none)
    (he : ∀ p c, o.Parent p c ↔ o.Lists p c) (hn : ∀ p n, o p = some n → n.children.Nodup)
    (hg : WellFounded o.Parent) : o.Forest root := by
  refine ⟨hr, fun p c hp => ?_, fun p n ho c hc => (he p c).mpr ⟨n, ho, hc⟩, hn, hg⟩
  obtain ⟨n, ho, hc⟩ := (he p c).mp hp
  exact ⟨n, ho, List.count_eq_one_of_mem (hn p n ho) hc⟩

/-- A single node without a parent and children is a forest. -/
theorem single (root : String) :
    Forest (fun id => if id = root then some ⟨none, []⟩ else none) root := by
  have hnode : ∀ {id : String} {n : Node}, (if id = root then some ⟨none, []⟩ else none) = some n →
      n = ⟨none, []⟩ := by
    intro id n h
    split at h
    · exact (Option.some.inj h).symm
    · contradiction
  have hparent : ∀ p c, ¬ Parent (fun id => if id = root then some ⟨none, []⟩ else none) p c := by
    rintro p c ⟨n, hn, hp⟩
    simp [hnode hn] at hp
  refine .of_edges ⟨⟨none, []⟩, if_pos rfl, rfl⟩ (fun p c => iff_of_false (hparent p c) ?_)
    (fun p n hn => hnode hn ▸ List.nodup_nil) ⟨fun c => ⟨c, fun p hp => absurd hp (hparent p c)⟩⟩
  rintro ⟨n, hn, hc⟩
  simp [hnode hn] at hc

end Forest

/-- The outline with another list of children for one node and another parent for a second. -/
def turn (o : Outline) (p : String) (children : List String) (c : String) (parent : Option String) :
    Outline := fun id =>
  if id = c then (o id).map ({ · with parent })
  else if id = p then (o id).map ({ · with children }) else o id

theorem parent_turn {parent : Option String} (hcp : p ≠ c) (hc : o c = some nc) (q : String) :
    (o.turn p children c parent).Parent q id ↔
      (id = c ∧ parent = some q) ∨ id ≠ c ∧ o.Parent q id := by
  simp only [Parent, turn]
  by_cases hic : id = c
  · simp [hic, hc]
  · by_cases hip : id = p
    · simp [hip, hcp]
    · simp [hic, hip]

theorem lists_turn {parent : Option String} (hcp : p ≠ c) (hp : o p = some np) (q : String) :
    (o.turn p children c parent).Lists q id ↔
      (q = p ∧ id ∈ children) ∨ q ≠ p ∧ o.Lists q id := by
  simp only [Lists, turn]
  by_cases hqp : q = p
  · simp [hqp, hcp, hp]
  · by_cases hqc : q = c
    · simp [hqc, hcp.symm]
    · simp [hqp, hqc]

theorem nodup_turn {parent : Option String} (h : o.Forest root) (hn : children.Nodup) (q : String)
    (m : Node) (hm : o.turn p children c parent q = some m) : m.children.Nodup := by
  simp only [turn] at hm
  split at hm
  · obtain ⟨k, hk, rfl⟩ := Option.map_eq_some_iff.mp hm
    exact show k.children.Nodup from h.nodup hk
  · split at hm
    · obtain ⟨k, -, rfl⟩ := Option.map_eq_some_iff.mp hm
      exact hn
    · exact h.nodup hm

theorem root_turn {parent : Option String} (h : o.Forest root) (hroot : c ≠ root) :
    ∃ n, o.turn p children c parent root = some n ∧ n.parent = none := by
  obtain ⟨n, hn, hp⟩ := h.root
  by_cases hrp : root = p
  · exact ⟨⟨n.parent, children⟩, by rw [turn, if_neg hroot.symm, if_pos hrp, hn]; rfl, hp⟩
  · exact ⟨n, by rw [turn, if_neg hroot.symm, if_neg hrp, hn], hp⟩

/-- A new edge above a node without a parent keeps chains ending when it closes no circle. -/
private theorem grounded_link (h : WellFounded o.Parent) (ha : ¬ ReflTransGen o.Parent c p)
    (hparent : ∀ q id, o'.Parent q id → (id = c ∧ q = p) ∨ o.Parent q id) :
    WellFounded o'.Parent := by
  have hout : ∀ id, ¬ ReflTransGen o.Parent c id → Acc o'.Parent id := by
    intro id
    induction h.apply id with
    | intro id _ ih =>
      intro hid
      refine ⟨_, fun q hq => ?_⟩
      rcases hparent q id hq with ⟨rfl, -⟩ | hq
      · exact absurd .refl hid
      · exact ih q hq fun hc => hid (hc.tail hq)
  refine ⟨fun id => ?_⟩
  induction h.apply id with
  | intro id _ ih =>
    refine ⟨_, fun q hq => ?_⟩
    rcases hparent q id hq with ⟨-, rfl⟩ | hq
    · exact hout q ha
    · exact ih q hq

/-- A detached node is put below another that does not stand below it. -/
theorem Forest.link (h : o.Forest root) (hp : o p = some np) (hc : o c = some nc)
    (hd : nc.parent = none) (hroot : c ≠ root) (ha : ¬ ReflTransGen o.Parent c p)
    (hl : children.Perm (c :: np.children)) : (o.turn p children c (some p)).Forest root := by
  have hcp : p ≠ c := fun e => ha (e ▸ .refl)
  have hdet := not_parent hc hd
  have hfresh : c ∉ np.children := fun hm => hdet p (h.pointsBack hp c hm)
  refine .of_edges (root_turn h hroot) (fun q id => ?_)
    (nodup_turn h (hl.nodup_iff.mpr (List.nodup_cons.mpr ⟨hfresh, h.nodup hp⟩)))
    (grounded_link h.grounded ha fun q id hq => ?_)
  · rw [parent_turn hcp hc, lists_turn hcp hp, hl.mem_iff, List.mem_cons, ← lists_iff hp, ← h.edges,
      ← h.edges]
    by_cases hic : id = c
    · subst hic
      simp [hdet, eq_comm]
    · by_cases hqp : q = p <;> simp [hic, hqp]
  · rw [parent_turn hcp hc] at hq
    rcases hq with ⟨rfl, he⟩ | ⟨-, hq⟩
    · exact .inl ⟨rfl, (Option.some.inj he).symm⟩
    · exact .inr hq

/-- A node is taken from its parent and stays behind with all that stands below it. -/
theorem Forest.unlink (h : o.Forest root) (hp : o p = some np) (hpc : o.Parent p c)
    (hl : np.children.Perm (c :: children)) : (o.turn p children c none).Forest root := by
  have hcp : p ≠ c := fun e => h.acyclic c (.single (e ▸ hpc))
  obtain ⟨nc, hc, hcparent⟩ := hpc
  have hroot : c ≠ root := by
    rintro rfl
    obtain ⟨m, hm, hroot⟩ := h.root
    exact not_parent hm hroot p ⟨nc, hc, hcparent⟩
  have hnodup := List.nodup_cons.mp (hl.nodup_iff.mp (h.nodup hp))
  refine .of_edges (root_turn h hroot) (fun q id => ?_) (nodup_turn h hnodup.2)
    (Subrelation.wf (fun {q id} hq => ?_) h.grounded)
  · have hmem : o.Lists p id ↔ id = c ∨ id ∈ children := by
      rw [lists_iff hp, hl.mem_iff, List.mem_cons]
    rw [parent_turn hcp hc, lists_turn hcp hp, h.edges]
    by_cases hic : id = c
    · subst hic
      have hother : q ≠ p → ¬ o.Lists q id := fun hqp hq =>
        hqp (parent_unique (h.edges.mpr hq) ⟨nc, hc, hcparent⟩)
      simpa [hnodup.1] using hother
    · by_cases hqp : q = p
      · subst hqp
        simp [hic, hmem]
      · simp [hic, hqp]
  · rw [parent_turn hcp hc] at hq
    exact (hq.resolve_left (by simp)).2

/-- A node without parent or children is put in the place of none. -/
theorem Forest.plant (h : o.Forest root) (hc : o c = none) :
    Forest (fun id => if id = c then some ⟨none, []⟩ else o id) root := by
  have hother : ∀ {id m}, o id = some m → id ≠ c := by
    rintro id m hm rfl
    simp [hc] at hm
  have hparent : ∀ q id, Parent (fun id => if id = c then some ⟨none, []⟩ else o id) q id ↔
      o.Parent q id := by
    intro q id
    by_cases hic : id = c <;> simp [Parent, hic, hc]
  have hlists : ∀ q id, Lists (fun id => if id = c then some ⟨none, []⟩ else o id) q id ↔
      o.Lists q id := by
    intro q id
    by_cases hqc : q = c <;> simp [Lists, hqc, hc]
  obtain ⟨n, hn, hnp⟩ := h.root
  refine .of_edges ⟨n, by simp [hother hn, hn], hnp⟩ (fun q id => ?_) (fun q m hm => ?_)
    (Subrelation.wf (fun {q id} hq => (hparent q id).mp hq) h.grounded)
  · rw [hparent, hlists, h.edges]
  · split at hm
    · cases hm
      exact List.nodup_nil
    · exact h.nodup hm

/-- A node without parent or children, other than the root, is taken away. -/
theorem Forest.uproot (h : o.Forest root) (hc : o c = some nc) (hd : nc.parent = none)
    (hl : nc.children = []) (hroot : c ≠ root) :
    Forest (fun id => if id = c then none else o id) root := by
  have hparent : ∀ q id, Parent (fun id => if id = c then none else o id) q id ↔
      o.Parent q id := by
    intro q id
    by_cases hic : id = c
    · simpa [Parent, hic] using not_parent hc hd q
    · simp [Parent, hic]
  have hlists : ∀ q id, Lists (fun id => if id = c then none else o id) q id ↔
      o.Lists q id := by
    intro q id
    by_cases hqc : q = c <;> simp [Lists, hqc, hc, hl]
  obtain ⟨n, hn, hnp⟩ := h.root
  refine .of_edges ⟨n, by simp [hroot.symm, hn], hnp⟩ (fun q id => ?_) (fun q m hm => ?_)
    (Subrelation.wf (fun {q id} hq => (hparent q id).mp hq) h.grounded)
  · rw [hparent, hlists, h.edges]
  · split at hm
    · contradiction
    · exact h.nodup hm

end Outline
end SceneGraph
