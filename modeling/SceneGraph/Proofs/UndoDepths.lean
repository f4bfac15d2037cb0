import SceneGraph.Proofs.AcceptedEdits
import SceneGraph.Proofs.EngineTraces

/-!
# Undo depths: the bound on nested undoing is never reached

The engine bounds how deep undoing may nest while an operation is applied. `undoDepth` counts how
deep it does nest, and that is always below the bound. So the engine undoes with itself
(`apply_eq`), and the bound can be forgotten.
-/
namespace SceneGraph

namespace Op

mutual
/-- How deep undoing may nest while the operation is applied. -/
def undoDepth : Op → Nat
  | .edit _ (.deleteEntity ..) => 1
  | .edit _ _ => 0
  | .batch _ ops => undoDepthOf ops + 2

def undoDepthOf : List Op → Nat
  | [] => 0
  | op :: ops => max (undoDepth op) (undoDepthOf ops)
end

theorem undoDepth_edit_le (envelope : Envelope) (e : Edit) : (Op.edit envelope e).undoDepth ≤ 1 := by
  cases e <;> simp [undoDepth]

mutual
theorem undoDepth_le : (op : Op) → op.undoDepth ≤ undoLevels op.nesting
  | .edit envelope e => (undoDepth_edit_le envelope e).trans (Nat.le_succ 1)
  | .batch _ ops => by
    have h := undoDepthOf_le ops
    simp only [undoDepth, undoLevels, nesting] at h ⊢
    omega

theorem undoDepthOf_le : (ops : List Op) → undoDepthOf ops ≤ undoLevels (nestingOf ops)
  | [] => Nat.zero_le _
  | op :: ops => by
    have h := undoDepth_le op
    have h' := undoDepthOf_le ops
    simp only [undoDepthOf, undoLevels, nestingOf] at h h' ⊢
    omega
end

end Op

private theorem Op.undoDepthOf_mapIdx {edits : List Edit} {f : Nat → Envelope}
    (h : ∀ e ∈ edits, ∀ envelope, (Op.edit envelope e).undoDepth = 0) :
    Op.undoDepthOf (edits.mapIdx fun i e => .edit (f i) e) = 0 := by
  induction edits generalizing f with
  | nil => rfl
  | cons e edits ih =>
    obtain ⟨he, hedits⟩ := List.forall_mem_cons.mp h
    rw [List.mapIdx_cons, Op.undoDepthOf, he, ih hedits, Nat.max_self]

/-- Undoing goes at most one deeper for the operation that takes an edit back. -/
theorem Applied.undoDepth_inverseOp {registry : Option Registry} {d : Document} {e : Edit}
    {a : Applied} (ha : e.apply registry d = .ok a) (envelope : Envelope) (stamps : Stamps) :
    (a.inverseOp envelope stamps).undoDepth ≤ (Op.edit envelope e).undoDepth + 1 := by
  unfold inverseOp
  split
  · exact (Op.undoDepth_edit_le _ _).trans (Nat.le_add_left 1 _)
  · rename_i hne
    rcases Edit.sequel_cases ha with hs | ⟨⟨id, old, rfl⟩, ⟨n, hn⟩, hs⟩
    · simp [hs] at hne
    · have hdepth : ∀ e' ∈ a.inverse :: a.sequel, ∀ envelope,
          (Op.edit envelope e').undoDepth = 0 := by
        rw [hn]
        refine List.forall_mem_cons.mpr ⟨fun _ => rfl, fun e' he _ => ?_⟩
        obtain ⟨id, c, index, rfl⟩ := hs e' he
        rfl
      exact Nat.le_of_eq (congrArg (· + 2) (Op.undoDepthOf_mapIdx hdepth))

namespace Engine
variable {undo undo' : Applier} {registry : Option Registry}

mutual
theorem undoDepth_inverse (stamps : Stamps) {d : Document} {inverse : Op} :
    (op : Op) → (applyUndoing undo registry stamps d op).result = .ok inverse →
    inverse.undoDepth ≤ op.undoDepth + 1
  | .edit envelope e => fun h => by
    cases ho : applyUndoing undo registry stamps d (.edit envelope e) with
    | mk d' result rollbacks =>
      obtain rfl : result = .ok inverse := by rwa [ho] at h
      obtain ⟨-, a, ha, -, rfl, -⟩ := applyUndoing_edit_ok_iff.mp ho
      exact Applied.undoDepth_inverseOp ha envelope stamps
  | .batch envelope ops => fun h => by
    rw [applyUndoing] at h
    split at h
    · contradiction
    · obtain ⟨inverses, hi, rfl⟩ := map_ok_iff.mp h
      have hle := undoDepthOf_inverses stamps 0 [] ops hi
      simp only [Op.undoDepth, Op.undoDepthOf] at hle ⊢
      omega

theorem undoDepthOf_inverses (stamps : Stamps) {d : Document} {result : List Op} (index : Nat)
    (inverses : List Op) : (ops : List Op) →
    (applyFrom undo registry stamps d index inverses ops).result = .ok result →
    Op.undoDepthOf result ≤ max (Op.undoDepthOf inverses) (Op.undoDepthOf ops + 1)
  | [] => fun h => by
    rw [applyFrom] at h
    obtain rfl := Except.ok.inj h
    exact Nat.le_max_left _ _
  | op :: ops => fun h => by
    rw [applyFrom] at h
    cases ho : (applyUndoing undo registry (stamps.below index) d op).result with
    | error source =>
      simp only [ho] at h
      exact absurd h (undoAll_rejects stamps _ inverses)
    | ok inverse =>
      simp only [ho, Outcome.after] at h
      have hfirst := undoDepth_inverse (stamps.below index) op ho
      have hrest := undoDepthOf_inverses stamps (index + 1) (inverse :: inverses) ops h
      simp only [Op.undoDepthOf] at hrest ⊢
      omega
end

/-- Two ways of undoing do the same to operations below a depth. -/
def Agree (depth : Nat) (undo undo' : Applier) : Prop :=
  ∀ stamps d op, op.undoDepth < depth → undo stamps d op = undo' stamps d op

private theorem undoAll_agree {depth : Nat} (hu : Agree depth undo undo') (stamps : Stamps)
    (cause : OpError) {d : Document} {inverses : List Op} (h : Op.undoDepthOf inverses < depth) :
    undoAll undo stamps cause d inverses = undoAll undo' stamps cause d inverses := by
  induction inverses generalizing d with
  | nil => rfl
  | cons inverse earlier ih =>
    obtain ⟨hfirst, hrest⟩ := Nat.max_lt.mp (by simpa only [Op.undoDepthOf] using h)
    rw [undoAll, undoAll, hu stamps d inverse hfirst]
    split
    · rw [ih hrest]
    · rfl

mutual
/-- How inverses deeper than the operation are undone makes no difference. -/
theorem applyUndoing_agree {depth : Nat} (hu : Agree depth undo undo') (stamps : Stamps)
    (d : Document) : (op : Op) → op.undoDepth ≤ depth →
    applyUndoing undo registry stamps d op = applyUndoing undo' registry stamps d op
  | .edit envelope e => fun _ => by rw [applyUndoing, applyUndoing]
  | .batch envelope ops => fun h => by
    rw [Op.undoDepth] at h
    rw [applyUndoing, applyUndoing,
      applyFrom_agree hu stamps d 0 [] (by rw [Op.undoDepthOf]; omega) ops (by omega)]

theorem applyFrom_agree {depth : Nat} (hu : Agree depth undo undo') (stamps : Stamps)
    (d : Document) (index : Nat) (inverses : List Op) (hi : Op.undoDepthOf inverses < depth) :
    (ops : List Op) → Op.undoDepthOf ops + 1 < depth →
    applyFrom undo registry stamps d index inverses ops =
      applyFrom undo' registry stamps d index inverses ops
  | [] => fun _ => by rw [applyFrom, applyFrom]
  | op :: ops => fun h => by
    rw [Op.undoDepthOf] at h
    rw [applyFrom, applyFrom, ← applyUndoing_agree hu (stamps.below index) d op (by omega)]
    cases ho : (applyUndoing undo registry (stamps.below index) d op).result with
    | ok inverse =>
      have hinverse := undoDepth_inverse (stamps.below index) op ho
      have hnext : Op.undoDepthOf (inverse :: inverses) < depth := by
        rw [Op.undoDepthOf]
        omega
      simp only [applyFrom_agree hu stamps _ (index + 1) (inverse :: inverses) hnext ops (by omega)]
    | error source => simp only [rollBack, undoAll_agree hu stamps _ hi]
end

theorem undoWithin_eq (levels : Nat) : ∃ undo, undoWithin levels = applyUndoing undo none := by
  cases levels with
  | zero => exact ⟨_, rfl⟩
  | succ levels => exact ⟨_, rfl⟩

/-- Levels beyond the depth of an operation are of no use. -/
theorem undoWithin_eq_of_le {levels levels' : Nat} {op : Op} (h : op.undoDepth ≤ levels)
    (hle : levels ≤ levels') (stamps : Stamps) (d : Document) :
    undoWithin levels' stamps d op = undoWithin levels stamps d op := by
  induction levels generalizing levels' stamps d op with
  | zero =>
    obtain ⟨undo, hu⟩ := undoWithin_eq levels'
    rw [hu]
    exact applyUndoing_agree (fun _ _ _ hlt => absurd hlt (Nat.not_lt_zero _)) stamps d op h
  | succ levels ih =>
    cases levels' with
    | zero => exact absurd hle (Nat.not_succ_le_zero levels)
    | succ levels' =>
      exact applyUndoing_agree (fun stamps d op hlt => ih (Nat.lt_succ_iff.mp hlt)
        (Nat.le_of_succ_le_succ hle) stamps d) stamps d op h

end Engine

namespace Document
variable (registry : Option Registry) (stamps : Stamps) (d : Document)

/-- The engine itself, without a registry, as a way of undoing. -/
def undoing : Applier := fun stamps d op => d.apply none stamps op

theorem undoWithin_agree {levels : Nat} : Engine.Agree (levels + 1) (Engine.undoWithin levels)
    undoing := by
  intro stamps d op hlt
  have hdepth : op.undoDepth ≤ levels := Nat.lt_succ_iff.mp hlt
  calc Engine.undoWithin levels stamps d op
      = Engine.undoWithin op.undoDepth stamps d op :=
        Engine.undoWithin_eq_of_le (Nat.le_refl _) hdepth stamps d
    _ = Engine.undoWithin (Op.undoLevels op.nesting + 1) stamps d op :=
        (Engine.undoWithin_eq_of_le (Nat.le_refl _) (op.undoDepth_le.trans (Nat.le_succ _))
          stamps d).symm

/-- The engine undoes with itself: no bound on nested undoing is in the way. -/
theorem apply_eq (op : Op) :
    d.apply registry stamps op = Engine.applyUndoing undoing registry stamps d op :=
  Engine.applyUndoing_agree undoWithin_agree stamps d op (op.undoDepth_le.trans (Nat.le_succ _))

theorem undoing_eq : undoing = Engine.applyUndoing undoing none := by
  funext stamps d op
  exact apply_eq none stamps d op

theorem applyAll_eq (ops : List Op) : d.applyAll registry stamps ops =
    (Engine.applyFrom undoing registry stamps d 0 [] ops).map List.reverse := by
  have hlevels : Op.undoDepthOf ops + 1 < Op.undoLevels (Op.nestingOf ops + 1) + 1 := by
    have hle := Op.undoDepthOf_le ops
    simp only [Op.undoLevels] at hle ⊢
    omega
  rw [applyAll, Engine.applyFrom_agree undoWithin_agree stamps d 0 [] (Nat.succ_pos _) ops hlevels]

end Document
end SceneGraph
