import SceneGraph.SceneCompilation
import SceneGraph.Proofs.OpenForms
import SceneGraph.Proofs.RootedTrees
import SceneGraph.Proofs.ValidScenes

/-!
# Restorations: every valid scene is turned back into a valid document

Validation accepts the scenes that are indexed and ordered, and these are the ones that are turned
back into documents, unless a known setting is neither null nor a text. What comes out is always
valid, for the way up from every node ends at the first one.
-/
namespace SceneGraph

namespace GameSettings

/-- Each of the known settings is left out, null or a text. -/
def Legible (settings : Bag) : Prop :=
  ∀ key ∈ [cameraKey, spawnKey], ∀ j, settings.find? key = some j →
    j = .null ∨ ∃ text, j = .str text

private theorem setting?_accepts_iff {x : Option Json} :
    (∃ s, setting? x = .ok s) ↔ ∀ j, x = some j → j = .null ∨ ∃ text, j = .str text := by
  cases x with
  | none => simp [setting?]
  | some j =>
    simp only [setting?, Reader.nullable_ok_iff, Option.some.injEq, forall_eq']
    cases j with
    | null => simp
    | str text => simp
    | _ => simp [Reader.fromJson, Source.ofJson, Reader.string]

theorem reader_accepts_iff {settings : Bag} :
    (∃ g, reader.fromJson (.obj settings) = .ok g) ↔ Legible settings := by
  simp only [Legible, List.forall_mem_cons, List.not_mem_nil, false_implies, implies_true,
    and_true, ← setting?_accepts_iff, reader_obj_iff]
  constructor
  · rintro ⟨g, hcamera, hspawn, -⟩
    exact ⟨⟨_, hcamera⟩, _, hspawn⟩
  · rintro ⟨⟨camera, hcamera⟩, spawn, hspawn⟩
    exact ⟨⟨camera, spawn, rest settings⟩, hcamera, hspawn, rfl⟩

end GameSettings

namespace CompiledScene

/-- The document that a scene makes, apart from the form of its settings. -/
def restored (s : CompiledScene) (gameSettings : Option GameSettings) : Document where
  id := s.id
  name := s.name
  schemaVersion := currentSchemaVersion
  rootEntityId := s.rootNodeId
  entities := Dict.ofList (s.nodes.map fun n => (n.id, n.toEntity))
  assets := Dict.ofList (s.assets.map fun a => (a.id, a))
  wiring := s.wires
  environment := s.environment
  gameSettings := gameSettings
  metadata := .nil

/-- The settings of a scene, read from their bag. -/
def readSettings (s : CompiledScene) : Except CompileError (Option GameSettings) :=
  match s.gameSettings with
  | none => .ok none
  | some bag => ((GameSettings.reader.fromJson (.obj bag)).map some).mapError .settings

variable {s : CompiledScene} {settings : Option GameSettings} {id : String} {e : Entity} {i : Nat}
  {n : SceneNode}

theorem readSettings_accepts_iff : (∃ settings, s.readSettings = .ok settings) ↔
    ∀ bag, s.gameSettings = some bag → GameSettings.Legible bag := by
  unfold readSettings
  cases s.gameSettings with
  | none => simp
  | some bag =>
    simp only [mapError_ok_iff, map_ok_iff, Option.some.injEq, forall_eq',
      ← GameSettings.reader_accepts_iff]
    constructor
    · rintro ⟨_, g, hg, -⟩
      exact ⟨g, hg⟩
    · rintro ⟨g, hg⟩
      exact ⟨some g, g, hg, rfl⟩

theorem readSettings_error {error : CompileError} (h : s.readSettings = .error error) :
    ∃ fault, error = .settings fault := by
  unfold readSettings at h
  cases hs : s.gameSettings with
  | none => simp [hs] at h
  | some bag =>
    cases hr : GameSettings.reader.fromJson (.obj bag) with
    | ok g => simp [hs, hr, Except.map, Except.mapError] at h
    | error fault =>
      simp only [hs, hr, Except.map, Except.mapError, Except.error.injEq] at h
      exact ⟨fault, h.symm⟩

section Ordered
variable (h : s.Ordered)
include h

/-- The entities of the document are those that the nodes make. -/
theorem entity?_restored :
    (s.restored settings).entity? id = some e ↔ ∃ n ∈ s.nodes, n.id = id ∧ n.toEntity = e := by
  have hkeys : ((s.nodes.map fun n => (n.id, n.toEntity)).map (·.1)).Nodup := by
    rw [List.map_map]
    exact h.ids
  rw [Document.entity?, restored, Dict.find?_ofList_iff hkeys]
  simp

theorem entity?_of_getElem? (hn : s.nodes[i]? = some n) :
    (s.restored settings).entity? n.id = some n.toEntity :=
  (entity?_restored h).mpr ⟨n, List.mem_of_getElem? hn, rfl, rfl⟩

/-- Every node stands after its parent, so the way up from it ends, and it ends at the first. -/
theorem upward_restored (hn : s.nodes[i]? = some n) :
    ∃ steps, (s.restored settings).above? steps n.id = some s.rootNodeId := by
  induction i using Nat.strongRecOn generalizing n with
  | ind i ih =>
    rcases Nat.eq_zero_or_pos i with rfl | hi
    · obtain ⟨first, hfirst, hid, -⟩ := h.root
      obtain rfl : first = n := Option.some.inj (hfirst.symm.trans hn)
      exact ⟨0, congrArg some hid⟩
    · obtain ⟨j, p, hj, hp, hparent, -⟩ := h.parents hn hi
      obtain ⟨steps, hsteps⟩ := ih j hj hp
      have hup : (s.restored settings).parent? n.id = some p.id := by
        rw [Document.parent?, entity?_of_getElem? h hn]
        exact hparent
      exact ⟨steps + 1, by rw [Document.above?, hup, Option.bind_some, hsteps]⟩

theorem restored_rootedTree (settings : Option GameSettings) :
    (s.restored settings).RootedTree := by
  constructor
  case schema => exact Nat.le_refl _
  case ids =>
    intro id e he
    obtain ⟨n, -, rfl, rfl⟩ := (entity?_restored h).mp he
    rfl
  case assetIds =>
    intro id a ha
    have hkeys : ((s.assets.map fun a => (a.id, a)).map (·.1)).Nodup := by
      rw [List.map_map]
      exact h.assetIds
    obtain ⟨b, -, hb⟩ := List.mem_map.mp ((Dict.find?_ofList_iff hkeys).mp ha)
    obtain ⟨rfl, rfl⟩ := Prod.mk.inj hb
    rfl
  case wires => exact h.wires
  case types =>
    intro id e he c hc
    obtain ⟨n, hn, -, rfl⟩ := (entity?_restored h).mp he
    obtain ⟨component, hcomponent, rfl⟩ := List.mem_map.mp hc
    exact h.types n hn component hcomponent
  case root =>
    obtain ⟨first, hfirst, hid, hnone⟩ := h.root
    exact ⟨_, hid ▸ entity?_of_getElem? h hfirst, hnone⟩
  case parents =>
    intro id e he hne
    obtain ⟨n, hn, rfl, rfl⟩ := (entity?_restored h).mp he
    obtain ⟨i, hi⟩ := List.mem_iff_getElem?.mp hn
    have hpos : 0 < i := by
      refine Nat.pos_of_ne_zero ?_
      rintro rfl
      obtain ⟨first, hfirst, hid, -⟩ := h.root
      exact hne (Option.some.inj (hfirst.symm.trans hi) ▸ hid)
    obtain ⟨j, p, -, hp, hparent, hcount⟩ := h.parents hi hpos
    exact ⟨p.id, p.toEntity, hparent, entity?_of_getElem? h hp, hcount⟩
  case children =>
    intro id e he c hc
    obtain ⟨n, hn, rfl, rfl⟩ := (entity?_restored h).mp he
    obtain ⟨child, hchild, rfl, hparent⟩ := h.children n hn c hc
    exact ⟨child.toEntity, (entity?_restored h).mpr ⟨child, hchild, rfl, rfl⟩, hparent⟩
  case upward =>
    intro id e he
    obtain ⟨n, hn, rfl, -⟩ := (entity?_restored h).mp he
    obtain ⟨i, hi⟩ := List.mem_iff_getElem?.mp hn
    exact upward_restored h hi

theorem restored_isValid (settings : Option GameSettings) :
    (s.restored settings).isValid = true :=
  Document.isValid_iff_rootedTree.mpr (restored_rootedTree h settings)

/-- Only the settings can keep a valid scene from being turned back. -/
theorem decompile_eq : s.decompile = s.readSettings.map s.restored := by
  have hissues : s.issues = [] := issues_eq_nil_iff.mpr h
  have hclose : ∀ settings, (do
      if !(s.restored settings).isValid then
        throw (CompileError.invalidDocument (s.restored settings).issues)
      return s.restored settings : Except CompileError Document) = .ok (s.restored settings) := by
    intro settings
    rw [restored_isValid h]
    rfl
  rw [decompile, hissues, readSettings]
  cases s.gameSettings with
  | none => exact hclose none
  | some bag =>
    cases hr : GameSettings.reader.fromJson (.obj bag) with
    | error fault => simp only [hr]; rfl
    | ok g => simp only [hr]; exact hclose (some g)

end Ordered

theorem decompile_of_issues (h : s.issues ≠ []) :
    s.decompile = .error (.invalidScene s.issues) := by
  have hissues : s.issues.isEmpty = false := List.isEmpty_eq_false_iff.mpr h
  rw [decompile, hissues]
  rfl

theorem decompile_ok_iff : (∃ d, s.decompile = .ok d) ↔ s.issues = [] ∧
    ∀ bag, s.gameSettings = some bag → GameSettings.Legible bag := by
  by_cases hissues : s.issues = []
  · rw [decompile_eq (issues_eq_nil_iff.mp hissues), ← readSettings_accepts_iff]
    simp only [map_ok_iff, hissues, true_and]
    exact ⟨fun ⟨_, settings, hs, _⟩ => ⟨settings, hs⟩, fun ⟨settings, hs⟩ => ⟨_, settings, hs, rfl⟩⟩
  · simp [decompile_of_issues hissues, hissues]

theorem decompile_ne_invalidDocument (issues : List DocumentIssue) :
    s.decompile ≠ .error (.invalidDocument issues) := by
  intro he
  by_cases hissues : s.issues = []
  · rw [decompile_eq (issues_eq_nil_iff.mp hissues), map_error_iff] at he
    obtain ⟨fault, hfault⟩ := readSettings_error he
    contradiction
  · simp [decompile_of_issues hissues] at he

/-- Validation accepts the scenes that are indexed and ordered. Those and no others are turned back
into documents, unless a known setting is neither null nor a text: what comes out is never found to
be an invalid document. -/
theorem scene_validation_and_restoration (s : CompiledScene) :
    (s.issues = [] ↔ s.Ordered) ∧
      ((∃ d, s.decompile = .ok d) ↔ s.issues = [] ∧
        ∀ bag, s.gameSettings = some bag → GameSettings.Legible bag) ∧
      ∀ issues, s.decompile ≠ .error (.invalidDocument issues) :=
  ⟨issues_eq_nil_iff, decompile_ok_iff, decompile_ne_invalidDocument⟩

end CompiledScene
end SceneGraph
