import SceneGraph.DocumentBuilding
import SceneGraph.Proofs.CompiledForms

/-!
# Compile outcomes: valid documents compile, and only strict wires can stand in the way

A wire end that leads to no entity is a loose end. Without strict wires exactly the valid documents
compile. With them a valid document compiles to the same scene or is rejected for its first loose
end (`FirstLooseEnd`), and the scene always passes its own validation.
-/
namespace SceneGraph

namespace Document

/-- Every end of every wire in order, the source of a wire before its target. -/
def wireEnds (d : Document) : List LooseEnd :=
  d.wiring.flatMap fun w => [⟨w.id, w.sourceEntityId⟩, ⟨w.id, w.targetEntityId⟩]

/-- The wire end leads to no entity, and it is the first of which that is so. -/
def FirstLooseEnd (d : Document) (loose : LooseEnd) : Prop :=
  ∃ earlier later, d.wireEnds = earlier ++ loose :: later ∧
    (∀ e ∈ earlier, d.contains e.entity = true) ∧ d.contains loose.entity = false

variable {d : Document} {loose : LooseEnd}

theorem exists_wireEnd_iff : (∃ e ∈ d.wireEnds, d.contains e.entity = false) ↔
    ∃ w ∈ d.wiring, d.contains w.sourceEntityId = false ∨ d.contains w.targetEntityId = false := by
  constructor
  · rintro ⟨e, he, hloose⟩
    obtain ⟨w, hw, he⟩ := List.mem_flatMap.mp he
    rcases List.mem_pair.mp he with rfl | rfl
    · exact ⟨w, hw, .inl hloose⟩
    · exact ⟨w, hw, .inr hloose⟩
  · rintro ⟨w, hw, hloose | hloose⟩
    · exact ⟨_, List.mem_flatMap.mpr ⟨w, hw, List.mem_cons_self⟩, hloose⟩
    · exact ⟨_, List.mem_flatMap.mpr ⟨w, hw, List.mem_cons_of_mem _ List.mem_cons_self⟩, hloose⟩

theorem compile_of_not_valid (h : d.isValid = false) (options : CompileOptions) :
    d.compile options = .error (.invalidDocument d.issues) := by
  rw [compile, h]
  rfl

section Valid
variable (hd : d.isValid = true)
include hd

/-- The index of the scene knows the entities and nothing else. -/
theorem contains_nodeIndex (id : String) :
    d.scene.nodeIndex.contains id = d.contains id := by
  rw [Bool.eq_iff_iff, ← mem_breadthFirst hd, Ascending.contains_iff, List.mem_iff_getElem?]
  exact exists_congr fun i => indexOf?_scene hd

theorem looseEnds_scene : d.looseEnds d.scene.nodeIndex =
    d.wireEnds.filter fun e => !d.contains e.entity := by
  rw [looseEnds, wireEnds, List.filter_flatMap]
  refine List.flatMap_congr fun w _ => ?_
  simp only [EventWire.endpoints, contains_nodeIndex hd, List.flatMap_cons, List.flatMap_nil,
    List.append_nil, issueUnless, List.filter_cons, List.filter_nil]
  cases d.contains w.sourceEntityId <;> cases d.contains w.targetEntityId <;> rfl

theorem head?_looseEnds_iff :
    (d.looseEnds d.scene.nodeIndex).head? = some loose ↔ d.FirstLooseEnd loose := by
  rw [looseEnds_scene hd, List.head?_filter, List.find?_eq_some_iff_append]
  simp only [Bool.not_eq_true', Bool.not_not]
  constructor
  · rintro ⟨hloose, earlier, later, hends, hearlier⟩
    exact ⟨earlier, later, hends, hearlier, hloose⟩
  · rintro ⟨earlier, later, hends, hearlier, hloose⟩
    exact ⟨hloose, earlier, later, hends, hearlier⟩

theorem exists_firstLooseEnd_iff : (∃ loose, d.FirstLooseEnd loose) ↔
    ∃ w ∈ d.wiring, d.contains w.sourceEntityId = false ∨ d.contains w.targetEntityId = false := by
  simp only [← head?_looseEnds_iff hd, ← exists_wireEnd_iff, looseEnds_scene hd,
    List.head?_filter, ← Option.isSome_iff_exists, List.find?_isSome, Bool.not_eq_true']

theorem compile_lenient (validateOutput : Bool) : d.compile ⟨validateOutput, false⟩ =
    .ok ⟨d.scene, d.looseEnds d.scene.nodeIndex⟩ := compile_eq hd _

theorem compile_strict_error_iff {validateOutput : Bool} {error : CompileError} :
    d.compile ⟨validateOutput, true⟩ = .error error ↔
      ∃ loose, d.FirstLooseEnd loose ∧ error = .unresolvedWire loose.wire loose.entity := by
  rw [compile_eq hd, if_pos rfl]
  simp only [← head?_looseEnds_iff hd]
  cases (d.looseEnds d.scene.nodeIndex).head? with
  | none => simp
  | some loose => simp [eq_comm]

theorem compile_strict_ok {validateOutput : Bool} {c : Compilation}
    (h : d.compile ⟨validateOutput, true⟩ = .ok c) :
    c = ⟨d.scene, d.looseEnds d.scene.nodeIndex⟩ := by
  rw [compile_eq hd, if_pos rfl] at h
  split at h
  · contradiction
  · exact (Except.ok.inj h).symm

end Valid

/-- Without strict wires the valid documents compile and no others, to a scene that passes its own
validation, whether or not that is run. With strict wires a valid document compiles to the same
scene, unless a wire leads to no entity: then the first loose end is named. -/
theorem compile_outcomes (d : Document) :
    (∀ validateOutput, (∃ c, d.compile ⟨validateOutput, false⟩ = .ok c) ↔ d.isValid = true) ∧
      (d.isValid = true → ∃ c, c.scene.issues = [] ∧
        (∀ validateOutput, d.compile ⟨validateOutput, false⟩ = .ok c) ∧
        ∀ validateOutput,
          ((∃ error, d.compile ⟨validateOutput, true⟩ = .error error) ↔ ∃ w ∈ d.wiring,
            d.contains w.sourceEntityId = false ∨ d.contains w.targetEntityId = false) ∧
          (∀ error, d.compile ⟨validateOutput, true⟩ = .error error ↔
            ∃ loose, d.FirstLooseEnd loose ∧ error = .unresolvedWire loose.wire loose.entity) ∧
          ∀ c', d.compile ⟨validateOutput, true⟩ = .ok c' → c' = c) := by
  refine ⟨fun validateOutput => ⟨fun ⟨c, hc⟩ => ?_, fun hd => ⟨_, compile_lenient hd _⟩⟩,
    fun hd => ⟨_, CompiledScene.issues_eq_nil_iff.mpr (scene_ordered hd), compile_lenient hd,
      fun validateOutput => ⟨?_, fun error => compile_strict_error_iff hd,
        fun c' => compile_strict_ok hd⟩⟩⟩
  · by_contra hd
    rw [compile_of_not_valid (Bool.eq_false_iff.mpr hd)] at hc
    contradiction
  · simp only [compile_strict_error_iff hd, ← exists_firstLooseEnd_iff hd]
    exact ⟨fun ⟨_, loose, h, _⟩ => ⟨loose, h⟩, fun ⟨loose, h⟩ => ⟨_, loose, h, rfl⟩⟩

/-- A bell that rings by itself, and a door that is to open for a ghost. -/
def haunted : Document :=
  ((ofIds "house" "root" "House").addWire ⟨"bell", "root", "click", "root", "ring", .nil⟩).addWire
    ⟨"door", "root", "click", "ghost", "open", .nil⟩

theorem haunted_compile_outcomes : haunted.isValid = true ∧
    (∃ c, haunted.compile ⟨true, false⟩ = .ok c ∧ haunted.compile ⟨false, false⟩ = .ok c) ∧
      haunted.compile ⟨true, true⟩ = .error (.unresolvedWire "door" "ghost") := by
  have hvalid : haunted.isValid = true := by decide
  have hfirst : haunted.FirstLooseEnd ⟨"door", "ghost"⟩ :=
    ⟨[⟨"bell", "root"⟩, ⟨"bell", "root"⟩, ⟨"door", "root"⟩], [], rfl, by decide, by decide⟩
  obtain ⟨c, -, hlenient, hstrict⟩ := (compile_outcomes haunted).2 hvalid
  exact ⟨hvalid, ⟨c, hlenient true, hlenient false⟩,
    ((hstrict true).2.1 _).mpr ⟨_, hfirst, rfl⟩⟩

end Document
end SceneGraph
