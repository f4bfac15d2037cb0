import SceneGraph.Proofs.AcceptedEdits
import SceneGraph.Proofs.CompleteReading
import SceneGraph.Proofs.EngineTraces
import SceneGraph.Proofs.SceneUpdates

/-!
# Environment deltas: which ones can be followed without knowing what is filled in

A renderer that follows a change of the environment writes the value that it was given and reads the
outcome strictly. It succeeds exactly when the value leaves out nothing that lenient reading fills
in, and then it has the environment of the changed document. Everything else in the scene stays.
-/
namespace SceneGraph

@[simp] theorem Json.states_nil (j : Json) : j.states [] = true := by
  cases j <;> rfl

/-- A record is written with all its fields. -/
theorem Layout.record_states {items : List (String × Layout)} {fields : List String}
    (h : fields ⊆ items.map (·.1)) : (Layout.record items).toJson.states fields = true := by
  simp only [toJson, Json.states, List.all_eq_true, toJsonFields_eq_map]
  intro field hfield
  by_contra hn
  rw [Bool.not_eq_true, Ascending.not_contains_iff, Dict.find?_ofList,
    List.lookup_eq_none_iff] at hn
  obtain ⟨item, hitem, rfl⟩ := List.mem_map.mp (h hfield)
  simpa using hn (item.1, item.2.toJson) (by simpa using ⟨item.2, hitem, rfl⟩)

namespace Bag
variable {bag : Bag} {path : Path}

/-- A value that is put at an open position takes no key away. -/
theorem contains_assign_some (ho : bag.Open path) (value : Json) {key : String}
    (hk : bag.contains key = true) : (bag.assign path (some value)).contains key = true := by
  rw [Ascending.contains_iff] at hk ⊢
  cases path with
  | nil => contradiction
  | cons first rest =>
    by_cases he : key = first
    · subst he
      cases rest with
      | nil => exact ⟨value, find?_assign_self ..⟩
      | cons next rest =>
        obtain ⟨inner, hi, -⟩ := ho
        exact ⟨_, by rw [assign_step hi, Dict.find?_insert, if_pos rfl]⟩
    · rwa [find?_assign_of_ne bag he]

/-- The members that are objects keep the fields they state, unless one is replaced itself. -/
theorem states_assign (ho : bag.Open path) (value : Json) {name : String} {fields : List String}
    {inner : Bag} (hn : bag.find? name = some (.obj inner))
    (hs : (Json.obj inner).states fields = true) :
    ∃ j, (bag.assign path (some value)).find? name = some j ∧
      if path = [name] then j = value else j.states fields = true := by
  cases path with
  | nil => contradiction
  | cons first rest =>
    by_cases he : name = first
    · subst he
      cases rest with
      | nil => exact ⟨value, find?_assign_self .., by simp⟩
      | cons next rest =>
        obtain ⟨inner', hi, ho'⟩ := ho
        obtain rfl : inner = inner' := by simpa [hn] using hi
        refine ⟨_, by rw [assign_step hi, Dict.find?_insert, if_pos rfl], ?_⟩
        simp only [List.cons.injEq, reduceCtorEq, and_false, if_false, Json.states,
          List.all_eq_true] at hs ⊢
        exact fun field hfield => contains_assign_some ho' value (hs field hfield)
    · refine ⟨.obj inner, by rw [find?_assign_of_ne bag he, hn], ?_⟩
      rwa [if_neg fun h => he (List.cons.inj h).1.symm]

end Bag

namespace Environment

/-- The fields that lenient reading fills in at a path. -/
def fieldsAt : Path → List String
  | [name] => (sections.lookup name).getD []
  | _ => []

theorem lookup_sections : ∀ s ∈ sections, sections.lookup s.1 = some s.2 := by decide

/-- The environment is written with all its sections, each with all its fields. -/
theorem layout_states (e : Environment) : ∃ bag : Bag, e.layout.toJson = .obj bag ∧
    (∀ s ∈ sections, ∃ inner, bag.find? s.1 = some (.obj inner) ∧
      (Json.obj inner).states s.2 = true) ∧ ∃ gravity, bag.find? "gravity" = some gravity := by
  refine ⟨_, rfl, ?_, e.gravity.layout.toJson, by simp [Dict.find?_ofList, Layout.toJsonFields]⟩
  simp only [sections, List.forall_mem_cons, Dict.find?_ofList]
  exact ⟨⟨_, rfl, Layout.record_states fun _ => id⟩, ⟨_, rfl, Layout.record_states fun _ => id⟩,
    ⟨_, rfl, Layout.record_states fun _ => id⟩, by simp⟩

section Assigned
variable {e e' : Environment} {bag : Bag} {path : Path} (hbag : e.layout.toJson = .obj bag)
  (ho : bag.Open path) (value : Json)
include hbag ho

theorem find?_sections_assign {s : String × List String} (hs : s ∈ sections) :
    ∃ j, (bag.assign path (some value)).find? s.1 = some j ∧
      if path = [s.1] then j = value else j.states s.2 = true := by
  obtain ⟨bag', hbag', hsections, -⟩ := e.layout_states
  obtain rfl : bag = bag' := Json.obj.inj (hbag.symm.trans hbag')
  obtain ⟨inner, hn, hi⟩ := hsections s hs
  exact Bag.states_assign ho value hn hi

/-- After a write the sections state all their fields if the value states those of its section. -/
theorem sections_state_iff :
    (∀ s ∈ sections, ∀ j, (bag.assign path (some value)).find? s.1 = some j →
      j.states s.2 = true) ↔ value.states (fieldsAt path) = true := by
  constructor
  · intro hall
    unfold fieldsAt
    split
    · rename_i name
      cases hl : sections.lookup name with
      | none => simp
      | some fields =>
        obtain ⟨front, back, he, -⟩ := List.lookup_eq_some_iff.mp hl
        exact hall (name, fields) (by simp [he]) value (Bag.find?_assign_self ..)
    · simp
  · intro hv s hs j hj
    obtain ⟨j', hj', hstate⟩ := find?_sections_assign hbag ho value hs
    obtain rfl : j = j' := Option.some.inj (hj.symm.trans hj')
    by_cases hpath : path = [s.1]
    · obtain rfl : j = value := by simpa [hpath] using hstate
      simpa [hpath, fieldsAt, lookup_sections s hs] using hv
    · rwa [if_neg hpath] at hstate

/-- After a write that lenient reading accepts the environment is complete exactly when the value
leaves out nothing that lenient reading fills in. -/
theorem strict_assign
    (h : (reader .lenient).fromJson (.obj (bag.assign path (some value))) = .ok e') :
    ((reader .strict).fromJson (.obj (bag.assign path (some value)))).toOption =
      if value.states (fieldsAt path) then some e' else none := by
  -- All four parts are still there, so the readings differ in the sections only.
  have hsection := @find?_sections_assign _ _ _ hbag ho value
  obtain ⟨skybox, hs, -⟩ := @hsection ("skybox", Skybox.fields) (by simp [sections])
  obtain ⟨fog, hf, -⟩ := @hsection ("fog", Fog.fields) (by simp [sections])
  obtain ⟨light, hl, -⟩ := @hsection ("ambientLight", AmbientLight.fields) (by simp [sections])
  obtain ⟨bag', hbag', -, gravity, hg⟩ := e.layout_states
  obtain rfl : bag = bag' := Json.obj.inj (hbag.symm.trans hbag')
  obtain ⟨gravity, hg⟩ := Ascending.contains_iff.mp
    (Bag.contains_assign_some ho value (Ascending.contains_iff.mpr ⟨gravity, hg⟩))
  have hstrict : ∀ e'', (reader .strict).fromJson (.obj (bag.assign path (some value))) = .ok e'' ↔
      (reader .lenient).fromJson (.obj (bag.assign path (some value))) = .ok e'' ∧
        value.states (fieldsAt path) = true := fun e'' =>
    (strict_iff hs hf hl hg).trans (and_congr_right' (sections_state_iff hbag ho value))
  split
  · rename_i hv
    rw [(hstrict e').mpr ⟨h, hv⟩]
    rfl
  · rename_i hv
    cases hr : (reader .strict).fromJson (.obj (bag.assign path (some value))) with
    | error => rfl
    | ok e'' => exact absurd ((hstrict e'').mp hr).2 hv

end Assigned
end Environment

theorem CompiledScene.writeEnvironment_eq {s : CompiledScene} {text : String} {path : Path}
    {bag : Bag} {value : Json} (hp : Path.ofText text = .ok path)
    (hs : s.environment.layout.toJson = .obj bag) (ho : bag.Open path) :
    s.writeEnvironment text value =
      ((Environment.reader .strict).fromJson (.obj (bag.assign path (some value)))).toOption.map
        fun environment => { s with environment } := by
  simp only [writeEnvironment, hp, hs, Json.asObject?, Bag.put_of_open ho, Except.toOption,
    Option.bind_eq_bind, Option.bind_some]
  split <;> rfl

namespace Document
variable {d : Document} (e : Environment)

theorem breadthFirst_environment : { d with environment := e }.breadthFirst = d.breadthFirst :=
  @generations_congr d { d with environment := e } rfl ..

theorem isValid_environment (hd : d.isValid = true) :
    { d with environment := e }.isValid = true := by
  obtain ⟨h, hroot⟩ := isValid_iff.mp hd
  exact isValid_iff.mpr ⟨⟨h.schema, h.ids, h.tree, h.types, h.assetIds, h.wires⟩, hroot⟩

theorem scene_environment :
    { d with environment := e }.scene = { d.scene with environment := e } := by
  have hnodes : { d with environment := e }.sceneNodes = d.sceneNodes := by
    rw [sceneNodes, breadthFirst_environment]
    rfl
  simp only [scene, hnodes]

/-- Another environment changes the compiled scene in the environment only. -/
theorem compile_environment (hd : d.isValid = true) :
    { d with environment := e }.compile .default =
      .ok ⟨{ d.scene with environment := e }, d.looseEnds d.scene.nodeIndex⟩ := by
  rw [compile_default (isValid_environment e hd), scene_environment]
  rfl

end Document

theorem Delta.append_of_remainder? {beginning text rest : String}
    (h : remainder? beginning text = some rest) : rest ≠ "" ∧ text = beginning ++ rest := by
  simp only [remainder?, Option.ite_none_right_eq_some, Option.some.injEq, Bool.and_eq_true,
    List.isPrefixOf_iff_prefix, Bool.not_eq_true', List.isEmpty_eq_false_iff] at h
  obtain ⟨⟨⟨cs, hcs⟩, hne⟩, rfl⟩ := h
  rw [← hcs, ← String.length_toList, List.drop_left] at hne ⊢
  exact ⟨by simpa using hne, String.toList_injective (by simp [← hcs])⟩

/-- Only writes of a value into the environment are classified so. -/
theorem Delta.ofOp_eq_environment {op : Op} {text : String} {value : Json}
    (h : ofOp op = .environment text value) : ∃ envelope old, text ≠ "" ∧
      op = .edit envelope
        (.setProperty documentTarget ("environment." ++ text) (some value) old) := by
  cases op with
  | batch => contradiction
  | edit envelope e =>
    change ofEdit e = _ at h
    unfold ofEdit at h
    split at h
    · rename_i id path v old
      unfold ofPropertyWrite at h
      by_cases hid : id = documentTarget
      · rw [if_pos hid] at h
        split at h
        · rename_i rest hrest
          obtain ⟨hne, rfl⟩ := append_of_remainder? hrest
          cases h
          exact ⟨envelope, old, hne, by rw [hid]⟩
        · contradiction
      · rw [if_neg hid] at h
        split at h <;> split at h <;> contradiction
    · contradiction
    · contradiction

theorem Outcome.accepted_of_isSome {o : Outcome Op} (h : o.result.toOption.isSome = true)
    (hr : o.rollbacks = []) : ∃ inverse, o = ⟨o.document, .ok inverse, []⟩ := by
  obtain ⟨d, result, rollbacks⟩ := o
  obtain rfl : rollbacks = [] := hr
  cases result with
  | error => contradiction
  | ok inverse => exact ⟨inverse, rfl⟩

namespace Document
variable {registry : Option Registry} {d d₁ : Document} {stamps : Stamps} {op inverse : Op}
  {rollbacks : List Rollback} {text : String} {path : Path} {value : Json} {w : PropertyWrite}

/-- An accepted write into the environment replaces something that is there. -/
theorem setProperty_environment (hr : text ≠ "")
    (h : d.setProperty ("environment." ++ text) (some value) = .ok (d₁, w)) :
    ∃ (bag : Bag) (path : Path) (e : Environment), d.environment.layout.toJson = .obj bag ∧
      Path.ofText text = .ok path ∧ bag.Open path ∧
      (Environment.reader .lenient).fromJson (.obj (bag.assign path (some value))) = .ok e ∧
      d₁ = { d with environment := e } := by
  obtain ⟨path, hp, hw⟩ := bind_ok_iff.mp h
  obtain ⟨hp, r, hremovable, -⟩ := PropertyWrite.address_ok_iff.mp hp
  obtain ⟨below, hbelow, rfl⟩ := @Path.ofText_below "environment" _ _ (by decide) hr hp
  obtain ⟨bag, hbag, -⟩ := d.environment.layout_states
  cases below with
  | nil => exact absurd rfl (Path.spelled_of_ofText hbelow).1
  | cons key rest =>
    -- only paths that lead to something may be written
    have ho : bag.Open (key :: rest) := by
      simp only [removable?, hbag] at hremovable
      split at hremovable
      · rename_i hsome
        obtain ⟨j, hj⟩ := Option.isSome_iff_exists.mp hsome
        exact Bag.open_of_get? hj
      · contradiction
    obtain ⟨⟨e, w'⟩, he, hw⟩ := bind_ok_iff.mp hw
    cases hw
    rw [hbag] at he
    obtain ⟨written, hput, hread⟩ := PropertyWrite.inField_below he
    obtain rfl := Except.ok.inj ((Bag.put_of_open ho _).symm.trans hput)
    exact ⟨bag, _, e, hbag, hbelow, ho, hread, rfl⟩

/-- An operation that is classified as a change of the environment changes nothing else of the
compiled scene. A renderer can follow it, and then has the environment of the changed document,
exactly when the value states every field that lenient reading would fill in. -/
theorem environment_delta_followed (hd : d.isValid = true)
    (h : d.apply registry stamps op = ⟨d₁, .ok inverse, rollbacks⟩)
    (hop : Delta.ofOp op = .environment text value) :
    ∃ c c₁ path, d.compile .default = .ok c ∧ d₁.compile .default = .ok c₁ ∧
      c₁ = { c with scene := { c.scene with environment := d₁.environment } } ∧
      Path.ofText text = .ok path ∧
      c.scene.follow (Delta.ofOp op) =
        if value.states (Environment.fieldsAt path) then some c₁.scene else none := by
  obtain ⟨envelope, old, hr, rfl⟩ := Delta.ofOp_eq_environment hop
  obtain ⟨-, a, ha, rfl, -, -⟩ := Engine.applyUndoing_edit_ok_iff.mp h
  obtain ⟨d', w, hw, rfl⟩ := Edit.applySetProperty_ok_iff.mp ha
  rcases writeProperty_ok_iff.mp hw with ⟨-, hw⟩ | ⟨hne, -⟩
  · obtain ⟨bag, path, e, hbag, hpath, ho, hread, rfl⟩ := setProperty_environment hr hw
    refine ⟨_, _, path, compile_default hd, compile_environment e hd, rfl, hpath, ?_⟩
    have hstrict := Environment.strict_assign hbag ho value hread
    have hstored : d.scene.environment.layout.toJson = .obj bag := hbag
    rw [hop, CompiledScene.follow, CompiledScene.writeEnvironment_eq hpath hstored ho, hstrict]
    split <;> rfl
  · exact absurd rfl hne

/-- The fog is turned on, by a value for all of it that leaves the rest out and by a value for the
one field. The document is the same afterwards, but only the second way can be followed. -/
theorem partial_fog_not_followed :
    let write (path : String) (value : Json) : Op :=
      .edit .plain (.setProperty documentTarget path (some value) none)
    let fog : Json := .obj (Dict.ofList [("enabled", .bool true)])
    let d := ofIds "scene" "root" "Scene"
    d.isValid = true ∧ ∃ d₁ inverse inverse' c c₁,
      d.apply none .plain (write "environment.fog" fog) = ⟨d₁, .ok inverse, []⟩ ∧
      d.apply none .plain (write "environment.fog.enabled" (.bool true)) =
        ⟨d₁, .ok inverse', []⟩ ∧
      Delta.ofOp (write "environment.fog" fog) = .environment "fog" fog ∧
      Delta.ofOp (write "environment.fog.enabled" (.bool true)) =
        .environment "fog.enabled" (.bool true) ∧
      d.compile .default = .ok c ∧ d₁.compile .default = .ok c₁ ∧ c₁.scene ≠ c.scene ∧
      c.scene.follow (.environment "fog" fog) = none ∧
      c.scene.follow (.environment "fog.enabled" (.bool true)) = some c₁.scene := by
  intro write fog d
  have hvalid : d.isValid = true := by decide
  have hsection : Delta.ofOp (write "environment.fog" fog) = .environment "fog" fog := by decide
  have hfield : Delta.ofOp (write "environment.fog.enabled" (.bool true)) =
      .environment "fog.enabled" (.bool true) := by decide
  have hsame : (d.apply none .plain (write "environment.fog.enabled" (.bool true))).document =
      (d.apply none .plain (write "environment.fog" fog)).document := by decide +kernel
  have hchanged : (d.apply none .plain (write "environment.fog" fog)).document.environment ≠
      d.environment := by decide +kernel
  obtain ⟨inverse, h⟩ := @Outcome.accepted_of_isSome
    (d.apply none .plain (write "environment.fog" fog)) (by decide +kernel) (by decide +kernel)
  obtain ⟨inverse', h'⟩ := @Outcome.accepted_of_isSome
    (d.apply none .plain (write "environment.fog.enabled" (.bool true)))
    (by decide +kernel) (by decide +kernel)
  rw [hsame] at h'
  obtain ⟨c, c₁, path, hc, hc₁, rfl, hpath, hlost⟩ := environment_delta_followed hvalid h hsection
  obtain ⟨c', c₁', path', hc', hc₁', -, hpath', hfollow⟩ :=
    environment_delta_followed hvalid h' hfield
  obtain rfl : c = c' := Except.ok.inj (hc.symm.trans hc')
  obtain rfl := Except.ok.inj (hc₁.symm.trans hc₁')
  obtain rfl : ["fog"] = path := Except.ok.inj hpath
  obtain rfl : ["fog", "enabled"] = path' := Except.ok.inj hpath'
  refine ⟨hvalid, _, inverse, inverse', c, _, h, h', hsection, hfield, hc, hc₁, fun he => ?_,
    hsection ▸ hlost, hfield ▸ hfollow⟩
  obtain rfl := Except.ok.inj (hc.symm.trans (compile_default hvalid))
  exact hchanged (congrArg CompiledScene.environment he)

end Document
end SceneGraph
