import SceneGraph.Proofs.AcceptedEdits
import SceneGraph.Proofs.EngineTraces
import SceneGraph.Proofs.SceneUpdates

/-!
# Node deltas: following one gives the scene that the changed document compiles to

Accepted writes of a transform, of a part of it, of the visibility and of component properties are
classified as changes of one node. A renderer that follows the classification comes to the scene of
the changed document, and no such write asks for a full rebuild (`node_delta_followed`).
-/
namespace SceneGraph
open PropertyWrite

namespace Transform
variable {t t' : Transform} {root part text : String} {value : Json} {w : PropertyWrite}

private theorem find?_layout (t : Transform) : ∃ bag : Bag, t.layout.toJson = .obj bag ∧
    bag.find? "position" = some t.position.layout.toJson ∧
      bag.find? "rotation" = some t.rotation.layout.toJson ∧
        bag.find? "scale" = some t.scale.layout.toJson := by
  refine ⟨_, rfl, ?_⟩
  simp [Dict.find?_ofList, Layout.toJsonFields, List.lookup_cons]

/-- What a write of one part stores is read part by part, the others from where they stood. -/
theorem parts_of_write
    (h : inField reader t.layout.toJson text [root, part] (some value) = .ok (t', w)) :
    Vec3.reader.fromJson (if part = "position" then value else t.position.layout.toJson) =
        .ok t'.position ∧
      Quat.reader.fromJson (if part = "rotation" then value else t.rotation.layout.toJson) =
        .ok t'.rotation ∧
      Vec3.reader.fromJson (if part = "scale" then value else t.scale.layout.toJson) =
        .ok t'.scale := by
  obtain ⟨bag, hbag, hp, hr, hs⟩ := find?_layout t
  rw [hbag] at h
  obtain ⟨written, hput, ha⟩ := inField_below h
  obtain rfl : Dict.insert bag part value = written := Except.ok.inj hput
  obtain ⟨⟨p, hp', hpr⟩, ⟨r, hr', hrr⟩, s, hs', hsr⟩ := parts_of_reader ha
  simp only [Dict.find?_insert, hp, hr, hs, ← apply_ite some, Option.some.injEq,
    @eq_comm _ _ part] at hp' hr' hs'
  exact ⟨hp' ▸ hpr, hr' ▸ hrr, hs' ▸ hsr⟩

end Transform

namespace Delta

/-- The paths of a transform as a whole and of its parts. -/
def transformPaths : List String :=
  ["transform", "transform.position", "transform.rotation", "transform.scale"]

theorem mem_transformPaths {path : String} {value : Json} {p : PartialTransform}
    (h : transformPart? path value = some p) : path ∈ transformPaths := by
  unfold transformPart? at h
  split at h <;> first | contradiction | decide

end Delta

namespace Entity
variable {e e' : Entity} {text : String} {value : Json} {w : PropertyWrite}

/-- An accepted write of a transform, or of a part of it, is classified, and it stores the parts
that the classification states. -/
theorem setProperty_transform (ht : text ∈ Delta.transformPaths)
    (h : e.setProperty text (some value) = .ok (e', w)) :
    ∃ p, Delta.transformPart? text value = some p ∧
      e' = { e with transform := p.onto e.transform } := by
  obtain ⟨path, hp, hw⟩ := bind_ok_iff.mp h
  obtain ⟨hp, -⟩ := address_ok_iff.mp hp
  have hfield : ∀ rest, Path.ofText text = .ok ("transform" :: rest) → ∃ t,
      inField Transform.reader e.transform.layout.toJson text ("transform" :: rest) (some value) =
        .ok (t, w) ∧ e' = { e with transform := t } := by
    intro rest hrest
    obtain rfl := Except.ok.inj (hp.symm.trans hrest)
    obtain ⟨⟨t, w'⟩, ht, hw⟩ := bind_ok_iff.mp hw
    cases hw
    exact ⟨t, ht, rfl⟩
  simp only [Delta.transformPaths, List.mem_cons, List.not_mem_nil, or_false] at ht
  rcases ht with rfl | rfl | rfl | rfl
  · obtain ⟨t, ht, rfl⟩ := hfield [] rfl
    have hread := inField_root ht
    exact ⟨.ofTransform t, by simp [Delta.transformPart?, hread, Except.toOption], rfl⟩
  · obtain ⟨t, ht, rfl⟩ := hfield ["position"] rfl
    obtain ⟨hp, hr, hs⟩ := Transform.parts_of_write ht
    refine ⟨⟨some t.position, none, none⟩, ?_, ?_⟩
    · simp_all [Delta.transformPart?, Except.toOption]
    · simp [PartialTransform.onto, ← Quat.of_layout hr, ← Vec3.of_layout hs]
  · obtain ⟨t, ht, rfl⟩ := hfield ["rotation"] rfl
    obtain ⟨hp, hr, hs⟩ := Transform.parts_of_write ht
    refine ⟨⟨none, some t.rotation, none⟩, ?_, ?_⟩
    · simp_all [Delta.transformPart?, Except.toOption]
    · simp [PartialTransform.onto, ← Vec3.of_layout hp, ← Vec3.of_layout hs]
  · obtain ⟨t, ht, rfl⟩ := hfield ["scale"] rfl
    obtain ⟨hp, hr, hs⟩ := Transform.parts_of_write ht
    refine ⟨⟨none, none, some t.scale⟩, ?_, ?_⟩
    · simp_all [Delta.transformPart?, Except.toOption]
    · simp [PartialTransform.onto, ← Vec3.of_layout hp, ← Quat.of_layout hr]

theorem setProperty_visible (h : e.setProperty "visible" (some value) = .ok (e', w)) :
    ∃ visible, value.asBool? = some visible ∧ e' = { e with visible } := by
  obtain ⟨path, hp, hw⟩ := bind_ok_iff.mp h
  obtain ⟨hp, -⟩ := address_ok_iff.mp hp
  obtain rfl : ["visible"] = path := Except.ok.inj hp
  obtain ⟨⟨visible, w'⟩, hv, hw⟩ := bind_ok_iff.mp hw
  cases hw
  have hread := inField_root hv
  refine ⟨visible, ?_, rfl⟩
  cases value <;> simp_all [Reader.fromJson, Source.ofJson, Reader.bool, Json.asBool?]

theorem amends_setProperty {text : String} {value : Option Json}
    (h : e.setProperty text value = .ok (e', w)) : e'.Amends e := by
  obtain ⟨hid, hp, hc, hs, hf⟩ := setProperty_keeps h
  exact ⟨hid, hp, hc, fun ht => hs ▸ ht, hf⟩

end Entity

/-- The delta concerns a single node. -/
def Delta.isOfNode : Delta → Bool
  | nodeTransform .. | nodeVisibility .. | componentProperty .. => true
  | environment .. | fullRebuild => false

/-- The edit writes a value of a node: a transform, a part of one, the visibility, or a property of
a component. -/
def Edit.writesNode : Edit → Bool
  | setProperty id path (some _) _ =>
    id ≠ documentTarget && (path = "visible" || Delta.transformPaths.contains path)
  | setComponentProperty _ _ _ (some _) _ => true
  | _ => false

def Op.writesNode : Op → Bool
  | edit _ e => e.writesNode
  | batch _ _ => false

namespace Edit
open Document
variable {registry : Option Registry} {d : Document} {a : Applied} {e : Edit}

theorem writesNode_of_isOfNode (h : (Delta.ofEdit e).isOfNode = true) : e.writesNode = true := by
  unfold Delta.ofEdit at h
  split at h
  · rename_i id path value previous
    unfold Delta.ofPropertyWrite at h
    by_cases hid : id = documentTarget
    · rw [if_pos hid] at h
      split at h <;> contradiction
    · rw [if_neg hid] at h
      by_cases hv : path = "visible"
      · simp [writesNode, hid, hv]
      · rw [if_neg hv] at h
        split at h
        · rename_i p hp
          simp [writesNode, hid, Delta.mem_transformPaths hp]
        · contradiction
  · rfl
  · contradiction

/-- Where an accepted edit writes a value of a node, its delta leads from scene to scene. -/
theorem follow_of_writesNode (hd : d.isValid = true) (hw : e.writesNode = true)
    (ha : e.apply registry d = .ok a) : a.document.isValid = true ∧
      d.scene.follow (Delta.ofEdit e) = some a.document.scene := by
  unfold writesNode at hw
  split at hw
  · rename_i id path value previous
    simp only [Bool.and_eq_true, Bool.or_eq_true, decide_eq_true_eq, List.contains_iff_mem] at hw
    obtain ⟨hid, hpath⟩ := hw
    obtain ⟨d', w, hwrite, rfl⟩ := applySetProperty_ok_iff.mp ha
    rcases writeProperty_ok_iff.mp hwrite with ⟨htarget, -⟩ | ⟨-, f, f', hf, hset, rfl⟩
    · exact absurd htarget hid
    have hamends := Entity.amends_setProperty hset
    refine ⟨isValid_amended hf hamends hd, ?_⟩
    rcases hpath with rfl | hpath
    · obtain ⟨visible, hv, rfl⟩ := Entity.setProperty_visible hset
      simp only [Delta.ofEdit, Delta.ofPropertyWrite, if_neg hid, if_true, hv]
      exact changeNode_amended hf hamends hd rfl
    · obtain ⟨p, hp, rfl⟩ := Entity.setProperty_transform hpath hset
      have hne : path ≠ "visible" := by
        rintro rfl
        exact absurd hpath (by decide)
      simp only [Delta.ofEdit, Delta.ofPropertyWrite, if_neg hid, if_neg hne, hp]
      exact changeNode_amended hf hamends hd rfl
  · rename_i id componentType path value previous
    obtain ⟨f, c, c', w, hf, hc, hset, rfl⟩ := applySetComponentProperty_ok_iff.mp ha
    have htype := (Component.setProperty_keeps hset).trans (Entity.type_of_component? hc)
    have hamends := Entity.amends_setComponent hc htype
    refine ⟨isValid_amended hf hamends hd, changeNode_amended hf hamends hd ?_⟩
    obtain ⟨⟨properties, w'⟩, hp, hset⟩ := bind_ok_iff.mp hset
    cases hset
    obtain ⟨steps, hs, hb⟩ := bind_ok_iff.mp hp
    obtain ⟨prior, -, hb⟩ := bind_ok_iff.mp (mapError_ok_iff.mp hb)
    obtain ⟨written, hput, hb⟩ := bind_ok_iff.mp hb
    cases hb
    exact SceneNode.writeProperty_ofEntity hc (mapError_ok_iff.mp hs) hput
  · contradiction

end Edit

namespace Document
variable {registry : Option Registry} {d d₁ : Document} {stamps : Stamps} {op inverse : Op}
  {rollbacks : List Rollback}

/-- An operation that is classified as a change of one node does to the compiled scene what a
renderer does that follows the classification, and no accepted write of a transform, a part of one,
a visibility or a component property asks for a full rebuild. -/
theorem node_delta_followed (hd : d.isValid = true)
    (h : d.apply registry stamps op = ⟨d₁, .ok inverse, rollbacks⟩) :
    ((Delta.ofOp op).isOfNode = true → ∃ c c₁, d.compile .default = .ok c ∧
      d₁.compile .default = .ok c₁ ∧ c.scene.follow (Delta.ofOp op) = some c₁.scene) ∧
    (op.writesNode = true → (Delta.ofOp op).isFullRebuild = false) := by
  cases op with
  | batch => exact ⟨nofun, nofun⟩
  | edit envelope e =>
    obtain ⟨-, a, ha, rfl, -, -⟩ := Engine.applyUndoing_edit_ok_iff.mp h
    refine ⟨fun hn => ?_, fun hw => ?_⟩
    · obtain ⟨hd', hf⟩ :=
        Edit.follow_of_writesNode hd (Edit.writesNode_of_isOfNode hn) ha
      exact ⟨_, _, compile_default hd, compile_default hd', hf⟩
    · obtain ⟨-, hf⟩ := Edit.follow_of_writesNode hd hw ha
      refine decide_eq_false fun hrebuild => ?_
      rw [show Delta.ofEdit e = .fullRebuild from hrebuild] at hf
      contradiction

/-- The root is hidden. -/
theorem root_hidden :
    let d := ofIds "scene" "root" "Scene"
    let op : Op :=
      .edit .plain (.setProperty "root" "visible" (some (.bool false)) none)
    d.isValid = true ∧ op.writesNode = true ∧ (Delta.ofOp op).isOfNode = true ∧
      ∃ d₁ inverse, d.apply none .plain op = ⟨d₁, .ok inverse, []⟩ ∧ d₁ ≠ d ∧
        (∃ c c₁, d.compile .default = .ok c ∧ d₁.compile .default = .ok c₁ ∧
          c.scene.follow (Delta.ofOp op) = some c₁.scene) ∧
        (Delta.ofOp op).isFullRebuild = false := by
  intro d op
  have hvalid : d.isValid = true := by decide
  have hwrites : op.writesNode = true := by decide
  have hnode : (Delta.ofOp op).isOfNode = true := by decide
  have hhidden : d.apply none .plain op = ⟨_, .ok _, []⟩ := rfl
  obtain ⟨hfollow, hrebuild⟩ := node_delta_followed hvalid hhidden
  refine ⟨hvalid, hwrites, hnode, _, _, hhidden, fun hsame => ?_, hfollow hnode, hrebuild hwrites⟩
  have hroot := congrArg (fun d : Document => (d.entity? "root").map (·.visible)) hsame
  exact absurd hroot (by decide)

end Document
end SceneGraph
