import SceneGraph.EditEngine
import SceneGraph.Proofs.EqualForms
import SceneGraph.Proofs.ListDigests
import SceneGraph.Proofs.NodeChanges

/-!
# Equal documents: they compile alike, and their digests agree but for the signs of zeros

Equality of documents does not tell the two zeros apart. Equal documents are valid together and
compile alike, and the texts of their scenes are the same exactly when their zeros have the same
signs (`compile_of_beq`). Then the digests are the same, too. A sign that is changed can change the
digest.
-/
namespace SceneGraph

section Related
variable {α β γ δ : Type} {r : α → β → Prop} {q : γ → δ → Prop}

theorem Option.map_eq_of_rel {f : α → γ} {g : β → γ} {a : Option α} {b : Option β}
    (h : Option.Rel r a b) (hf : ∀ x y, r x y → f x = g y) : a.map f = b.map g := by
  cases h with
  | none => rfl
  | some h => exact congrArg some (hf _ _ h)

theorem Option.rel_map {f : α → γ} {g : β → δ} {a : Option α} {b : Option β}
    (h : Option.Rel r a b) (hf : ∀ x y, r x y → q (f x) (g y)) :
    Option.Rel q (a.map f) (b.map g) := by
  cases h with
  | none => exact .none
  | some h => exact .some (hf _ _ h)

theorem Option.exists_of_rel {a : Option α} {b : Option β} {y : β} (h : Option.Rel r a b)
    (hb : b = some y) : ∃ x, a = some x ∧ r x y := by
  cases h with
  | none => contradiction
  | some h => exact ⟨_, rfl, Option.some.inj hb ▸ h⟩

theorem List.map_eq_of_forall₂ {f : α → γ} {g : β → γ} {xs : List α} {ys : List β}
    (h : List.Forall₂ r xs ys) (hf : ∀ x y, r x y → f x = g y) : xs.map f = ys.map g := by
  have hmap : List.Forall₂ Eq (xs.map f) (ys.map g) := List.rel_map (fun x y => hf x y) h
  rwa [List.forall₂_eq_eq_eq] at hmap

end Related

namespace Document
variable {d d' : Document}

theorem beq_iff : (d == d') = true ↔ d.id = d'.id ∧ d.name = d'.name ∧
    d.schemaVersion = d'.schemaVersion ∧ d.rootEntityId = d'.rootEntityId ∧
    (d.entities == d'.entities) = true ∧ (d.assets == d'.assets) = true ∧
    (d.wiring == d'.wiring) = true ∧ (d.environment == d'.environment) = true ∧
    (d.gameSettings == d'.gameSettings) = true ∧ (d.metadata == d'.metadata) = true := by
  change (_ && (_ && (_ && (_ && (_ && (_ && (_ && (_ && (_ && _))))))))) = true ↔ _
  simp only [Bool.and_eq_true, beq_iff_eq]

section Equal
variable (h : (d == d') = true)
include h

theorem entity?_of_beq (id : String) :
    Option.Rel (fun e e' => (e == e') = true) (d.entity? id) (d'.entity? id) := by
  obtain ⟨-, -, -, -, hentities, -⟩ := beq_iff.mp h
  exact Ascending.find?_of_agrees hentities id

theorem outline_of_beq : d.outline = d'.outline := by
  funext id
  refine Option.map_eq_of_rel (entity?_of_beq h id) fun e e' he => ?_
  obtain ⟨-, -, hparent, hchildren, -⟩ := Entity.beq_iff.mp he
  rw [hparent, hchildren]

theorem childrenOf_of_beq : d.childrenOf = d'.childrenOf := by
  funext id
  have hmap : (d.entity? id).map (·.children) = (d'.entity? id).map (·.children) :=
    Option.map_eq_of_rel (entity?_of_beq h id) fun e e' he => (Entity.beq_iff.mp he).2.2.2.1
  rw [childrenOf, childrenOf]
  cases hd : d.entity? id <;> cases hd' : d'.entity? id <;> simp_all

theorem breadthFirst_of_beq : d.breadthFirst = d'.breadthFirst := by
  obtain ⟨-, -, -, hroot, hentities, -⟩ := beq_iff.mp h
  rw [breadthFirst, breadthFirst, generations_congr (childrenOf_of_beq h), hroot,
    Ascending.size_of_agrees hentities]

/-- Validation looks at nothing that equal documents can differ in. -/
theorem isValid_of_beq (hd : d.isValid = true) : d'.isValid = true := by
  obtain ⟨hforest, hroots⟩ := isValid_iff.mp hd
  obtain ⟨-, -, hschema, hroot, hentities, hassets, hwiring, -⟩ := beq_iff.mp h
  have hentity {id : String} {e' : Entity} (he' : d'.entity? id = some e') :
      ∃ e, d.entity? id = some e ∧ (e == e') = true := by
    have hrel := Option.exists_of_rel (entity?_of_beq h id) he'
    exact hrel
  refine isValid_iff.mpr ⟨⟨hschema ▸ hforest.schema, ?_, ?_, ?_, ?_, ?_⟩, ?_⟩
  case refine_1 =>
    intro id e' he'
    obtain ⟨e, he, hee'⟩ := hentity he'
    exact (Entity.beq_iff.mp hee').1 ▸ hforest.ids he
  case refine_2 => exact outline_of_beq h ▸ hroot ▸ hforest.tree
  case refine_3 =>
    intro id e' he' c' hc'
    obtain ⟨e, he, hee'⟩ := hentity he'
    obtain ⟨-, -, -, -, hcomponents, -⟩ := Entity.beq_iff.mp hee'
    have htypes : e.components.map (·.componentType) = e'.components.map (·.componentType) :=
      List.map_eq_of_forall₂ (List.beq_iff_forall₂.mp hcomponents) fun _ _ hc =>
        (Component.beq_iff.mp hc).1
    obtain ⟨c, hc, hcc'⟩ := List.mem_map.mp (htypes ▸ List.mem_map_of_mem hc')
    exact hcc' ▸ hforest.types he c hc
  case refine_4 =>
    intro id a' ha'
    obtain ⟨a, ha, haa'⟩ := Option.exists_of_rel (Ascending.find?_of_agrees hassets id) ha'
    exact (Asset.beq_iff.mp haa').1 ▸ hforest.assetIds ha
  case refine_5 =>
    have hids : d.wiring.map (·.id) = d'.wiring.map (·.id) :=
      List.map_eq_of_forall₂ (List.beq_iff_forall₂.mp hwiring) fun _ _ hw =>
        (EventWire.beq_iff.mp hw).1
    exact hids ▸ hforest.wires
  case refine_6 =>
    intro id e' he' hp
    obtain ⟨e, he, hee'⟩ := hentity he'
    exact hroot ▸ hroots id e he ((Entity.beq_iff.mp hee').2.2.1.trans hp)

theorem looseEnds_of_beq (index : Dict Nat) : d.looseEnds index = d'.looseEnds index := by
  obtain ⟨-, -, -, -, -, -, hwiring, -⟩ := beq_iff.mp h
  have hends : d.wiring.map (fun w => (w.id, w.endpoints)) =
      d'.wiring.map (fun w => (w.id, w.endpoints)) :=
    List.map_eq_of_forall₂ (List.beq_iff_forall₂.mp hwiring) fun w w' hw => by
      obtain ⟨hid, hsource, -, htarget, -⟩ := EventWire.beq_iff.mp hw
      rw [EventWire.endpoints, EventWire.endpoints, hid, hsource, htarget]
  have hflat (d : Document) : d.looseEnds index =
      (d.wiring.map fun w => (w.id, w.endpoints)).flatMap fun w =>
        w.2.flatMap fun entity => issueUnless (index.contains entity) ⟨w.1, entity⟩ := by
    rw [looseEnds, List.flatMap_map]
  rw [hflat, hflat, hends]

section Valid
variable (hd : d.isValid = true)
include hd

theorem nodeIndex_of_beq : d.scene.nodeIndex = d'.scene.nodeIndex := by
  rw [nodeIndex_eq hd, nodeIndex_eq (isValid_of_beq h hd), breadthFirst_of_beq h]

/-- The scenes of equal documents are written alike but for the signs of zeros. -/
theorem scene_same : d.scene.layout.same d'.scene.layout = true := by
  obtain ⟨hid, hname, hschema, hroot, -, hassets, hwiring, henvironment, hsettings, -⟩ :=
    beq_iff.mp h
  have hid : d.scene.id = d'.scene.id := hid
  have hname : d.scene.name = d'.scene.name := hname
  have hschema : d.scene.sourceSchemaVersion = d'.scene.sourceSchemaVersion := hschema
  have hroot : d.scene.rootNodeId = d'.scene.rootNodeId := hroot
  have hnodes : (Layout.list (d.scene.nodes.map (·.layout))).same
      (.list (d'.scene.nodes.map (·.layout))) = true := by
    refine Layout.same_list_map ?_
    change List.Forall₂ _ d.sceneNodes d'.sceneNodes
    rw [sceneNodes, sceneNodes, breadthFirst_of_beq h]
    have hwalk : List.Forall₂ Eq d'.breadthFirst d'.breadthFirst := List.forall₂_refl _
    refine List.rel_filterMap (fun id id' hid => ?_) hwalk
    exact hid ▸ Option.rel_map (entity?_of_beq h id) fun _ _ => Entity.same_ofEntity
  have hindex : (Layout.dict .nat d.scene.nodeIndex).same
      (.dict .nat d'.scene.nodeIndex) = true := by
    rw [nodeIndex_of_beq h hd, Layout.dict, Layout.same_record_iff]
    exact List.forall₂_map_left_iff.mpr (List.forall₂_map_right_iff.mpr
      (List.forall₂_same.mpr fun _ _ => ⟨rfl, Layout.same_nat _⟩))
  have hassets : (Layout.list (d.scene.assets.map (·.explicitLayout))).same
      (.list (d'.scene.assets.map (·.explicitLayout))) = true :=
    Layout.same_list_map ((Ascending.values_of_agrees hassets).imp
      fun _ _ => Asset.same_explicitLayout)
  have hwires : (Layout.list (d.scene.wires.map (·.layout))).same
      (.list (d'.scene.wires.map (·.layout))) = true :=
    Layout.same_list_map ((List.beq_iff_forall₂.mp hwiring).imp fun _ _ => EventWire.same_layout)
  have henvironment : d.scene.environment.layout.same d'.scene.environment.layout = true :=
    Environment.same_layout henvironment
  have hsettings : (Layout.nullable .bag d.scene.gameSettings).same
      (.nullable .bag d'.scene.gameSettings) = true :=
    Layout.same_nullable (Option.rel_map (Option.rel_of_beq hsettings) fun _ _ hg =>
      Layout.same_bag (GameSettings.same_toBag hg))
  simp [CompiledScene.layout, Layout.same_record_iff, hid, hname, hschema, hroot, hnodes, hindex,
    hassets, hwires, henvironment, hsettings]

end Valid
end Equal

/-- Equal documents compile alike. What is written of them differs exactly where a zero has another
sign; where none has, the digest is the same. -/
theorem compile_of_beq (hd : d.isValid = true) (h : (d == d') = true) :
    d'.isValid = true ∧
    (∀ options error, d.compile options = .error error ↔ d'.compile options = .error error) ∧
    (∃ c, d.compile .default = .ok c) ∧
    ∀ options c c', d.compile options = .ok c → d'.compile options = .ok c' →
      (c.scene.layout.text = c'.scene.layout.text ↔
        c.scene.layout.zeroSigns = c'.scene.layout.zeroSigns) ∧
      (c.scene.layout.zeroSigns = c'.scene.layout.zeroSigns →
        c.scene.contentHash = c'.scene.contentHash) := by
  have hd' := isValid_of_beq h hd
  refine ⟨hd', fun options error => ?_, ⟨_, compile_default hd⟩, fun options c c' hc hc' => ?_⟩
  · rw [compile_eq hd, compile_eq hd', nodeIndex_of_beq h hd, looseEnds_of_beq h]
    split <;> simp
  · have hsame := scene_same h hd
    rw [scene_of_compile hc, scene_of_compile hc']
    have htext := Layout.text_eq_iff hsame
    exact ⟨htext, fun hsigns => congrArg Sha256.ofText (htext.mpr hsigns)⟩

/-- The sign of a zero that is not compiled is not seen. -/
theorem annotated_compile_of_beq :
    let d := ofIds "scene" "root" "Scene"
    let e := { d with metadata := Dict.insert .nil "offset" (.real 0) }
    let e' := { d with metadata := Dict.insert .nil "offset" (.real (-0)) }
    e.isValid = true ∧ (e == e') = true ∧ e ≠ e' ∧ ∃ c c', e.compile .default = .ok c ∧
      e'.compile .default = .ok c' ∧ c.scene.contentHash = c'.scene.contentHash := by
  intro d e e'
  have he : e.isValid = true := by decide
  have hbeq : (e == e') = true := by decide
  obtain ⟨he', -, -, hcompiled⟩ := compile_of_beq he hbeq
  have hc := compile_default he
  have hc' := compile_default he'
  have hscene : e.scene = e'.scene := rfl
  exact ⟨he, hbeq, by decide, _, _, hc, hc', (hcompiled _ _ _ hc hc').2 (by rw [hscene])⟩

/-- A zero that is given the other sign leaves the document equal to what it was, and changes the
digest. -/
theorem zero_sign_changes_digest :
    let d := ofIds "scene" "root" "Scene"
    let op := Op.edit .plain
      (.setProperty "root" "transform.position.x" (some (.real (-0))) none)
    let o := d.apply none .plain op
    o.result.isOk = true ∧ d.isValid = true ∧ o.document.isValid = true ∧
      (d == o.document) = true ∧ ∃ c c', d.compile .default = .ok c ∧
        o.document.compile .default = .ok c' ∧ c.scene.contentHash ≠ c'.scene.contentHash := by
  intro d op o
  have hd : d.isValid = true := by decide
  have ho : o.document.isValid = true := by decide +kernel
  refine ⟨by decide +kernel, hd, ho, by decide +kernel, _, _, compile_default hd,
    compile_default ho, ?_⟩
  simp only [CompiledScene.contentHash, Sha256.ofText, Sha256.ofBytes_eq]
  decide +kernel

end Document
end SceneGraph
