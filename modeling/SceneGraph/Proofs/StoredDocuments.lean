import SceneGraph.Proofs.CompiledForms
import SceneGraph.Proofs.DocumentReading
import SceneGraph.Proofs.OpenForms
import SceneGraph.Proofs.WrittenRecords

/-!
# Stored documents: documents and scenes are read back from what is written of them

Every part of a document and of a scene is read back from what is written of it, up to the
conditions that reading sees to (`Storable`). Hence a document that was read is read back from its
stored form, and so is a scene, whether it was read or comes from such a document.
-/
namespace SceneGraph
open Shape Reader

theorem AssetType.reader_layout (t : AssetType) :
    reader.fromJson (Layout.str t.name).toJson = .ok t := by
  cases t <;> rfl

theorem Tuning.reader_regains (tuning : Tuning) : reader.Regains layout tuning :=
  ⟨Layout.record_ne_null _, reader_ok_iff.mpr rfl⟩

theorem Component.reader_layout (c : Component) : reader.fromJson c.layout.toJson = .ok c := by
  obtain ⟨componentType, properties, tuning, editorMeta⟩ := c
  refine Restores.ignored (Restores.map (.text ?_) _
    |>.seq (.defaulted ?_ (bag_layout _))
    |>.seq (.optional ?_ fun t _ => t.reader_regains)
    |>.seq (.optional ?_ fun bag _ => bag_regains bag))
  all_goals simp

theorem Component.reader_regains (c : Component) : reader.Regains layout c :=
  ⟨Layout.record_ne_null _, c.reader_layout⟩

theorem Transform.reader_regains {t : Transform} (h : t.isFinite = true) :
    reader.Regains layout t :=
  ⟨Layout.record_ne_null _, reader_layout h⟩

theorem Entity.reader_layout {e : Entity} (h : e.transform.isFinite = true) :
    reader.fromJson e.layout.toJson = .ok e := by
  obtain ⟨id, name, parentId, children, components, tags, transform, visible, locked, tuning⟩ := e
  refine Restores.ignored (Restores.map (.text ?_) _
    |>.seq (.text ?_)
    |>.seq (.defaulted ?_ (nullable_layout fun s _ => string_regains s))
    |>.seq (.defaulted ?_ (strings_fromJson _))
    |>.seq (.defaulted ?_ (list_layout fun c _ => c.reader_layout))
    |>.seq (.defaulted ?_ (textSet_fromJson _))
    |>.seq (.defaulted ?_ (Transform.reader_layout h))
    |>.seq (.defaulted ?_ (bool_layout _))
    |>.seq (.defaulted ?_ (bool_layout _))
    |>.seq (.optional ?_ fun t _ => t.reader_regains))
  all_goals simp

theorem Entity.reader_regains {e : Entity} (h : e.transform.isFinite = true) :
    reader.Regains layout e :=
  ⟨Layout.record_ne_null _, reader_layout h⟩

namespace Asset

/-- No inline data is null: it would be read as data that is absent. -/
def Storable (a : Asset) : Prop := ∀ j ∈ a.data, j ≠ .null

variable {a : Asset}

theorem reader_layout (h : a.Storable) : reader.fromJson a.layout.toJson = .ok a := by
  obtain ⟨id, assetType, name, uri, data, metadata⟩ := a
  refine Restores.ignored (Restores.map (.text ?_) _
    |>.seq (.required ?_ (AssetType.reader_layout _))
    |>.seq (.text ?_)
    |>.seq (.optional ?_ fun s _ => string_regains s)
    |>.seq (.optional ?_ fun j hj => json_regains (h j hj))
    |>.seq (.defaulted ?_ (bag_layout _)))
  all_goals simp

theorem reader_regains (h : a.Storable) : reader.Regains layout a :=
  ⟨Layout.record_ne_null _, reader_layout h⟩

theorem explicitReader_layout (h : a.Storable) :
    explicitReader.fromJson a.explicitLayout.toJson = .ok a := by
  obtain ⟨id, assetType, name, uri, data, metadata⟩ := a
  refine Restores.refused (Restores.map (.text ?_) _
    |>.seq (.required ?_ (AssetType.reader_layout _))
    |>.seq (.text ?_)
    |>.seq (.required ?_ (nullable_layout fun s _ => string_regains s))
    |>.seq (.required ?_ (nullable_layout fun j hj => json_regains (h j hj)))
    |>.seq (.required ?_ (bag_layout _))) ?_
  all_goals simp [explicitShape]

end Asset

namespace EventWire

theorem shapeWith_restores {parameters : Shape Bag} {w : EventWire}
    {fields : List (String × Layout)} (hw : w.layout = .record fields)
    (hp : parameters.Restores fields w.parameters) : (shapeWith parameters).Restores fields w := by
  obtain ⟨id, source, event, target, action, bag⟩ := w
  cases hw
  refine Restores.map (.text ?_) _
    |>.seq (.text ?_)
    |>.seq (.text ?_)
    |>.seq (.text ?_)
    |>.seq (.text ?_)
    |>.seq hp
  all_goals simp

theorem reader_layout (w : EventWire) : reader.fromJson w.layout.toJson = .ok w :=
  (shapeWith_restores rfl (.defaulted (by simp) (bag_layout _))).ignored

theorem explicitReader_layout (w : EventWire) : explicitReader.fromJson w.layout.toJson = .ok w :=
  (shapeWith_restores rfl (.required (by simp) (bag_layout _))).refused (by simp [shapeWith])

end EventWire

theorem GameSettings.reader_regains {g : GameSettings} (h : g.Separate) :
    reader.Regains layout g :=
  ⟨Layout.record_ne_null _, reader_layout h⟩

namespace Document

/-- The entities and assets are read back from what is written of them. -/
structure EntriesStorable (d : Document) : Prop where
  transforms : ∀ ⦃id e⦄, d.entity? id = some e → e.transform.isFinite = true
  assets : ∀ ⦃id a⦄, d.assets.find? id = some a → a.Storable

structure Storable (d : Document) : Prop extends EntriesStorable d, Readable d where
  schema : d.schemaVersion < UInt32.size

theorem reader_layout {d : Document} (h : d.Storable) :
    reader.fromJson d.layout.toJson = .ok d := by
  obtain ⟨id, name, version, root, entities, assets, wiring, environment, settings, metadata⟩ := d
  refine Restores.ignored (Restores.map (.text ?_) _
    |>.seq (.text ?_)
    |>.seq (.defaulted ?_ (naturalBelow_layout h.schema))
    |>.seq (.text ?_)
    |>.seq (.required ?_ (dict_layout fun id e he => Entity.reader_layout (h.transforms he)))
    |>.seq (.defaulted ?_ (dict_layout fun id a ha => Asset.reader_layout (h.assets ha)))
    |>.seq (.defaulted ?_ (list_layout fun w _ => w.reader_layout))
    |>.seq (.defaulted ?_ (Environment.reader_layout h.environment))
    |>.seq (.optional ?_ fun g hg => GameSettings.reader_regains (h.gameSettings g hg))
    |>.seq (.defaulted ?_ (bag_layout _)))
  all_goals simp

end Document

theorem NodeComponent.reader_layout (c : NodeComponent) :
    reader.fromJson c.layout.toJson = .ok c := by
  obtain ⟨componentType, properties, tuning⟩ := c
  refine Restores.refused (Restores.map (.text ?_) _
    |>.seq (.required ?_ (bag_layout _))
    |>.seq (.optional ?_ fun t _ => t.reader_regains)) ?_
  all_goals simp [shape]

theorem SceneNode.reader_layout {n : SceneNode} (h : n.transform.isFinite = true) :
    reader.fromJson n.layout.toJson = .ok n := by
  obtain ⟨id, name, parentId, childIds, transform, components, visible, tuning⟩ := n
  refine Restores.refused (Restores.map (.text ?_) _
    |>.seq (.text ?_)
    |>.seq (.required ?_ (nullable_layout fun s _ => string_regains s))
    |>.seq (.required ?_ (strings_fromJson _))
    |>.seq (.required ?_ (Transform.reader_layout h))
    |>.seq (.required ?_ (list_layout fun c _ => c.reader_layout))
    |>.seq (.required ?_ (bool_layout _))
    |>.seq (.optional ?_ fun t _ => t.reader_regains)) ?_
  all_goals simp [shape]

namespace CompiledScene

structure Storable (s : CompiledScene) : Prop where
  schema : s.sourceSchemaVersion < UInt32.size
  transforms : ∀ n ∈ s.nodes, n.transform.isFinite = true
  assets : ∀ a ∈ s.assets, a.Storable
  environment : s.environment.isFinite = true

theorem reader_layout {s : CompiledScene} (h : s.Storable) :
    reader.fromJson s.layout.toJson = .ok s := by
  obtain ⟨id, name, version, nodes, nodeIndex, root, assets, wires, environment, settings⟩ := s
  refine Restores.refused (Restores.map (.text ?_) _
    |>.seq (.text ?_)
    |>.seq (.required ?_ (naturalBelow_layout h.schema))
    |>.seq (.required ?_ (list_layout fun n hn => SceneNode.reader_layout (h.transforms n hn)))
    |>.seq (.required ?_ (dict_layout fun _ i _ => natural_layout i))
    |>.seq (.text ?_)
    |>.seq (.required ?_ (list_layout fun a ha => Asset.explicitReader_layout (h.assets a ha)))
    |>.seq (.required ?_ (list_layout fun w _ => w.explicitReader_layout))
    |>.seq (.required ?_ (Environment.reader_layout h.environment))
    |>.seq (.required ?_ (nullable_layout fun bag _ => bag_regains bag))) ?_
  all_goals simp [shape]

end CompiledScene

namespace Reader
variable {α : Type} {read : Reader α} {p : α → Prop}

theorem naturalBelow_yields (bound : Nat) : (naturalBelow bound).Yields (· < bound) := by
  intro origin x n h
  obtain ⟨n', -, h⟩ := bind_ok_iff.mp h
  split at h
  · rename_i hn
    exact Except.ok.inj h ▸ hn
  · contradiction

private theorem eq_null_of_toJson {x : Source} (h : x.toJson = .ok .null) : x = .null := by
  cases x with
  | null => rfl
  | arr | obj => simp only [Source.toJson, bind_ok_iff, pure_ok_iff, reduceCtorEq, and_false,
      exists_false] at h
  | _ => simp [Source.toJson] at h

private theorem nullable_yields_of_ne
    (h : ∀ origin x a, read origin x = .ok a → x ≠ .null → p a) :
    (nullable read).Yields (∀ a ∈ ·, p a) := by
  intro origin x b hb
  cases x with
  | null =>
    obtain rfl : none = b := Except.ok.inj hb
    exact nofun
  | _ =>
    obtain ⟨a, ha, rfl⟩ := map_ok_iff.mp hb
    exact fun a' ha' => Option.mem_some.mp ha' ▸ h _ _ a ha nofun

/-- Null is read as nothing, and nothing else is read as null. -/
theorem nullable_json_yields : (nullable json).Yields (∀ j ∈ ·, j ≠ .null) := by
  refine nullable_yields_of_ne fun origin x j hj hx => ?_
  rintro rfl
  exact hx (eq_null_of_toJson hj)

theorem Yields.list (h : read.Yields p) : (list read).Yields (∀ a ∈ ·, p a) := by
  intro origin x items hi
  cases x with
  | arr sources closed =>
    obtain ⟨found, hf, hi⟩ := bind_ok_iff.mp hi
    obtain ⟨-, hi⟩ := then_ok_iff.mp hi
    cases hi
    exact forall_of_mapM (fun source a ha => h origin source a ha) hf
  | _ => simp [Reader.list] at hi

end Reader

namespace Asset

theorem reader_yields : reader.Yields Storable := by
  refine Yields.record (.seq_any (.seq ?_ (.defaulted nullable_json_yields (by simp)))) _
  exact .seq_any (.seq_any (.seq_any (.map_any fun _ _ _ _ _ hd _ => hd)))

theorem explicitReader_yields : explicitReader.Yields Storable := by
  refine Yields.record (.seq_any (.seq ?_ (.required nullable_json_yields))) _
  exact .seq_any (.seq_any (.seq_any (.map_any fun _ _ _ _ _ hd _ => hd)))

end Asset

namespace Document

private theorem reader_yields_entries : reader.Yields fun d =>
    d.schemaVersion < UInt32.size ∧ ∀ id a, d.assets.find? id = some a → a.Storable := by
  refine Yields.record (.seq_any (.seq_any (.seq_any (.seq_any (.seq (.seq_any (.seq_any (.seq
    (.seq_any (.map_any fun _ _ => ?_)) (.defaulted (naturalBelow_yields _) (by decide)))))
    (.defaulted Asset.reader_yields.dict (by simp))))))) _
  exact fun version hv _ _ assets ha _ _ _ _ => ⟨hv, ha⟩

theorem storable_of_reader {origin : Origin} {x : Source} {d : Document}
    (h : reader origin x = .ok d) : d.Storable := by
  obtain ⟨hread, ht⟩ := reader_yields origin x d h
  obtain ⟨hs, ha⟩ := reader_yields_entries origin x d h
  exact { toReadable := hread, schema := hs, transforms := ht, assets := ha }

/-- What a document that can be stored is compiled to can be stored, too. -/
theorem Storable.scene {d : Document} (h : d.Storable) : d.scene.Storable := by
  refine ⟨h.schema, fun n hn => ?_, fun a ha => ?_, h.environment⟩
  · obtain ⟨id, -, hn⟩ := List.mem_filterMap.mp hn
    obtain ⟨e, he, rfl⟩ := Option.map_eq_some_iff.mp hn
    exact h.transforms he
  · obtain ⟨id, ha⟩ := Ascending.mem_values_iff.mp ha
    exact h.assets ha

end Document

theorem SceneNode.reader_yields : reader.Yields (·.transform.isFinite = true) := by
  refine Yields.record (.seq_any (.seq_any (.seq_any (.seq ?_
    (.required Transform.reader_yields))))) _
  exact .seq_any (.seq_any (.seq_any (.map_any fun _ _ _ _ _ ht _ _ _ => ht)))

namespace CompiledScene

theorem reader_yields : reader.Yields Storable := by
  refine Yields.record (.seq_any (.seq (.seq_any (.seq (.seq_any (.seq_any (.seq (.seq ?_
    (.required (naturalBelow_yields _))) (.required SceneNode.reader_yields.list))))
    (.required Asset.explicitReader_yields.list)))
    (.required (Environment.reader_yields _)))) _
  exact .seq_any (.map_any fun _ _ _ hs _ hn _ _ _ ha _ _ he _ => ⟨hs, hn, ha, he⟩)

end CompiledScene

/-- A document that was read is read back from its stored form, and so is a scene, whether it was
read or comes from such a document. -/
theorem stored_forms_read_back :
    (∀ origin x d, Document.reader origin x = .ok d →
      Document.reader.fromJson d.layout.toJson = .ok d ∧
        ∀ options c, d.compile options = .ok c →
          CompiledScene.reader.fromJson c.scene.layout.toJson = .ok c.scene) ∧
      ∀ origin x s, CompiledScene.reader origin x = .ok s →
        CompiledScene.reader.fromJson s.layout.toJson = .ok s := by
  refine ⟨fun origin x d hd => ?_, fun origin x s hs => ?_⟩
  · have hstorable := Document.storable_of_reader hd
    refine ⟨Document.reader_layout hstorable, fun options c hc => ?_⟩
    rw [Document.scene_of_compile hc]
    exact CompiledScene.reader_layout hstorable.scene
  · exact CompiledScene.reader_layout (CompiledScene.reader_yields origin x s hs)

namespace Document

/-- A stored scene that leaves out what has a default, but says that its sky has no color. -/
def sparseForm : Json :=
  .obj (Dict.ofList [("id", .str "scene"), ("name", .str "Scene"), ("rootEntityId", .str "root"),
    ("entities", .obj (Dict.ofList
      [("root", .obj (Dict.ofList [("id", .str "root"), ("name", .str "Root")]))])),
    ("environment", .obj (Dict.ofList [("skybox", .obj (Dict.ofList [("color", .null)]))]))])

/-- It is read as a colorless scene, and is colorless still when it is read back. -/
theorem sparseForm_read_back :
    let colorless : Skybox := { Skybox.default with color := none }
    ∃ d c, reader.fromJson sparseForm = .ok d ∧ d.environment.skybox = colorless ∧
      reader.fromJson d.layout.toJson = .ok d ∧ d.compile .default = .ok c ∧
        CompiledScene.reader.fromJson c.scene.layout.toJson = .ok c.scene := by
  intro colorless
  let d : Document := { ofIds "scene" "root" "Scene" with
    environment := { Environment.default with skybox := colorless } }
  have hd : reader .value (.ofJson sparseForm) = .ok d := by decide
  have hc := compile_default (show d.isValid = true by decide)
  obtain ⟨hback, hscene⟩ := stored_forms_read_back.1 .value _ d hd
  exact ⟨d, _, hd, rfl, hback, hc, hscene .default _ hc⟩

end Document
end SceneGraph
