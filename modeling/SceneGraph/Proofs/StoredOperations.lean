import SceneGraph.Proofs.DeferredReading
import SceneGraph.Proofs.EngineRuns
import SceneGraph.Proofs.StoredDocuments

/-!
# Stored operations: operations are read back from what is written of them

The stored form of an operation holds the stored forms of its members. An operation of the current
version is read back from it wherever batches may be nested as deep as in it, and whatever is read
can be stored again.
-/
namespace SceneGraph
open Shape Reader

namespace NewEntity

/-- The fields of a new entity that its payload leaves out when they are empty. -/
private theorem tags_restored {tags : TextSet} {fields : List (String × Layout)}
    (h : Layout.field? "tags" fields =
      if tags.toList.isEmpty then none else some (Layout.strings tags.keys).toJson) :
    (Shape.defaulted "tags" .textSet .nil).Restores fields tags := by
  refine .field (fun j hj => ?_) (fun hn => ?_)
  · rw [h] at hj
    split at hj
    · contradiction
    · exact Option.some.inj hj ▸ textSet_fromJson tags
  · rw [h] at hn
    split at hn
    · rename_i hempty
      cases tags with
      | nil => rfl
      | cons => contradiction
    · contradiction

end NewEntity

namespace Edit

/-- What the edit carries is read back from what is written of it. -/
def Storable : Edit → Prop
  | createEntity n => ∀ t ∈ n.transform, t.isFinite = true
  | deleteEntity _ previous => ∀ e ∈ previous, e.transform.isFinite = true
  | addAsset a => a.Storable
  | removeAsset _ previous => ∀ a ∈ previous, a.Storable
  | removeKeyframe _ _ time previous => time.isFinite = true ∧ ∀ k ∈ previous, k ≠ .null
  | setKeyframeValue _ _ time _ _ => time.isFinite = true
  | _ => True

private theorem ofPayload_of_restores {opType : String} {shape : Shape Edit}
    {fields : List (String × Layout)} {e : Edit} (hl : shapes.lookup opType = some shape)
    (h : shape.Restores fields e) : ofPayload opType (Layout.record fields).toJson = .ok e := by
  have hs : shape.Steady := by
    obtain ⟨front, back, he, -⟩ := List.lookup_eq_some_iff.mp hl
    exact shapes_steady (opType, shape) (by simp [he])
  have hv : shape.object ignored .value (.ofJson (Layout.record fields).toJson) = .ok e :=
    h.ignored
  simp only [ofPayload, hl, hs.object _ _ _ hv]
  rfl

theorem ofPayload_fields {e : Edit} (h : e.Storable) :
    ofPayload e.typeName (Layout.record e.fields).toJson = .ok e := by
  cases e with
  | createEntity n =>
    obtain ⟨id, name, parent, index, transform, tags, visible, locked, tuning⟩ := n
    refine ofPayload_of_restores rfl (Restores.map (.text ?_) _
      |>.seq (.text ?_)
      |>.seq (.defaulted ?_ (nullable_layout fun s _ => string_regains s))
      |>.seq (.optional ?_ fun i _ => natural_regains i)
      |>.seq (.optional ?_ fun t ht => Transform.reader_regains (h t ht))
      |>.seq (NewEntity.tags_restored ?_)
      |>.seq (.optional ?_ fun b _ => bool_regains b)
      |>.seq (.optional ?_ fun b _ => bool_regains b)
      |>.seq (.optional ?_ fun t _ => t.reader_regains)
      |>.map _)
    all_goals cases htags : tags.toList.isEmpty <;> simp [fields, htags]
  | deleteEntity id previous =>
    refine ofPayload_of_restores rfl (Restores.map (.text ?_) _
      |>.seq (.optional ?_ fun e he => Entity.reader_regains (h e he)))
    all_goals simp [fields]
  | setProperty id path value previous =>
    refine ofPayload_of_restores rfl (Restores.map (.text ?_) _
      |>.seq (.text ?_)
      |>.seq (.present ?_)
      |>.seq (.present ?_))
    all_goals simp [fields]
  | addChild parent child index =>
    refine ofPayload_of_restores rfl (Restores.map (.text ?_) _
      |>.seq (.text ?_) |>.seq (.optional ?_ fun i _ => natural_regains i))
    all_goals simp [fields]
  | removeChild parent child =>
    refine ofPayload_of_restores rfl (Restores.map (.text ?_) _
      |>.seq (.text ?_))
    all_goals simp [fields]
  | reparent id newParent newIndex oldParent oldIndex =>
    refine ofPayload_of_restores rfl (Restores.map (.text ?_) _
      |>.seq (.text ?_)
      |>.seq (.optional ?_ fun i _ => natural_regains i)
      |>.seq (.optional ?_ fun s _ => string_regains s)
      |>.seq (.optional ?_ fun i _ => natural_regains i))
    all_goals simp [fields]
  | addComponent id c index =>
    refine ofPayload_of_restores rfl (Restores.map (.text ?_) _
      |>.seq (.required ?_ c.reader_layout)
      |>.seq (.optional ?_ fun i _ => natural_regains i))
    all_goals simp [fields]
  | removeComponent id componentType index previous =>
    refine ofPayload_of_restores rfl (Restores.map (.text ?_) _
      |>.seq (.text ?_)
      |>.seq (.optional ?_ fun i _ => natural_regains i)
      |>.seq (.optional ?_ fun c _ => c.reader_regains))
    all_goals simp [fields]
  | setComponentProperty id componentType path value previous =>
    refine ofPayload_of_restores rfl (Restores.map (.text ?_) _
      |>.seq (.text ?_)
      |>.seq (.text ?_)
      |>.seq (.present ?_)
      |>.seq (.present ?_))
    all_goals simp [fields]
  | addAsset asset =>
    refine ofPayload_of_restores rfl (Restores.map (.required ?_ (Asset.reader_layout h)) _)
    simp [fields]
  | removeAsset id previous =>
    refine ofPayload_of_restores rfl (Restores.map (.text ?_) _
      |>.seq (.optional ?_ fun a ha => Asset.reader_regains (h a ha)))
    all_goals simp [fields]
  | replaceAssetRef id componentType path old new =>
    refine ofPayload_of_restores rfl (Restores.map (.text ?_) _
      |>.seq (.text ?_)
      |>.seq (.text ?_)
      |>.seq (.text ?_)
      |>.seq (.text ?_))
    all_goals simp [fields]
  | addKeyframe id track keyframe index =>
    refine ofPayload_of_restores rfl (Restores.map (.text ?_) _
      |>.seq (.text ?_)
      |>.seq (.required ?_ (json_layout _))
      |>.seq (.optional ?_ fun i _ => natural_regains i))
    all_goals simp [fields]
  | removeKeyframe id track time previous =>
    refine ofPayload_of_restores rfl (Restores.map (.text ?_) _
      |>.seq (.text ?_)
      |>.seq (.required ?_ (real_layout h.1))
      |>.seq (.optional ?_ fun k hk => json_regains (h.2 k hk)))
    all_goals simp [fields]
  | setKeyframeValue id track time value previous =>
    refine ofPayload_of_restores rfl (Restores.map (.text ?_) _
      |>.seq (.text ?_)
      |>.seq (.required ?_ (real_layout h))
      |>.seq (.required ?_ (json_layout _))
      |>.seq (.present ?_))
    all_goals simp [fields]

theorem typeName_known (e : Edit) : Op.typeNames.contains e.typeName = true := by
  cases e <;> rfl

theorem typeName_ne_batch (e : Edit) : e.typeName ≠ Op.batchType := by
  cases e <;> simp [typeName, Op.batchType]

end Edit

theorem Json.depth_le_of_find? {low : Option String} {members : Ascending Json low} {key : String}
    {j : Json} (h : members.find? key = some j) : j.depth ≤ depthMembers members := by
  induction members with
  | nil => contradiction
  | cons k above v rest ih =>
    rw [Ascending.find?_cons] at h
    rw [depthMembers]
    split at h
    · exact Option.some.inj h ▸ Nat.le_max_left _ _
    · exact (ih h).trans (Nat.le_max_right _ _)

theorem Layout.depth_lt_record {fields : List (String × Layout)} (name : String) {j : Json}
    (h : field? name fields = some j) : j.depth < (record fields).toJson.depth :=
  Nat.lt_succ_of_le (Json.depth_le_of_find? ((find?_toJsonFields fields name).trans h))

theorem Author.reader_layout (a : Author) : reader.fromJson (Layout.str a.name).toJson = .ok a := by
  cases a <;> rfl

/-- A stored operation is read back from what is written of it. -/
theorem OpWire.reader_layout {w : OpWire} (h : ∀ v ∈ w.version, v < UInt32.size) :
    reader.fromJson w.layout.toJson = .ok w := by
  refine Restores.ignored (Restores.map (.text ?_) _
    |>.seq (.required ?_ (natural_layout _))
    |>.seq (.defaulted ?_ (Author.reader_layout _))
    |>.seq (.optional ?_ fun v hv => naturalBelow_regains (h v hv))
    |>.seq (.text ?_)
    |>.seq (.defaulted ?_ (json_layout _)))
  all_goals simp [Layout.toJson]

namespace Op

/-- What is written as the payload. -/
def payload : Op → Layout
  | .edit _ e => .record e.fields
  | .batch _ ops => .record [("ops", .list (layouts ops))]

theorem layout_eq (op : Op) : op.layout = wrap op.envelope op.typeName op.payload := by
  cases op <;> simp [layout, envelope, typeName, payload]

/-- The stored form of an operation. -/
def stored (op : Op) : OpWire where
  id := op.envelope.id
  timestamp := op.envelope.timestamp
  origin := op.envelope.origin
  version := some op.envelope.version
  opType := op.typeName
  payload := op.payload.toJson

/-- The operation is of the current version throughout, and its edits are read back from what is
written of them. -/
def Storable : Op → Prop := All (·.version = currentOpVersion) Edit.Storable

theorem Storable.version {op : Op} (h : op.Storable) : op.envelope.version = currentOpVersion := by
  cases op with
  | edit envelope e => exact h.1
  | batch envelope ops => exact h.1

theorem Storable.envelope_stored {op : Op} (h : op.Storable) :
    op.stored.envelope = op.envelope := by
  rw [OpWire.envelope, ← h.version]
  rfl

theorem Storable.upgrade_stored {op : Op} (h : op.Storable) :
    Migrations.builtin.upgrade op.typeName op.stored.versionOrCurrent op.payload.toJson =
      .ok op.payload.toJson := by
  have hversion : op.stored.versionOrCurrent = currentOpVersion := h.version
  rw [hversion]
  rfl

theorem layout_stored (op : Op) : op.stored.layout.toJson = op.layout.toJson := by
  rw [layout_eq]
  rfl

theorem reader_layout {op : Op} (h : op.Storable) :
    OpWire.reader.fromJson op.layout.toJson = .ok op.stored := by
  rw [← layout_stored]
  refine OpWire.reader_layout fun v hv => ?_
  rw [← Option.mem_some.mp hv, h.version]
  decide

mutual
/-- The payload tells how deep batches are nested. -/
theorem nesting_le_depth : (op : Op) → op.nesting ≤ op.payload.toJson.depth
  | .edit _ _ => Nat.zero_le _
  | .batch envelope ops => by
    have hops := nestingOf_le_depth ops
    have hlist : (Layout.list (layouts ops)).toJson.depth <
        (batch envelope ops).payload.toJson.depth :=
      Layout.depth_lt_record "ops" (by simp)
    rw [Layout.toJson, Json.depth] at hlist
    rw [nesting]
    omega

theorem nestingOf_le_depth : (ops : List Op) →
    nestingOf ops ≤ Json.depthItems (Layout.toJsonItems (layouts ops))
  | [] => Nat.zero_le _
  | op :: ops => by
    have hop := nesting_le_depth op
    have hpayload : op.payload.toJson.depth < op.layout.toJson.depth := by
      rw [layout_eq]
      exact Layout.depth_lt_record "payload" (by simp)
    have hops := nestingOf_le_depth ops
    simp only [nestingOf, layouts, Layout.toJsonItems, Json.depthItems]
    omega
end

theorem ofWire_edit {m : Migrations} {limit : Nat} {w : OpWire} {payload : Json} {e : Edit}
    (hk : typeNames.contains w.opType = true) (hb : w.opType ≠ batchType)
    (hu : m.upgrade w.opType w.versionOrCurrent w.payload = .ok payload)
    (he : Edit.ofPayload w.opType payload = .ok e) :
    ofWire m limit w = .ok (.edit w.envelope e) := by
  exact ofWire_ok_iff.mpr ⟨hk, payload, hu, .inl ⟨hb, e, he, rfl⟩⟩

theorem ofWire_batch {m : Migrations} {limit : Nat} {w : OpWire} {payload : Json}
    {subs : List Json} {ops : List Op} (hb : w.opType = batchType)
    (hu : m.upgrade w.opType w.versionOrCurrent w.payload = .ok payload)
    (hm : members payload = .ok subs) (ho : subs.mapM (ofMember m limit) = .ok ops) :
    ofWire m (limit + 1) w = .ok (.batch w.envelope ops) := by
  have hk : typeNames.contains w.opType = true := hb ▸ rfl
  exact ofWire_ok_iff.mpr ⟨hk, payload, hu, .inr ⟨hb, limit, subs, ops, rfl, hm, ho, rfl⟩⟩

mutual
/-- A stored operation is read back wherever batches may be nested as deep as in it. -/
theorem ofWire_stored : (op : Op) → op.Storable → (limit : Nat) → op.nesting ≤ limit →
    ofWire .builtin limit op.stored = .ok op
  | .edit envelope e, h, limit, _ => by
    rw [ofWire_edit e.typeName_known e.typeName_ne_batch h.upgrade_stored
      (Edit.ofPayload_fields h.2), h.envelope_stored]
    rfl
  | .batch _ _, _, 0, hl => absurd hl (Nat.not_succ_le_zero _)
  | .batch envelope ops, h, limit + 1, hl => by
    have hops := mapM_ofMember ops h.2 limit (Nat.le_of_succ_le_succ hl)
    rw [ofWire_batch rfl h.upgrade_stored rfl hops, h.envelope_stored]
    rfl

theorem mapM_ofMember : (ops : List Op) → AllOf (·.version = currentOpVersion) Edit.Storable ops →
    (limit : Nat) → nestingOf ops ≤ limit →
    (Layout.toJsonItems (layouts ops)).mapM (ofMember .builtin limit) = .ok ops
  | [] => fun _ _ _ => rfl
  | op :: ops => fun h limit hl => by
    obtain ⟨hop, hops⟩ := Nat.max_le.mp hl
    have hfirst : ofMember .builtin limit op.layout.toJson = .ok op := by
      rw [ofMember, reader_layout h.1]
      exact ofWire_stored op h.1 limit hop
    have hrest := mapM_ofMember ops h.2 limit hops
    simp only [layouts, Layout.toJsonItems, List.mapM_cons, hfirst, hrest]
    rfl
end

variable {op : Op}

theorem ofOp_stored (h : op.Storable) : OpWire.ofOp op = .ok op.stored :=
  mapError_ok_iff.mpr (reader_layout h)

theorem ofCurrentWire_stored (h : op.Storable) : ofCurrentWire op.stored = .ok op :=
  ofWire_stored op h _ (op.nesting_le_depth.trans (Nat.le_succ _))

end Op

namespace Edit

private theorem shapes_yield_storable : ∀ entry ∈ shapes, entry.2.Yields Storable := by
  simp only [shapes, List.forall_mem_cons]
  refine ⟨createShape_yields fun n hn => hn, ?_⟩
  exact ⟨.seq (.map_any fun _ _ he => he) (.defaulted Entity.reader_yields.nullable (by simp)),
    .seq_any (.seq_any (.seq_any (.map_any fun _ _ _ _ => ⟨⟩))),
    .seq_any (.seq_any (.map_any fun _ _ _ => ⟨⟩)), .seq_any (.map_any fun _ _ => ⟨⟩),
    .seq_any (.seq_any (.seq_any (.seq_any (.map_any fun _ _ _ _ _ => ⟨⟩)))),
    .seq_any (.seq_any (.map_any fun _ _ _ => ⟨⟩)),
    .seq_any (.seq_any (.seq_any (.map_any fun _ _ _ _ => ⟨⟩))),
    .seq_any (.seq_any (.seq_any (.seq_any (.map_any fun _ _ _ _ _ => ⟨⟩)))),
    .map (.required Asset.reader_yields) fun _ ha => ha,
    .seq (.map_any fun _ _ ha => ha) (.defaulted Asset.reader_yields.nullable (by simp)),
    .seq_any (.seq_any (.seq_any (.seq_any (.map_any fun _ _ _ _ _ => ⟨⟩)))),
    .seq_any (.seq_any (.seq_any (.map_any fun _ _ _ _ => ⟨⟩))),
    .seq (.seq (.seq_any (.map_any fun _ _ _ ht _ hk => ⟨ht, hk⟩)) (.required real_yields))
      (.defaulted nullable_json_yields (by simp)),
    .seq_any (.seq_any (.seq (.seq_any (.map_any fun _ _ _ ht _ _ => ht)) (.required real_yields))),
    List.forall_mem_nil _⟩

theorem storable_ofPayload {opType : String} {payload : Json} {e : Edit}
    (h : ofPayload opType payload = .ok e) : e.Storable :=
  @ofPayload_yields (fun _ => Storable) shapes_yield_storable _ _ _ h

end Edit

/-- Whatever table brings old payloads up to date, the operation that is read can be stored. -/
theorem Op.storable_ofWire {m : Migrations} {limit : Nat} {w : OpWire} {op : Op}
    (h : ofWire m limit w = .ok op) : op.Storable :=
  ofWire_induction (fun _ _ _ he => ⟨rfl, Edit.storable_ofPayload he⟩)
    (fun _ _ hops => ⟨rfl, allOf_iff.mpr hops⟩) h

end SceneGraph
