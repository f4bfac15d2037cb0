import SceneGraph.Proofs.EntityChanges
import SceneGraph.Proofs.KeyframeLists
import SceneGraph.Proofs.StoredOperations

/-!
# Operation logs: what is recorded of operations and of their inverses is read back

An operation is `Recorded` if it was read, or takes back a recorded one that was accepted on a
document that was read or left by recorded ones. Every recorded operation is written to a stored
form and read back from it as it was, absent values and nulls kept apart.
-/
namespace SceneGraph

namespace Edit
open Document
variable {registry : Option Registry} {d : Document} {e : Edit} {a : Applied}

theorem apply_entriesStorable (hd : d.EntriesStorable) (he : e.Storable)
    (ha : e.apply registry d = .ok a) : a.document.EntriesStorable := by
  have hkept : ∀ {d' : Document}, d'.Descends registry d → d'.EntriesStorable := by
    refine fun h => ⟨fun id x hx => ?_, fun id asset hasset => hd.assets (h.assets hasset)⟩
    obtain ⟨y, hy, hdescends⟩ := h.entities hx
    exact hdescends.finite (hd.transforms hy)
  rcases apply_descends ha with h | ⟨n, linked, rfl, hlinked, hdocument⟩ | ⟨asset, rfl, hdocument⟩
  · exact hkept h
  · have hbefore := hkept hlinked
    rw [hdocument]
    refine ⟨fun id x hx => ?_, hbefore.assets⟩
    rw [entity?_putEntity] at hx
    split at hx
    · obtain rfl := Option.some.inj hx
      exact n.entity_finite he
    · exact hbefore.transforms hx
  · rw [hdocument]
    refine ⟨hd.transforms, fun id x hx => ?_⟩
    simp only [Dict.find?_insert] at hx
    split at hx
    · exact Option.some.inj hx ▸ he
    · exact hd.assets hx

/-- The previous values that an inverse carries are those of the document and of the edit. -/
theorem apply_inverse_storable (hd : d.EntriesStorable) (he : e.Storable)
    (ha : e.apply registry d = .ok a) : a.inverse.Storable := by
  cases e with
  | createEntity n =>
    obtain ⟨-, -, -, linked, -, rfl⟩ := applyCreate_ok_iff.mp ha
    exact fun x hx => Option.mem_some.mp hx ▸ n.entity_finite he
  | deleteEntity id old =>
    obtain ⟨x, hx, -, -, rfl⟩ := applyDelete_ok_iff.mp ha
    exact fun t ht => Option.mem_some.mp ht ▸ hd.transforms hx
  | setProperty id path value =>
    obtain ⟨d', w, -, rfl⟩ := applySetProperty_ok_iff.mp ha
    trivial
  | addChild p c index =>
    obtain ⟨ep, ec, -, -, -, -, -, rfl⟩ := applyAddChild_ok_iff.mp ha
    trivial
  | removeChild p c =>
    obtain ⟨ep, ec, i, -, -, -, -, rfl⟩ := applyRemoveChild_ok_iff.mp ha
    trivial
  | reparent id p index =>
    obtain ⟨q, i, i', -, rfl⟩ := reparent_outcome ha
    trivial
  | addComponent id c index =>
    obtain ⟨e, -, -, -, rfl⟩ := applyAddComponent_ok_iff.mp ha
    trivial
  | removeComponent id t index =>
    obtain ⟨e, place, c, -, -, -, -, rfl⟩ := applyRemoveComponent_ok_iff.mp ha
    trivial
  | setComponentProperty id t path value =>
    obtain ⟨e, c, c', w, -, -, -, rfl⟩ := applySetComponentProperty_ok_iff.mp ha
    trivial
  | addAsset asset =>
    obtain ⟨-, -, rfl⟩ := applyAddAsset_ok_iff.mp ha
    exact fun x hx => Option.mem_some.mp hx ▸ he
  | removeAsset id =>
    obtain ⟨asset, hasset, rfl⟩ := applyRemoveAsset_ok_iff.mp ha
    exact hd.assets hasset
  | replaceAssetRef id t path old new =>
    obtain ⟨steps, e, c, current, -, -, -, -, -, -, rfl⟩ := applyReplaceAssetRef_ok_iff.mp ha
    trivial
  | addKeyframe id track keyframe index =>
    obtain ⟨e, e', i, -, hk, rfl⟩ := applyAddKeyframe_ok_iff.mp ha
    obtain ⟨time, htime, -⟩ := bind_ok_iff.mp hk
    obtain ⟨ht, hf, -, -⟩ := KeyframeTrack.admitted_ok_iff.mp htime
    refine ⟨by simpa [ht] using hf, fun k hk => ?_⟩
    rintro rfl
    cases hk
    simp [Keyframe.timeOf?, Json.member?] at ht
  | removeKeyframe id track time =>
    obtain ⟨e, e', i, k, -, -, rfl⟩ := applyRemoveKeyframe_ok_iff.mp ha
    trivial
  | setKeyframeValue id track time value =>
    obtain ⟨e, e', previous, -, -, rfl⟩ := applySetKeyframeValue_ok_iff.mp ha
    exact he

theorem closed_storable :
    Closed EntriesStorable (·.version = currentOpVersion) Storable where
  document _ _ _ _ hd he ha := apply_entriesStorable hd he ha
  envelope _ _ := rfl
  inverse _ _ _ _ hd he ha := by
    refine List.forall_mem_cons.mpr ⟨apply_inverse_storable hd he ha, fun e' he' => ?_⟩
    rcases sequel_cases ha with h | ⟨-, -, h⟩
    · simp [h] at he'
    · obtain ⟨id, c, index, rfl⟩ := h e' he'
      trivial

end Edit

mutual
/-- The documents that are read, or that recorded operations leave, accepted or rejected. -/
inductive Document.Reached : Document → Prop
  | read {origin : Origin} {x : Source} {d : Document} (h : Document.reader origin x = .ok d) :
    Document.Reached d
  | apply {registry : Option Registry} {stamps : Stamps} {d : Document} {op : Op}
    (hd : Document.Reached d) (ho : Op.Recorded op) :
    Document.Reached (d.apply registry stamps op).document
  | applyAll {registry : Option Registry} {stamps : Stamps} {d : Document} {ops : List Op}
    (hd : Document.Reached d) (ho : ∀ op ∈ ops, Op.Recorded op) :
    Document.Reached (d.applyAll registry stamps ops).document

/-- The operations that are read with any table of upgrades, and those that take recorded ones
back. -/
inductive Op.Recorded : Op → Prop
  | read {m : Migrations} {limit : Nat} {w : OpWire} {op : Op} (h : Op.ofWire m limit w = .ok op) :
    Op.Recorded op
  | inverse {registry : Option Registry} {stamps : Stamps} {d : Document} {op inverse : Op}
    (hd : Document.Reached d) (ho : Op.Recorded op)
    (h : (d.apply registry stamps op).result = .ok inverse) : Op.Recorded inverse
  | inverses {registry : Option Registry} {stamps : Stamps} {d : Document} {ops inverses : List Op}
    {inverse : Op} (hd : Document.Reached d) (ho : ∀ op ∈ ops, Op.Recorded op)
    (h : (d.applyAll registry stamps ops).result = .ok inverses) (hi : inverse ∈ inverses) :
    Op.Recorded inverse
end

mutual
theorem Document.Reached.entriesStorable : {d : Document} → d.Reached → d.EntriesStorable
  | _, .read h => (Document.storable_of_reader h).toEntriesStorable
  | _, .apply hd ho => (Edit.closed_storable.apply hd.entriesStorable ho.storable _).1
  | _, .applyAll hd ho =>
    (Edit.closed_storable.applyAll hd.entriesStorable (fun op hop => (ho op hop).storable) _).1

theorem Op.Recorded.storable : {op : Op} → op.Recorded → op.Storable
  | _, .read h => Op.storable_ofWire h
  | _, .inverse hd ho h =>
    (Edit.closed_storable.apply hd.entriesStorable ho.storable _).2 _ h
  | _, .inverses hd ho h hi =>
    (Edit.closed_storable.applyAll hd.entriesStorable (fun op hop => (ho op hop).storable) _).2 _ h
      _ hi
end

namespace Op

/-- Whatever is recorded is written to a stored form, and is read back from that as it was, where
batches may be nested as deep as in it. -/
theorem recorded_read_back {op : Op} (h : op.Recorded) :
    ∃ w, OpWire.ofOp op = .ok w ∧ ofCurrentWire w = .ok op ∧
      ∀ limit, op.nesting ≤ limit → ofWire .builtin limit w = .ok op :=
  ⟨op.stored, ofOp_stored h.storable, ofCurrentWire_stored h.storable,
    fun limit hl => ofWire_stored op h.storable limit hl⟩

/-- Of version 0, only the document itself had properties. -/
def writeUpgrade : Migrations :=
  Migrations.builtin.register "SetProperty" 0 fun payload => match payload with
    | .obj fields => .ok (.obj (Dict.insert fields "entityId" (.str documentTarget)))
    | _ => .error "no object"

/-- Null is written to a key of the metadata, in the form of version 0. -/
def oldNullWrite : OpWire where
  id := "write"
  timestamp := 2
  origin := .user
  version := some 0
  opType := "SetProperty"
  payload := .obj (Dict.ofList [("path", .str "metadata.note"), ("value", .null)])

/-- A batch of the current version with that write as its only member. -/
def oldNullBatch : OpWire where
  id := "batch"
  timestamp := 1
  origin := .ai
  version := none
  opType := batchType
  payload := .obj (Dict.ofList [("ops", .arr [oldNullWrite.layout.toJson])])

theorem ofWire_oldNullBatch : ofWire writeUpgrade 1 oldNullBatch =
    .ok (batch ⟨"batch", 1, .ai, currentOpVersion⟩ [edit ⟨"write", 2, .user, currentOpVersion⟩
      (.setProperty documentTarget "metadata.note" (some .null) none)]) := by
  have hwire : OpWire.reader.fromJson oldNullWrite.layout.toJson = .ok oldNullWrite := by decide
  have hwrite : ofMember writeUpgrade 0 oldNullWrite.layout.toJson =
      .ok (edit ⟨"write", 2, .user, currentOpVersion⟩
        (.setProperty documentTarget "metadata.note" (some .null) none)) := by
    rw [ofMember, hwire]
    exact ofWire_edit rfl (by decide) rfl (by decide)
  exact ofWire_batch rfl rfl rfl (by simp only [List.mapM_cons, hwrite]; rfl)

/-- What takes it back removes the key, and remembers that it was null. -/
theorem oldNullBatch_inverse_read_back :
    let envelope : Envelope := ⟨"stamp", 0, .ai, currentOpVersion⟩
    let inverse := batch envelope [edit { envelope with origin := .user }
      (.setProperty documentTarget "metadata.note" none (some .null))]
    ∃ d op w, Document.reader.fromJson Document.sparseForm = .ok d ∧
      ofWire writeUpgrade 1 oldNullBatch = .ok op ∧
      (d.apply none .plain op).result = .ok inverse ∧
      OpWire.ofOp inverse = .ok w ∧ ofCurrentWire w = .ok inverse := by
  intro envelope inverse
  let d : Document := { Document.ofIds "scene" "root" "Scene" with
    environment := { Environment.default with
      skybox := { Skybox.default with color := none } } }
  let e : Edit := .setProperty documentTarget "metadata.note" (some .null) none
  let write := edit ⟨"write", 2, .user, currentOpVersion⟩ e
  have hd : Document.reader .value (.ofJson Document.sparseForm) = .ok d := by decide
  have happly : e.apply none d = .ok ⟨{ d with metadata := Dict.insert .nil "note" .null },
      .setProperty documentTarget "metadata.note" none (some .null), []⟩ := by
    refine Edit.applySetProperty_ok_iff.mpr ⟨_, ⟨⟨["metadata", "note"], none⟩, some .null⟩,
      Document.writeProperty_ok_iff.mpr (.inl ⟨rfl, ?_⟩), rfl⟩
    exact bind_ok_iff.mpr ⟨["metadata", "note"], by decide, by decide⟩
  have hinverse : (d.apply none .plain
      (batch ⟨"batch", 1, .ai, currentOpVersion⟩ [write])).result = .ok inverse := by
    simp only [Document.apply, Engine.applyUndoing, Engine.applyFrom, write, happly]
    rfl
  obtain ⟨w, hw, hback, -⟩ := recorded_read_back
    (.inverse (.read hd) (.read ofWire_oldNullBatch) hinverse)
  exact ⟨d, _, w, hd, ofWire_oldNullBatch, hinverse, hw, hback⟩

end Op
end SceneGraph
