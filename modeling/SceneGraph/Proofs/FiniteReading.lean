import SceneGraph.OperationWires
import SceneGraph.Proofs.ValueReading

/-!
# Finite reading: no reader yields a number without a JSON form

A reader `Yields` a property when whatever it reads has it. Readers yield numbers that have a JSON
form, and so vectors, transforms, environments and edits do (`Finite`). Reading an operation comes
down to reading its edits (`Op.ofWire_induction`), and so all of these are finite.
-/
namespace SceneGraph

/-- Whatever is read, from whatever source, is as stated. -/
def Reader.Yields {α : Type} (read : Reader α) (p : α → Prop) : Prop :=
  ∀ origin x a, read origin x = .ok a → p a

theorem Reader.real_yields : Reader.real.Yields (·.isFinite = true) := by
  intro origin x a h
  cases x with
  | num n =>
    simp only [real] at h
    split at h
    · rename_i hf
      exact Except.ok.inj h ▸ hf
    · contradiction
  | _ => simp [real] at h

theorem Reader.Yields.nullable {α : Type} {read : Reader α} {p : α → Prop} (h : read.Yields p) :
    (Reader.nullable read).Yields (∀ a ∈ ·, p a) := by
  intro origin x b hb
  cases x with
  | null =>
    obtain rfl : none = b := Except.ok.inj hb
    exact nofun
  | _ =>
    obtain ⟨a, ha, rfl⟩ := map_ok_iff.mp hb
    exact fun a' ha' => Option.mem_some.mp ha' ▸ h _ _ a ha

namespace Shape
variable {α β : Type} {p : α → Prop} {q : β → Prop}

/-- Whatever is built, by name or by position, is as stated. -/
def Yields (s : Shape α) (p : α → Prop) : Prop :=
  (∀ origin find a, s.build origin find = .ok a → p a) ∧
    ∀ origin items closed a rest, s.positional origin items closed = .ok (a, rest) → p a

theorem Yields.map {s : Shape α} (h : s.Yields p) {f : α → β} (hf : ∀ a, p a → q (f a)) :
    (f <$> s).Yields q := by
  refine ⟨fun origin find b hb => ?_, fun origin items closed b rest hb => ?_⟩
  · obtain ⟨a, ha, rfl⟩ := map_ok_iff.mp hb
    exact hf a (h.1 _ _ a ha)
  · obtain ⟨⟨a, rest⟩, ha, he⟩ := map_ok_iff.mp hb
    cases he
    exact hf a (h.2 _ _ _ a rest ha)

theorem Yields.seq {f : Shape (α → β)} {s : Shape α} (hf : f.Yields fun g => ∀ a, p a → q (g a))
    (hs : s.Yields p) : (f <*> s).Yields q := by
  refine ⟨fun origin find b hb => ?_, fun origin items closed b rest hb => ?_⟩
  · obtain ⟨g, hg, hb⟩ := bind_ok_iff.mp hb
    obtain ⟨a, ha, hb⟩ := bind_ok_iff.mp hb
    cases hb
    exact hf.1 _ _ g hg a (hs.1 _ _ a ha)
  · obtain ⟨⟨g, items'⟩, hg, hb⟩ := bind_ok_iff.mp hb
    obtain ⟨⟨a, rest⟩, ha, hb⟩ := bind_ok_iff.mp hb
    cases hb
    exact hf.2 _ _ _ g items' hg a (hs.2 _ _ _ a rest ha)

theorem Yields.field {name : String} {read : Reader α} {absent short : Except Fault α}
    (h : read.Yields p) (ha : ∀ a, absent = .ok a → p a) (hs : ∀ a, short = .ok a → p a) :
    (field name read absent short).Yields p := by
  refine ⟨fun origin find a hb => ?_, fun origin items closed a rest hb => ?_⟩
  · simp only [Shape.field] at hb
    split at hb
    · exact h _ _ a hb
    · exact ha a hb
  · simp only [Shape.field] at hb
    split at hb
    · obtain ⟨a', ha', he⟩ := map_ok_iff.mp hb
      cases he
      exact h _ _ a ha'
    · split at hb
      · obtain ⟨a', ha', he⟩ := map_ok_iff.mp hb
        cases he
        exact hs a ha'
      · contradiction

theorem Yields.required {name : String} {read : Reader α} (h : read.Yields p) :
    (required name read).Yields p :=
  .field h nofun nofun

theorem Yields.defaulted {name : String} {read : Reader α} {default : α} (h : read.Yields p)
    (hd : p default) : (defaulted name read default).Yields p :=
  .field h (fun _ ha => Except.ok.inj ha ▸ hd) (fun _ ha => Except.ok.inj ha ▸ hd)

theorem Yields.trivial (s : Shape α) : s.Yields fun _ => True :=
  ⟨fun _ _ _ _ => ⟨⟩, fun _ _ _ _ _ _ => ⟨⟩⟩

theorem Yields.map_any {s : Shape α} {f : α → β} (h : ∀ a, q (f a)) : (f <$> s).Yields q :=
  (trivial s).map fun a _ => h a

theorem Yields.seq_any {f : Shape (α → β)} {s : Shape α} (h : f.Yields fun g => ∀ a, q (g a)) :
    (f <*> s).Yields q :=
  .seq ⟨fun _ _ g hg a _ => h.1 _ _ g hg a, fun _ _ _ g _ hg a _ => h.2 _ _ _ g _ hg a⟩ (trivial s)

theorem Yields.readMembers {s : Shape α} (h : s.Yields p) {others : Others} {origin : Origin}
    {members : List (String × Source)} {closed : Bool} {a : α}
    (ha : s.readMembers others origin members closed = .ok a) : p a := by
  simp only [Shape.readMembers, then_ok_iff] at ha
  exact h.1 _ _ a ha.2.2

theorem Yields.object {s : Shape α} (h : s.Yields p) (others : Others) :
    (s.object others).Yields p := by
  intro origin x a ha
  cases x with
  | obj members closed => exact h.readMembers ha
  | _ => simp [Shape.object] at ha

theorem Yields.record {s : Shape α} (h : s.Yields p) (others : Others) :
    (s.record others).Yields p := by
  intro origin x a ha
  cases x with
  | arr items closed =>
    obtain ⟨⟨b, rest⟩, hb, ha⟩ := bind_ok_iff.mp (show s.readItems origin items closed = _ from ha)
    cases rest with
    | nil =>
      simp only [List.isEmpty_nil, Bool.not_true, Bool.false_eq_true, if_false, then_ok_iff,
        pure_ok_iff] at ha
      exact h.2 _ _ _ a [] (ha.2 ▸ hb)
    | cons => contradiction
  | _ =>
    simp only [Shape.record] at ha
    exact h.object others _ _ a ha

end Shape

open Shape Reader

theorem Vec3.reader_yields : Vec3.reader.Yields (·.isFinite = true) := by
  refine Yields.record (.seq (.seq (.map (.required real_yields) fun x hx => ?_)
    (.required real_yields)) (.required real_yields)) _
  intro y hy z hz
  simp only [isFinite, hx, hy, hz, Bool.and_self]

theorem Quat.reader_yields : Quat.reader.Yields (·.isFinite = true) := by
  refine Yields.record (.seq (.seq (.seq (.map (.required real_yields) fun x hx => ?_)
    (.required real_yields)) (.required real_yields)) (.required real_yields)) _
  intro y hy z hz w hw
  simp only [isFinite, hx, hy, hz, hw, Bool.and_self]

theorem Transform.reader_yields : Transform.reader.Yields (·.isFinite = true) := by
  refine Yields.record (.seq (.seq (.map (.required Vec3.reader_yields) fun p hp => ?_)
    (.required Quat.reader_yields)) (.required Vec3.reader_yields)) _
  intro r hr s hs
  simp only [isFinite, hp, hr, hs, Bool.and_self]

theorem Completeness.yields {α : Type} {p : α → Prop} {c : Completeness} {name : String}
    {read : Reader α} {default : α} (h : read.Yields p) (hd : p default) :
    (c.field name read default).Yields p := by
  cases c with
  | lenient => exact .defaulted h hd
  | strict => exact .required h

namespace Environment

theorem fog_yields (c : Completeness) : (Fog.reader c).Yields fun f =>
    f.near.isFinite = true ∧ f.far.isFinite = true ∧ f.density.isFinite = true := by
  refine Yields.record (.seq (.seq (.seq (.seq (.seq (.map (.trivial _) fun _ _ => ?_) (.trivial _))
    (.trivial _)) (Completeness.yields real_yields (by decide)))
    (Completeness.yields real_yields (by decide))) (Completeness.yields real_yields (by decide))) _
  exact fun _ _ _ _ n hn f hf d hd => ⟨hn, hf, hd⟩

theorem light_yields (c : Completeness) :
    (AmbientLight.reader c).Yields (·.intensity.isFinite = true) := by
  refine Yields.record (.seq (.map (.trivial _) fun _ _ => ?_)
    (Completeness.yields real_yields (by decide))) _
  exact fun i hi => hi

theorem reader_yields (c : Completeness) : (reader c).Yields (·.isFinite = true) := by
  refine Yields.record (.seq (.seq (.seq (.map (.trivial _) fun s _ => ?_)
    (Completeness.yields (fog_yields c) (by decide)))
    (Completeness.yields (light_yields c) (by decide)))
    (Completeness.yields Vec3.reader_yields (by decide))) _
  rintro f ⟨hn, hf, hd⟩ l hl g hg
  simp only [isFinite, hn, hf, hd, hl, hg, Bool.and_self]

end Environment

/-- The numbers that an edit brings into a document have a JSON form. -/
def Edit.Finite : Edit → Prop
  | createEntity n => ∀ t ∈ n.transform, t.isFinite = true
  | _ => True

instance (e : Edit) : Decidable e.Finite :=
  match e with
  | .createEntity n => inferInstanceAs (Decidable (∀ t ∈ n.transform, t.isFinite = true))
  | .deleteEntity .. | .setProperty .. | .addChild .. | .removeChild .. | .reparent ..
  | .addComponent .. | .removeComponent .. | .setComponentProperty .. | .addAsset ..
  | .removeAsset .. | .replaceAssetRef .. | .addKeyframe .. | .removeKeyframe ..
  | .setKeyframeValue .. => isTrue trivial

def Op.Finite (op : Op) : Prop := ∀ e ∈ op.edits, e.2.Finite

instance (op : Op) : Decidable op.Finite :=
  inferInstanceAs (Decidable (∀ e ∈ op.edits, e.2.Finite))

namespace Edit

/-- Of a creation, the transform is the part with numbers in it. -/
theorem createShape_yields {q : Edit → Prop}
    (hq : ∀ n : NewEntity, (∀ t ∈ n.transform, t.isFinite = true) → q (createEntity n))
    {name : Shape String} {parent : Shape (Option String)} {tags : Shape TextSet}
    {visible locked : Shape (Option Bool)} {tuning : Shape (Option Tuning)} :
    (createEntity <$> (NewEntity.mk <$> entityId <*> name <*> parent <*> index <*>
      .optional "transform" Transform.reader <*> tags <*> visible <*> locked <*> tuning)).Yields
        q := by
  refine .map (show Shape.Yields _ fun n : NewEntity =>
    ∀ t ∈ n.transform, t.isFinite = true from ?_) hq
  refine .seq_any (.seq_any (.seq_any (.seq_any (.seq ?_
    (.defaulted Transform.reader_yields.nullable nofun)))))
  exact .seq_any (.seq_any (.seq_any (.map_any fun _ _ _ _ _ ht _ _ _ _ => ht)))

private theorem shapes_yield : ∀ entry ∈ shapes, entry.2.Yields Finite := by
  simp only [shapes, List.forall_mem_cons]
  refine ⟨createShape_yields fun n hn => hn, ?_⟩
  exact ⟨.seq_any (.map_any fun _ _ => ⟨⟩),
    .seq_any (.seq_any (.seq_any (.map_any fun _ _ _ _ => ⟨⟩))),
    .seq_any (.seq_any (.map_any fun _ _ _ => ⟨⟩)), .seq_any (.map_any fun _ _ => ⟨⟩),
    .seq_any (.seq_any (.seq_any (.seq_any (.map_any fun _ _ _ _ _ => ⟨⟩)))),
    .seq_any (.seq_any (.map_any fun _ _ _ => ⟨⟩)),
    .seq_any (.seq_any (.seq_any (.map_any fun _ _ _ _ => ⟨⟩))),
    .seq_any (.seq_any (.seq_any (.seq_any (.map_any fun _ _ _ _ _ => ⟨⟩)))),
    .map_any fun _ => ⟨⟩, .seq_any (.map_any fun _ _ => ⟨⟩),
    .seq_any (.seq_any (.seq_any (.seq_any (.map_any fun _ _ _ _ _ => ⟨⟩)))),
    .seq_any (.seq_any (.seq_any (.map_any fun _ _ _ _ => ⟨⟩))),
    .seq_any (.seq_any (.seq_any (.map_any fun _ _ _ _ => ⟨⟩))),
    .seq_any (.seq_any (.seq_any (.seq_any (.map_any fun _ _ _ _ _ => ⟨⟩)))), nofun⟩

/-- What the payloads of each type are read as is stated of whatever payload is read. -/
theorem ofPayload_yields {p : String → Edit → Prop}
    (h : ∀ entry ∈ shapes, entry.2.Yields (p entry.1)) {opType : String} {payload : Json} {e : Edit}
    (he : ofPayload opType payload = .ok e) : p opType e := by
  unfold ofPayload at he
  split at he
  · contradiction
  · rename_i shape hl
    obtain ⟨front, back, hs, -⟩ := List.lookup_eq_some_iff.mp hl
    have hy := h (opType, shape) (by simp [hs])
    exact hy.object _ _ _ e (mapError_ok_iff.mp he)

theorem finite_ofPayload {opType : String} {payload : Json} {e : Edit}
    (h : ofPayload opType payload = .ok e) : e.Finite :=
  @ofPayload_yields (fun _ => Finite) shapes_yield _ _ _ h

end Edit

namespace Op

theorem finite_batch_iff {envelope : Envelope} {ops : List Op} :
    (batch envelope ops).Finite ↔ ∀ op ∈ ops, op.Finite := by
  induction ops with
  | nil => simp [Finite, edits, editsOf]
  | cons op ops ih => simp_all [Finite, edits, editsOf, or_imp, forall_and]

/-- The operation that a member of a batch stands for. -/
def ofMember (m : Migrations) (limit : Nat) (sub : Json) : Except OpError Op := do
  let wire ← (OpWire.reader.fromJson sub).mapError
    fun fault => OpError.malformedPayload batchType fault.message
  ofWire m limit wire

/-- The operation that a payload of the current version stands for. -/
def ofUpgraded (m : Migrations) (limit : Nat) (w : OpWire) (payload : Json) : Except OpError Op :=
  if w.opType = batchType then do
    let subs ← members payload
    match limit with
    | 0 => throw .nestedTooDeep
    | limit + 1 => (subs.mapM (ofMember m limit)).map (.batch w.envelope)
  else (Edit.ofPayload w.opType payload).map (.edit w.envelope)

variable {m : Migrations} {limit : Nat} {w : OpWire} {op : Op}

theorem ofWire_eq : ofWire m limit w = if typeNames.contains w.opType then
      m.upgrade w.opType w.versionOrCurrent w.payload >>= ofUpgraded m limit w
    else .error (.unknownOpType w.opType) := by
  unfold ofWire
  cases hk : typeNames.contains w.opType with
  | false => rfl
  | true =>
    simp only [Bool.not_true, Bool.false_eq_true, if_false, if_true]
    refine congrArg (m.upgrade w.opType w.versionOrCurrent w.payload >>= ·)
      (funext fun payload => ?_)
    by_cases hb : w.opType = batchType
    · simp only [ofUpgraded, if_pos hb]
      refine congrArg (members payload >>= ·) (funext fun subs => ?_)
      cases limit <;> rfl
    · simp only [ofUpgraded, if_neg hb]
      rfl

/-- An operation is read as an edit, or as a batch whose members are read in turn. -/
theorem ofWire_ok_iff : ofWire m limit w = .ok op ↔ typeNames.contains w.opType = true ∧
    ∃ payload, m.upgrade w.opType w.versionOrCurrent w.payload = .ok payload ∧
      ((w.opType ≠ batchType ∧ ∃ e, Edit.ofPayload w.opType payload = .ok e ∧
          op = .edit w.envelope e) ∨
        (w.opType = batchType ∧ ∃ below, ∃ subs : List Json, ∃ ops, limit = below + 1 ∧
          members payload = .ok subs ∧ subs.mapM (ofMember m below) = .ok ops ∧
          op = .batch w.envelope ops)) := by
  rw [ofWire_eq]
  cases hk : typeNames.contains w.opType with
  | false => simp
  | true =>
    simp only [if_true, bind_ok_iff, true_and]
    refine exists_congr fun payload => and_congr_right fun _ => ?_
    by_cases hb : w.opType = batchType
    · simp only [ofUpgraded, hb, if_true, bind_ok_iff, ne_eq, not_true_eq_false, false_and,
        false_or, true_and]
      cases limit with
      | zero => simp
      | succ below => simp [map_ok_iff, @eq_comm _ _ op]
    · simp [ofUpgraded, hb, map_ok_iff, @eq_comm _ _ op]

/-- What holds of the edits that are read, and of a batch whenever it holds of the members, holds of
whatever operation is read. -/
theorem ofWire_induction {p : Op → Prop}
    (hedit : ∀ (w : OpWire) payload e, Edit.ofPayload w.opType payload = .ok e →
      p (.edit w.envelope e))
    (hbatch : ∀ (w : OpWire) ops, (∀ op ∈ ops, p op) → p (.batch w.envelope ops))
    (h : ofWire m limit w = .ok op) : p op := by
  induction limit generalizing w op with
  | zero =>
    obtain ⟨-, payload, -, ⟨-, e, he, rfl⟩ | ⟨-, _, _, _, hl, -⟩⟩ := ofWire_ok_iff.mp h
    · exact hedit w payload e he
    · contradiction
  | succ limit ih =>
    obtain ⟨-, payload, -, ⟨-, e, he, rfl⟩ | ⟨-, below, subs, ops, hl, -, ho, rfl⟩⟩ :=
      ofWire_ok_iff.mp h
    · exact hedit w payload e he
    · obtain rfl : limit = below := Nat.succ.inj hl
      refine hbatch w ops (forall_of_mapM (fun sub op hs => ?_) ho)
      obtain ⟨wire, -, hw⟩ := bind_ok_iff.mp hs
      exact ih hw

/-- Operations that are read from stored ones bring in finite numbers only. -/
theorem finite_ofWire (h : ofWire m limit w = .ok op) : op.Finite :=
  ofWire_induction
    (fun w payload e he => by simpa [Finite, edits] using Edit.finite_ofPayload he)
    (fun w ops hops => finite_batch_iff.mpr hops) h

/-- The operation was read from a stored one, by whatever migrations. -/
def WasRead (op : Op) : Prop := ∃ m limit w, ofWire m limit w = .ok op

theorem WasRead.finite {op : Op} (h : op.WasRead) : op.Finite := by
  obtain ⟨_, _, _, hw⟩ := h
  exact finite_ofWire hw

end Op

end SceneGraph
