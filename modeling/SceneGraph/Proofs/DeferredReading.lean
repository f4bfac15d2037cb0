import SceneGraph.Proofs.ValueReading
import SceneGraph.Operations

/-!
# Deferred reading: what is read from a value is read from one that was held back, too

Payloads are held back until their type is known, and some values are read more freely from there. A
`Steady` reader takes nothing else for it: whatever it reads from a value, it reads from the same
value held back. All readers of payloads are steady.
-/
namespace SceneGraph

/-- What is read from a value is read in the same way where the value was held back until its tag
was known. -/
def Reader.Steady {α : Type} (read : Reader α) : Prop :=
  ∀ x a, read .value x = .ok a → read .deferred x = .ok a

namespace Reader
variable {α β : Type} {read : Reader α}

theorem Steady.map (h : read.Steady) (f : α → β) : (read.map f).Steady := by
  intro x b hb
  obtain ⟨a, ha, rfl⟩ := map_ok_iff.mp hb
  exact map_ok_iff.mpr ⟨a, h x a ha, rfl⟩

theorem string_steady : string.Steady := fun x _ h => by cases x <;> exact h

theorem bool_steady : bool.Steady := fun x _ h => by cases x <;> exact h

theorem real_steady : real.Steady := fun x _ h => by cases x <;> exact h

theorem natural_steady : natural.Steady := fun x _ h => by cases x <;> exact h

theorem json_steady : json.Steady := fun _ _ h => h

theorem choice_steady (alternatives : List (String × α)) : (choice alternatives).Steady := by
  intro x a h
  cases x with
  | obj members closed =>
    match members with
    | [(name, x)] =>
      obtain ⟨b, hb, h⟩ := bind_ok_iff.mp h
      cases x with
      | null => exact bind_ok_iff.mpr ⟨b, hb, h⟩
      | obj inner closed => cases inner <;> contradiction
      | _ => contradiction
    | [] | _ :: _ :: _ => contradiction
  | _ => exact h

theorem Steady.nullable (h : read.Steady) : (nullable read).Steady := by
  intro x b hb
  cases x with
  | null => exact hb
  | _ =>
    obtain ⟨a, ha, rfl⟩ := map_ok_iff.mp hb
    exact map_ok_iff.mpr ⟨a, h _ a ha, rfl⟩

theorem Steady.mapM (h : read.Steady) {sources : List Source} {items : List α}
    (hi : sources.mapM (read .value) = .ok items) : sources.mapM (read .deferred) = .ok items := by
  induction sources generalizing items with
  | nil => exact hi
  | cons x sources ih =>
    rw [List.mapM_cons] at hi ⊢
    obtain ⟨a, ha, hi⟩ := bind_ok_iff.mp hi
    obtain ⟨rest, hr, hi⟩ := bind_ok_iff.mp hi
    rw [h x a ha, bind_ok, ih hr]
    exact hi

theorem Steady.list (h : read.Steady) : (list read).Steady := by
  intro x items hi
  cases x with
  | arr sources closed =>
    obtain ⟨found, hf, hi⟩ := bind_ok_iff.mp hi
    exact bind_ok_iff.mpr ⟨found, h.mapM hf, hi⟩
  | _ => exact hi

private theorem Steady.entries (h : read.Steady) {members : List (String × Source)}
    {before dict : Dict α} (hd : entries read .value before members = .ok dict) :
    entries read .deferred before members = .ok dict := by
  induction members generalizing before with
  | nil => exact hd
  | cons member members ih =>
    obtain ⟨a, ha, hd⟩ := bind_ok_iff.mp hd
    exact bind_ok_iff.mpr ⟨a, h _ a ha, ih hd⟩

theorem Steady.dict (h : read.Steady) : (dict read).Steady := by
  intro x dict hd
  cases x with
  | obj members closed =>
    obtain ⟨found, hf, hd⟩ := bind_ok_iff.mp hd
    exact bind_ok_iff.mpr ⟨found, h.entries hf, hd⟩
  | _ => exact hd

theorem bag_steady : bag.Steady := json_steady.dict

theorem textSet_steady : textSet.Steady := string_steady.list.map _

end Reader

namespace Shape
variable {α β : Type}

/-- Every field of the shape is steady. -/
structure Steady (s : Shape α) : Prop where
  checks : ∀ check ∈ s.checks, check.2.Steady
  build : ∀ find a, s.build .value find = .ok a → s.build .deferred find = .ok a
  positional : ∀ items closed a, s.positional .value items closed = .ok a →
    s.positional .deferred items closed = .ok a

theorem Steady.map {s : Shape α} (h : s.Steady) (f : α → β) : (f <$> s).Steady := by
  refine ⟨h.checks, fun find b hb => ?_, fun items closed b hb => ?_⟩
  · obtain ⟨a, ha, rfl⟩ := map_ok_iff.mp hb
    exact map_ok_iff.mpr ⟨a, h.build find a ha, rfl⟩
  · obtain ⟨a, ha, rfl⟩ := map_ok_iff.mp hb
    exact map_ok_iff.mpr ⟨a, h.positional items closed a ha, rfl⟩

theorem Steady.seq {f : Shape (α → β)} {s : Shape α} (hf : f.Steady) (hs : s.Steady) :
    (f <*> s).Steady := by
  refine ⟨fun check hc => ?_, fun find b hb => ?_, fun items closed b hb => ?_⟩
  · rcases List.mem_append.mp hc with hc | hc
    · exact hf.checks check hc
    · exact hs.checks check hc
  · obtain ⟨g, hg, hb⟩ := bind_ok_iff.mp hb
    obtain ⟨a, ha, hb⟩ := bind_ok_iff.mp hb
    exact bind_ok_iff.mpr ⟨g, hf.build find g hg, bind_ok_iff.mpr ⟨a, hs.build find a ha, hb⟩⟩
  · obtain ⟨g, hg, hb⟩ := bind_ok_iff.mp hb
    obtain ⟨a, ha, hb⟩ := bind_ok_iff.mp hb
    exact bind_ok_iff.mpr ⟨g, hf.positional items closed g hg,
      bind_ok_iff.mpr ⟨a, hs.positional g.2 closed a ha, hb⟩⟩

theorem Steady.field {name : String} {read : Reader α} {absent short : Except Fault α}
    (h : read.Steady) : (field name read absent short).Steady := by
  refine ⟨fun check hc => ?_, fun find a ha => ?_, fun items closed a ha => ?_⟩
  · obtain rfl := List.mem_singleton.mp hc
    exact h.map _
  · simp only [Shape.field] at ha ⊢
    split at ha
    · exact h _ a ha
    · exact ha
  · cases items with
    | nil => exact ha
    | cons x items =>
      obtain ⟨b, hb, rfl⟩ := map_ok_iff.mp ha
      exact map_ok_iff.mpr ⟨b, h x b hb, rfl⟩

private theorem Steady.scan {checks : List (String × Reader Unit)} {others : Others}
    (h : ∀ check ∈ checks, check.2.Steady) {seen : List String} {members : List (String × Source)}
    (hs : scan checks others .value seen members = .ok ()) :
    scan checks others .deferred seen members = .ok () := by
  induction members generalizing seen with
  | nil => exact hs
  | cons member members ih =>
    rw [Shape.scan] at hs ⊢
    split at hs
    · rename_i check hl
      obtain ⟨front, back, he, -⟩ := List.lookup_eq_some_iff.mp hl
      have hcheck : check.Steady := h (member.1, check) (by simp [he])
      cases hseen : seen.contains member.1 with
      | true =>
        rw [hseen] at hs
        contradiction
      | false =>
        simp only [hseen, Bool.false_eq_true, if_false, then_ok_iff] at hs ⊢
        exact ⟨hcheck _ _ hs.1, ih hs.2⟩
    · obtain ⟨ho, hs⟩ := then_ok_iff.mp hs
      exact then_ok_iff.mpr ⟨ho, ih hs⟩

theorem Steady.object {s : Shape α} (h : s.Steady) (others : Others) :
    (s.object others).Steady := by
  intro x a ha
  cases x with
  | obj members closed =>
    obtain ⟨hs, ha⟩ := then_ok_iff.mp ha
    obtain ⟨hc, ha⟩ := then_ok_iff.mp ha
    exact then_ok_iff.mpr ⟨Steady.scan h.checks hs, then_ok_iff.mpr ⟨hc, h.build _ a ha⟩⟩
  | _ => exact ha

theorem Steady.record {s : Shape α} (h : s.Steady) (others : Others) :
    (s.record others).Steady := by
  intro x a ha
  cases x with
  | arr items closed =>
    obtain ⟨⟨b, rest⟩, hb, ha⟩ := bind_ok_iff.mp ha
    cases rest with
    | nil => exact bind_ok_iff.mpr ⟨(b, []), h.positional items closed _ hb, ha⟩
    | cons => contradiction
  | _ =>
    simp only [Shape.record] at ha ⊢
    exact h.object others _ a ha

theorem Steady.required {name : String} {read : Reader α} (h : read.Steady) :
    (required name read).Steady := .field h

theorem Steady.defaulted {name : String} {read : Reader α} {default : α} (h : read.Steady) :
    (defaulted name read default).Steady := .field h

theorem Steady.optional {name : String} {read : Reader α} (h : read.Steady) :
    (optional name read).Steady := .field h.nullable

theorem Steady.present {name : String} : (present name).Steady :=
  .field (Reader.json_steady.map some)

end Shape

open Shape Reader

theorem Vec3.reader_steady : Vec3.reader.Steady :=
  Steady.record (.seq (.seq (.map (.required real_steady) _) (.required real_steady))
    (.required real_steady)) _

theorem Quat.reader_steady : Quat.reader.Steady :=
  Steady.record (.seq (.seq (.seq (.map (.required real_steady) _) (.required real_steady))
    (.required real_steady)) (.required real_steady)) _

theorem Transform.reader_steady : Transform.reader.Steady :=
  Steady.record (.seq (.seq (.map (.required Vec3.reader_steady) _)
    (.required Quat.reader_steady)) (.required Vec3.reader_steady)) _

theorem Tuning.reader_steady : Tuning.reader.Steady := bag_steady.dict

theorem Component.reader_steady : Component.reader.Steady :=
  Steady.record (.seq (.seq (.seq (.map (.required string_steady) _) (.defaulted bag_steady))
    (.optional Tuning.reader_steady)) (.optional bag_steady)) _

theorem Entity.reader_steady : Entity.reader.Steady :=
  Steady.record (.seq (.seq (.seq (.seq (.seq (.seq (.seq (.seq (.seq (.map
    (.required string_steady) _) (.required string_steady)) (.optional string_steady))
    (.defaulted string_steady.list)) (.defaulted Component.reader_steady.list))
    (.defaulted textSet_steady)) (.defaulted Transform.reader_steady)) (.defaulted bool_steady))
    (.defaulted bool_steady)) (.optional Tuning.reader_steady)) _

theorem Asset.reader_steady : Asset.reader.Steady :=
  Steady.record (.seq (.seq (.seq (.seq (.seq (.map (.required string_steady) _)
    (.required (choice_steady _))) (.required string_steady)) (.optional string_steady))
    (.optional json_steady)) (.defaulted bag_steady)) _

namespace Edit

private theorem index_steady : index.Steady := .optional natural_steady
private theorem entityId_steady : entityId.Steady := .required string_steady
private theorem componentType_steady : componentType.Steady := .required string_steady
private theorem propertyPath_steady : propertyPath.Steady := .required string_steady
private theorem trackName_steady : trackName.Steady := .required string_steady

theorem shapes_steady : ∀ entry ∈ shapes, entry.2.Steady := by
  simp only [shapes, List.forall_mem_cons]
  exact ⟨.map (.seq (.seq (.seq (.seq (.seq (.seq (.seq (.seq (.map entityId_steady _)
      (.required string_steady)) (.optional string_steady)) index_steady)
      (.optional Transform.reader_steady)) (.defaulted textSet_steady)) (.optional bool_steady))
      (.optional bool_steady)) (.optional Tuning.reader_steady)) _,
    .seq (.map entityId_steady _) (.optional Entity.reader_steady),
    .seq (.seq (.seq (.map entityId_steady _) (.required string_steady)) .present) .present,
    .seq (.seq (.map (.required string_steady) _) (.required string_steady)) index_steady,
    .seq (.map (.required string_steady) _) (.required string_steady),
    .seq (.seq (.seq (.seq (.map entityId_steady _) (.required string_steady))
      (.optional natural_steady)) (.optional string_steady)) (.optional natural_steady),
    .seq (.seq (.map entityId_steady _) (.required Component.reader_steady)) index_steady,
    .seq (.seq (.seq (.map entityId_steady _) componentType_steady) index_steady)
      (.optional Component.reader_steady),
    .seq (.seq (.seq (.seq (.map entityId_steady _) componentType_steady) propertyPath_steady)
      .present) .present,
    .map (.required Asset.reader_steady) _,
    .seq (.map (.required string_steady) _) (.optional Asset.reader_steady),
    .seq (.seq (.seq (.seq (.map entityId_steady _) componentType_steady) propertyPath_steady)
      (.required string_steady)) (.required string_steady),
    .seq (.seq (.seq (.map entityId_steady _) trackName_steady) (.required json_steady))
      index_steady,
    .seq (.seq (.seq (.map entityId_steady _) trackName_steady) (.required real_steady))
      (.optional json_steady),
    .seq (.seq (.seq (.seq (.map entityId_steady _) trackName_steady) (.required real_steady))
      (.required json_steady)) .present, List.forall_mem_nil _⟩

end Edit
end SceneGraph
