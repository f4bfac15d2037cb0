import SceneGraph.Proofs.StoredForms

/-!
# Complete reading: what the strict way of reading asks for beyond the lenient one

The strict reader of a record is the lenient one with the condition that no field is left out, by
name or by position (`Tightens.record_iff`). For the environment as a whole this is a condition on
the sections whose fields may be left out.
-/
namespace SceneGraph

/-- The value leaves out none of some fields, by name or, in an array, by position. -/
def Json.states (fields : List String) : Json → Bool
  | .obj members => fields.all members.contains
  | .arr items => fields.length ≤ items.length
  | _ => true

theorem Source.length_ofItems (items : List Json) : (ofItems items).length = items.length := by
  induction items with
  | nil => rfl
  | cons x xs ih => simp [ofItems, ih]

namespace Shape
variable {α β : Type} {names names' : List String}

theorem positional_map_ok_iff {f : α → β} {s : Shape α} {items rest : List Source} {b : β} :
    (f <$> s).positional .value items true = .ok (b, rest) ↔
      ∃ a, s.positional .value items true = .ok (a, rest) ∧ f a = b := by
  simp only [Functor.map, map_ok_iff, Prod.exists, Prod.mk.injEq]
  constructor
  · rintro ⟨a, rest, ha, hb, rfl⟩
    exact ⟨a, ha, hb⟩
  · rintro ⟨a, ha, hb⟩
    exact ⟨a, rest, ha, hb, rfl⟩

theorem positional_seq_ok_iff {f : Shape (α → β)} {s : Shape α} {items rest : List Source}
    {b : β} : (f <*> s).positional .value items true = .ok (b, rest) ↔
      ∃ g more, f.positional .value items true = .ok (g, more) ∧
        ∃ a, s.positional .value more true = .ok (a, rest) ∧ g a = b := by
  simp only [Seq.seq, bind_ok_iff, Prod.exists, pure_ok_iff, Prod.mk.injEq]
  refine exists_congr fun g => exists_congr fun more => and_congr_right fun _ => ?_
  constructor
  · rintro ⟨a, rest, ha, hb, rfl⟩
    exact ⟨a, ha, hb⟩
  · rintro ⟨a, ha, hb⟩
    exact ⟨a, rest, ha, hb, rfl⟩

/-- The first shape builds what the second one builds when no field is left out, and nothing else.
Both take as many items by position. -/
structure Tightens (names : List String) (s t : Shape α) : Prop where
  checks : s.checks.map (·.1) = t.checks.map (·.1)
  build : ∀ (members : Bag) a, s.build .value (lookups members) = .ok a ↔
    t.build .value (lookups members) = .ok a ∧ ∀ name ∈ names, members.contains name = true
  positional : ∀ items a rest, s.positional .value items true = .ok (a, rest) ↔
    t.positional .value items true = .ok (a, rest) ∧ names.length ≤ items.length
  rest : ∀ items a rest, t.positional .value items true = .ok (a, rest) →
    rest = items.drop names.length

theorem Tightens.field (name : String) (read : Reader α) (default : α) :
    Tightens [name] (Completeness.strict.field name read default)
      (Completeness.lenient.field name read default) := by
  refine ⟨rfl, fun members a => ?_, fun items a rest => ?_, fun items a rest h => ?_⟩
  · simp only [Completeness.field, build_required_ok_iff, build_defaulted_ok_iff,
      List.forall_mem_singleton, Ascending.contains_iff]
    cases members.find? name <;> simp
  · cases items <;>
      simp [Completeness.field, required, defaulted, Shape.field, Except.map]
  · cases items with
    | nil =>
      cases h
      rfl
    | cons x items =>
      obtain ⟨b, -, h⟩ := map_ok_iff.mp h
      cases h
      rfl

theorem Tightens.map {s t : Shape α} (h : Tightens names s t) (f : α → β) :
    Tightens names (f <$> s) (f <$> t) := by
  refine ⟨h.checks, fun members b => ?_, fun items b rest => ?_, fun items b rest hb => ?_⟩
  · simp only [build_map_ok_iff, h.build, and_right_comm, exists_and_right]
  · simp only [positional_map_ok_iff, h.positional, and_right_comm, exists_and_right]
  · obtain ⟨a, ha, -⟩ := positional_map_ok_iff.mp hb
    exact h.rest _ _ _ ha

theorem Tightens.seq {f g : Shape (α → β)} {s t : Shape α} (hf : Tightens names f g)
    (hs : Tightens names' s t) : Tightens (names ++ names') (f <*> s) (g <*> t) := by
  refine ⟨?_, fun members b => ?_, fun items b rest => ?_, fun items b rest hb => ?_⟩
  · simp only [checks_seq, List.map_append, hf.checks, hs.checks]
  · simp only [build_seq_ok_iff, hf.build, hs.build, List.forall_mem_append]
    constructor
    · rintro ⟨k, ⟨hk, hn⟩, a, ⟨ha, hn'⟩, hb⟩
      exact ⟨⟨k, hk, a, ha, hb⟩, hn, hn'⟩
    · rintro ⟨⟨k, hk, a, ha, hb⟩, hn, hn'⟩
      exact ⟨k, ⟨hk, hn⟩, a, ⟨ha, hn'⟩, hb⟩
  · simp only [positional_seq_ok_iff, hf.positional, hs.positional, List.length_append]
    constructor
    · rintro ⟨k, more, ⟨hk, hn⟩, a, ⟨ha, hn'⟩, hb⟩
      have hmore := congrArg List.length (hf.rest _ _ _ hk)
      rw [List.length_drop] at hmore
      exact ⟨⟨k, more, hk, a, ha, hb⟩, by omega⟩
    · rintro ⟨⟨k, more, hk, a, ha, hb⟩, hn⟩
      have hmore := congrArg List.length (hf.rest _ _ _ hk)
      rw [List.length_drop] at hmore
      exact ⟨k, more, ⟨hk, by omega⟩, a, ⟨ha, by omega⟩, hb⟩
  · obtain ⟨k, more, hk, a, ha, -⟩ := positional_seq_ok_iff.mp hb
    rw [hs.rest _ _ _ ha, hf.rest _ _ _ hk, List.drop_drop, List.length_append]

theorem record_arr_iff {s : Shape α} {others : Others} {items : List Json} {a : α} :
    (s.record others).fromJson (.arr items) = .ok a ↔
      s.positional .value (Source.ofItems items) true = .ok (a, []) := by
  simp only [Reader.fromJson, Source.ofJson, record, readItems, bind_ok_iff, Prod.exists]
  constructor
  · rintro ⟨b, rest, hb, hclose⟩
    cases rest with
    | nil =>
      cases hclose
      exact hb
    | cons => contradiction
  · intro h
    exact ⟨a, [], h, rfl⟩

/-- A record is read strictly when it is read and none of its fields is left out. -/
theorem Tightens.record_iff {s t : Shape α} (h : Tightens names s t) (hs : s.Sound) (ht : t.Sound)
    {j : Json} {a : α} : (s.record refused).fromJson j = .ok a ↔
      (t.record refused).fromJson j = .ok a ∧ j.states names = true := by
  cases j with
  | obj members =>
    simp only [record_refused_iff hs, record_refused_iff ht, h.checks, h.build, Json.states,
      List.all_eq_true, and_assoc]
  | arr items =>
    simp only [record_arr_iff, h.positional, Json.states, Source.length_ofItems, decide_eq_true_eq]
  | _ => simp [Reader.fromJson, Source.ofJson, record, object]

end Shape

section Sections
variable {j : Json}

def Skybox.fields : List String := ["type", "color", "uri"]
def Fog.fields : List String := ["enabled", "type", "color", "near", "far", "density"]
def AmbientLight.fields : List String := ["color", "intensity"]

theorem Skybox.strict_iff {s : Skybox} : (Skybox.reader .strict).fromJson j = .ok s ↔
    (Skybox.reader .lenient).fromJson j = .ok s ∧ j.states fields = true :=
  Shape.Tightens.record_iff
    (.seq (.seq (.map (.field ..) _) (.field ..)) (.field ..)) shape_sound shape_sound

theorem Fog.strict_iff {f : Fog} : (Fog.reader .strict).fromJson j = .ok f ↔
    (Fog.reader .lenient).fromJson j = .ok f ∧ j.states fields = true :=
  Shape.Tightens.record_iff
    (.seq (.seq (.seq (.seq (.seq (.map (.field ..) _) (.field ..)) (.field ..)) (.field ..))
      (.field ..)) (.field ..)) shape_sound shape_sound

theorem AmbientLight.strict_iff {l : AmbientLight} :
    (AmbientLight.reader .strict).fromJson j = .ok l ↔
      (AmbientLight.reader .lenient).fromJson j = .ok l ∧ j.states fields = true :=
  Shape.Tightens.record_iff (.seq (.map (.field ..) _) (.field ..)) shape_sound shape_sound

end Sections

namespace Environment

/-- The records in the environment of which fields may be left out, and these fields. -/
def sections : List (String × List String) :=
  [("skybox", Skybox.fields), ("fog", Fog.fields), ("ambientLight", AmbientLight.fields)]

variable {members : Bag} {skybox fog light gravity : Json} {e : Environment}

section Present
variable (hs : members.find? "skybox" = some skybox) (hf : members.find? "fog" = some fog)
  (hl : members.find? "ambientLight" = some light) (hg : members.find? "gravity" = some gravity)
include hs hf hl hg

/-- An environment of which no part is left out is read part by part. -/
theorem reader_obj_iff (c : Completeness) : (reader c).fromJson (.obj members) = .ok e ↔
    (∀ key j, members.find? key = some j → key ∈ ["skybox", "fog", "ambientLight", "gravity"]) ∧
      (Skybox.reader c).fromJson skybox = .ok e.skybox ∧
      (Fog.reader c).fromJson fog = .ok e.fog ∧
      (AmbientLight.reader c).fromJson light = .ok e.ambientLight ∧
      Vec3.reader.fromJson gravity = .ok e.gravity := by
  refine (Shape.record_refused_iff shape_sound).trans (and_congr (by simp [shape]) ?_)
  simp only [shape, Shape.build_seq_ok_iff, Shape.build_map_ok_iff, c.build_field_iff hs,
    c.build_field_iff hf, c.build_field_iff hl, c.build_field_iff hg]
  constructor
  · rintro ⟨_, ⟨_, ⟨_, ⟨s, hs, rfl⟩, f, hf, rfl⟩, l, hl, rfl⟩, g, hg, rfl⟩
    exact ⟨hs, hf, hl, hg⟩
  · rintro ⟨hs, hf, hl, hg⟩
    exact ⟨_, ⟨_, ⟨_, ⟨_, hs, rfl⟩, _, hf, rfl⟩, _, hl, rfl⟩, _, hg, rfl⟩

theorem strict_iff : (reader .strict).fromJson (.obj members) = .ok e ↔
    (reader .lenient).fromJson (.obj members) = .ok e ∧
      ∀ s ∈ sections, ∀ j, members.find? s.1 = some j → j.states s.2 = true := by
  simp only [reader_obj_iff hs hf hl hg, Skybox.strict_iff, Fog.strict_iff, AmbientLight.strict_iff,
    sections, List.forall_mem_cons, List.not_mem_nil, IsEmpty.forall_iff, implies_true, and_true,
    hs, hf, hl, Option.some.injEq, forall_eq']
  constructor
  · rintro ⟨hkeys, ⟨hs, hs'⟩, ⟨hf, hf'⟩, ⟨hl, hl'⟩, hg⟩
    exact ⟨⟨hkeys, hs, hf, hl, hg⟩, hs', hf', hl'⟩
  · rintro ⟨⟨hkeys, hs, hf, hl, hg⟩, hs', hf', hl'⟩
    exact ⟨hkeys, ⟨hs, hs'⟩, ⟨hf, hf'⟩, ⟨hl, hl'⟩, hg⟩

end Present
end Environment
end SceneGraph
