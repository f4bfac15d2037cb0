import SceneGraph.Proofs.ValueReading

/-!
# Reading records from values: members are met one by one and each field is read on its own

A record is read from an object when every member passes the check of its field and all fields can
be built. Shapes whose checks follow from their builds are `Sound`, and for these `record_ok_iff`
reduces reading to building.
-/
namespace SceneGraph

namespace Shape
variable {α β : Type}

/-- The members of an object as a record looks them up. -/
def lookups (members : Bag) : String → Option Source := fun name =>
  (members.find? name).map Source.ofJson

/-- A member passes the check of its field, or is let pass as one of the others. -/
def Meets (checks : List (String × Reader Unit)) (others : Others) (key : String) (j : Json) :
    Prop :=
  match checks.lookup key with
  | some check => check.fromJson j = .ok ()
  | none => others key (Source.ofJson j) = .ok ()

private theorem scan_ok_iff {checks : List (String × Reader Unit)} {others : Others}
    {low : Option String} {members : Ascending Json low} {seen : List String}
    (hs : ∀ name ∈ seen, members.find? name = none) :
    scan checks others .value seen (Source.ofMembers members) = .ok () ↔
      ∀ key j, members.find? key = some j → Meets checks others key j := by
  induction members generalizing seen with
  | nil => simp [Source.ofMembers, scan]
  | cons k above v rest ih =>
    have hk : ∀ name ∈ seen, name ≠ k := by
      intro name hn he
      simpa [he] using hs name hn
    have hrest : ∀ name ∈ seen, rest.find? name = none := by
      intro name hn
      simpa [hk name hn] using hs name hn
    have hself : rest.find? k = none :=
      Ascending.find?_eq_none_of_not_above rest (String.lt_irrefl k)
    have hsplit : (∀ key j, (Ascending.cons k above v rest).find? key = some j →
          Meets checks others key j) ↔
        Meets checks others k v ∧ ∀ key j, rest.find? key = some j → Meets checks others key j := by
      constructor
      · intro h
        refine ⟨h k v (by simp), fun key j hj => h key j ?_⟩
        have hne : key ≠ k := fun he => by simp [he, hself] at hj
        simp [hne, hj]
      · rintro ⟨hv, h⟩ key j hj
        by_cases he : key = k
        · obtain rfl : v = j := by simpa [he] using hj
          exact he ▸ hv
        · exact h key j (by simpa [he] using hj)
    rw [hsplit]
    simp only [Source.ofMembers, scan]
    cases hl : checks.lookup k with
    | some check =>
      have hmem : seen.contains k = false := by simpa using fun hm => hk k hm rfl
      have ih' := ih fun name (hn : name ∈ k :: seen) => by
        rcases List.mem_cons.mp hn with rfl | hn
        · exact hself
        · exact hrest name hn
      simp only [hmem, Bool.false_eq_true, if_false, then_ok_iff, ih']
      simp [Meets, hl, Reader.fromJson]
    | none => simp only [then_ok_iff, ih hrest, Meets, hl]

/-- An object is read as a record when its members pass and the fields can be built. -/
theorem record_obj_iff {shape : Shape α} {others : Others} {members : Bag} {a : α} :
    (shape.record others).fromJson (.obj members) = .ok a ↔
      (∀ key j, members.find? key = some j → Meets shape.checks others key j) ∧
        shape.build .value (lookups members) = .ok a := by
  have hl : (fun name => (Source.ofMembers members).lookup name) = lookups members := by
    funext name
    exact Source.lookup_ofMembers members name
  simp only [Reader.fromJson, Source.ofJson, record, object, readMembers, hl, then_ok_iff,
    Source.closing, if_true, true_and]
  rw [scan_ok_iff (by simp)]

@[simp] theorem checks_map (f : α → β) (s : Shape α) : (f <$> s).checks = s.checks := rfl

@[simp] theorem checks_seq (f : Shape (α → β)) (s : Shape α) :
    (f <*> s).checks = f.checks ++ s.checks := rfl

@[simp] theorem checks_required (name : String) (read : Reader α) :
    (required name read).checks.map (·.1) = [name] := rfl

@[simp] theorem checks_defaulted (name : String) (read : Reader α) (default : α) :
    (defaulted name read default).checks.map (·.1) = [name] := rfl

@[simp] theorem build_map_ok_iff {f : α → β} {s : Shape α} {find : String → Option Source} {b : β} :
    (f <$> s).build .value find = .ok b ↔ ∃ a, s.build .value find = .ok a ∧ f a = b :=
  map_ok_iff

@[simp] theorem build_seq_ok_iff {f : Shape (α → β)} {s : Shape α} {find : String → Option Source}
    {b : β} : (f <*> s).build .value find = .ok b ↔
      ∃ g, f.build .value find = .ok g ∧ ∃ a, s.build .value find = .ok a ∧ g a = b := by
  simp only [Seq.seq, bind_ok_iff, pure_ok_iff]

theorem build_field_ok_iff {name : String} {read : Reader α} {absent short : Except Fault α}
    {members : Bag} {a : α} :
    (field name read absent short).build .value (lookups members) = .ok a ↔
      (∃ j, members.find? name = some j ∧ read.fromJson j = .ok a) ∨
        members.find? name = none ∧ absent = .ok a := by
  simp only [field, lookups]
  cases members.find? name <;> simp [Reader.fromJson]

@[simp] theorem build_required_ok_iff {name : String} {read : Reader α} {members : Bag} {a : α} :
    (required name read).build .value (lookups members) = .ok a ↔
      ∃ j, members.find? name = some j ∧ read.fromJson j = .ok a := by
  simp [required, build_field_ok_iff]

@[simp] theorem build_defaulted_ok_iff {name : String} {read : Reader α} {default : α}
    {members : Bag} {a : α} :
    (defaulted name read default).build .value (lookups members) = .ok a ↔
      (∃ j, members.find? name = some j ∧ read.fromJson j = .ok a) ∨
        members.find? name = none ∧ default = a := by
  simp [defaulted, build_field_ok_iff]

/-- Where all fields can be built, each member passes the check of its field. -/
def Sound (s : Shape α) : Prop :=
  ∀ find a, s.build .value find = .ok a → ∀ field ∈ s.checks, ∀ x, find field.1 = some x →
    field.2 .value x = .ok ()

theorem Sound.map {s : Shape α} {f : α → β} (h : s.Sound) : (f <$> s).Sound := by
  intro find b hb
  obtain ⟨a, ha, -⟩ := build_map_ok_iff.mp hb
  exact h find a ha

theorem Sound.seq {f : Shape (α → β)} {s : Shape α} (hf : f.Sound) (hs : s.Sound) :
    (f <*> s).Sound := by
  intro find b hb field hm
  obtain ⟨g, hg, a, ha, -⟩ := build_seq_ok_iff.mp hb
  rcases List.mem_append.mp hm with hm | hm
  · exact hf find g hg field hm
  · exact hs find a ha field hm

theorem Sound.field {name : String} {read : Reader α} {absent short : Except Fault α} :
    (field name read absent short).Sound := by
  intro find a ha field hm x hx
  obtain rfl : field = _ := List.mem_singleton.mp hm
  simp only [Shape.field, hx] at ha
  simp [ha, Except.map]

/-- A record is read from its fields when the other members are let pass. -/
theorem record_ok_iff {shape : Shape α} (hs : shape.Sound) {others : Others} {members : Bag}
    {a : α} : (shape.record others).fromJson (.obj members) = .ok a ↔
      (∀ key j, members.find? key = some j →
        key ∈ shape.checks.map (·.1) ∨ others key (Source.ofJson j) = .ok ()) ∧
        shape.build .value (lookups members) = .ok a := by
  rw [record_obj_iff]
  refine and_congr_left fun hb => forall_congr' fun key => forall_congr' fun j =>
    imp_congr_right fun hj => ?_
  unfold Meets
  cases hl : shape.checks.lookup key with
  | none =>
    have hn : key ∉ shape.checks.map (·.1) := by
      intro hm
      obtain ⟨field, hf, rfl⟩ := List.mem_map.mp hm
      simpa using List.lookup_eq_none_iff.mp hl field hf
    exact ⟨.inr, (·.resolve_left hn)⟩
  | some check =>
    have hm : (key, check) ∈ shape.checks := by
      obtain ⟨front, back, he, -⟩ := List.lookup_eq_some_iff.mp hl
      simp [he]
    have hc := hs _ a hb (key, check) hm (Source.ofJson j) (by simp [lookups, hj])
    exact iff_of_true hc (.inl (List.mem_map.mpr ⟨_, hm, rfl⟩))

theorem record_refused_iff {shape : Shape α} (hs : shape.Sound) {members : Bag} {a : α} :
    (shape.record refused).fromJson (.obj members) = .ok a ↔
      (∀ key j, members.find? key = some j → key ∈ shape.checks.map (·.1)) ∧
        shape.build .value (lookups members) = .ok a := by
  simp [record_ok_iff hs, refused]

theorem record_kept_iff {shape : Shape α} (hs : shape.Sound) {members : Bag} {a : α} :
    (shape.record kept).fromJson (.obj members) = .ok a ↔
      shape.build .value (lookups members) = .ok a := by
  simp [record_ok_iff hs, kept, Source.toJson_ofJson, Except.map]

/-- A record is read back from the members it is written as. -/
theorem record_ofList {shape : Shape α} (hs : shape.Sound) {fields : List (String × Json)} {a : α}
    (hk : ∀ field ∈ fields, field.1 ∈ shape.checks.map (·.1))
    (hb : shape.build .value (lookups (Dict.ofList fields)) = .ok a) :
    (shape.record refused).fromJson (.obj (Dict.ofList fields)) = .ok a := by
  refine (record_refused_iff hs).mpr ⟨fun key j hj => ?_, hb⟩
  by_contra hn
  have hf : key ∉ fields.map (·.1) := fun hm => by
    obtain ⟨field, hfield, rfl⟩ := List.mem_map.mp hm
    exact hn (hk field hfield)
  rw [Dict.find?_ofList_of_not_mem hf] at hj
  contradiction

end Shape
end SceneGraph
