import SceneGraph.JsonLayouts
import SceneGraph.Proofs.RecordReading

/-!
# Written records: a record is read back field by field from what was written

A shape `Restores` data from a list of written fields when it builds the data from them and no check
is in the way. This is put together field by field, for required fields and for those that are
written only when there is something to write. For each basic kind of data its reader restores its
layout.
-/
namespace SceneGraph

namespace Layout
variable {α : Type}

/-- The value written under a name; of fields with one name the last counts. -/
def field? (name : String) (fields : List (String × Layout)) : Option Json :=
  (toJsonFields fields).reverse.lookup name

theorem find?_toJsonFields (fields : List (String × Layout)) (name : String) :
    (Dict.ofList (toJsonFields fields)).find? name = field? name fields :=
  Dict.find?_ofList _ name

@[simp] theorem field?_nil (name : String) : field? name [] = none := rfl

@[simp] theorem field?_append (name : String) (fields fields' : List (String × Layout)) :
    field? name (fields ++ fields') = (field? name fields').or (field? name fields) := by
  simp [field?, toJsonFields_eq_map, List.lookup_append]

@[simp] theorem field?_cons (name key : String) (x : Layout) (fields : List (String × Layout)) :
    field? name ((key, x) :: fields) =
      (field? name fields).or (if name = key then some x.toJson else none) := by
  rw [field?, toJsonFields, List.reverse_cons, List.lookup_append]
  by_cases h : name = key
  · simp [field?, h]
  · simp [field?, List.lookup_cons, h, beq_false_of_ne h]

@[simp] theorem field?_whenPresent (name key : String) (f : α → Layout) (a : Option α) :
    field? name (whenPresent key f a) =
      if name = key then a.map fun b => (f b).toJson else none := by
  cases a <;> simp [whenPresent]

@[simp] theorem names_whenPresent_subset {key : String} {names : List String} (f : α → Layout)
    (a : Option α) (h : key ∈ names) : (whenPresent key f a).map (·.1) ⊆ names := by
  cases a with
  | none => exact List.nil_subset names
  | some b => exact List.cons_subset.mpr ⟨h, List.nil_subset names⟩

theorem record_ne_null (fields : List (String × Layout)) : (record fields).toJson ≠ .null := by
  simp [toJson]

end Layout

/-- What is written of the data is not null, and is read back. -/
def Reader.Regains {α : Type} (read : Reader α) (f : α → Layout) (a : α) : Prop :=
  (f a).toJson ≠ .null ∧ read.fromJson (f a).toJson = .ok a

namespace Shape
variable {α β : Type} {fields : List (String × Layout)}

@[simp] theorem checks_optional (name : String) (read : Reader α) :
    (optional name read).checks.map (·.1) = [name] := rfl

/-- From what is written as the fields the shape builds the data, and no check is in the way. -/
structure Restores (s : Shape α) (fields : List (String × Layout)) (a : α) : Prop where
  build : s.build .value (lookups (Dict.ofList (Layout.toJsonFields fields))) = .ok a
  checks : ∀ check ∈ s.checks, ∀ j, Layout.field? check.1 fields = some j →
    check.2.fromJson j = .ok ()

theorem Restores.map {s : Shape α} {a : α} (h : s.Restores fields a) (f : α → β) :
    (f <$> s).Restores fields (f a) :=
  ⟨build_map_ok_iff.mpr ⟨a, h.build, rfl⟩, h.checks⟩

theorem Restores.seq {f : Shape (α → β)} {g : α → β} {s : Shape α} {a : α}
    (hf : f.Restores fields g) (hs : s.Restores fields a) : (f <*> s).Restores fields (g a) := by
  refine ⟨build_seq_ok_iff.mpr ⟨g, hf.build, a, hs.build, rfl⟩, fun check hc => ?_⟩
  rcases List.mem_append.mp hc with hc | hc
  · exact hf.checks check hc
  · exact hs.checks check hc

/-- A field is restored when what is written is read back, or, where nothing is written, when the
field may be left out. -/
theorem Restores.field {name : String} {read : Reader α} {absent short : Except Fault α} {a : α}
    (hr : ∀ j, Layout.field? name fields = some j → read.fromJson j = .ok a)
    (ha : Layout.field? name fields = none → absent = .ok a) :
    (Shape.field name read absent short).Restores fields a := by
  refine ⟨build_field_ok_iff.mpr ?_, fun check hc j hj => ?_⟩
  · rw [Layout.find?_toJsonFields]
    cases h : Layout.field? name fields with
    | none => exact .inr ⟨rfl, ha h⟩
    | some j => exact .inl ⟨j, rfl, hr j h⟩
  · obtain rfl := List.mem_singleton.mp hc
    exact map_ok_iff.mpr ⟨a, hr j hj, rfl⟩

theorem Restores.required {name : String} {read : Reader α} {x : Layout} {a : α}
    (hx : Layout.field? name fields = some x.toJson) (ha : read.fromJson x.toJson = .ok a) :
    (Shape.required name read).Restores fields a :=
  .field (fun _ hj => Option.some.inj (hx.symm.trans hj) ▸ ha) (fun hn => by simp [hx] at hn)

theorem Restores.defaulted {name : String} {read : Reader α} {x : Layout} {a default : α}
    (hx : Layout.field? name fields = some x.toJson) (ha : read.fromJson x.toJson = .ok a) :
    (Shape.defaulted name read default).Restores fields a :=
  .field (fun _ hj => Option.some.inj (hx.symm.trans hj) ▸ ha) (fun hn => by simp [hx] at hn)

/-- A field that is written only when there is something to write, and then not as null. -/
theorem Restores.optional {name : String} {read : Reader α} {f : α → Layout} {a : Option α}
    (hx : Layout.field? name fields = a.map fun b => (f b).toJson)
    (ha : ∀ b ∈ a, read.Regains f b) : (Shape.optional name read).Restores fields a := by
  refine .field (fun j hj => ?_) (fun hn => ?_)
  · obtain ⟨b, hb, rfl⟩ := Option.map_eq_some_iff.mp (hx.symm.trans hj)
    exact Reader.nullable_ok_iff.mpr (.inr ⟨(ha b hb).1, b, (ha b hb).2, hb⟩)
  · rw [Option.map_eq_none_iff.mp (hx.symm.trans hn)]

/-- Null is a value of its own. -/
theorem Restores.present {name : String} {j : Option Json}
    (hj : Layout.field? name fields = j.map fun value => (Layout.value value).toJson) :
    (Shape.present name).Restores fields j := by
  refine .field (fun value hv => ?_) (fun hn => ?_)
  · obtain ⟨value, rfl, rfl⟩ := Option.map_eq_some_iff.mp (hj.symm.trans hv)
    exact map_ok_iff.mpr ⟨value, Reader.json_fromJson value, rfl⟩
  · rw [Option.map_eq_none_iff.mp (hj.symm.trans hn)]

private theorem Restores.meets {s : Shape α} {a : α} (h : s.Restores fields a) {others : Others}
    (ho : ∀ key j, Layout.field? key fields = some j → key ∈ s.checks.map (·.1) ∨
      others key (Source.ofJson j) = .ok ()) :
    (s.record others).fromJson (Layout.record fields).toJson = .ok a := by
  refine record_obj_iff.mpr ⟨fun key j hj => ?_, h.build⟩
  rw [Layout.find?_toJsonFields] at hj
  unfold Meets
  cases hl : s.checks.lookup key with
  | some check =>
    obtain ⟨front, back, he, -⟩ := List.lookup_eq_some_iff.mp hl
    exact h.checks (key, check) (by simp [he]) j hj
  | none =>
    refine (ho key j hj).resolve_left fun hm => ?_
    obtain ⟨check, hc, rfl⟩ := List.mem_map.mp hm
    simpa using List.lookup_eq_none_iff.mp hl check hc

mutual
private theorem skip_ofJson : (j : Json) → (Source.ofJson j).skip = .ok ()
  | .null | .bool _ | .num _ | .str _ => rfl
  | .arr items => by
    simp [Source.ofJson, Source.skip, skipItems_ofItems items, Source.closing]
  | .obj members => by
    simp [Source.ofJson, Source.skip, skipMembers_ofMembers members, Source.closing]

private theorem skipItems_ofItems : (items : List Json) →
    Source.skipItems (Source.ofItems items) = .ok ()
  | [] => rfl
  | x :: xs => by simp [Source.ofItems, Source.skipItems, skip_ofJson x, skipItems_ofItems xs]

private theorem skipMembers_ofMembers : {low : Option String} → (members : Ascending Json low) →
    Source.skipMembers (Source.ofMembers members) = .ok ()
  | _, .nil => rfl
  | _, .cons _ _ v rest => by
    simp [Source.ofMembers, Source.skipMembers, skip_ofJson v, skipMembers_ofMembers rest]
end

/-- Where others are ignored, any fields may be written beside those of the record. -/
theorem Restores.ignored {s : Shape α} {a : α} (h : s.Restores fields a) :
    (s.record ignored).fromJson (Layout.record fields).toJson = .ok a :=
  h.meets fun _ j _ => .inr (skip_ofJson j)

/-- Where others are refused, no field may be written beside those of the record. -/
theorem Restores.refused {s : Shape α} {a : α} (h : s.Restores fields a)
    (hk : fields.map (·.1) ⊆ s.checks.map (·.1)) :
    (s.record refused).fromJson (Layout.record fields).toJson = .ok a := by
  refine h.meets fun key j hj => .inl ?_
  rw [Layout.field?, Layout.toJsonFields_eq_map] at hj
  obtain ⟨front, back, he, -⟩ := List.lookup_eq_some_iff.mp hj
  have hm : (key, j) ∈ (fields.map fun field => (field.1, field.2.toJson)).reverse := by simp [he]
  obtain ⟨field, hf, hfield⟩ := List.mem_map.mp (List.mem_reverse.mp hm)
  cases hfield
  exact hk (List.mem_map.mpr ⟨field, hf, rfl⟩)

end Shape

namespace Reader
variable {α : Type} {read : Reader α} {f : α → Layout}

theorem list_layout {items : List α}
    (h : ∀ a ∈ items, read.fromJson (f a).toJson = .ok a) :
    (list read).fromJson (Layout.list (items.map f)).toJson = .ok items := by
  have hm : (Source.ofItems (Layout.toJsonItems (items.map f))).mapM (read .value) =
      .ok items := by
    induction items with
    | nil => rfl
    | cons a items ih =>
      obtain ⟨ha, hitems⟩ := List.forall_mem_cons.mp h
      have hfirst : read .value (Source.ofJson (f a).toJson) = .ok a := ha
      simp only [List.map_cons, Layout.toJsonItems, Source.ofItems, List.mapM_cons, hfirst,
        ih hitems]
      rfl
  simp [fromJson, Layout.toJson, Source.ofJson, list, hm, Source.closing]

theorem dict_layout {entries : Dict α}
    (h : ∀ key a, entries.find? key = some a → read.fromJson (f a).toJson = .ok a) :
    (dict read).fromJson (Layout.dict f entries).toJson = .ok entries := by
  have hform : (Layout.dict f entries).toJson =
      .obj (entries.mapValues fun a => (f a).toJson) := by
    simp only [Layout.dict, Layout.toJson, Layout.toJsonFields_eq_map, List.map_map]
    exact congrArg Json.obj (Dict.ofList_map_toList entries fun a => (f a).toJson)
  rw [hform, dict_obj_iff]
  intro key
  rw [Ascending.find?_mapValues]
  cases ha : entries.find? key with
  | none => exact .inl ⟨rfl, rfl⟩
  | some a => exact .inr ⟨(f a).toJson, a, rfl, h key a ha, rfl⟩

theorem nullable_layout {a : Option α} (h : ∀ b ∈ a, read.Regains f b) :
    (nullable read).fromJson (Layout.nullable f a).toJson = .ok a := by
  cases a with
  | none => rfl
  | some b => exact nullable_ok_iff.mpr (.inr ⟨(h b rfl).1, b, (h b rfl).2, rfl⟩)

theorem string_layout (s : String) : string.fromJson (Layout.str s).toJson = .ok s := rfl

theorem bool_layout (b : Bool) : bool.fromJson (Layout.bool b).toJson = .ok b := rfl

theorem json_layout (j : Json) : json.fromJson (Layout.value j).toJson = .ok j := json_fromJson j

theorem bag_layout (bag : Bag) : Reader.bag.fromJson (Layout.bag bag).toJson = .ok bag :=
  bag_ok_iff.mpr rfl

theorem real_layout {x : Binary64} (h : x.isFinite = true) :
    real.fromJson (Layout.real x).toJson = .ok x := real_fromJson h

theorem natural_layout (n : Nat) : natural.fromJson (Layout.nat n).toJson = .ok n := by
  simp [Layout.nat, Layout.toJson, Json.nat, fromJson, Source.ofJson, natural, Number.toNat?]

theorem naturalBelow_layout {n bound : Nat} (h : n < bound) :
    (naturalBelow bound).fromJson (Layout.nat n).toJson = .ok n := by
  have hn : natural .value (Source.ofJson (Layout.nat n).toJson) = .ok n := natural_layout n
  simp [fromJson, naturalBelow, hn, h]

theorem string_regains (s : String) : string.Regains Layout.str s := ⟨nofun, rfl⟩

theorem bool_regains (b : Bool) : bool.Regains Layout.bool b := ⟨nofun, rfl⟩

theorem natural_regains (n : Nat) : natural.Regains Layout.nat n := ⟨nofun, natural_layout n⟩

theorem naturalBelow_regains {n bound : Nat} (h : n < bound) :
    (naturalBelow bound).Regains Layout.nat n := ⟨nofun, naturalBelow_layout h⟩

theorem bag_regains (bag : Bag) : Reader.bag.Regains Layout.bag bag := ⟨nofun, bag_layout bag⟩

theorem json_regains {j : Json} (h : j ≠ .null) : json.Regains Layout.value j :=
  ⟨by simpa [Layout.toJson] using h, json_layout j⟩

end Reader

theorem Shape.Restores.text {name s : String} {fields : List (String × Layout)}
    (h : Layout.field? name fields = some (Layout.str s).toJson) :
    (Shape.required name .string).Restores fields s :=
  .required h (Reader.string_layout s)

end SceneGraph
