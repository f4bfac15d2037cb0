import SceneGraph.Documents
import SceneGraph.Proofs.Renewals

/-!
# Stored forms: what is written is read back, and is changed field by field

Vectors, rotations, transforms and the sections of the environment are read back from their layouts.
When something is written into such a layout the record is renewed slot by slot, so a write changes
the member that it is made in and no other.
-/
namespace SceneGraph
open Renewal Shape

namespace Renewal
variable {α : Type} {read : Reader α} {form : α → Json}

/-- A field of a record of which some fields may have to be there. -/
def field (c : Completeness) (read : Reader α) (form : α → Json) (default : α) : Renewal :=
  match c with
  | .lenient => defaulted read form default
  | .strict => required read form

theorem required_of_build {name : String} {bag : Bag} {a : α}
    (h : (Shape.required name read).build .value (lookups bag) = .ok a) :
    required read form (bag.find? name) (some (form a)) := by
  obtain ⟨j, hj, ha⟩ := build_required_ok_iff.mp h
  exact ⟨j, a, hj, ha, rfl⟩

theorem field_of_build {c : Completeness} {name : String} {default : α} {bag : Bag} {a : α}
    (h : (c.field name read default).build .value (lookups bag) = .ok a) :
    field c read form default (bag.find? name) (some (form a)) := by
  cases c with
  | strict => exact required_of_build h
  | lenient =>
    rcases build_defaulted_ok_iff.mp h with ⟨j, hj, ha⟩ | ⟨hn, rfl⟩
    · exact .inl ⟨j, a, hj, ha, rfl⟩
    · exact .inr ⟨hn, rfl⟩

theorem field_functional (c : Completeness) (default : α) :
    (field c read form default).Functional := by
  cases c
  · exact defaulted_functional read form default
  · exact required_functional read form

theorem Local.field (h : (required read form).Local) (c : Completeness) (default : α) :
    (field c read form default).Local := by
  cases c with
  | strict => exact h
  | lenient =>
    rintro bag path value y (hb | ⟨hx, -⟩) ho (hy | ⟨hx, -⟩)
    · exact h hb ho hy
    all_goals contradiction

/-- Nothing that is written as something else than an object can be changed inside. -/
theorem Local.of_scalar (h : ∀ a bag, form a ≠ .obj bag) : (required read form).Local :=
  .of_leaf fun bag ⟨_, a, _, _, hb⟩ => h a bag (Option.some.inj hb).symm

theorem refused_local : refused.Local := .of_leaf fun _ h => nomatch h.1

end Renewal

theorem Completeness.field_sound {α : Type} {c : Completeness} {name : String} {read : Reader α}
    {default : α} : (c.field name read default).Sound := by
  cases c <;> exact Sound.field

@[simp] theorem Completeness.checks_field {α : Type} (c : Completeness) (name : String)
    (read : Reader α) (default : α) : (c.field name read default).checks.map (·.1) = [name] := by
  cases c <;> rfl

/-- A field that is there is read in the same way, whether or not it has to be there. -/
theorem Completeness.build_field_iff {α : Type} (c : Completeness) {name : String}
    {read : Reader α} {default : α} {members : Bag} {j : Json} {a : α}
    (hj : members.find? name = some j) :
    (c.field name read default).build .value (lookups members) = .ok a ↔
      read.fromJson j = .ok a := by
  cases c <;> simp [Completeness.field, hj]

theorem Completeness.build_field {α : Type} (c : Completeness) {name : String} {read : Reader α}
    {default : α} {items : List (String × Json)} {j : Json} {a : α}
    (hj : items.reverse.lookup name = some j) (ha : read.fromJson j = .ok a) :
    (c.field name read default).build .value (lookups (Dict.ofList items)) = .ok a :=
  (c.build_field_iff ((Dict.find?_ofList items name).trans hj)).mpr ha

theorem real_ne_obj (x : Binary64) (bag : Bag) : Json.real x ≠ .obj bag := by
  unfold Json.real
  split <;> simp

theorem real_local : (required Reader.real Json.real).Local := .of_scalar real_ne_obj

namespace Vec3

theorem shape_sound : shape.Sound := .seq (.seq (.map .field) .field) .field

def slots : List (String × Renewal) := ["x", "y", "z"].map (·, required Reader.real Json.real)

theorem memberwise : (required reader (·.layout.toJson)).Memberwise (members slots) := by
  refine memberwise_record shape_sound (fun _ => rfl) rfl (fun _ => rfl) ?_
  intro bag v hb
  simp only [shape, build_seq_ok_iff, build_map_ok_iff] at hb
  obtain ⟨_, ⟨_, ⟨x, hx, rfl⟩, y, hy, rfl⟩, z, hz, rfl⟩ := hb
  simp only [slots, List.map, List.forall_mem_cons, Dict.find?_ofList]
  exact ⟨required_of_build hx, required_of_build hy, required_of_build hz, by simp⟩

theorem renewal_local : (required reader (·.layout.toJson)).Local :=
  .of_memberwise memberwise
    (members_all refused_functional (by simp [slots, required_functional]))
    (members_all refused_local (by simp [slots, real_local]))

theorem reader_layout {v : Vec3} (h : v.isFinite = true) :
    reader.fromJson v.layout.toJson = .ok v := by
  simp only [isFinite, Bool.and_eq_true] at h
  refine record_ofList shape_sound (by simp [Layout.toJsonFields, shape]) ?_
  simp [shape, Dict.find?_ofList, Layout.toJsonFields, List.lookup_cons, Layout.real, Layout.toJson,
    Reader.real_fromJson, h]

/-- A vector that is read back at all is read back as itself. -/
theorem of_layout {v v' : Vec3} (h : reader.fromJson v.layout.toJson = .ok v') : v' = v := by
  obtain ⟨-, hb⟩ := (record_refused_iff shape_sound).mp h
  simp only [shape, build_seq_ok_iff, build_map_ok_iff, build_required_ok_iff,
    Dict.find?_ofList] at hb
  obtain ⟨_, ⟨_, ⟨x, ⟨_, ⟨⟩, hx⟩, rfl⟩, y, ⟨_, ⟨⟩, hy⟩, rfl⟩, z, ⟨_, ⟨⟩, hz⟩, rfl⟩ := hb
  rw [Reader.real_of_real hx, Reader.real_of_real hy, Reader.real_of_real hz]

end Vec3

namespace Quat

theorem shape_sound : shape.Sound := .seq (.seq (.seq (.map .field) .field) .field) .field

def slots : List (String × Renewal) :=
  ["x", "y", "z", "w"].map (·, required Reader.real Json.real)

theorem memberwise : (required reader (·.layout.toJson)).Memberwise (members slots) := by
  refine memberwise_record shape_sound (fun _ => rfl) rfl (fun _ => rfl) ?_
  intro bag q hb
  simp only [shape, build_seq_ok_iff, build_map_ok_iff] at hb
  obtain ⟨_, ⟨_, ⟨_, ⟨x, hx, rfl⟩, y, hy, rfl⟩, z, hz, rfl⟩, w, hw, rfl⟩ := hb
  simp only [slots, List.map, List.forall_mem_cons, Dict.find?_ofList]
  exact ⟨required_of_build hx, required_of_build hy, required_of_build hz, required_of_build hw,
    by simp⟩

theorem renewal_local : (required reader (·.layout.toJson)).Local :=
  .of_memberwise memberwise
    (members_all refused_functional (by simp [slots, required_functional]))
    (members_all refused_local (by simp [slots, real_local]))

theorem reader_layout {q : Quat} (h : q.isFinite = true) :
    reader.fromJson q.layout.toJson = .ok q := by
  simp only [isFinite, Bool.and_eq_true] at h
  refine record_ofList shape_sound (by simp [Layout.toJsonFields, shape]) ?_
  simp [shape, Dict.find?_ofList, Layout.toJsonFields, List.lookup_cons, Layout.real, Layout.toJson,
    Reader.real_fromJson, h]

theorem of_layout {q q' : Quat} (h : reader.fromJson q.layout.toJson = .ok q') : q' = q := by
  obtain ⟨-, hb⟩ := (record_refused_iff shape_sound).mp h
  simp only [shape, build_seq_ok_iff, build_map_ok_iff, build_required_ok_iff,
    Dict.find?_ofList] at hb
  obtain ⟨_, ⟨_, ⟨_, ⟨x, ⟨_, ⟨⟩, hx⟩, rfl⟩, y, ⟨_, ⟨⟩, hy⟩, rfl⟩, z, ⟨_, ⟨⟩, hz⟩, rfl⟩, w,
    ⟨_, ⟨⟩, hw⟩, rfl⟩ := hb
  rw [Reader.real_of_real hx, Reader.real_of_real hy, Reader.real_of_real hz,
    Reader.real_of_real hw]

end Quat

namespace Transform

theorem shape_sound : shape.Sound := .seq (.seq (.map .field) .field) .field

def slots : List (String × Renewal) :=
  [("position", required Vec3.reader (·.layout.toJson)),
    ("rotation", required Quat.reader (·.layout.toJson)),
    ("scale", required Vec3.reader (·.layout.toJson))]

theorem memberwise : (required reader (·.layout.toJson)).Memberwise (members slots) := by
  refine memberwise_record shape_sound (fun _ => rfl) rfl (fun _ => rfl) ?_
  intro bag t hb
  simp only [shape, build_seq_ok_iff, build_map_ok_iff] at hb
  obtain ⟨_, ⟨_, ⟨position, hp, rfl⟩, rotation, hr, rfl⟩, scale, hs, rfl⟩ := hb
  simp only [slots, List.forall_mem_cons, Dict.find?_ofList]
  exact ⟨required_of_build hp, required_of_build hr, required_of_build hs, by simp⟩

theorem renewal_local : (required reader (·.layout.toJson)).Local :=
  .of_memberwise memberwise
    (members_all refused_functional (by simp [slots, required_functional]))
    (members_all refused_local (by simp [slots, Vec3.renewal_local, Quat.renewal_local]))

theorem reader_layout {t : Transform} (h : t.isFinite = true) :
    reader.fromJson t.layout.toJson = .ok t := by
  simp only [isFinite, Bool.and_eq_true] at h
  refine record_ofList shape_sound (by simp [Layout.toJsonFields, shape]) ?_
  simp [shape, Dict.find?_ofList, Layout.toJsonFields, List.lookup_cons, Vec3.reader_layout,
    Quat.reader_layout, h]

/-- A transform is read part by part. -/
theorem parts_of_reader {members : Bag} {t : Transform}
    (h : reader.fromJson (.obj members) = .ok t) :
    (∃ j, members.find? "position" = some j ∧ Vec3.reader.fromJson j = .ok t.position) ∧
      (∃ j, members.find? "rotation" = some j ∧ Quat.reader.fromJson j = .ok t.rotation) ∧
        ∃ j, members.find? "scale" = some j ∧ Vec3.reader.fromJson j = .ok t.scale := by
  obtain ⟨-, hb⟩ := (record_refused_iff shape_sound).mp h
  simp only [shape, build_seq_ok_iff, build_map_ok_iff, build_required_ok_iff] at hb
  obtain ⟨_, ⟨_, ⟨position, hp, rfl⟩, rotation, hr, rfl⟩, scale, hs, rfl⟩ := hb
  exact ⟨hp, hr, hs⟩

end Transform

section Scalars
variable (c : Completeness)

private theorem str_local {α : Type} {read : Reader α} (name : α → String) :
    (required read fun a => .str (name a)).Local := .of_scalar nofun

theorem bool_local : (required Reader.bool Json.bool).Local := .of_scalar nofun

/-- How an optional text is written. -/
def optionalText (s : Option String) : Json := (Layout.nullable .str s).toJson

private theorem optionalText_local :
    (required (Reader.nullable .string) optionalText).Local := by
  refine .of_scalar fun s bag => ?_
  cases s <;> simp [optionalText, Layout.nullable, Layout.null, Layout.str, Layout.toJson]

theorem nullable_optionalText (s : Option String) :
    (Reader.nullable .string).fromJson (optionalText s) = .ok s := by
  cases s <;> rfl

end Scalars

theorem SkyboxType.reader_name (t : SkyboxType) : reader.fromJson (.str t.name) = .ok t := by
  cases t <;> rfl

theorem FogType.reader_name (t : FogType) : reader.fromJson (.str t.name) = .ok t := by
  cases t <;> rfl

namespace Skybox
variable {c : Completeness}

theorem shape_sound : (shape c).Sound :=
  .seq (.seq (.map c.field_sound) c.field_sound) c.field_sound

def slots (c : Completeness) : List (String × Renewal) :=
  [("type", field c SkyboxType.reader (.str ·.name) default.skyboxType),
    ("color", field c (.nullable .string) optionalText default.color),
    ("uri", field c (.nullable .string) optionalText default.uri)]

theorem memberwise :
    (required (reader c) (·.layout.toJson)).Memberwise (members (slots c)) := by
  refine @memberwise_record _ (shape c) shape_sound _ _ _ (fun _ => rfl)
    (by simp [shape, slots]) (fun _ => rfl) ?_
  intro bag s hb
  simp only [shape, build_seq_ok_iff, build_map_ok_iff] at hb
  obtain ⟨_, ⟨_, ⟨type, ht, rfl⟩, color, hc, rfl⟩, uri, hu, rfl⟩ := hb
  simp only [slots, List.forall_mem_cons, Dict.find?_ofList]
  exact ⟨field_of_build ht, field_of_build hc, field_of_build hu, by simp⟩

theorem renewal_local : (required (reader c) (·.layout.toJson)).Local :=
  .of_memberwise memberwise
    (members_all refused_functional (by simp [slots, field_functional]))
    (members_all refused_local (by
      simp [slots, Local.field (str_local _), Local.field optionalText_local]))

theorem reader_layout (s : Skybox) : (reader c).fromJson s.layout.toJson = .ok s := by
  refine @record_ofList _ (shape c) shape_sound _ _ (by simp [Layout.toJsonFields, shape]) ?_
  simp only [shape, build_seq_ok_iff, build_map_ok_iff]
  exact ⟨_, ⟨_, ⟨_, c.build_field rfl (SkyboxType.reader_name _), rfl⟩,
    _, c.build_field rfl (nullable_optionalText _), rfl⟩,
    _, c.build_field rfl (nullable_optionalText _), rfl⟩

end Skybox

namespace Fog
variable {c : Completeness}

theorem shape_sound : (shape c).Sound :=
  .seq (.seq (.seq (.seq (.seq (.map c.field_sound) c.field_sound) c.field_sound) c.field_sound)
    c.field_sound) c.field_sound

def slots (c : Completeness) : List (String × Renewal) :=
  [("enabled", field c .bool .bool default.enabled),
    ("type", field c FogType.reader (.str ·.name) default.fogType),
    ("color", field c .string .str default.color), ("near", field c .real Json.real default.near),
    ("far", field c .real Json.real default.far),
    ("density", field c .real Json.real default.density)]

theorem memberwise :
    (required (reader c) (·.layout.toJson)).Memberwise (members (slots c)) := by
  refine @memberwise_record _ (shape c) shape_sound _ _ _ (fun _ => rfl)
    (by simp [shape, slots]) (fun _ => rfl) ?_
  intro bag f hb
  simp only [shape, build_seq_ok_iff, build_map_ok_iff] at hb
  obtain ⟨_, ⟨_, ⟨_, ⟨_, ⟨_, ⟨enabled, he, rfl⟩, type, ht, rfl⟩, color, hc, rfl⟩, near, hn, rfl⟩,
    far, hf, rfl⟩, density, hd, rfl⟩ := hb
  simp only [slots, List.forall_mem_cons, Dict.find?_ofList]
  exact ⟨field_of_build he, field_of_build ht, field_of_build hc, field_of_build hn,
    field_of_build hf, field_of_build hd, by simp⟩

theorem renewal_local : (required (reader c) (·.layout.toJson)).Local :=
  .of_memberwise memberwise
    (members_all refused_functional (by simp [slots, field_functional]))
    (members_all refused_local (by
      simp [slots, Local.field bool_local, Local.field (str_local _), Local.field real_local]))

theorem reader_layout {f : Fog} (hn : f.near.isFinite = true) (hf : f.far.isFinite = true)
    (hd : f.density.isFinite = true) : (reader c).fromJson f.layout.toJson = .ok f := by
  refine @record_ofList _ (shape c) shape_sound _ _ (by simp [Layout.toJsonFields, shape]) ?_
  simp only [shape, build_seq_ok_iff, build_map_ok_iff]
  exact ⟨_, ⟨_, ⟨_, ⟨_, ⟨_, ⟨_, c.build_field rfl (Reader.bool_fromJson _), rfl⟩,
    _, c.build_field rfl (FogType.reader_name _), rfl⟩,
    _, c.build_field rfl (Reader.string_fromJson _), rfl⟩,
    _, c.build_field rfl (Reader.real_fromJson hn), rfl⟩,
    _, c.build_field rfl (Reader.real_fromJson hf), rfl⟩,
    _, c.build_field rfl (Reader.real_fromJson hd), rfl⟩

end Fog

namespace AmbientLight
variable {c : Completeness}

theorem shape_sound : (shape c).Sound := .seq (.map c.field_sound) c.field_sound

def slots (c : Completeness) : List (String × Renewal) :=
  [("color", field c .string .str default.color),
    ("intensity", field c .real Json.real default.intensity)]

theorem memberwise :
    (required (reader c) (·.layout.toJson)).Memberwise (members (slots c)) := by
  refine @memberwise_record _ (shape c) shape_sound _ _ _ (fun _ => rfl)
    (by simp [shape, slots]) (fun _ => rfl) ?_
  intro bag l hb
  simp only [shape, build_seq_ok_iff, build_map_ok_iff] at hb
  obtain ⟨_, ⟨color, hc, rfl⟩, intensity, hi, rfl⟩ := hb
  simp only [slots, List.forall_mem_cons, Dict.find?_ofList]
  exact ⟨field_of_build hc, field_of_build hi, by simp⟩

theorem renewal_local : (required (reader c) (·.layout.toJson)).Local :=
  .of_memberwise memberwise
    (members_all refused_functional (by simp [slots, field_functional]))
    (members_all refused_local (by
      simp [slots, Local.field (str_local _), Local.field real_local]))

theorem reader_layout {l : AmbientLight} (h : l.intensity.isFinite = true) :
    (reader c).fromJson l.layout.toJson = .ok l := by
  refine @record_ofList _ (shape c) shape_sound _ _ (by simp [Layout.toJsonFields, shape]) ?_
  simp only [shape, build_seq_ok_iff, build_map_ok_iff]
  exact ⟨_, ⟨_, c.build_field rfl (Reader.string_fromJson _), rfl⟩,
    _, c.build_field rfl (Reader.real_fromJson h), rfl⟩

end AmbientLight

namespace Environment
variable {c : Completeness}

theorem shape_sound : (shape c).Sound :=
  .seq (.seq (.seq (.map c.field_sound) c.field_sound) c.field_sound) c.field_sound

def slots (c : Completeness) : List (String × Renewal) :=
  [("skybox", field c (Skybox.reader c) (·.layout.toJson) default.skybox),
    ("fog", field c (Fog.reader c) (·.layout.toJson) default.fog),
    ("ambientLight", field c (AmbientLight.reader c) (·.layout.toJson) default.ambientLight),
    ("gravity", field c Vec3.reader (·.layout.toJson) default.gravity)]

theorem memberwise :
    (required (reader c) (·.layout.toJson)).Memberwise (members (slots c)) := by
  refine @memberwise_record _ (shape c) shape_sound _ _ _ (fun _ => rfl)
    (by simp [shape, slots]) (fun _ => rfl) ?_
  intro bag e hb
  simp only [shape, build_seq_ok_iff, build_map_ok_iff] at hb
  obtain ⟨_, ⟨_, ⟨_, ⟨skybox, hs, rfl⟩, fog, hf, rfl⟩, light, hl, rfl⟩, gravity, hg, rfl⟩ := hb
  simp only [slots, List.forall_mem_cons, Dict.find?_ofList]
  exact ⟨field_of_build hs, field_of_build hf, field_of_build hl, field_of_build hg, by simp⟩

theorem renewal_local : (required (reader c) (·.layout.toJson)).Local :=
  .of_memberwise memberwise
    (members_all refused_functional (by simp [slots, field_functional]))
    (members_all refused_local (by
      simp [slots, Local.field Skybox.renewal_local, Local.field Fog.renewal_local,
        Local.field AmbientLight.renewal_local, Local.field Vec3.renewal_local]))

theorem reader_layout {e : Environment} (h : e.isFinite = true) :
    (reader c).fromJson e.layout.toJson = .ok e := by
  simp only [isFinite, Bool.and_eq_true] at h
  obtain ⟨⟨⟨⟨hn, hf⟩, hd⟩, hi⟩, hg⟩ := h
  refine @record_ofList _ (shape c) shape_sound _ _ (by simp [Layout.toJsonFields, shape]) ?_
  simp only [shape, build_seq_ok_iff, build_map_ok_iff]
  exact ⟨_, ⟨_, ⟨_, ⟨_, c.build_field rfl (Skybox.reader_layout _), rfl⟩,
    _, c.build_field rfl (Fog.reader_layout hn hf hd), rfl⟩,
    _, c.build_field rfl (AmbientLight.reader_layout hi), rfl⟩,
    _, c.build_field rfl (Vec3.reader_layout hg), rfl⟩

end Environment
end SceneGraph
