import SceneGraph.PropertyPaths
import SceneGraph.Documents
import SceneGraph.Proofs.DictionaryLaws

/-!
# Standing paths: records written alike have the same paths in them

Two values are `Alike` when the same paths stand in them. Layouts of one record type are alike, so a
path that stands in one of them stands in all of them.
-/
namespace SceneGraph

namespace Json

/-- Whether every step of a path exists. -/
def has (j : Json) : Path → Bool
  | [] => true
  | key :: path =>
    match j.member? key with
    | some inner => inner.has path
    | none => false

/-- Two values have the same paths in them. -/
def Alike (j j' : Json) : Prop := ∀ path, j.has path = j'.has path

theorem Alike.of_scalar {j j' : Json} (h : ∀ key, j.member? key = none)
    (h' : ∀ key, j'.member? key = none) : Alike j j' := by
  intro path
  cases path <;> simp [has, h, h']

@[simp] theorem str_alike (s s' : String) : Alike (.str s) (.str s') :=
  .of_scalar (fun _ => rfl) (fun _ => rfl)

@[simp] theorem bool_alike (b b' : Bool) : Alike (.bool b) (.bool b') :=
  .of_scalar (fun _ => rfl) (fun _ => rfl)

@[simp] theorem real_alike (x x' : Binary64) : Alike (real x) (real x') := by
  have h : ∀ (x : Binary64) key, (real x).member? key = none := by
    intro x key
    unfold real
    split <;> rfl
  exact .of_scalar (h x) (h x')

@[simp] theorem nullable_alike (s s' : Option String) :
    Alike (Layout.nullable .str s).toJson (Layout.nullable .str s').toJson := by
  have h : ∀ (s : Option String) key, (Layout.nullable .str s).toJson.member? key = none := by
    intro s key
    cases s <;> rfl
  exact .of_scalar (h s) (h s')

private theorem lookup_alike {fields fields' : List (String × Json)} (key : String)
    (h : List.Forall₂ (fun field field' => field.1 = field'.1 ∧ Alike field.2 field'.2) fields
      fields') :
    (fields.lookup key = none ∧ fields'.lookup key = none) ∨
      ∃ j j', fields.lookup key = some j ∧ fields'.lookup key = some j' ∧ Alike j j' := by
  induction h with
  | nil => exact .inl ⟨rfl, rfl⟩
  | @cons field field' rest rest' hf hr ih =>
    obtain ⟨name, j⟩ := field
    obtain ⟨name', j'⟩ := field'
    obtain rfl : name = name' := hf.1
    by_cases hk : key = name
    · exact .inr ⟨j, j', by simp [hk], by simp [hk], hf.2⟩
    · simpa [List.lookup_cons, beq_false_of_ne hk] using ih

/-- Records with the same fields are alike when their fields are. -/
theorem record_alike {fields fields' : List (String × Json)}
    (h : List.Forall₂ (fun field field' => field.1 = field'.1 ∧ Alike field.2 field'.2) fields
      fields') : Alike (.obj (Dict.ofList fields)) (.obj (Dict.ofList fields')) := by
  intro path
  cases path with
  | nil => rfl
  | cons key path =>
    simp only [has, member?, Dict.find?_ofList]
    rcases lookup_alike key (List.rel_reverse h) with ⟨hn, hn'⟩ | ⟨j, j', hj, hj', ha⟩
    · simp [hn, hn']
    · simpa [hj, hj'] using ha path

theorem isSome_get? (bag : Bag) (key : String) (path : Path) :
    (Bag.get? bag (key :: path)).isSome = (obj bag).has (key :: path) := by
  induction path generalizing bag key with
  | nil => cases h : bag.find? key <;> simp [Bag.get?, has, member?, h]
  | cons next path ih =>
    cases h : bag.find? key with
    | none => simp [Bag.get?, has, member?, h]
    | some j =>
      cases j with
      | obj inner => simpa [Bag.get?, has, member?, h] using ih inner next
      | _ => simp [Bag.get?, has, member?, h]

end Json

open Json

theorem Vec3.layout_alike (v v' : Vec3) : Alike v.layout.toJson v'.layout.toJson :=
  record_alike (by simp [Layout.toJsonFields, Layout.real, Layout.toJson])

theorem Quat.layout_alike (q q' : Quat) : Alike q.layout.toJson q'.layout.toJson :=
  record_alike (by simp [Layout.toJsonFields, Layout.real, Layout.toJson])

theorem Transform.layout_alike (t t' : Transform) : Alike t.layout.toJson t'.layout.toJson :=
  record_alike (by simp [Layout.toJsonFields, Vec3.layout_alike, Quat.layout_alike])

namespace Environment

private theorem skybox_alike (s s' : Skybox) : Alike s.layout.toJson s'.layout.toJson :=
  record_alike (by simp [Layout.toJsonFields, Layout.str, Layout.toJson])

private theorem fog_alike (f f' : Fog) : Alike f.layout.toJson f'.layout.toJson :=
  record_alike (by simp [Layout.toJsonFields, Layout.str, Layout.bool, Layout.real, Layout.toJson])

private theorem light_alike (l l' : AmbientLight) : Alike l.layout.toJson l'.layout.toJson :=
  record_alike (by simp [Layout.toJsonFields, Layout.str, Layout.real, Layout.toJson])

theorem layout_alike (e e' : Environment) : Alike e.layout.toJson e'.layout.toJson :=
  record_alike (by
    simp [Layout.toJsonFields, skybox_alike, fog_alike, light_alike, Vec3.layout_alike])

end Environment
end SceneGraph
