import SceneGraph.Proofs.PathExchanges

/-!
# Data forms: which written values come back from their fields as they were written

A field is changed through its data form and read as its type. What is stored afterwards is written
anew, so an integer comes back as a float, and members that were left out come back as defaults.
-/
namespace SceneGraph

/-- What a field does to the members that are read into it. -/
inductive DataForm
  /-- Whatever is read is kept. -/
  | anything
  /-- Whatever is there is kept; what is left out takes a default. -/
  | stated
  /-- Numbers come back as floats. -/
  | number
  /-- Names come back as texts. -/
  | word
  /-- Texts come back in ascending order, each of them once. -/
  | ascending
  /-- Null is left out, and so are the known members that are null. -/
  | settings (known : List String)
  /-- Every field comes back under its name. -/
  | record (fields : Ascending DataForm none)

namespace DataForm

mutual
/-- Whether a member that is read comes back as it was written. -/
def keeps : DataForm → Option Json → Bool
  | anything, _ => true
  | stated, x => x.isSome
  | number, some (.num (.float _ _)) => true
  | word, some (.str _) => true
  | ascending, some (.arr items) => (items.filterMap Json.asString?).Pairwise (· < ·)
  | settings known, some (.obj members) => known.all fun key => members.find? key ≠ some .null
  | settings _, x => x ≠ some .null
  | record fields, some (.obj members) => keepsAll members fields
  | _, _ => false

def keepsAll (members : Bag) : {low : Option String} → Ascending DataForm low → Bool
  | _, .nil => true
  | _, .cons key _ form rest => keeps form (members.find? key) && keepsAll members rest
end

/-- The data form of a member. -/
def member (form : DataForm) (key : String) : DataForm :=
  match form with
  | settings known => if key ∈ known then settings [] else anything
  | record fields => (fields.find? key).getD anything
  | _ => anything

/-- The data form of what stands at a path. -/
def descend (form : DataForm) (path : Path) : DataForm := path.foldl member form

@[simp] theorem keeps_anything (x : Option Json) : anything.keeps x = true := by
  cases x <;> rfl

theorem keepsAll_iff {members : Bag} {low : Option String} {fields : Ascending DataForm low} :
    keepsAll members fields = true ↔
      ∀ key form, fields.find? key = some form → form.keeps (members.find? key) = true := by
  induction fields with
  | nil => simp [keepsAll]
  | cons k above form rest ih =>
    rw [keepsAll, Bool.and_eq_true, ih]
    constructor
    · rintro ⟨hform, hrest⟩ key f hf
      rw [Ascending.find?_cons] at hf
      split at hf
      · rename_i hk
        exact hk ▸ Option.some.inj hf ▸ hform
      · exact hrest key f hf
    · intro h
      refine ⟨h k form (by simp), fun key f hf => h key f ?_⟩
      -- the rest lies above the first key, so it has no entry of that key
      have hk : key ≠ k := by
        rintro rfl
        rw [Ascending.find?_eq_none_of_not_above rest (String.lt_irrefl key)] at hf
        contradiction
      rw [Ascending.find?_cons, if_neg hk, hf]

theorem keeps_record_iff {fields : Dict DataForm} {members : Bag} :
    (record fields).keeps (some (.obj members)) = true ↔
      ∀ key form, fields.find? key = some form → form.keeps (members.find? key) = true := by
  rw [keeps, keepsAll_iff]

theorem keeps_settings_iff {known : List String} {members : Bag} :
    (settings known).keeps (some (.obj members)) = true ↔
      ∀ key ∈ known, members.find? key ≠ some .null := by
  simp [keeps]

@[simp] theorem keeps_settings_nil {x : Option Json} :
    (settings []).keeps x = true ↔ x ≠ some .null := by
  cases x with
  | none => simp [keeps]
  | some j => cases j <;> simp [keeps]

section
variable {form : DataForm} {bag : Bag} {key : String} {path : Path} {x m value : Option Json}

theorem keeps_member (h : form.keeps (some (.obj bag)) = true) (key : String) :
    (form.member key).keeps (bag.find? key) = true := by
  cases form with
  | settings known =>
    rw [keeps_settings_iff] at h
    rw [member]
    split
    · rename_i hk
      exact keeps_settings_nil.mpr (h key hk)
    · simp
  | record fields =>
    rw [keeps_record_iff] at h
    rw [member]
    cases hf : fields.find? key with
    | none => simp
    | some f => exact h key f hf
  | _ => simp [member]

/-- Where an object is kept, changing one member matters for the form of that member only. -/
theorem keeps_assign_iff (h : form.keeps (some (.obj bag)) = true) :
    form.keeps (some (.obj (bag.assign [key] m))) = true ↔ (form.member key).keeps m = true := by
  have hself : (bag.assign [key] m).find? key = m := Bag.find?_assign_self bag key m
  refine ⟨fun hm => hself ▸ keeps_member hm key, fun hm => ?_⟩
  cases form with
  | anything => simp
  | stated => rfl
  | settings known =>
    rw [keeps_settings_iff] at h ⊢
    intro k hk
    by_cases he : k = key
    · rw [he, hself]
      rw [member, if_pos (he ▸ hk)] at hm
      exact keeps_settings_nil.mp hm
    · rw [Bag.find?_assign_of_ne bag he]
      exact h k hk
  | record fields =>
    rw [keeps_record_iff] at h ⊢
    intro k f hf
    by_cases he : k = key
    · rw [he, hself]
      rwa [member, ← he, hf] at hm
    · rw [Bag.find?_assign_of_ne bag he]
      exact h k f hf
  | _ => contradiction

/-- A member that may be missing may be an empty object. -/
theorem keeps_empty (h : form.keeps none = true) : form.keeps (some (.obj .nil)) = true := by
  cases form with
  | settings known => simp [keeps_settings_iff]
  | anything => simp
  | _ => contradiction

theorem keeps_descend_none (h : form.keeps none = true) (path : Path) :
    (form.descend path).keeps none = true := by
  induction path generalizing form with
  | nil => exact h
  | cons key path ih => exact ih (keeps_member (keeps_empty h) key)

/-- What is kept stays kept by a write exactly when the value written is kept where it goes. -/
theorem keeps_written_iff (hx : form.keeps x = true) (h : Written value path x m) :
    form.keeps m = true ↔ (form.descend path).keeps value = true := by
  induction h generalizing form with
  | here => rfl
  | @step bag key rest m _ ih => exact (keeps_assign_iff hx).trans (ih (keeps_member hx key))
  | @made key rest m _ _ ih =>
    have hempty := keeps_empty hx
    exact (keeps_assign_iff hempty).trans (ih (keeps_member hempty key))
  | absent removal => exact iff_of_true hx (removal ▸ keeps_descend_none hx _)

end
end DataForm
end SceneGraph
