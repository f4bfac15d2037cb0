import SceneGraph.Proofs.AcceptedEdits
import SceneGraph.Proofs.KeptForms
import SceneGraph.Proofs.PropertyParts

/-!
# Reported values: what a property write says it replaced and what it says is there now

The value that a write replaced is told as it was. The value that is there now is told before the
field has been read, so it is right only where the field keeps what was written.
-/
namespace SceneGraph
open Renewal DataForm

namespace PropertyWrite
variable {α : Type} {read : Reader α} {stored : α → Json} {a a' : α} {form : DataForm}
  {text key : String} {rest : Path} {value : Option Json} {w : PropertyWrite}

theorem find?_holder_eq (root : String) (j : Json) : (holder root j).find? root = unlessNull j := by
  unfold holder unlessNull
  split <;> simp

theorem head_prior (h : inField read (stored a) text (key :: rest) value = .ok (a', w)) :
    w.prior.path.headD "" = key := by
  obtain ⟨written, hw, -⟩ := inField_ok_iff.mp h
  obtain ⟨-, ho, -, ⟨more, hpre⟩, -⟩ := inBag_cases hw
  cases hq : w.prior.path with
  | nil =>
    rw [hq] at ho
    contradiction
  | cons root steps =>
    rw [hq] at hpre
    exact (List.cons.inj hpre).1

theorem prior_value (h : inField read (stored a) text (key :: rest) value = .ok (a', w)) :
    w.prior.value = Bag.get? (holder key (stored a)) w.prior.path := by
  obtain ⟨written, hw, -⟩ := inField_ok_iff.mp h
  obtain ⟨-, -, hv, -⟩ := inBag_cases hw
  exact hv

private theorem current_of_inBag {bag written : Bag} {path : Path}
    (h : inBag bag path value = .ok (written, w)) : w.current = Bag.get? written w.prior.path := by
  obtain ⟨prior, -, hb⟩ := bind_ok_iff.mp h
  obtain ⟨put, -, hb⟩ := bind_ok_iff.mp hb
  cases hb
  rfl

/-- A bag that is made from a field's by changing only the field is that of another value exactly
when it holds the form of that value. -/
private theorem eq_holder_iff {bag : Bag} {m : Option Json} {j other : Json}
    (h : bag = (holder key j).assign [key] m) : bag = holder key other ↔ m = unlessNull other := by
  obtain ⟨m', hm'⟩ := holder_assign_root key j other
  have hroot : m' = unlessNull other := by
    rw [← find?_holder_eq key, hm', Bag.find?_assign_self]
  constructor
  · intro he
    rw [← find?_holder_eq key, ← he, h, Bag.find?_assign_self]
  · intro he
    rw [h, hm', he, hroot]

/-- The report is right exactly when the field keeps the value where it was written. -/
theorem current_iff (hl : (required read stored).Local) (hf : (held read stored).Fixes form)
    (hr : read.fromJson (stored a) = .ok a)
    (h : inField read (stored a) text (key :: rest) value = .ok (a', w)) :
    w.current = Bag.get? (holder key (stored a')) w.prior.path ↔
      (form.descend rest).keeps value = true := by
  obtain ⟨z, hz⟩ := holder_of_inField hl hr h
  obtain ⟨written, hw, ha'⟩ := inField_ok_iff.mp h
  obtain ⟨-, ho, -, -, x, hx⟩ := inBag_cases hw
  simp only [List.headD_cons] at hz hw ha' ho hx
  -- both the bag written and the bag of the new field change the old one in the same position
  have hsame : w.current = Bag.get? (holder key (stored a')) w.prior.path ↔
      written = holder key (stored a') := by
    refine ⟨fun hc => ?_, fun he => he ▸ current_of_inBag hw⟩
    rw [current_of_inBag hw, hx, hz, Bag.get?_assign ho, Bag.get?_assign ho] at hc
    rw [hx, hz, hc]
  obtain ⟨m, hm, hmember⟩ := Bag.put_ok_iff.mp (exists_inBag_iff.mp ⟨w, hw⟩)
  rw [find?_holder_eq] at hm
  have hfind : written.find? key = m := hmember ▸ Bag.find?_assign_self _ key m
  have hread : held read stored m (unlessNull (stored a')) := ⟨a', hfind ▸ ha', rfl⟩
  have hbefore : form.keeps (unlessNull (stored a)) = true :=
    (hf ⟨a, (unlessNull_getD _).symm ▸ hr, rfl⟩).mp rfl
  exact hsame.trans ((eq_holder_iff hmember).trans
    ((hf hread).trans (keeps_written_iff hbefore hm)))

/-- What stands at a path where every field has its data form. -/
def valueAt (stored : String → Json) (path : Path) : Option Json :=
  Bag.get? (holder (path.headD "") (stored (path.headD ""))) path

/-- Whether a value that is written to an address is kept there. -/
def keepsAt (dataForm : String → DataForm) (text : String) (value : Option Json) : Bool :=
  ((dataForm ((Path.steps text).headD "")).descend (Path.steps text).tail).keeps value

end PropertyWrite

/-- A write of a property tells what it replaced, and it tells what is there now exactly when the
value is kept. -/
theorem Property.reported_iff {σ : Type} {property : String → Property σ}
    {stored : σ → String → Json} {dataForm : String → DataForm} {removable? : Path → Option Bool}
    {write : Path → Except OpError (σ × PropertyWrite)} {text : String} {value : Option Json}
    {s s' : σ} {w : PropertyWrite}
    (hl : ∀ key, (required (property key).read (property key).form).Local)
    (hf : ∀ key, (held (property key).read (property key).form).Fixes (dataForm key))
    (hstored : ∀ s key, stored s key = (property key).form ((property key).lens.get s))
    (hs : ∀ key, (property key).Stored s)
    (hwrite : ∀ key rest, write (key :: rest) = (do
      let r ← PropertyWrite.inField (property key).read
        ((property key).form ((property key).lens.get s)) text (key :: rest) value
      return ((property key).lens.set s r.1, r.2)))
    (h : (PropertyWrite.address removable? text value >>= write) = .ok (s', w)) :
    w.prior.value = PropertyWrite.valueAt (stored s) w.prior.path ∧
      (w.current = PropertyWrite.valueAt (stored s') w.prior.path ↔
        PropertyWrite.keepsAt dataForm text value = true) := by
  obtain ⟨path, haddress, hw⟩ := bind_ok_iff.mp h
  obtain rfl := Path.eq_steps (PropertyWrite.address_ok_iff.mp haddress).1
  obtain ⟨key, rest, hsteps⟩ := Path.exists_steps text
  rw [hsteps, hwrite] at hw
  obtain ⟨⟨a', w'⟩, hfield, hw⟩ := bind_ok_iff.mp hw
  obtain ⟨rfl, rfl⟩ := Prod.mk.inj (pure_ok_iff.mp hw)
  simp only [PropertyWrite.valueAt, PropertyWrite.keepsAt, PropertyWrite.head_prior hfield, hstored,
    (property key).lens.get_set, hsteps, List.headD_cons, List.tail_cons]
  exact ⟨PropertyWrite.prior_value hfield,
    PropertyWrite.current_iff (hl key) (hf key) (hs key) hfield⟩

namespace Entity
variable {e e' : Entity} {text key : String} {rest : Path} {value : Option Json}
  {w : PropertyWrite}

/-- What stands at a path in the data form of an entity. -/
def valueAt (e : Entity) (path : Path) : Option Json := PropertyWrite.valueAt e.stored path

/-- The data form of the property that an address starts with. -/
def dataForm : String → DataForm
  | "name" | "visible" | "locked" => .anything
  | "tags" => .ascending
  | "transform" => Transform.dataForm
  | _ => .settings []

/-- Whether a value is stored just as it is written to an address. -/
def keeps (text : String) (value : Option Json) : Bool := PropertyWrite.keepsAt dataForm text value

private theorem property_else (hn : key ≠ "name") (hv : key ≠ "visible") (hl : key ≠ "locked")
    (ht : key ≠ "tags") (hf : key ≠ "transform") : property key = tuningProperty := by
  unfold property
  split <;> first | contradiction | rfl

theorem property_fixes (key : String) :
    (held (property key).read (property key).form).Fixes (dataForm key) := by
  unfold dataForm
  split
  · exact text_fixes.always.held Reader.string_stable fun _ h => by cases h
  · exact flag_fixes.always.held Reader.bool_stable fun _ h => by cases h
  · exact flag_fixes.always.held Reader.bool_stable fun _ h => by cases h
  · exact tags_fixes.held tags_stable fun _ h => by cases h
  · exact Transform.fixes.held Transform.stable (record_null_ne _ _)
  · rw [property_else ‹_› ‹_› ‹_› ‹_› ‹_›]
    exact optionalTuning_fixes

theorem property_local (key : String) :
    (required (property key).read (property key).form).Local :=
  @property_induction (fun f => (required f.read f.form).Local) string_local bool_local bool_local
    tags_local Transform.renewal_local optionalTuning_local key

theorem stored_eq (e : Entity) (key : String) :
    e.stored key = (property key).form ((property key).lens.get e) := by
  unfold stored
  split
  · rfl
  · rfl
  · rfl
  · rfl
  · rfl
  · rw [property_else ‹_› ‹_› ‹_› ‹_› ‹_›]
    rfl

theorem writeField_eq : e.writeField text (key :: rest) value = (do
    let r ← PropertyWrite.inField (property key).read
      ((property key).form ((property key).lens.get e)) text (key :: rest) value
    return ((property key).lens.set e r.1, r.2)) := by
  unfold writeField
  simp only [List.headD_cons]
  split
  · rfl
  · rfl
  · rfl
  · rfl
  · rfl
  · rw [property_else ‹_› ‹_› ‹_› ‹_› ‹_›]
    rfl

theorem reported_iff (he : e.transform.isFinite = true)
    (h : e.setProperty text value = .ok (e', w)) :
    w.prior.value = e.valueAt w.prior.path ∧
      (w.current = e'.valueAt w.prior.path ↔ keeps text value = true) :=
  Property.reported_iff property_local property_fixes stored_eq (property_stored he)
    (fun _ _ => writeField_eq) h

end Entity

namespace Document
variable {d d' : Document} {text key : String} {rest : Path} {value : Option Json}
  {w : PropertyWrite}

/-- What stands at a path in the data form of the document. -/
def valueAt (d : Document) (path : Path) : Option Json := PropertyWrite.valueAt d.stored path

/-- The data form of the property that an address starts with. -/
def dataForm : String → DataForm
  | "environment" => Environment.dataForm
  | "gameSettings" => .settings [GameSettings.cameraKey, GameSettings.spawnKey]
  | _ => .anything

/-- Whether a value is stored just as it is written to an address. -/
def keeps (text : String) (value : Option Json) : Bool := PropertyWrite.keepsAt dataForm text value

private theorem property_else (hn : key ≠ "name") (he : key ≠ "environment")
    (hg : key ≠ "gameSettings") : property key = metadataProperty := by
  unfold property
  split <;> first | contradiction | rfl

theorem property_fixes (key : String) :
    (held (property key).read (property key).form).Fixes (dataForm key) := by
  unfold dataForm
  split
  · exact (Environment.fixes .lenient).held (Environment.stable .lenient) (record_null_ne _ _)
  · exact GameSettings.optionalForm_fixes
  · by_cases hn : key = "name"
    · subst hn
      exact text_fixes.always.held Reader.string_stable fun _ h => by cases h
    · rw [property_else hn ‹_› ‹_›]
      exact bag_fixes.always.held Reader.bag_stable fun _ h => by cases h

theorem property_local (key : String) :
    (required (property key).read (property key).form).Local :=
  @property_induction (fun f => (required f.read f.form).Local) string_local
    Environment.renewal_local GameSettings.renewal_local bag_local key

theorem stored_eq (d : Document) (key : String) :
    d.stored key = (property key).form ((property key).lens.get d) := by
  unfold stored
  split
  · rfl
  · rfl
  · rfl
  · rw [property_else ‹_› ‹_› ‹_›]
    rfl

theorem writeField_eq : d.writeField text (key :: rest) value = (do
    let r ← PropertyWrite.inField (property key).read
      ((property key).form ((property key).lens.get d)) text (key :: rest) value
    return ((property key).lens.set d r.1, r.2)) := by
  unfold writeField
  simp only [List.headD_cons]
  split
  · rfl
  · rfl
  · rfl
  · rw [property_else ‹_› ‹_› ‹_›]
    rfl

theorem reported_iff (hd : d.Readable) (h : d.setProperty text value = .ok (d', w)) :
    w.prior.value = d.valueAt w.prior.path ∧
      (w.current = d'.valueAt w.prior.path ↔ keeps text value = true) :=
  Property.reported_iff property_local property_fixes stored_eq (property_stored hd)
    (fun _ _ => writeField_eq) h

end Document

/-- Every property write tells the value that it replaced. The value that it says is there now, and
that the way back passes on as the previous one, is the stored one exactly when the value is kept
where it was written: an integer is not where a float is stored, nor are tags that are not in order,
a null among the settings, an array for a vector, or a part of the environment with members left
out. All entities and documents that were read satisfy the conditions (`Entity.reader_yields`,
`Document.reader_yields`). -/
theorem reported_values_right_iff (text : String) (value : Option Json) :
    (∀ (e e' : Entity) (w : PropertyWrite),
      e.transform.isFinite = true → e.setProperty text value = .ok (e', w) →
      w.prior.value = e.valueAt w.prior.path ∧
        (w.current = e'.valueAt w.prior.path ↔ Entity.keeps text value = true)) ∧
    (∀ (d d' : Document) (w : PropertyWrite),
      d.Readable → d.setProperty text value = .ok (d', w) →
      w.prior.value = d.valueAt w.prior.path ∧
        (w.current = d'.valueAt w.prior.path ↔ Document.keeps text value = true)) ∧
    ∀ (registry : Option Registry) (d : Document) (id : String) (previous : Option Json)
      (a : Applied), Edit.apply registry d (.setProperty id text value previous) = .ok a →
      ∃ w, d.writeProperty id text value = .ok (a.document, w) ∧
        a.inverse = .setProperty id w.inversePath w.prior.value w.current := by
  refine ⟨fun e e' w he h => Entity.reported_iff he h,
    fun d d' w hd h => Document.reported_iff hd h, ?_⟩
  intro registry d id previous a ha
  obtain ⟨d', w, hw, rfl⟩ := Edit.applySetProperty_ok_iff.mp ha
  exact ⟨w, hw, rfl⟩

/-- Tags are reported as they were given, where they are stored in order and once each; tags in
order are reported right. -/
theorem lamp_reported_tags :
    let e := Entity.ofId "lamp" "Lamp"
    let e' := { e with tags := .ofList ["a", "b"] }
    let prior : Bag.Prior := ⟨["tags"], some (.arr [])⟩
    let given : Json := .arr [.str "b", .str "a", .str "a"]
    let stored : Json := .arr [.str "a", .str "b"]
    e.transform.isFinite = true ∧
      e.setProperty "tags" (some given) = .ok (e', ⟨prior, some given⟩) ∧
      e.setProperty "tags" (some stored) = .ok (e', ⟨prior, some stored⟩) ∧
      prior.value = e.valueAt prior.path ∧ some given ≠ e'.valueAt prior.path ∧
      some stored = e'.valueAt prior.path := by
  intro e e' prior given stored
  have hf : e.transform.isFinite = true := by decide
  have hgiven : e.setProperty "tags" (some given) = .ok (e', ⟨prior, some given⟩) := by
    decide +kernel
  have hstored : e.setProperty "tags" (some stored) = .ok (e', ⟨prior, some stored⟩) := by
    decide +kernel
  obtain ⟨hprior, hwrong⟩ := (reported_values_right_iff "tags" (some given)).1 e e' _ hf hgiven
  obtain ⟨-, hright⟩ := (reported_values_right_iff "tags" (some stored)).1 e e' _ hf hstored
  exact ⟨hf, hgiven, hstored, hprior, fun hc => absurd (hwrong.mp hc) (by decide),
    hright.mpr (by decide)⟩

end SceneGraph
