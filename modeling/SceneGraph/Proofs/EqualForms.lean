import SceneGraph.CompiledScenes
import SceneGraph.Proofs.DictionaryLaws
import SceneGraph.Proofs.ZeroSigns

/-!
# Equal data is written alike: records that are equal by value have the same layouts by value

Equality by value is lifted from numbers to lists, dictionaries and options, and then, record by
record, to layouts. For each record it is shown that `==` compares all fields, and that equal
records have layouts that are the same by value.
-/
namespace SceneGraph

theorem List.beq_iff_forall₂ {α : Type} [BEq α] {xs ys : List α} :
    (xs == ys) = true ↔ List.Forall₂ (fun x y => (x == y) = true) xs ys := by
  induction xs generalizing ys with
  | nil => cases ys <;> simp
  | cons x xs ih => cases ys <;> simp [ih]

theorem Option.rel_of_beq {α : Type} [BEq α] {a b : Option α} (h : (a == b) = true) :
    Option.Rel (fun a b => (a == b) = true) a b := by
  cases a with
  | none =>
    cases b with
    | none => exact .none
    | some b => exact absurd h Bool.false_ne_true
  | some a =>
    cases b with
    | none => exact absurd h Bool.false_ne_true
    | some b => exact .some h

namespace Ascending
variable {α : Type} {low low' : Option String} {same : α → α → Bool}

theorem agrees_iff {entries : Ascending α low} {entries' : Ascending α low'} :
    entries.agrees same entries' = true ↔ List.Forall₂
      (fun entry entry' => entry.1 = entry'.1 ∧ same entry.2 entry'.2 = true)
      entries.toList entries'.toList := by
  induction entries generalizing low' with
  | nil => cases entries' <;> simp [agrees, toList]
  | cons k above v rest ih =>
    cases entries' with
    | nil => simp [agrees, toList]
    | cons k' above' v' rest' => simp [agrees, toList, ih]

section Agreeing
variable {entries entries' : Ascending α low} (h : entries.agrees same entries' = true)
include h

theorem values_of_agrees :
    List.Forall₂ (fun v v' => same v v' = true) entries.values entries'.values :=
  List.rel_map (fun _ _ hentry => hentry.2) (agrees_iff.mp h)

theorem size_of_agrees : entries.size = entries'.size := (agrees_iff.mp h).length_eq

/-- Dictionaries that agree answer every look-up with values that are the same. -/
theorem find?_of_agrees (key : String) : Option.Rel (fun v v' => same v v' = true)
    (entries.find? key) (entries'.find? key) := by
  induction entries with
  | nil =>
    cases entries' with
    | nil => exact .none
    | cons k above v rest => simp [agrees] at h
  | cons k above v rest ih =>
    cases entries' with
    | nil => simp [agrees] at h
    | cons k' above' v' rest' =>
      simp only [agrees, Bool.and_eq_true, beq_iff_eq] at h
      obtain ⟨⟨rfl, hv⟩, hrest⟩ := h
      rw [find?_cons, find?_cons]
      split
      · exact .some hv
      · exact ih hrest

theorem agrees_insertAbove {key : String} {w w' : α} (hw : same w w' = true)
    (above : Above low key) :
    (entries.insertAbove key w above).agrees same (entries'.insertAbove key w' above) = true := by
  induction entries with
  | nil =>
    cases entries' with
    | nil => simp [insertAbove, agrees, hw]
    | cons k above v rest => simp [agrees] at h
  | cons k above v rest ih =>
    cases entries' with
    | nil => simp [agrees] at h
    | cons k' above' v' rest' =>
      simp only [agrees, Bool.and_eq_true, beq_iff_eq] at h
      obtain ⟨⟨rfl, hv⟩, hrest⟩ := h
      unfold insertAbove
      split
      · simp [agrees, hw, hv, hrest]
      · split
        · simpa [agrees, hv] using ih hrest _
        · simp [agrees, hw, hrest]

end Agreeing

theorem agrees_ofList {items items' : List (String × α)}
    (h : List.Forall₂ (fun item item' => item.1 = item'.1 ∧ same item.2 item'.2 = true)
      items items') :
    (Dict.ofList items).agrees same (Dict.ofList items') = true := by
  suffices hfold : ∀ entries entries' : Dict α, entries.agrees same entries' = true →
      (items.foldl (fun dict item => Dict.insert dict item.1 item.2) entries).agrees same
        (items'.foldl (fun dict item => Dict.insert dict item.1 item.2) entries') = true from
    hfold .nil .nil rfl
  induction h with
  | nil => exact fun _ _ hentries => hentries
  | cons hitem _ ih =>
    intro entries entries' hentries
    rw [List.foldl_cons, List.foldl_cons, hitem.1]
    exact ih _ _ (agrees_insertAbove hentries hitem.2 trivial)

end Ascending

theorem Json.sameMembers_eq_agrees {low low' : Option String} (xs : Ascending Json low)
    (ys : Ascending Json low') : Json.sameMembers xs ys = xs.agrees (· == ·) ys := by
  induction xs generalizing low' with
  | nil => cases ys <;> rfl
  | cons k above v rest ih =>
    cases ys with
    | nil => rfl
    | cons k' above' v' rest' =>
      rw [Json.sameMembers, Ascending.agrees, ih]
      rfl

namespace Layout
variable {α : Type} {xs ys : List (String × Layout)}

theorem same_list_iff {items items' : List Layout} : (list items).same (list items') = true ↔
    List.Forall₂ (fun x y => x.same y = true) items items' := by
  rw [same]
  induction items generalizing items' with
  | nil => cases items' <;> simp [sameItems]
  | cons x items ih => cases items' <;> simp [sameItems, ih]

theorem same_record_iff : (record xs).same (record ys) = true ↔
    List.Forall₂ (fun x y => x.1 = y.1 ∧ x.2.same y.2 = true) xs ys := by
  rw [same]
  induction xs generalizing ys with
  | nil => cases ys <;> simp [sameFields]
  | cons x xs ih =>
    cases ys with
    | nil => simp [sameFields]
    | cons y ys => simp [sameFields, ih]

@[simp] theorem same_str (s : String) : (str s).same (str s) = true := by
  simp [str, same, BEq.beq, Json.same]

@[simp] theorem same_bool (b : Bool) : (bool b).same (bool b) = true := by
  cases b <;> rfl

@[simp] theorem same_nat (n : Nat) : (nat n).same (nat n) = true := by
  simp [nat, Json.nat, same, BEq.beq, Json.same]

@[simp] theorem same_null : null.same null = true := rfl

theorem same_real {a b : Binary64} (h : (a == b) = true) : (real a).same (real b) = true := by
  have horder : a.order = b.order := by
    change (_ && _ && _ == _) = true at h
    exact eq_of_beq (Bool.and_eq_true .. ▸ h).2
  have hfinite : a.isFinite = b.isFinite := by
    rw [Binary64.isFinite, Binary64.isFinite, ← Binary64.natAbs_order, horder,
      Binary64.natAbs_order]
  by_cases hb : b.isFinite = true
  · rw [real, real, Json.real_of_finite hb, Json.real_of_finite (hfinite.trans hb)]
    exact h
  · have ha : ¬ a.isFinite = true := fun ha => hb (hfinite ▸ ha)
    rw [real, real, Json.real, Json.real, dif_neg ha, dif_neg hb]
    rfl

theorem same_bag {a b : Bag} (h : (a == b) = true) : (bag a).same (bag b) = true := by
  simpa [bag, same, BEq.beq, Json.same, Json.sameMembers_eq_agrees] using h

theorem same_list_map {f : α → Layout} {items items' : List α}
    (h : List.Forall₂ (fun a b => (f a).same (f b) = true) items items') :
    (list (items.map f)).same (list (items'.map f)) = true :=
  same_list_iff.mpr (List.forall₂_map_left_iff.mpr (List.forall₂_map_right_iff.mpr h))

theorem same_strings (texts : List String) : (strings texts).same (strings texts) = true :=
  same_list_map (List.forall₂_same.mpr fun s _ => same_str s)

theorem same_nullable {f : α → Layout} {a b : Option α}
    (h : Option.Rel (fun a b => (f a).same (f b) = true) a b) :
    (nullable f a).same (nullable f b) = true := by
  cases h with
  | none => rfl
  | some h => exact h

@[simp] theorem same_nullable_str (text : Option String) :
    (nullable str text).same (nullable str text) = true := by
  cases text <;> simp [nullable]

theorem same_whenPresent {f : α → Layout} {a b : Option α} (name : String)
    (h : Option.Rel (fun a b => (f a).same (f b) = true) a b) :
    List.Forall₂ (fun x y => x.1 = y.1 ∧ x.2.same y.2 = true) (whenPresent name f a)
      (whenPresent name f b) := by
  cases h with
  | none => exact .nil
  | some h => exact .cons ⟨rfl, h⟩ .nil

theorem same_dict {f : α → Layout} {a b : Dict α} {r : α → α → Bool} (h : a.agrees r b = true)
    (hf : ∀ v w, r v w = true → (f v).same (f w) = true) : (dict f a).same (dict f b) = true :=
  same_record_iff.mpr (List.rel_map (fun _ _ hentry => ⟨hentry.1, hf _ _ hentry.2⟩)
    (Ascending.agrees_iff.mp h))

end Layout

theorem Vec3.same_layout {v w : Vec3} (h : (v == w) = true) : v.layout.same w.layout = true := by
  change (_ && (_ && _)) = true at h
  simp only [Bool.and_eq_true] at h
  obtain ⟨hx, hy, hz⟩ := h
  simp [layout, Layout.same_record_iff, Layout.same_real hx, Layout.same_real hy,
    Layout.same_real hz]

theorem Quat.same_layout {q r : Quat} (h : (q == r) = true) : q.layout.same r.layout = true := by
  change (_ && (_ && (_ && _))) = true at h
  simp only [Bool.and_eq_true] at h
  obtain ⟨hx, hy, hz, hw⟩ := h
  simp [layout, Layout.same_record_iff, Layout.same_real hx, Layout.same_real hy,
    Layout.same_real hz, Layout.same_real hw]

theorem Transform.same_layout {t u : Transform} (h : (t == u) = true) :
    t.layout.same u.layout = true := by
  change (_ && (_ && _)) = true at h
  simp only [Bool.and_eq_true] at h
  obtain ⟨hposition, hrotation, hscale⟩ := h
  simp [layout, Layout.same_record_iff, Vec3.same_layout hposition, Quat.same_layout hrotation,
    Vec3.same_layout hscale]

theorem Skybox.eq_of_beq {s t : Skybox} (h : (s == t) = true) : s = t := by
  change (_ && (_ && _)) = true at h
  simp only [Bool.and_eq_true, beq_iff_eq] at h
  cases s
  cases t
  simpa using h

theorem Skybox.same_layout (s : Skybox) : s.layout.same s.layout = true := by
  simp [layout, Layout.same_record_iff]

theorem Fog.same_layout {f g : Fog} (h : (f == g) = true) : f.layout.same g.layout = true := by
  change (_ && (_ && (_ && (_ && (_ && _))))) = true at h
  simp only [Bool.and_eq_true, beq_iff_eq] at h
  obtain ⟨henabled, htype, hcolor, hnear, hfar, hdensity⟩ := h
  simp [layout, Layout.same_record_iff, henabled, htype, hcolor, Layout.same_real hnear,
    Layout.same_real hfar, Layout.same_real hdensity]

theorem AmbientLight.same_layout {l m : AmbientLight} (h : (l == m) = true) :
    l.layout.same m.layout = true := by
  change (_ && _) = true at h
  simp only [Bool.and_eq_true, beq_iff_eq] at h
  obtain ⟨hcolor, hintensity⟩ := h
  simp [layout, Layout.same_record_iff, hcolor, Layout.same_real hintensity]

theorem Environment.same_layout {e f : Environment} (h : (e == f) = true) :
    e.layout.same f.layout = true := by
  change (_ && (_ && (_ && _))) = true at h
  simp only [Bool.and_eq_true] at h
  obtain ⟨hskybox, hfog, hlight, hgravity⟩ := h
  rw [layout, layout, Skybox.eq_of_beq hskybox]
  simp [Layout.same_record_iff, Skybox.same_layout, Fog.same_layout hfog,
    AmbientLight.same_layout hlight, Vec3.same_layout hgravity]

theorem Tuning.same_layout {t u : Tuning} (h : (t == u) = true) :
    (Tuning.layout t).same (Tuning.layout u) = true :=
  Layout.same_dict h fun _ _ hbag => Layout.same_bag hbag

theorem Tuning.rel_layout {t u : Option Tuning} (h : (t == u) = true) :
    Option.Rel (fun t u => (Tuning.layout t).same (Tuning.layout u) = true) t u := by
  cases Option.rel_of_beq h with
  | none => exact .none
  | some htuning => exact .some (Tuning.same_layout htuning)

theorem Component.beq_iff {c e : Component} : (c == e) = true ↔
    c.componentType = e.componentType ∧ (c.properties == e.properties) = true ∧
      (c.tuning == e.tuning) = true ∧ (c.editorMeta == e.editorMeta) = true := by
  change (_ && (_ && (_ && _))) = true ↔ _
  simp only [Bool.and_eq_true, beq_iff_eq]

theorem Component.same_ofComponent {c e : Component} (h : (c == e) = true) :
    (NodeComponent.ofComponent c).layout.same (NodeComponent.ofComponent e).layout = true := by
  obtain ⟨htype, hproperties, htuning, -⟩ := beq_iff.mp h
  refine Layout.same_record_iff.mpr (List.rel_append ?_ (Layout.same_whenPresent "tuning" ?_))
  · simp [NodeComponent.ofComponent, htype, Layout.same_bag hproperties]
  · exact Tuning.rel_layout htuning

theorem Asset.beq_iff {a b : Asset} : (a == b) = true ↔ a.id = b.id ∧ a.assetType = b.assetType ∧
    a.name = b.name ∧ a.uri = b.uri ∧ (a.data == b.data) = true ∧
      (a.metadata == b.metadata) = true := by
  change (_ && (_ && (_ && (_ && (_ && _))))) = true ↔ _
  simp only [Bool.and_eq_true, beq_iff_eq]

theorem Asset.same_explicitLayout {a b : Asset} (h : (a == b) = true) :
    a.explicitLayout.same b.explicitLayout = true := by
  obtain ⟨hid, htype, hname, huri, hdata, hmetadata⟩ := beq_iff.mp h
  have hvalue : (Layout.nullable .value a.data).same (Layout.nullable .value b.data) = true :=
    Layout.same_nullable (Option.rel_of_beq hdata)
  simp [explicitLayout, Layout.same_record_iff, hid, htype, hname, huri, hvalue,
    Layout.same_bag hmetadata]

theorem EventWire.beq_iff {w v : EventWire} : (w == v) = true ↔ w.id = v.id ∧
    w.sourceEntityId = v.sourceEntityId ∧ w.sourceEvent = v.sourceEvent ∧
    w.targetEntityId = v.targetEntityId ∧ w.targetAction = v.targetAction ∧
      (w.parameters == v.parameters) = true := by
  change (_ && (_ && (_ && (_ && (_ && _))))) = true ↔ _
  simp only [Bool.and_eq_true, beq_iff_eq]

theorem EventWire.same_layout {w v : EventWire} (h : (w == v) = true) :
    w.layout.same v.layout = true := by
  obtain ⟨hid, hsource, hevent, htarget, haction, hparameters⟩ := beq_iff.mp h
  simp [layout, Layout.same_record_iff, hid, hsource, hevent, htarget, haction,
    Layout.same_bag hparameters]

theorem Entity.beq_iff {d e : Entity} : (d == e) = true ↔ d.id = e.id ∧ d.name = e.name ∧
    d.parentId = e.parentId ∧ d.children = e.children ∧ (d.components == e.components) = true ∧
    (d.tags == e.tags) = true ∧ (d.transform == e.transform) = true ∧ d.visible = e.visible ∧
    d.locked = e.locked ∧ (d.tuning == e.tuning) = true := by
  change (_ && (_ && (_ && (_ && (_ && (_ && (_ && (_ && (_ && _))))))))) = true ↔ _
  simp only [Bool.and_eq_true, beq_iff_eq]

theorem Entity.same_ofEntity {d e : Entity} (h : (d == e) = true) :
    (SceneNode.ofEntity d).layout.same (SceneNode.ofEntity e).layout = true := by
  obtain ⟨hid, hname, hparent, hchildren, hcomponents, -, htransform, hvisible, -, htuning⟩ :=
    beq_iff.mp h
  have hlist := (List.beq_iff_forall₂.mp hcomponents).imp fun _ _ => Component.same_ofComponent
  refine Layout.same_record_iff.mpr (List.rel_append ?_ (Layout.same_whenPresent "tuning" ?_))
  · simp [SceneNode.ofEntity, hid, hname, hparent, hchildren, hvisible, Layout.same_strings,
      Transform.same_layout htransform, Layout.same_list_iff, hlist]
  · exact Tuning.rel_layout htuning

theorem GameSettings.same_toBag {g k : GameSettings} (h : (g == k) = true) :
    (g.toBag == k.toBag) = true := by
  cases g
  cases k
  change (_ && (_ && _)) = true at h
  simp only [Bool.and_eq_true, beq_iff_eq] at h
  obtain ⟨rfl, rfl, hextra⟩ := h
  have hknown (name : String) (setting : Option String) : List.Forall₂
      (fun item item' => item.1 = item'.1 ∧ (item.2 == item'.2) = true)
      (Layout.toJsonFields (Layout.whenPresent name .str setting))
      (Layout.toJsonFields (Layout.whenPresent name .str setting)) := by
    cases setting with
    | none => exact .nil
    | some text => exact .cons ⟨rfl, Layout.same_str text⟩ .nil
  refine Ascending.agrees_ofList ?_
  simp only [Layout.toJsonFields_eq_map, List.map_append, List.map_map] at hknown ⊢
  refine List.rel_append (List.rel_append (hknown _ _) (hknown _ _)) ?_
  exact List.rel_map (fun _ _ hentry => hentry) (Ascending.agrees_iff.mp hextra)

end SceneGraph
