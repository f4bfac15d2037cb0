import SceneGraph.Proofs.Exchanges
import SceneGraph.Proofs.PropertyExchanges

/-!
# Property parts: what property writes change in entities, documents and components

Every property is a part of an entity, of the document or of a component, and writes of different
parts never meet.
-/
namespace SceneGraph
open Renewal

/-- Texts are read and written as they are. -/
def Property.string {σ : Type} (lens : Lens σ String) : Property σ where
  Value := String
  lens := lens
  read := .string
  form := .str
  stable := Reader.string_stable
  exchangeable := string_exchangeable.held Reader.string_stable nofun

def Property.bool {σ : Type} (lens : Lens σ Bool) : Property σ where
  Value := Bool
  lens := lens
  read := .bool
  form := .bool
  stable := Reader.bool_stable
  exchangeable := bool_exchangeable.held Reader.bool_stable nofun

namespace Entity

def tagsProperty : Property Entity where
  Value := TextSet
  lens := ⟨(·.tags), fun e tags => { e with tags }, fun _ _ => rfl, fun _ _ _ => rfl⟩
  read := .textSet
  form := fun tags => (Layout.strings tags.keys).toJson
  stable := tags_stable
  exchangeable := tags_exchangeable.held tags_stable nofun

def transformProperty : Property Entity where
  Value := Transform
  lens := ⟨(·.transform), fun e transform => { e with transform }, fun _ _ => rfl,
    fun _ _ _ => rfl⟩
  read := Transform.reader
  form := (·.layout.toJson)
  stable := Transform.stable
  exchangeable := Transform.exchangeable.held Transform.stable (record_null_ne _ _)

def tuningProperty : Property Entity where
  Value := Option Tuning
  lens := ⟨(·.tuning), fun e tuning => { e with tuning }, fun _ _ => rfl, fun _ _ _ => rfl⟩
  read := .nullable Tuning.reader
  form := optionalTuning
  stable := optionalTuning_stable
  exchangeable := optionalTuning_exchangeable

def nameProperty : Property Entity :=
  .string ⟨(·.name), fun e name => { e with name }, fun _ _ => rfl, fun _ _ _ => rfl⟩

def visibleProperty : Property Entity :=
  .bool ⟨(·.visible), fun e visible => { e with visible }, fun _ _ => rfl, fun _ _ _ => rfl⟩

def lockedProperty : Property Entity :=
  .bool ⟨(·.locked), fun e locked => { e with locked }, fun _ _ => rfl, fun _ _ _ => rfl⟩

/-- The property that an address starts with. -/
def property : String → Property Entity
  | "name" => nameProperty
  | "visible" => visibleProperty
  | "locked" => lockedProperty
  | "tags" => tagsProperty
  | "transform" => transformProperty
  | _ => tuningProperty

variable {e e' : Entity} {text key : String} {rest : Path} {value : Option Json}

theorem exists_writeField_iff : (∃ w, e.writeField text (key :: rest) value = .ok (e', w)) ↔
    (property key).Changes value rest e e' := by
  unfold writeField
  simp only [List.headD_cons]
  split
  · exact @Property.exists_write_iff _ nameProperty _ _ _ _ _ _
  · exact @Property.exists_write_iff _ visibleProperty _ _ _ _ _ _
  · exact @Property.exists_write_iff _ lockedProperty _ _ _ _ _ _
  · exact @Property.exists_write_iff _ tagsProperty _ _ _ _ _ _
  · exact @Property.exists_write_iff _ transformProperty _ _ _ _ _ _
  · have hp : property key = tuningProperty := by
      unfold property
      split <;> simp_all
    rw [hp]
    exact @Property.exists_write_iff _ tuningProperty _ _ _ _ _ _

def roots : List String := ["name", "visible", "locked", "tags", "transform", "tuning"]

theorem mem_roots_of_removable? (h : (removable? (key :: rest)).isSome) : key ∈ roots := by
  unfold removable? at h
  split at h <;> simp_all [roots]

/-- Different properties are different parts. -/
theorem property_apart :
    roots.Pairwise fun key key' => (property key).lens.Apart (property key').lens := by
  simp only [roots, List.pairwise_cons, List.forall_mem_cons, List.not_mem_nil, false_implies,
    implies_true, List.Pairwise.nil, and_true]
  and_intros <;> exact ⟨fun _ _ => rfl, fun _ _ => rfl, fun _ _ _ => rfl⟩

/-- What holds of all properties holds of the one that an address starts with. -/
theorem property_induction {P : Property Entity → Prop} (name : P nameProperty)
    (visible : P visibleProperty) (locked : P lockedProperty) (tags : P tagsProperty)
    (transform : P transformProperty) (tuning : P tuningProperty) (key : String) :
    P (property key) := by
  unfold property
  split
  · exact name
  · exact visible
  · exact locked
  · exact tags
  · exact transform
  · exact tuning

theorem property_stored (he : e.transform.isFinite = true) (key : String) :
    (property key).Stored e :=
  @property_induction (·.Stored e) (Reader.string_fromJson _) (Reader.bool_fromJson _)
    (Reader.bool_fromJson _) (Reader.textSet_fromJson _) (Transform.reader_layout he)
    (optionalTuning_ok_iff.mpr rfl) key

theorem exists_setProperty_iff : (∃ w, e.setProperty text value = .ok (e', w)) ↔
    Property.Sets property removable? text value e e' :=
  Property.exists_set_iff fun _ _ => exists_writeField_iff

theorem exchange_sets {text' : String} {value' : Option Json} (he : e.transform.isFinite = true)
    (h : (Path.steps text).Apart (Path.steps text')) :
    Exchange (Property.Sets property removable? text value)
      (Property.Sets property removable? text' value') e :=
  Property.exchange_sets (property_stored he) (fun _ _ => mem_roots_of_removable?)
    property_apart h

def componentList : Lens Entity (List Component) :=
  ⟨(·.components), fun e components => { e with components }, fun _ _ => rfl, fun _ _ _ => rfl⟩

/-- Properties of an entity are not parts of its components. -/
theorem property_apart_components (key : String) : (property key).lens.Apart componentList := by
  refine @property_induction (·.lens.Apart componentList) ?_ ?_ ?_ ?_ ?_ ?_ key <;>
    exact ⟨fun _ _ => rfl, fun _ _ => rfl, fun _ _ _ => rfl⟩

end Entity

namespace Document

def nameProperty : Property Document :=
  .string ⟨(·.name), fun d name => { d with name }, fun _ _ => rfl, fun _ _ _ => rfl⟩

def environmentProperty : Property Document where
  Value := Environment
  lens := ⟨(·.environment), fun d environment => { d with environment }, fun _ _ => rfl,
    fun _ _ _ => rfl⟩
  read := Environment.reader .lenient
  form := (·.layout.toJson)
  stable := Environment.stable .lenient
  exchangeable := (Environment.exchangeable .lenient).held (Environment.stable .lenient)
    (record_null_ne _ _)

def gameSettingsProperty : Property Document where
  Value := Option GameSettings
  lens := ⟨(·.gameSettings), fun d gameSettings => { d with gameSettings }, fun _ _ => rfl,
    fun _ _ _ => rfl⟩
  read := .nullable GameSettings.reader
  form := GameSettings.optionalForm
  stable := GameSettings.optionalForm_stable
  exchangeable := GameSettings.optional_exchangeable

def metadataProperty : Property Document where
  Value := Bag
  lens := ⟨(·.metadata), fun d metadata => { d with metadata }, fun _ _ => rfl, fun _ _ _ => rfl⟩
  read := .bag
  form := .obj
  stable := Reader.bag_stable
  exchangeable := bag_exchangeable.held Reader.bag_stable nofun

/-- The property that an address starts with. -/
def property : String → Property Document
  | "name" => nameProperty
  | "environment" => environmentProperty
  | "gameSettings" => gameSettingsProperty
  | _ => metadataProperty

variable {d d' : Document} {text key : String} {rest : Path} {value : Option Json}

/-- What holds of all properties holds of the one that an address starts with. -/
theorem property_induction {P : Property Document → Prop} (name : P nameProperty)
    (environment : P environmentProperty) (gameSettings : P gameSettingsProperty)
    (metadata : P metadataProperty) (key : String) : P (property key) := by
  unfold property
  split
  · exact name
  · exact environment
  · exact gameSettings
  · exact metadata

theorem exists_writeField_iff : (∃ w, d.writeField text (key :: rest) value = .ok (d', w)) ↔
    (property key).Changes value rest d d' := by
  unfold writeField
  simp only [List.headD_cons]
  split
  · exact @Property.exists_write_iff _ nameProperty _ _ _ _ _ _
  · exact @Property.exists_write_iff _ environmentProperty _ _ _ _ _ _
  · exact @Property.exists_write_iff _ gameSettingsProperty _ _ _ _ _ _
  · have hp : property key = metadataProperty := by
      unfold property
      split <;> simp_all
    rw [hp]
    exact @Property.exists_write_iff _ metadataProperty _ _ _ _ _ _

/-- Which paths lead somewhere does not depend on what is stored there. -/
theorem removable?_eq (d d' : Document) : d.removable? = d'.removable? := by
  funext path
  refine Option.ext fun r => ?_
  cases r with
  | true => rw [removable_iff, removable_iff]
  | false =>
    simp only [removable_false_iff, Environment.layout_alike d.environment d'.environment _]

def roots : List String := ["name", "environment", "gameSettings", "metadata"]

theorem mem_roots_of_removable? (h : (d.removable? (key :: rest)).isSome) : key ∈ roots := by
  unfold removable? at h
  split at h <;> simp_all [roots]

/-- Different properties are different parts. -/
theorem property_apart :
    roots.Pairwise fun key key' => (property key).lens.Apart (property key').lens := by
  simp only [roots, List.pairwise_cons, List.forall_mem_cons, List.not_mem_nil, false_implies,
    implies_true, List.Pairwise.nil, and_true]
  and_intros <;> exact ⟨fun _ _ => rfl, fun _ _ => rfl, fun _ _ _ => rfl⟩

theorem property_stored (hd : d.Readable) (key : String) : (property key).Stored d :=
  @property_induction (·.Stored d) (Reader.string_fromJson _)
    (Environment.reader_layout hd.environment) (GameSettings.reader_optionalForm hd.gameSettings)
    (Reader.bag_ok_iff.mpr rfl) key

theorem exists_setProperty_iff (d₀ : Document) :
    (∃ w, d.setProperty text value = .ok (d', w)) ↔
      Property.Sets property d₀.removable? text value d d' := by
  rw [removable?_eq d₀ d]
  exact Property.exists_set_iff fun _ _ => exists_writeField_iff

theorem exchange_sets {text' : String} {value' : Option Json} (hd : d.Readable) (d₀ : Document)
    (h : (Path.steps text).Apart (Path.steps text')) :
    Exchange (Property.Sets property d₀.removable? text value)
      (Property.Sets property d₀.removable? text' value') d :=
  Property.exchange_sets (property_stored hd) (fun _ _ => mem_roots_of_removable?)
    property_apart h

end Document

namespace Bag
variable {p q : Path} {v w : Option Json} {bag out : Bag}

/-- A write into a bag is a write into an object that is kept as it comes out. -/
private theorem put_iff_revises {key : String} {y : Option Json} :
    (∃ out, bag.put (key :: p) v = .ok out ∧ y = some (.obj out)) ↔
      kept.Revises v (key :: p) (some (.obj bag)) y := by
  simp only [Revises, kept, exists_eq_right, written_obj_iff, put_ok_iff]
  constructor
  · rintro ⟨_, ⟨m, hm, rfl⟩, rfl⟩
    exact ⟨m, hm, rfl⟩
  · rintro ⟨m, hm, rfl⟩
    exact ⟨_, ⟨m, hm, rfl⟩, rfl⟩

private theorem put_swap (hpq : p.Apart q)
    (h : Relation.Comp (fun b b' : Bag => b.put p v = .ok b') (fun b b' => b.put q w = .ok b')
      bag out) :
    Relation.Comp (fun b b' : Bag => b.put q w = .ok b') (fun b b' => b.put p v = .ok b')
      bag out := by
  obtain ⟨m, hm, hout⟩ := h
  obtain ⟨key, rest, key', rest', rfl, rfl⟩ := hpq.exists_cons
  obtain ⟨y, hy, hback⟩ := kept_exchangeable.exchanges (key :: rest) hpq rfl
    (put_iff_revises.mp ⟨m, hm, rfl⟩) (put_iff_revises.mp ⟨out, hout, rfl⟩)
  obtain ⟨m', hm', rfl⟩ := put_iff_revises.mpr hy
  obtain ⟨out', hout', he⟩ := put_iff_revises.mpr hback
  obtain rfl : out = out' := Json.obj.inj (Option.some.inj he)
  exact ⟨m', hm', hout'⟩

/-- Writes into a bag at paths that part may change places. -/
theorem exchange_put (hpq : p.Apart q) (bag : Bag) :
    Exchange (fun b b' : Bag => b.put p v = .ok b') (fun b b' => b.put q w = .ok b') bag :=
  fun _ => ⟨put_swap hpq, put_swap hpq.symm⟩

end Bag

namespace Component
variable {c c' : Component} {text text' : String} {value value' : Option Json}

def propertyBag : Lens Component Bag :=
  ⟨(·.properties), fun c properties => { c with properties }, fun _ _ => rfl, fun _ _ _ => rfl⟩

/-- A write at a path that can be taken. -/
def Sets (text : String) (value : Option Json) (c c' : Component) : Prop :=
  Path.ofText text = .ok (Path.steps text) ∧
    propertyBag.Lift (fun b b' => b.put (Path.steps text) value = .ok b') c c'

theorem exists_setProperty_iff :
    (∃ w, c.setProperty text value = .ok (c', w)) ↔ Sets text value c c' := by
  simp only [setProperty, Bag.setProperty, bind_ok_iff, mapError_ok_iff, Prod.exists, pure_ok_iff,
    Prod.mk.injEq, Sets, Lens.Lift]
  constructor
  · rintro ⟨w, b, _, ⟨path, hpath, hw⟩, rfl, rfl⟩
    obtain rfl := Path.eq_steps hpath
    exact ⟨hpath, b, PropertyWrite.exists_inBag_iff.mp ⟨_, hw⟩, rfl⟩
  · rintro ⟨hpath, b, hb, rfl⟩
    obtain ⟨w, hw⟩ := PropertyWrite.exists_inBag_iff.mpr hb
    exact ⟨w, b, w, ⟨_, hpath, hw⟩, rfl, rfl⟩

theorem Sets.type (h : Sets text value c c') : c'.componentType = c.componentType := by
  obtain ⟨-, b, -, rfl⟩ := h
  rfl

theorem exchange_sets (h : (Path.steps text).Apart (Path.steps text')) (c : Component) :
    Exchange (Sets text value) (Sets text' value') c :=
  .guard fun _ _ => propertyBag.exchange (Bag.exchange_put h c.properties)

end Component

namespace Entity
variable {e e' : Entity} {text text' t t' : String} {value value' : Option Json}

/-- A write into the first component of a type. -/
def SetsIn (t text : String) (value : Option Json) : Entity → Entity → Prop :=
  componentList.Lift (Component.AtType t (Component.Sets text value))

theorem setsIn_iff : e.SetsIn t text value e' ↔ ∃ c c' w, e.component? t = some c ∧
    c.setProperty text value = .ok (c', w) ∧ e' = e.setComponent t c' := by
  simp only [SetsIn, Lens.Lift, Component.AtType, component?_iff, componentIndex?]
  constructor
  · rintro ⟨_, ⟨i, c, c', hi, hc, hset, rfl⟩, rfl⟩
    obtain ⟨w, hw⟩ := Component.exists_setProperty_iff.mpr hset
    exact ⟨c, c', w, ⟨i, hi, hc⟩, hw, (setComponent_eq hi c').symm⟩
  · rintro ⟨c, c', w, ⟨i, hi, hc⟩, hw, rfl⟩
    exact ⟨_, ⟨i, c, c', hi, hc, Component.exists_setProperty_iff.mp ⟨w, hw⟩, rfl⟩,
      setComponent_eq hi c'⟩

theorem exchange_setsIn (h : t ≠ t' ∨ (Path.steps text).Apart (Path.steps text')) (e : Entity) :
    Exchange (SetsIn t text value) (SetsIn t' text' value') e := by
  refine componentList.exchange ?_
  by_cases ht : t = t'
  · subst ht
    exact Component.exchange_atType (fun _ _ => Component.Sets.type)
      (fun _ _ => Component.Sets.type)
      fun c _ => Component.exchange_sets (h.resolve_left (· rfl)) c
  · exact Component.exchange_atType_of_ne (fun _ _ => Component.Sets.type)
      (fun _ _ => Component.Sets.type) ht

/-- A property of the entity and one of a component are written in any order. -/
theorem exchange_sets_setsIn (e : Entity) :
    Exchange (Property.Sets property removable? text value) (SetsIn t text' value') e :=
  .guard_left fun _ => (property_apart_components _).exchange

end Entity

namespace Document
variable {d d' : Document} {id id' text : String} {value : Option Json}
  {R S : Entity → Entity → Prop}

def entityDict : Lens Document (Dict Entity) :=
  ⟨(·.entities), fun d entities => { d with entities }, fun _ _ => rfl, fun _ _ _ => rfl⟩

/-- A change of one entity. -/
def InEntity (id : String) (R : Entity → Entity → Prop) : Document → Document → Prop :=
  entityDict.Lift (Dict.AtKey id R)

theorem inEntity_iff : d.InEntity id R d' ↔
    ∃ e e', d.entity? id = some e ∧ R e e' ∧ d' = d.putEntity id e' := by
  constructor
  · rintro ⟨_, ⟨e, e', he, hr, rfl⟩, rfl⟩
    exact ⟨e, e', he, hr, rfl⟩
  · rintro ⟨e, e', he, hr, rfl⟩
    exact ⟨_, ⟨e, e', he, hr, rfl⟩, rfl⟩

/-- Changes of two entities may change places; of changes of one it has to be shown. -/
theorem exchange_inEntity (h : id = id' → ∀ e, d.entity? id = some e → Exchange R S e) :
    Exchange (InEntity id R) (InEntity id' S) d := by
  refine entityDict.exchange ?_
  by_cases hid : id = id'
  · subst hid
    exact Dict.exchange_atKey (h rfl)
  · exact Dict.exchange_atKey_of_ne hid

/-- A property of the document is written before or after an entity is changed. -/
theorem exchange_sets_inEntity (d₀ d : Document) :
    Exchange (Property.Sets property d₀.removable? text value) (InEntity id R) d := by
  refine .guard_left fun _ => Lens.Apart.exchange ?_
  refine @property_induction (·.lens.Apart entityDict) ?_ ?_ ?_ ?_ _ <;>
    exact ⟨fun _ _ => rfl, fun _ _ => rfl, fun _ _ _ => rfl⟩

end Document

end SceneGraph
