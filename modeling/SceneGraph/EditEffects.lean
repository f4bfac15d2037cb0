import SceneGraph.PropertyWrites
import SceneGraph.KeyframeTracks
import SceneGraph.ComponentRegistries

/-!
# What each edit does to a document, and the edits that take it back

`Edit.apply` checks an edit and then changes the document. What comes of it is an `Applied`: the
document, the edit that takes the change back and, where one edit is not enough, those that follow
it. Each kind of edit has a function of its own, put together from the same look-ups and guards.
-/
namespace SceneGraph

/-- Inserts at an index, at most at the end, or at the end without one. -/
def clampIndex {α : Type} (items : List α) (index : Option Nat) : Nat :=
  match index with
  | some i => min i items.length
  | none => items.length

def insertClamped {α : Type} (items : List α) (index : Option Nat) (item : α) : List α :=
  items.insertIdx (clampIndex items index) item

namespace Document

def contains (d : Document) (id : String) : Bool := d.entities.contains id

/-- Changes the entity under a key, if there is one. -/
def updateEntity (d : Document) (id : String) (f : Entity → Entity) : Document :=
  { d with entities := Dict.modify d.entities id f }

def putEntity (d : Document) (id : String) (e : Entity) : Document :=
  { d with entities := Dict.insert d.entities id e }

def getEntity (d : Document) (id : String) : Except OpError Entity :=
  match d.entity? id with
  | some e => .ok e
  | none => .error (.entityNotFound id)

def getParent (d : Document) (id : String) : Except OpError Entity :=
  match d.entity? id with
  | some e => .ok e
  | none => .error (.parentNotFound id)

def getComponent (d : Document) (id componentType : String) :
    Except OpError (Entity × Component) := do
  let e ← d.getEntity id
  match e.component? componentType with
  | some c => return (e, c)
  | none => throw (.componentNotFound id componentType)

/-- Lists a new child with its parent, if it is to have one. -/
def listChild (d : Document) (parent : Option String) (index : Option Nat) (child : String) :
    Except OpError Document :=
  match parent with
  | none => .ok d
  | some parent =>
    if d.contains parent then
      .ok (d.updateEntity parent fun p => { p with children := insertClamped p.children index child })
    else .error (.parentNotFound parent)

/-- Writes, or removes, a property of an entity or of the document itself. -/
def writeProperty (d : Document) (id path : String) (value : Option Json) :
    Except OpError (Document × PropertyWrite) :=
  if id = documentTarget then d.setProperty path value
  else do
    let e ← d.getEntity id
    let (e, write) ← e.setProperty path value
    return (d.putEntity id e, write)

end Document

/-- An edit has been applied: the document it gives, and the edit that takes it back. Taking back a
deletion goes on with `sequel`, the components one by one. -/
structure Applied where
  document : Document
  inverse : Edit
  sequel : List Edit

namespace NewEntity

/-- The entity created. -/
def entity (n : NewEntity) : Entity where
  id := n.entityId
  name := n.name
  parentId := n.parentId
  children := []
  components := []
  tags := n.tags
  transform := n.transform.getD .identity
  visible := n.visible.getD true
  locked := n.locked.getD false
  tuning := n.tuning

/-- The creation of an entity like a given one, at a place among its siblings. -/
def ofEntity (e : Entity) (index : Option Nat) : NewEntity where
  entityId := e.id
  name := e.name
  parentId := e.parentId
  index := index
  transform := some e.transform
  tags := e.tags
  visible := some e.visible
  locked := some e.locked
  tuning := e.tuning

end NewEntity

namespace Edit

def ensure (condition : Bool) (error : OpError) : Except OpError Unit :=
  if condition then .ok () else .error error

def applyCreate (d : Document) (n : NewEntity) : Except OpError Applied := do
  ensure (!n.entityId.isEmpty) (.invalidValue "entityId" "entity id must not be empty")
  ensure (n.entityId ≠ documentTarget) (.reservedId n.entityId)
  ensure (!d.contains n.entityId) (.entityExists n.entityId)
  let linked ← d.listChild n.parentId n.index n.entityId
  let created := n.entity
  return ⟨linked.putEntity n.entityId created, .deleteEntity n.entityId (some created), []⟩

def applyDelete (d : Document) (id : String) : Except OpError Applied := do
  let e ← d.getEntity id
  ensure (!d.isRoot id) (.rootImmutable id "delete")
  ensure e.children.isEmpty (.hasChildren id e.children.length)
  let index := (e.parentId.bind d.entity?).bind (·.childIndex? id)
  let unlinked := match e.parentId with
    | none => d
    | some parent => d.updateEntity parent fun p =>
      { p with children := p.children.filter (· ≠ id) }
  return {
    document := { unlinked with entities := unlinked.entities.erase id }
    inverse := .createEntity (.ofEntity e index)
    sequel := e.components.mapIdx fun i c => .addComponent id c (some i) }

def applySetProperty (d : Document) (id path : String) (value : Option Json) :
    Except OpError Applied := do
  let (changed, write) ← d.writeProperty id path value
  return ⟨changed, .setProperty id write.inversePath write.prior.value write.current, []⟩

def applyAddChild (d : Document) (parent child : String) (index : Option Nat) :
    Except OpError Applied := do
  ensure (d.contains parent) (.parentNotFound parent)
  let c ← d.getEntity child
  ensure (!d.isRoot child) (.rootImmutable child "attach")
  match c.parentId with
  | some existing => throw (.alreadyAttached child existing)
  | none =>
    ensure (!d.isAncestor child parent) (.circularReparent child parent)
    let linked := d.updateEntity parent fun p =>
      { p with children := insertClamped p.children index child }
    return ⟨linked.updateEntity child ({ · with parentId := some parent }),
      .removeChild parent child, []⟩

def applyRemoveChild (d : Document) (parent child : String) : Except OpError Applied := do
  let c ← d.getEntity child
  let p ← d.getParent parent
  ensure (c.parentId = some parent) (.notAChild parent child)
  match p.childIndex? child with
  | none => throw (.notAChild parent child)
  | some index =>
    let unlinked := d.updateEntity parent fun p => { p with children := p.children.eraseIdx index }
    return ⟨unlinked.updateEntity child ({ · with parentId := none }),
      .addChild parent child (some index), []⟩

def applyReparent (d : Document) (id newParent : String) (newIndex : Option Nat) :
    Except OpError Applied := do
  let e ← d.getEntity id
  ensure (!d.isRoot id) (.rootImmutable id "reparent")
  match e.parentId with
  | none => throw (.detached id)
  | some oldParent =>
    ensure (d.contains newParent) (.parentNotFound newParent)
    ensure (!d.isAncestor id newParent) (.circularReparent id newParent)
    let old ← d.getEntity oldParent
    match old.childIndex? id with
    | none => throw (.notAChild oldParent id)
    | some oldIndex =>
      let unlinked := d.updateEntity oldParent fun p =>
        { p with children := p.children.eraseIdx oldIndex }
      let target ← unlinked.getEntity newParent
      let linked := unlinked.updateEntity newParent fun p =>
        { p with children := insertClamped p.children newIndex id }
      return ⟨linked.updateEntity id ({ · with parentId := some newParent }),
        .reparent id oldParent (some oldIndex) (some newParent)
          (some (clampIndex target.children newIndex)), []⟩

def applyAddComponent (registry : Option Registry) (d : Document) (id : String) (c : Component)
    (index : Option Nat) : Except OpError Applied := do
  let e ← d.getEntity id
  ensure (!c.componentType.isEmpty) .emptyComponentType
  let taken := match registry with
    | some r => r.isSingleton c.componentType && 0 < e.countComponents c.componentType
    | none => false
  ensure (!taken) (.singletonViolation id c.componentType)
  return ⟨d.putEntity id { e with components := insertClamped e.components index c },
    .removeComponent id c.componentType (some (clampIndex e.components index)) (some c), []⟩

def applyRemoveComponent (d : Document) (id componentType : String) (index : Option Nat) :
    Except OpError Applied := do
  let e ← d.getEntity id
  let place := index.getD ((e.componentIndex? componentType).getD e.components.length)
  match e.components[place]? with
  | none => throw (.componentNotFound id componentType)
  | some removed =>
    ensure (removed.componentType = componentType) (.componentNotFound id componentType)
    return ⟨d.putEntity id { e with components := e.components.eraseIdx place },
      .addComponent id removed (some place), []⟩

def applySetComponentProperty (d : Document) (id componentType path : String)
    (value : Option Json) : Except OpError Applied := do
  let (e, c) ← d.getComponent id componentType
  let (c, write) ← c.setProperty path value
  return ⟨d.putEntity id (e.setComponent componentType c),
    .setComponentProperty id componentType write.inversePath write.prior.value write.current, []⟩

def applyAddAsset (d : Document) (a : Asset) : Except OpError Applied := do
  ensure (!a.id.isEmpty) (.invalidValue "asset.id" "asset id must not be empty")
  ensure (!d.assets.contains a.id) (.assetExists a.id)
  return ⟨{ d with assets := Dict.insert d.assets a.id a }, .removeAsset a.id (some a), []⟩

def applyRemoveAsset (d : Document) (id : String) : Except OpError Applied :=
  match d.assets.find? id with
  | some a => .ok ⟨{ d with assets := d.assets.erase id }, .addAsset a, []⟩
  | none => .error (.assetNotFound id)

/-- The asset referred to must exist both before and after, so that the way back exists. -/
def applyReplaceAssetRef (d : Document) (id componentType text newAsset : String) :
    Except OpError Applied := do
  ensure (d.assets.contains newAsset) (.assetNotFound newAsset)
  let path ← (Path.ofText text).mapError OpError.path
  let (e, c) ← d.getComponent id componentType
  match (Bag.get? c.properties path).bind (·.asString?) with
  | none => throw (.invalidValue text "expected an asset id string")
  | some current =>
    ensure (d.assets.contains current) (.assetNotFound current)
    let properties ← (Bag.put c.properties path (some (.str newAsset))).mapError OpError.path
    return ⟨d.putEntity id (e.setComponent componentType { c with properties }),
      .replaceAssetRef id componentType text newAsset current, []⟩

def applyAddKeyframe (d : Document) (id track : String) (keyframe : Json) (index : Option Nat) :
    Except OpError Applied := do
  let e ← d.getEntity id
  let (e, _) ← e.addKeyframe track keyframe index
  let time := (Keyframe.timeOf? keyframe).getD 0
  return ⟨d.putEntity id e, .removeKeyframe id track time (some keyframe), []⟩

def applyRemoveKeyframe (d : Document) (id track : String) (time : Binary64) :
    Except OpError Applied := do
  let e ← d.getEntity id
  let (e, index, keyframe) ← e.removeKeyframe track time
  return ⟨d.putEntity id e, .addKeyframe id track keyframe (some index), []⟩

def applySetKeyframeValue (d : Document) (id track : String) (time : Binary64) (value : Json) :
    Except OpError Applied := do
  let e ← d.getEntity id
  let (e, previous) ← e.setKeyframeValue track time value
  return ⟨d.putEntity id e, .setKeyframeValue id track time previous (some value), []⟩

/-- Applies one edit. With a registry, components of singleton types are kept single. -/
def apply (registry : Option Registry) (d : Document) : Edit → Except OpError Applied
  | createEntity n => applyCreate d n
  | deleteEntity id _ => applyDelete d id
  | setProperty id path value _ => applySetProperty d id path value
  | addChild parent child index => applyAddChild d parent child index
  | removeChild parent child => applyRemoveChild d parent child
  | reparent id newParent newIndex _ _ => applyReparent d id newParent newIndex
  | addComponent id c index => applyAddComponent registry d id c index
  | removeComponent id componentType index _ => applyRemoveComponent d id componentType index
  | setComponentProperty id componentType path value _ =>
    applySetComponentProperty d id componentType path value
  | addAsset a => applyAddAsset d a
  | removeAsset id _ => applyRemoveAsset d id
  | replaceAssetRef id componentType path _ newAsset =>
    applyReplaceAssetRef d id componentType path newAsset
  | addKeyframe id track keyframe index => applyAddKeyframe d id track keyframe index
  | removeKeyframe id track time _ => applyRemoveKeyframe d id track time
  | setKeyframeValue id track time value _ => applySetKeyframeValue d id track time value

end Edit
end SceneGraph
