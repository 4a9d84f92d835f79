import SceneTree.Element
import SceneTree.Fault

/-!
# Scenes

A scene holds the elements of a render tree in slots. An id is the number
of a slot; slots are only ever added, and a slot that was freed stays
empty, so no id comes to mean another element.

The tree is kept in the elements: each knows its parent and its children.
`Scene.link` is the only step that makes an edge, and it makes one only
between two live elements of which the lower has no parent and does not
lie above the upper. So the edges always form a forest: no element has
two parents, and going up from an element ends.

Walks are bounded by the number of slots. In a forest that bound is never
reached: a walk up passes each element at most once, and so does a walk
down.
-/

namespace SceneTree

structure Scene where
  slots : Array (Option Element)
deriving DecidableEq

namespace Scene

def empty : Scene := ⟨#[]⟩

/-! ## Elements -/

/-- The live element with an id. -/
def get? (s : Scene) (id : ElementId) : Option Element := (s.slots[id.index]?).join

def contains (s : Scene) (id : ElementId) : Bool := (s.get? id).isSome

/-- The live elements by id: first those of the document, then those made
by expansion. -/
def elements (s : Scene) : List Element := s.slots.toList.filterMap id

def ids (s : Scene) : List ElementId := s.elements.map (·.id)

def size (s : Scene) : Nat := s.elements.length

/-- The id the next element will get. -/
def nextId (s : Scene) : ElementId := ⟨s.slots.size⟩

/-- The first element with a name. -/
def named? (s : Scene) (name : String) : Option Element :=
  s.elements.find? (·.name == some name)

/-- Adds an element under the next id. -/
def push (s : Scene) (source : Source) (header : Header) : Scene :=
  ⟨s.slots.push (some (.fresh s.nextId source header))⟩

/-- Rewrites one element; without a live element nothing happens. -/
def modify (s : Scene) (id : ElementId) (f : Element → Element) : Scene :=
  ⟨s.slots.modify id.index (·.map f)⟩

/-! ## The tree -/

def parent? (s : Scene) (id : ElementId) : Option ElementId := (s.get? id).bind (·.parent)

def children (s : Scene) (id : ElementId) : List ElementId :=
  ((s.get? id).map (·.children)).getD []

/-- The elements without a parent, by id. -/
def roots (s : Scene) : List ElementId :=
  (s.elements.filter (·.parent.isNone)).map (·.id)

/-- An id and the ids above it, from `steps` steps up. -/
def lineageWithin (s : Scene) : Nat → ElementId → List ElementId
  | 0, id => [id]
  | steps + 1, id =>
    id :: match s.parent? id with
      | some p => s.lineageWithin steps p
      | none => []

/-- An id, its parent, and so on up to a root. -/
def lineage (s : Scene) (id : ElementId) : List ElementId := s.lineageWithin s.slots.size id

/-- Whether `upper` is `id` or lies above it. -/
def isAtOrAbove (s : Scene) (upper id : ElementId) : Bool := (s.lineage id).contains upper

/-- Makes `child` the last child of `parent`. -/
def link (s : Scene) (parent child : ElementId) : Except LinkFault Scene :=
  if parent = child then .error (.selfLink child)
  else
    match s.get? child with
    | none => .error (.missing child)
    | some c =>
      if !s.contains parent then .error (.missing parent)
      else
        match c.parent with
        | some p => .error (.alreadyParented child p)
        | none =>
          if s.isAtOrAbove child parent then .error (.wouldCycle parent child)
          else
            .ok <| (s.modify child fun e => { e with parent := some parent }).modify parent
              fun e => { e with children := e.children ++ [child] }

/-- Takes an element from its parent, if it has one. -/
def unlink (s : Scene) (child : ElementId) : Scene :=
  match s.parent? child with
  | none => s
  | some p =>
    (s.modify p fun e => { e with children := e.children.filter (· ≠ child) }).modify child
      fun e => { e with parent := none }

/-! ## Walking down -/

/-- Walks down from a list of ids, `steps` ids at most. An element comes
before its children, and they before what follows it. Where `enter` says
no, neither the element nor anything below it is visited. -/
def visitWithin (s : Scene) (enter : Element → Bool) : Nat → List ElementId → List Element
  | 0, _ => []
  | _, [] => []
  | steps + 1, id :: rest =>
    match s.get? id with
    | none => s.visitWithin enter steps rest
    | some e =>
      if enter e then e :: s.visitWithin enter steps (e.children ++ rest)
      else s.visitWithin enter steps rest

def visit (s : Scene) (enter : Element → Bool) (start : List ElementId) : List Element :=
  s.visitWithin enter s.slots.size start

/-- An id and all ids below it, parents before children. -/
def descendants (s : Scene) (id : ElementId) : List ElementId :=
  (s.visit (fun _ => true) [id]).map (·.id)

/-- The elements that show: those that are visible along with all above
them, in the order in which they cover one another. -/
def shown (s : Scene) : List Element := s.visit (·.isVisible) s.roots

/-! ## Removing -/

/-- Empties the slots of the given ids. -/
def free (s : Scene) (doomed : List ElementId) : Scene :=
  ⟨s.slots.mapIdx fun i e => if doomed.contains ⟨i⟩ then none else e⟩

/-- Removes an element and all below it. -/
def remove (s : Scene) (id : ElementId) : Scene :=
  let cut := s.unlink id
  cut.free (cut.descendants id)

/-- How many elements `remove` takes away. -/
def removedCount (s : Scene) (id : ElementId) : Nat := ((s.unlink id).descendants id).length

/-! ## What the operations do to a look-up -/

theorem get?_empty (id : ElementId) : empty.get? id = none := by
  simp [empty, get?]

theorem get?_push (s : Scene) (source : Source) (header : Header) (id : ElementId) :
    (s.push source header).get? id =
      if id = s.nextId then some (.fresh s.nextId source header) else s.get? id := by
  cases id with
  | mk i =>
    simp only [push, get?, nextId, ElementId.mk.injEq, Array.getElem?_push]
    split <;> simp

theorem get?_modify (s : Scene) (id : ElementId) (f : Element → Element) (other : ElementId) :
    (s.modify id f).get? other =
      if other = id then (s.get? other).map f else s.get? other := by
  cases id with
  | mk i =>
    cases other with
    | mk j =>
      simp only [modify, get?, ElementId.mk.injEq, Array.getElem?_modify]
      by_cases h : i = j
      · subst h
        cases s.slots[i]? with
        | none => simp
        | some slot => cases slot <;> simp
      · simp [h, Ne.symm h]

theorem get?_free (s : Scene) (doomed : List ElementId) (id : ElementId) :
    (s.free doomed).get? id = if id ∈ doomed then none else s.get? id := by
  cases id with
  | mk i =>
    simp only [free, get?, Array.getElem?_mapIdx, List.contains_iff_mem]
    cases s.slots[i]? with
    | none => simp
    | some slot => by_cases h : (⟨i⟩ : ElementId) ∈ doomed <;> simp [h]

end Scene

end SceneTree
