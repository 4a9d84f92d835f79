import SceneTree.Scene.Basic

/-!
# The pointer

A point belongs to the element that covers it last. A pointer remembers
the element it is over and the one it was pressed on. Each step of it
raises events: entering an element, pressing it, releasing it, and a click
when press and release met the same element, in this order.

An event raised on an element goes to the nearest element, itself or one
above it, that is bound to it, and calls that binding's callback. Whether
a callback of that name exists is not known here.
-/

namespace SceneTree

namespace Scene

/-! ## Finding elements -/

/-- The rectangles of the elements that show, the topmost last. -/
def regions (s : Scene) : List (ElementId × Rect) := s.shown.map fun e => (e.id, e.rect)

/-- The topmost element at a point. -/
def elementAt? (s : Scene) (x y : Int) : Option ElementId :=
  (s.regions.reverse.find? fun (_, r) => r.contains x y).map (·.1)

/-- The element an event on `id` goes to, and the callback it calls. -/
def boundTo? (s : Scene) (id : ElementId) (event : Event) : Option (ElementId × String) :=
  (s.lineage id).findSome? fun upper =>
    ((s.get? upper).bind (·.callback? event)).map (upper, ·)

end Scene

/-! ## The pointer -/

structure Pointer where
  hovered : Option ElementId
  pressed : Option ElementId
deriving DecidableEq

inductive PointerAction where
  | down | up | move
deriving DecidableEq

namespace Pointer

/-- Over nothing and not pressed. -/
def idle : Pointer := { hovered := none, pressed := none }

/-- The events a step raises when it ends over `target`. -/
def raised (p : Pointer) (action : PointerAction) (target : Option ElementId) :
    List (Event × ElementId) :=
  match target with
  | none => []
  | some id =>
    let entered := if p.hovered = some id then [] else [(Event.hover, id)]
    entered ++ match action with
      | .down => [(.press, id)]
      | .up => (.release, id) :: if p.pressed = some id then [(.click, id)] else []
      | .move => []

/-- The pointer after a step that ends over `target`. -/
def after (p : Pointer) (action : PointerAction) (target : Option ElementId) : Pointer :=
  { hovered := target
    pressed := match action with
      | .down => target
      | .up => none
      | .move => p.pressed }

/-- One step at a point: the pointer after it, and the callbacks it calls,
in order. -/
def step (p : Pointer) (s : Scene) (action : PointerAction) (x y : Int) :
    Pointer × List String :=
  let target := s.elementAt? x y
  (p.after action target,
   (p.raised action target).filterMap fun (event, id) => (s.boundTo? id event).map (·.2))

end Pointer

end SceneTree
