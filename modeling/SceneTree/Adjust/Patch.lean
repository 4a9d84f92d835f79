import SceneTree.Layout.Arrange
import SceneTree.Notice

/-!
# Patches

A patch is a set of changes to the geometry of a scene: at most one
rectangle per element, and the elements below which is to be arranged
again. It is written down first and applied afterwards, all rectangles
before any arrangement.
-/

namespace SceneTree

structure Patch where
  rects : List (ElementId × Rect)
  relayouts : List ElementId
deriving DecidableEq

namespace Patch

def empty : Patch := { rects := [], relayouts := [] }

def isEmpty (p : Patch) : Bool := p.rects.isEmpty && p.relayouts.isEmpty

/-- Gives an element a rectangle. An earlier one for it is dropped, and the
new one comes last. -/
def setRect (p : Patch) (id : ElementId) (r : Rect) : Patch :=
  { p with rects := p.rects.filter (·.1 ≠ id) ++ [(id, r)] }

/-- Asks for a new arrangement below an element, once. -/
def relayout (p : Patch) (id : ElementId) : Patch :=
  if p.relayouts.contains id then p else { p with relayouts := p.relayouts ++ [id] }

/-- The patch that sets rectangles in turn and then asks for
arrangements. -/
def ofLists (rects : List (ElementId × Rect)) (relayouts : List ElementId) : Patch :=
  relayouts.foldl relayout (rects.foldl (fun p (id, r) => p.setRect id r) empty)

/-- The rectangles for elements that are there. -/
def landing (p : Patch) (s : Scene) : List (ElementId × Rect) :=
  p.rects.filter fun (id, _) => s.contains id

/-- The scene with the patch applied. A rectangle is raised to one unit on
each side. -/
def applyTo (p : Patch) (rules : LayoutRules) (s : Scene) : Scene :=
  let placed := s.withRects ((p.landing s).map fun (id, r) => (id, r.visible))
  p.relayouts.foldl (fun s id => (s.layOutBelow rules id).1) placed

/-- What is noted while the patch is applied: rectangles for elements that
are not there. -/
def notices (p : Patch) (s : Scene) : List Notice :=
  (p.rects.filter fun (id, _) => !s.contains id).map fun (id, _) => .patchMissed id

end Patch

end SceneTree
