import SceneTree.Layout.Line
import SceneTree.Layout.Natural

/-!
# Arranging a scene

Layout goes from the top down. A root gets the viewport. An element
divides its content box among its children: those in the flow stand in
lines, those out of it at their place hints, hidden ones in the corner.
Each child arranges its own children before the next one.

On the way back an element settles its own rectangle. One that its
parent's flow placed closes around its children on every axis it asks no
size for, unless it grows; a decorated one that would have no extent along
one axis gets one line; and nothing is smaller than one unit.

Only natural sizes are read, never earlier rectangles, so an arrangement
does not depend on the one before.
-/

namespace SceneTree

open Word (wrap)

/-- Whether an element was placed by a flow, and so may close around its
children, or stands where it was put. -/
inductive Placement where
  | flow
  | fixed
deriving DecidableEq

/-- What was decided for an element and for everything below it. -/
structure Arranged where
  rect : Rect
  below : List (ElementId × Rect)
deriving DecidableEq

namespace Element

/-! ## Placing children -/

def flowStyle (e : Element) : FlowStyle :=
  { direction := e.layout.direction
    alignment := e.layout.alignment
    crossAlignment := (e.sizing.crossAlign.getD e.layout.alignment).cross
    wraps := e.layout.wraps
    gap := max e.sizing.gap 0 }

/-- A child as a flow in the given direction sees it. A size asked for
counts before the natural one along the line; across it the two are kept
apart. -/
def flowItem (d : Direction) (id : ElementId) (c : Element) : FlowItem :=
  if d.isRow then
    { id, main := c.sizing.width.getD c.intrinsic.width, cross := c.intrinsic.height,
      crossAsked := c.sizing.height, grows := c.grows }
  else
    { id, main := c.sizing.height.getD c.intrinsic.height, cross := c.intrinsic.width,
      crossAsked := c.sizing.width, grows := c.grows }

/-- Where a child out of the flow stands in a content box: at its place
hint, or in the corner if it is hidden. -/
def looseRect (content : Rect) (c : Element) : Rect :=
  if c.isVisible then
    ⟨wrap (content.x + c.header.x.toNat), wrap (content.y + c.header.y.toNat), c.intrinsic.width,
     c.intrinsic.height⟩
  else ⟨content.x, content.y, c.intrinsic.width, c.intrinsic.height⟩

/-! ## Settling -/

/-- The right and bottom edge that cover all the given rectangles. -/
def extent? (rects : List Rect) : Option (Int × Int) :=
  match (rects.map (·.right)).max?, (rects.map (·.bottom)).max? with
  | some right, some bottom => some (right, bottom)
  | _, _ => none

/-- Closes a rectangle around the children of its flow. -/
def closeAround (e : Element) (children : List Rect) (r : Rect) : Rect :=
  match extent? children with
  | none => r
  | some (right, bottom) =>
    { r with
      width :=
        if e.sizing.width.isNone then wrap (right - r.x + e.look.insets.right.toNat)
        else r.width
      height :=
        if e.sizing.height.isNone then wrap (bottom - r.y + e.look.insets.bottom.toNat)
        else r.height }

/-- Gives a decorated rectangle that is flat along one axis an extent of
one line. -/
def thicken (unit : Int) (e : Element) (r : Rect) : Rect :=
  if e.widget.holdsChildren && e.look.showsDecoration then
    if r.width ≤ 0 ∧ 0 < r.height then { r with width := unit }
    else if r.height ≤ 0 ∧ 0 < r.width then { r with height := unit }
    else r
  else r

/-- The rectangle of an element once its children are arranged. -/
def settle (unit : Int) (e : Element) (p : Placement) (children : List Rect) (r : Rect) : Rect :=
  let closed := if p = .flow ∧ !e.grows then e.closeAround children r else r
  (e.thicken unit closed).visible

end Element

namespace Scene

/-- Where the children of an element go when it stands at `r`. -/
def placeChildren (s : Scene) (e : Element) (r : Rect) : List (ElementId × Rect × Placement) :=
  let content := e.contentWithin r
  let children := e.children.filterMap fun id => (s.get? id).map (id, ·)
  let loose := (children.filter (!·.2.inFlow)).map fun (id, c) =>
    (id, c.looseRect content, Placement.fixed)
  let items := (children.filter (·.2.inFlow)).map fun (id, c) => c.flowItem e.layout.direction id
  loose ++ (e.flowStyle.place content items).map fun (id, r) => (id, r, Placement.flow)

/-- Arranges an element at `r` and what lies up to `steps` levels below
it. -/
def arrangeWithin (rules : LayoutRules) (s : Scene) :
    Nat → ElementId → Rect → Placement → Option Arranged
  | 0, _, _, _ => none
  | steps + 1, id, r, p =>
    (s.get? id).map fun e =>
      let children := (s.placeChildren e r).filterMap fun (c, place, q) =>
        (s.arrangeWithin rules steps c place q).map fun a => (c, q, a)
      let inFlow := (children.filter (·.2.1 = .flow)).map (·.2.2.rect)
      { rect := e.settle rules.settings.unit p inFlow r
        below := children.flatMap fun (c, _, a) => (c, a.rect) :: a.below }

/-- The rectangles of an element put at `r` and of all below it. -/
def arrange (rules : LayoutRules) (s : Scene) (id : ElementId) (r : Rect) :
    List (ElementId × Rect) :=
  match s.arrangeWithin rules s.slots.size id r .fixed with
  | none => []
  | some a => (id, a.rect) :: a.below

/-- Writes rectangles into the elements. -/
def withRects (s : Scene) (rects : List (ElementId × Rect)) : Scene :=
  rects.foldl (fun s (id, r) => s.modify id fun e => { e with rect := r }) s

/-- Lays every root out at the viewport: all natural sizes first, then the
arrangement. Answers how many elements were placed. -/
def layOut (rules : LayoutRules) (s : Scene) (viewport : Size) : Scene × Nat :=
  let measured := s.withNaturalSizes rules (s.roots.flatMap s.descendants)
  let rects := s.roots.flatMap fun root => measured.arrange rules root (.ofSize viewport)
  (measured.withRects rects, rects.length)

/-- Arranges what lies below an element again, inside the rectangle it has
now. Natural sizes are those of the last layout. -/
def layOutBelow (rules : LayoutRules) (s : Scene) (id : ElementId) : Scene × Nat :=
  match s.get? id with
  | none => (s, 0)
  | some e =>
    let rects := s.arrange rules id e.rect
    (s.withRects rects, rects.length)

end Scene

end SceneTree
