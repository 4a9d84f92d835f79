import SceneTree.Adjust.Basic
import SceneTree.Text.Glyph

/-!
# Docked bars

A bar docks to an edge of its parent's content box: it keeps its thickness
and takes the full length of the edge. Another child of the parent, the
content, gets what is left. That is the first sibling in the flow that
grows, or else the next one in the flow after the bar.

The edge is an argument of the bar, read without regard to case or blanks
around it; without one the bar docks to the top.
-/

namespace SceneTree

open Word (wrap)

inductive DockEdge where
  | top | bottom | left | right
deriving DecidableEq

namespace DockEdge

def name : DockEdge → String
  | .top => "Top"
  | .bottom => "Bottom"
  | .left => "Left"
  | .right => "Right"

/-- The edge an instance without the argument docks to. -/
def standard : DockEdge := .top

/-- Reads an edge; an empty text is the standard one. Only the letters of
ASCII have a case here. -/
def ofText? (s : String) : Option DockEdge :=
  let word := String.ofList ((Glyph.trim s.toList).map Char.toLower)
  if word = "" then some standard
  else if word = "top" then some .top
  else if word = "bottom" then some .bottom
  else if word = "left" then some .left
  else if word = "right" then some .right
  else none

def isHorizontal : DockEdge → Bool
  | .top | .bottom => true
  | .left | .right => false

/-- How thick a bar can be along this edge of an area. -/
def room (edge : DockEdge) (area : Rect) : Int :=
  if edge.isHorizontal then area.height else area.width

/-- Divides an area into a bar and the rest. The bar is cut to the area. -/
def split (edge : DockEdge) (area : Rect) (thickness : Int) : Rect × Rect :=
  let t := max 0 (min thickness (edge.room area))
  match edge with
  | .top =>
    (⟨area.x, area.y, area.width, t⟩, ⟨area.x, wrap (area.y + t), area.width, area.height - t⟩)
  | .bottom =>
    (⟨area.x, wrap (area.bottom - t), area.width, t⟩,
      ⟨area.x, area.y, area.width, area.height - t⟩)
  | .left =>
    (⟨area.x, area.y, t, area.height⟩, ⟨wrap (area.x + t), area.y, area.width - t, area.height⟩)
  | .right =>
    (⟨wrap (area.right - t), area.y, t, area.height⟩,
      ⟨area.x, area.y, area.width - t, area.height⟩)

end DockEdge

namespace Dock

/-- The component that docks. -/
def component : String := "TabBar"

/-- The argument that names the edge. -/
def positionKey : String := "position"

/-- The edge of a bar. -/
def edge (bar : ElementId) (v : AdjustView) : Except AdjustFault DockEdge :=
  match v.argumentText? bar positionKey with
  | none => .ok .standard
  | some text =>
    match DockEdge.ofText? text with
    | some edge => .ok edge
    | none => .error (.invalidProperty positionKey text)

/-- The children of the bar's parent that come after the bar. -/
def after (bar : ElementId) (v : AdjustView) : List Element :=
  match v.scene.parent? bar with
  | some p =>
    (((v.scene.children p).dropWhile (· ≠ bar)).drop 1).filterMap v.scene.get?
  | none => []

/-- The child that gets what the bar leaves. -/
def content? (bar : ElementId) (v : AdjustView) : Option Element :=
  (v.siblings bar).find? (fun e => e.inFlow && e.grows) <|> (after bar v).find? (·.inFlow)

/-- The patch that docks a bar. -/
def patch (bar : ElementId) (v : AdjustView) : Except AdjustFault Patch := do
  let e ← v.element bar
  let p ← v.parent bar
  let edge ← edge bar v
  let thickness := if edge.isHorizontal then e.rect.height else e.rect.width
  let (barRect, rest) := edge.split p.contentRect thickness
  let docked := (Patch.empty.setRect bar barRect).relayout bar
  return match content? bar v with
    | some c => (docked.setRect c.id rest).relayout c.id
    | none => docked

/-- The adjuster of docked bars. One that fails asks for nothing. -/
def adjuster : Adjuster where
  adjust bar v :=
    match patch bar v with
    | .ok patch => { patch, outcome := .ok () }
    | .error cause => { patch := .empty, outcome := .error cause }

end Dock

end SceneTree
