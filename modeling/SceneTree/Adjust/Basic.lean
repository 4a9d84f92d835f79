import SceneTree.Adjust.Patch

/-!
# Adjusters

An adjuster changes the geometry around the instances of one component
after layout. It is called with an instance and a view of the scene as it
stands, and answers with a patch. It may fail; what it had asked for until
then counts all the same.
-/

namespace SceneTree

/-! ## What an adjuster sees -/

structure AdjustView where
  scene : Scene
  document : Document
  settings : Settings

namespace AdjustView

def element (v : AdjustView) (id : ElementId) : Except AdjustFault Element :=
  match v.scene.get? id with
  | some e => .ok e
  | none => .error (.missing id)

def parent (v : AdjustView) (id : ElementId) : Except AdjustFault Element :=
  match v.scene.parent? id with
  | some p => v.element p
  | none => .error (.noParent id)

/-- The other children of the parent, in their order. -/
def siblings (v : AdjustView) (id : ElementId) : List Element :=
  match v.scene.parent? id with
  | some p => ((v.scene.children p).filter (· ≠ id)).filterMap v.scene.get?
  | none => []

/-- Where the content of an element goes. -/
def contentBox? (v : AdjustView) (id : ElementId) : Option Rect :=
  (v.scene.get? id).map (·.contentRect)

def argument? (v : AdjustView) (id : ElementId) (name : String) : Option Value :=
  ((v.scene.get? id).bind (·.instance?)).bind (·.argument? name)

/-- An argument as text. -/
def argumentText? (v : AdjustView) (id : ElementId) (name : String) : Option String :=
  (v.argument? id name).map v.document.textOf

end AdjustView

/-! ## Adjusters -/

/-- What a call of an adjuster comes to. -/
structure Adjustment where
  patch : Patch
  outcome : Except AdjustFault Unit

structure Adjuster where
  adjust : ElementId → AdjustView → Adjustment

end SceneTree
