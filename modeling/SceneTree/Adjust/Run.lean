import SceneTree.Handlers

/-!
# Running the adjusters

After layout, each instance whose component has an adjuster is adjusted
once, by id. Which instances those are is settled before the first call,
and each call sees what the earlier ones have done.
-/

namespace SceneTree

/-- One call of an adjuster: for whom, what it saw, and what it answered. -/
structure AdjustCall where
  target : ElementId
  component : String
  view : AdjustView
  answer : Adjustment

namespace AdjustCall

def failed (c : AdjustCall) : Bool :=
  match c.answer.outcome with
  | .ok _ => false
  | .error _ => true

/-- What is noted of a call: its failure first, then what its patch
missed. -/
def notices (c : AdjustCall) : List Notice :=
  (match c.answer.outcome with
    | .ok _ => []
    | .error cause => [.adjustmentFailed c.target c.component cause])
    ++ c.answer.patch.notices c.view.scene

end AdjustCall

/-- A scene after adjustment, and the calls that were made, in order. -/
structure AdjustRun where
  scene : Scene
  calls : List AdjustCall

namespace AdjustRun

/-- The calls whose adjuster failed. -/
def failures (r : AdjustRun) : Nat := r.calls.countP (·.failed)

def notices (r : AdjustRun) : List Notice := r.calls.flatMap (·.notices)

end AdjustRun

namespace Scene

/-- The instances that have an adjuster, by id, each with it. -/
def adjustTargets (s : Scene) (h : Handlers) : List (ElementId × String × Adjuster) :=
  s.elements.filterMap fun e =>
    e.instance?.bind fun i =>
      (h.adjuster? i.component).map fun a => (e.id, i.component, a)

/-- Makes one call and applies its patch. -/
def adjustOne (rules : LayoutRules) (d : Document) (run : AdjustRun)
    (target : ElementId × String × Adjuster) : AdjustRun :=
  let (id, component, adjuster) := target
  let view := { scene := run.scene, document := d, settings := rules.settings }
  let answer := adjuster.adjust id view
  { scene := answer.patch.applyTo rules run.scene
    calls := run.calls ++ [{ target := id, component, view, answer }] }

/-- Adjusts every instance that has an adjuster. -/
def adjust (rules : LayoutRules) (s : Scene) (d : Document) (h : Handlers) : AdjustRun :=
  (s.adjustTargets h).foldl (adjustOne rules d) { scene := s, calls := [] }

end Scene

end SceneTree
