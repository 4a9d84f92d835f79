import SceneTree.Proofs.Session.Growth

/-!
# Expansion with a stack of its own

`expandWithin` is handed the components that lie around an instance and the
number of levels left. The same expansion is told here as work on one stack
that is there before and after every call: a component is put on it before
the instances of its copy are expanded, and taken off again after the last
of them. What ends the work is not a number of levels but the length of the
stack, which is looked at in each call; fuel only makes the definition
total, and work that runs out of it has no result.

The stack is written by `Work.enter` and `Work.leave` alone. Both say so in
the trace, as does every call from within a call. So a trace holds every
stack there has been, every copy that was begun, and every recursive call.
-/

namespace SceneTree

/-! ## Traces -/

/-- A copy of a component's template, put under the instance `id`. Its
`count` elements have the ids from `first` on. -/
structure Copying where
  id : ElementId
  component : ComponentId
  /-- The components being expanded around it, innermost first. -/
  around : List ComponentId
  first : ElementId
  count : Nat
deriving DecidableEq

namespace Copying

/-- The components being expanded while the instances of the copy are. -/
def stack (c : Copying) : List ComponentId := c.component :: c.around

/-- Whether the copy is where an element was made. -/
def Made (c : Copying) (id : ElementId) : Prop :=
  c.first.index ≤ id.index ∧ id.index < c.first.index + c.count

instance (c : Copying) (id : ElementId) : Decidable (c.Made id) :=
  inferInstanceAs (Decidable (_ ∧ _))

/-- The node of the template that an element of the copy was made of. -/
def node (c : Copying) (id : ElementId) : Nat := id.index - c.first.index

end Copying

/-- What is written down while an instance is expanded. -/
inductive StackEvent where
  /-- A call from within a call: the stack with which that one began, and
  the stack with which this one begins. -/
  | called (outer inner : List ComponentId)
  /-- A component was put on the stack. -/
  | entered (c : Copying)
  /-- A component was taken off the stack, which is now `stack`. -/
  | left (stack : List ComponentId)
deriving DecidableEq

namespace StackEvent

/-- The stack as the event finds or leaves it. -/
def stack : StackEvent → List ComponentId
  | called _ inner => inner
  | entered c => c.stack
  | left stack => stack

def copying? : StackEvent → Option Copying
  | entered c => some c
  | _ => none

/-- Every copy begun in a trace, in order. -/
def copyings (trace : List StackEvent) : List Copying := trace.filterMap copying?

theorem copyings_append (trace later : List StackEvent) :
    copyings (trace ++ later) = copyings trace ++ copyings later :=
  List.filterMap_append

end StackEvent

/-- Work that begins with a stack: without fuel enough it has no result,
else a value, the stack it leaves, and its trace. -/
def Work (α : Type) : Type :=
  List ComponentId → Option (α × List ComponentId × List StackEvent)

namespace Work

variable {α β : Type}

instance : Monad Work where
  pure a := fun stack => some (a, stack, [])
  bind w next := fun stack =>
    match w stack with
    | none => none
    | some (a, between, trace) =>
      match next a between with
      | none => none
      | some (b, after, later) => some (b, after, trace ++ later)

theorem bind_of_eq {w : Work α} {next : α → Work β} {stack between after : List ComponentId}
    {a : α} {b : β} {trace later : List StackEvent} (hw : w stack = some (a, between, trace))
    (hnext : next a between = some (b, after, later)) :
    (w >>= next) stack = some (b, after, trace ++ later) := by
  change (match w stack with
    | none => none
    | some (a, between, trace) => match next a between with
      | none => none
      | some (b, after, later) => some (b, after, trace ++ later)) = _
  simp only [hw, hnext]

/-- The fuel is used up. -/
def stuck : Work α := fun _ => none

def stack : Work (List ComponentId) := fun stack => some (stack, stack, [])

/-- Puts a component on the stack. -/
def enter (id : ElementId) (component : ComponentId) (first : ElementId) (count : Nat) :
    Work Unit := fun stack =>
  some ((), component :: stack, [.entered { id, component, around := stack, first, count }])

/-- Takes the innermost component off the stack. -/
def leave : Work Unit := fun stack => some ((), stack.tail, [.left stack.tail])

/-- Writes down a call from within one that began with the stack `outer`. -/
def call (outer : List ComponentId) : Work Unit := fun stack =>
  some ((), stack, [.called outer stack])

end Work

/-! ## The expansion -/

namespace Scene

/-- One expansion below another, as in `expandNested`. -/
def expandNestedOn (nest : Scene → ElementId → Work Expansion) (outer : List ComponentId)
    (component : String) (w : Splicing) (id : ElementId) : Work Splicing :=
  if (w.scene.get? id).any (·.isInstance) then do
    Work.call outer
    let x ← nest w.scene id
    return expandNested (fun _ _ => x) component w id
  else return w

/-- Puts a copy of a template under an instance, as in `splice`. The
component is on the stack while the instances of the copy are expanded. -/
def spliceOn (d : Document) (st : Settings) (nest : Scene → ElementId → Work Expansion)
    (component : ComponentId) (t : Template) (s : Scene) (det : Detached) : Work Expansion :=
  match s.get? det.id with
  | none => return { scene := s, notices := [], outcome := .error (.notAnInstance det.id) }
  | some inst => do
    let copies := (List.range t.nodes.length).map s.copyId
    let roots := t.roots.map s.copyId
    let made := addTemplate d st inst component det.decoration t s
    let rooted := attachRoots det roots (linkCopies det.component s.copyId t made)
    let outer ← Work.stack
    Work.enter det.id component s.nextId t.nodes.length
    let nested ← copies.foldlM (expandNestedOn nest outer det.component) rooted
    Work.leave
    let placed := placeUsage det (nested.scene.usageTarget? copies roots) nested
    return { scene := placed.scene, notices := placed.notices, outcome := .ok roots }

/-- Takes an instance apart and writes down what became of it, as in
`expandWith`. -/
def expandWithOn (put : Scene → Detached → Work Expansion) (s : Scene) (id : ElementId) :
    Work Expansion :=
  match s.detach? id with
  | none => return { scene := s, notices := [], outcome := .error (.notAnInstance id) }
  | some (bare, det) => do
    let x ← put bare det
    return expandWith (fun _ _ => x) s id

/-- Expands an instance. A component that is on the stack is refused, and so
is every component when the stack has its full length. -/
def expandOn (d : Document) (st : Settings) : (fuel : Nat) → Scene → ElementId → Work Expansion
  | 0 => fun _ _ => Work.stuck
  | fuel + 1 => expandWithOn fun s det => do
    let stack ← Work.stack
    match findComponent d stack det with
    | .error cause => return { scene := s, notices := [], outcome := .error cause }
    | .ok (id, c) =>
      if maxDepth ≤ stack.length then
        return { scene := s, notices := [], outcome := .error (.tooDeep maxDepth) }
      else
        match Template.read c.template with
        | .error cause =>
          return { scene := s, notices := [], outcome := .error (.badTemplate det.component cause) }
        | .ok t => spliceOn d st (expandOn d st fuel) id t s det

/-- Expands one instance that is still pending, as in `expandPending`. -/
def expandPendingOn (d : Document) (st : Settings) (fuel : Nat) (run : ExpansionRun)
    (id : ElementId) : Work ExpansionRun :=
  if (run.scene.get? id).any (·.isPending) then do
    let x ← expandOn d st fuel run.scene id
    match x.outcome with
    | .ok _ =>
      return { scene := x.scene, notices := run.notices ++ x.notices, count := run.count + 1 }
    | .error cause =>
      return { run with
        scene := x.scene, notices := run.notices ++ x.notices ++ [.expansionFailed id cause] }
  else return run

/-- Expands every instance that is pending at the start, as in
`expandAll`. -/
def expandAllOn (d : Document) (st : Settings) (fuel : Nat) (s : Scene) : Work ExpansionRun :=
  ((s.elements.filter (·.isPending)).map (·.id)).foldlM (expandPendingOn d st fuel)
    { scene := s, notices := [], count := 0 }

end Scene

end SceneTree
