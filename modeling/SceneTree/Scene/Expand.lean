import SceneTree.Scene.Populate
import SceneTree.Template

/-!
# Expanding components

An element that stands for a component gets a fresh copy of the
component's template as its children. Its own children, the usage, move
into the slot of the copy:

    before                        after
    #4 instance                   #4 instance
      #5 button                     #9 root of the template
      #6 button                       #10 slot
                                        #5 button
                                        #6 button

The instance hands its decoration to the first node of the copy, along
with its name, its size and whether it grows, as far as it has them. A
text that reads `$name` in the template becomes the argument of that name.

Instances inside the copy are expanded before the usage moves in. The
components being expanded are kept on the way down, innermost first: none
may occur in itself, and there may be `maxDepth` of them at most. The
number of levels left is what the recursion goes down by.

When an expansion fails the instance is left without children, and its
usage is gone. It keeps its decoration.

Expanding an instance again takes the usage out, drops the old copy and
makes a new one.
-/

namespace SceneTree

/-- How many templates may lie within one another. -/
def maxDepth : Nat := 32

/-- What an expansion leaves, what was noted, and the roots of the copy or
the reason why there is none. -/
structure Expansion where
  scene : Scene
  notices : List Notice
  outcome : Except ExpandFault (List ElementId)

/-! ## Taking an instance apart -/

/-- What is taken from an instance before its component is put in. -/
structure Detached where
  id : ElementId
  component : String
  definition : Option ComponentId
  usage : List ElementId
  decoration : Decoration
deriving DecidableEq

namespace Scene

/-- Takes usage and decoration from an instance and drops an earlier copy
along with anything else below it. Elements that are no instances are left
alone. -/
def detach? (s : Scene) (id : ElementId) : Option (Scene × Detached) := do
  let e ← s.get? id
  let i ← e.instance?
  let usage := if i.expanded then i.usage else e.children
  let oldRoots := if i.expanded then i.roots else []
  let decoration := if i.decoration = .none then e.look.decoration else i.decoration
  let bare := s.modify id fun e => { e with look := e.look.undecorated }
  let freed := oldRoots.foldl remove (usage.foldl unlink bare)
  let emptied := (freed.children id).foldl remove freed
  return (emptied, { id, component := i.component, definition := i.definition, usage, decoration })

/-- Writes what an instance keeps. -/
def settleInstance (s : Scene) (id : ElementId) (usage roots : List ElementId)
    (decoration : Decoration) : Scene :=
  s.modify id fun e =>
    { e with role := match e.role with
        | .standIn i => .standIn { i with expanded := true, usage, roots, decoration }
        | plain => plain }

/-! ## Making the copy -/

/-- A text that names an argument becomes that argument. -/
def fillText (d : Document) (arguments : List (String × Value)) (text : String) : String :=
  match text.toList with
  | '$' :: name => ((arguments.lookup (String.ofList name)).map d.textOf).getD text
  | _ => text

/-- What the first node of a copy takes over from the instance. -/
def adoptInstance (inst : Element) (decoration : Decoration) (e : Element) : Element :=
  { e with
    look := decoration.applyTo e.look
    name := inst.name <|> e.name
    sizing :=
      { e.sizing with
        width := inst.sizing.width <|> e.sizing.width
        height := inst.sizing.height <|> e.sizing.height }
    layout := if inst.grows then e.layout.withGrow else e.layout }

/-- The header a node of a copy is resolved under: the first node takes
the style of the instance, if it has one. -/
def copyHeader (inst : Element) (node : Nat) (h : Header) : Header :=
  if node = 0 ∧ inst.header.styleId ≠ 0 then { h with styleId := inst.header.styleId } else h

/-- Makes the element of one node of a template. -/
def addNode (d : Document) (st : Settings) (inst : Element) (component : ComponentId)
    (decoration : Decoration) (s : Scene) (node : Nat) (r : Record) : Scene :=
  let arguments := (inst.instance?.map (·.arguments)).getD []
  let filled := (s.add d st (.template component node) (copyHeader inst node r.header) r).modify
    s.nextId fun e => { e with text := e.text.map (fillText d arguments) }
  if node = 0 then filled.modify s.nextId (adoptInstance inst decoration) else filled

/-- A scene that is being added to, and what was noted on the way. -/
structure Splicing where
  scene : Scene
  notices : List Notice

namespace Splicing

def note (w : Splicing) (ns : List Notice) : Splicing := { w with notices := w.notices ++ ns }

/-- Links two elements; a refusal is noted and changes nothing. -/
def link (w : Splicing) (refusal : LinkFault → Notice) (parent child : ElementId) : Splicing :=
  match w.scene.link parent child with
  | .ok scene => { w with scene }
  | .error cause => w.note [refusal cause]

end Splicing

/-- Makes the elements of a template in order. -/
def addTemplate (d : Document) (st : Settings) (inst : Element) (component : ComponentId)
    (decoration : Decoration) (t : Template) (s : Scene) : Splicing :=
  t.nodes.zipIdx.foldl
    (fun w (n, i) =>
      let h := copyHeader inst i n.record.header
      { scene := addNode d st inst component decoration w.scene i n.record
        notices := w.notices ++ n.record.notices d w.scene.nextId h })
    { scene := s, notices := [] }

/-! ## Putting the copy in its place -/

/-- The id that the copy of a node gets in a scene. -/
def copyId (s : Scene) (node : Nat) : ElementId := ⟨s.nextId.index + node⟩

/-- Links the copies of nodes as the template has them. -/
def linkCopies (component : String) (copyOf : Nat → ElementId) (t : Template) (w : Splicing) :
    Splicing :=
  let linked := t.edges.foldl
    (fun w e => w.link (.templateLinkRejected component) (copyOf e.parent) (copyOf e.child)) w
  linked.note <| t.unresolved.map fun r =>
    .templateRefSkipped component r.parent r.offset r.problem

/-- Puts the roots of the copy under the instance. -/
def attachRoots (det : Detached) (roots : List ElementId) (w : Splicing) : Splicing :=
  roots.foldl (fun w root => w.link (.templateRootRejected det.component) det.id root) w

/-- One expansion below another; a failure is noted. Elements that are no
instances, or no longer there, are passed over. -/
def expandNested (nest : Scene → ElementId → Expansion) (component : String) (w : Splicing)
    (id : ElementId) : Splicing :=
  if (w.scene.get? id).any (·.isInstance) then
    let x := nest w.scene id
    let failure := match x.outcome with
      | .ok _ => []
      | .error cause => [Notice.nestedExpansionFailed component id cause]
    { scene := x.scene, notices := w.notices ++ x.notices ++ failure }
  else w

/-- Where the usage goes: the first slot among the copies that are there,
or else the first root. -/
def usageTarget? (s : Scene) (copies roots : List ElementId) : Option ElementId :=
  (copies.find? fun id => (s.get? id).any (·.slot)) <|> roots.head?

/-- Puts the usage under `target`; without one it is dropped. -/
def placeUsage (det : Detached) (target : Option ElementId) (w : Splicing) : Splicing :=
  match target with
  | some target =>
    det.usage.foldl
      (fun w child => w.link (.usageRejected det.component child) target child) w
  | none =>
    if det.usage.isEmpty then w
    else
      { scene := det.usage.foldl remove w.scene
        notices := w.notices ++ [.usageDropped det.component det.usage.length] }

/-- Puts a copy of a template under an instance that was taken apart.
`nest` expands the instances inside the copy. -/
def splice (d : Document) (st : Settings) (nest : Scene → ElementId → Expansion)
    (component : ComponentId) (t : Template) (s : Scene) (det : Detached) : Expansion :=
  match s.get? det.id with
  | none => { scene := s, notices := [], outcome := .error (.notAnInstance det.id) }
  | some inst =>
    let copies := (List.range t.nodes.length).map s.copyId
    let roots := t.roots.map s.copyId
    let made := addTemplate d st inst component det.decoration t s
    let rooted := attachRoots det roots (linkCopies det.component s.copyId t made)
    let nested := copies.foldl (expandNested nest det.component) rooted
    let placed := placeUsage det (nested.scene.usageTarget? copies roots) nested
    { scene := placed.scene, notices := placed.notices, outcome := .ok roots }

/-! ## Expanding -/

/-- The component an instance asks for, unless it is not defined or lies
around the instance already. -/
def findComponent (d : Document) (enclosing : List ComponentId) (det : Detached) :
    Except ExpandFault (ComponentId × Component) :=
  match det.definition.bind fun id => (d.component? id).map (id, ·) with
  | none => .error (.unknownComponent det.component)
  | some (id, c) =>
    if enclosing.contains id then .error (.recursive det.component) else .ok (id, c)

/-- Takes an instance apart, puts its component in, and writes down what
became of it. -/
def expandWith (put : Scene → Detached → Expansion) (s : Scene) (id : ElementId) : Expansion :=
  match s.detach? id with
  | none => { scene := s, notices := [], outcome := .error (.notAnInstance id) }
  | some (bare, det) =>
    let x := put bare det
    match x.outcome with
    | .ok roots =>
      let kept := det.usage.filter x.scene.contains
      { x with scene := x.scene.settleInstance id kept roots det.decoration }
    | .error _ =>
      let cleared := det.usage.foldl remove x.scene
      let dressed := cleared.modify id fun e => { e with look := det.decoration.applyTo e.look }
      { x with scene := dressed.settleInstance id [] [] .none }

/-- Expands an instance inside the components `enclosing`, with `levels`
more levels allowed. -/
def expandWithin (d : Document) (st : Settings) :
    (levels : Nat) → (enclosing : List ComponentId) → Scene → ElementId → Expansion
  | 0, enclosing => expandWith fun s det =>
    let cause := match findComponent d enclosing det with
      | .error cause => cause
      | .ok _ => .tooDeep maxDepth
    { scene := s, notices := [], outcome := .error cause }
  | levels + 1, enclosing => expandWith fun s det =>
    match findComponent d enclosing det with
    | .error cause => { scene := s, notices := [], outcome := .error cause }
    | .ok (id, c) =>
      match Template.read c.template with
      | .error cause =>
        { scene := s, notices := [], outcome := .error (.badTemplate det.component cause) }
      | .ok t => splice d st (expandWithin d st levels (id :: enclosing)) id t s det

/-- Expands one instance, in place of any copy it has. -/
def expand (s : Scene) (d : Document) (st : Settings) (id : ElementId) : Expansion :=
  expandWithin d st maxDepth [] s id

/-- What expanding everything leaves, what was noted, and how many
instances got a copy. -/
structure ExpansionRun where
  scene : Scene
  notices : List Notice
  count : Nat

/-- Expands one instance that is still pending. -/
def expandPending (d : Document) (st : Settings) (run : ExpansionRun) (id : ElementId) :
    ExpansionRun :=
  if (run.scene.get? id).any (·.isPending) then
    let x := run.scene.expand d st id
    match x.outcome with
    | .ok _ => { scene := x.scene, notices := run.notices ++ x.notices, count := run.count + 1 }
    | .error cause =>
      { run with scene := x.scene, notices := run.notices ++ x.notices ++ [.expansionFailed id cause] }
  else run

/-- Expands every instance that was pending at the start, by id, unless an
earlier expansion has taken it along or away. -/
def expandAll (s : Scene) (d : Document) (st : Settings) : ExpansionRun :=
  ((s.elements.filter (·.isPending)).map (·.id)).foldl (expandPending d st)
    { scene := s, notices := [], count := 0 }

end Scene

end SceneTree
