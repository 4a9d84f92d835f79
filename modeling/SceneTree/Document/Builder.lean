import SceneTree.Document.Wire
import SceneTree.Document.Event
import SceneTree.Notice

/-!
# Building documents

A builder takes drafts of elements and lays their records out one after
another with real byte offsets, so a document that was built is linked
along exactly the same path as one that was read.

Strings and paths are named freely in a draft and become indices when the
records are made. Components are made when they are registered, elements
at the end; this order decides which index a string gets. Index zero of
the string table is reserved, so that a zero index means "unnamed".

Nothing is refused. A table that is full answers index zero, a link
between elements that do not exist is left out, and so is a reference to
a child whose distance two bytes cannot say; each is noted.
-/

namespace SceneTree

/-! ## Drafts -/

/-- A value whose string or resource has no index yet. -/
inductive Operand where
  | value (v : Value)
  | text (s : String)
  | path (p : String)
deriving DecidableEq

/-- An element as it is asked for. -/
structure Draft where
  header : Header
  name : Option String
  properties : List (Attribute × Operand)
  customs : List (String × Operand)
  triggers : List (Event × String)
deriving DecidableEq

namespace Draft

def ofWidget (w : Widget) : Draft :=
  { header := .ofWidget w, name := none, properties := [], customs := [], triggers := [] }

/-! ### Starting points -/

def app : Draft := ofWidget .app

def container : Draft := ofWidget .container

/-! ### Header -/

def named (d : Draft) (name : String) : Draft := { d with name := some name }

def sized (d : Draft) (width height : UInt16) : Draft :=
  { d with header := { d.header with width, height } }

def placed (d : Draft) (x y : UInt16) : Draft :=
  { d with header := { d.header with x, y } }

def laidOut (d : Draft) (layout : LayoutFlags) : Draft :=
  { d with header := { d.header with layout } }

def styled (d : Draft) (styleId : UInt8) : Draft :=
  { d with header := { d.header with styleId } }

def directed (d : Draft) (direction : Direction) : Draft :=
  d.laidOut (d.header.layout.withDirection direction)

def aligned (d : Draft) (alignment : Alignment) : Draft :=
  d.laidOut (d.header.layout.withAlignment alignment)

def growing (d : Draft) : Draft := d.laidOut d.header.layout.withGrow

def outOfFlow (d : Draft) : Draft := d.laidOut d.header.layout.withAbsolute

def wrapping (d : Draft) : Draft := d.laidOut d.header.layout.withWrap

/-! ### Tables -/

def set (d : Draft) (target : Attribute) (operand : Operand) : Draft :=
  { d with properties := d.properties ++ [(target, operand)] }

def setValue (d : Draft) (target : Attribute) (v : Value) : Draft := d.set target (.value v)

def withText (d : Draft) (content : String) : Draft := d.set .textContent (.text content)

def withFontFamily (d : Draft) (family : String) : Draft := d.set .fontFamily (.text family)

def withImage (d : Draft) (path : String) : Draft := d.set .imageSource (.path path)

def withBackground (d : Draft) (c : Color) : Draft := d.setValue .backgroundColor (.color c)

def withForeground (d : Draft) (c : Color) : Draft := d.setValue .foregroundColor (.color c)

def withBorderColor (d : Draft) (c : Color) : Draft := d.setValue .borderColor (.color c)

def withBorderWidth (d : Draft) (n : UInt8) : Draft := d.setValue .borderWidth (.byte n)

def withPadding (d : Draft) (n : UInt8) : Draft := d.setValue .padding (.byte n)

def withInsets (d : Draft) (e : Edges) : Draft := d.setValue .padding (.edges e)

def withFontSize (d : Draft) (n : UInt16) : Draft := d.setValue .fontSize (.short n)

def withGap (d : Draft) (n : UInt16) : Draft := d.setValue .gap (.short n)

def hidden (d : Draft) : Draft := d.setValue .visibility (.byte 0)

def withCustom (d : Draft) (key : String) (operand : Operand) : Draft :=
  { d with customs := d.customs ++ [(key, operand)] }

/-- The element stands for a component. -/
def standingFor (d : Draft) (component : String) : Draft :=
  d.withCustom Document.componentKey (.text component)

/-- The element takes the children of the instance it is part of. -/
def asSlot (d : Draft) : Draft := d.withCustom Document.slotKey (.value (.byte 1))

def withTrigger (d : Draft) (event : Event) (callback : String) : Draft :=
  { d with triggers := d.triggers ++ [(event, callback)] }

/-! ### Common elements -/

def label (content : String) : Draft := (ofWidget .text).withText content

def button (content : String) : Draft := (ofWidget .button).withText content

def ofComponent (component : String) : Draft := container.standingFor component

end Draft

/-! ## Tables -/

/-- The two tables that hand out indices, and what was noted while they
did. -/
structure Tables where
  /-- The strings from index one on. -/
  strings : List String
  resources : List String
  notices : List Notice
deriving DecidableEq

namespace Tables

def blank : Tables := { strings := [], resources := [], notices := [] }

/-- How many entries an index of one byte can tell apart. -/
def room : Nat := 256

def note (t : Tables) (ns : List Notice) : Tables := { t with notices := t.notices ++ ns }

/-- The index of a string, new ones at the end. The reserved entry is no
home for an empty string: the first one asked for gets an entry too. -/
def intern (s : String) : StateM Tables UInt8 := fun t =>
  match t.strings.idxOf? s with
  | some i => (UInt8.ofNat (i + 1), t)
  | none =>
    if t.strings.length + 1 < room then
      (UInt8.ofNat (t.strings.length + 1), { t with strings := t.strings ++ [s] })
    else (0, t.note [.stringTableFull s])

/-- The index of a path, new ones at the end. -/
def addResource (path : String) : StateM Tables UInt8 := fun t =>
  match t.resources.idxOf? path with
  | some i => (UInt8.ofNat i, t)
  | none =>
    if t.resources.length < room then
      (UInt8.ofNat t.resources.length, { t with resources := t.resources ++ [path] })
    else (0, t.note [.resourceTableFull path])

/-- The value an operand stands for. -/
def resolve : Operand → StateM Tables Value
  | .value v => return v
  | .text s => return .string (← intern s)
  | .path p => return .resource (← addResource p)

end Tables

namespace Draft

/-- The record of a draft, without children. Name, properties, custom
properties and triggers take their indices in this order. -/
def toRecord (d : Draft) : StateM Tables Record := do
  let nameIndex ← match d.name with
    | some name => Tables.intern name
    | none => pure 0
  let properties ← d.properties.mapM fun (target, operand) => do
    return Property.mk target (← Tables.resolve operand)
  let customs ← d.customs.mapM fun (key, operand) => do
    let key ← Tables.intern key
    return Custom.mk key (← Tables.resolve operand)
  let triggers ← d.triggers.mapM fun (event, callback) => do
    return Trigger.mk event.toByte (← Tables.intern callback)
  return { header := { d.header with nameIndex }, properties, customs, triggers, childRefs := [] }

end Draft

/-! ## Outlines -/

/-- A draft in its place: its children by index, then references given as
bare distances. -/
structure OutlineNode where
  draft : Draft
  children : List Nat
  bareRefs : List UInt16
deriving DecidableEq

/-- Drafts with their links, before any offset is known. -/
structure Outline where
  nodes : List OutlineNode
  /-- What was left out since the outline was last taken over. -/
  ignored : List Notice
deriving DecidableEq

namespace Outline

def blank : Outline := { nodes := [], ignored := [] }

/-- Appends a child to an element. Either may come first. -/
def link (o : Outline) (parent child : Nat) : Outline :=
  if parent < o.nodes.length ∧ child < o.nodes.length then
    { o with nodes := o.nodes.modify parent fun n => { n with children := n.children ++ [child] } }
  else { o with ignored := o.ignored ++ [.unknownLink parent child] }

/-- Adds a draft at the end, as the last child of `parent` if one is
given. -/
def push (o : Outline) (d : Draft) (parent : Option Nat) : Outline :=
  let added := { o with nodes := o.nodes ++ [{ draft := d, children := [], bareRefs := [] }] }
  match parent with
  | some p => added.link p o.nodes.length
  | none => added

/-- Appends a reference that may point nowhere. -/
def addBareRef (o : Outline) (parent : Nat) (distance : UInt16) : Outline :=
  { o with nodes := o.nodes.modify parent fun n => { n with bareRefs := n.bareRefs ++ [distance] } }

/-! ### Making the records -/

/-- The distance from one offset forward to another, if two bytes can say
it. -/
def distance? (base target : Nat) : Option UInt16 :=
  if base ≤ target ∧ target - base < 0x10000 then some (UInt16.ofNat (target - base)) else none

/-- The size of a record once its references are filled in. Only their
number counts, so it is known before any offset is. -/
def reservedSize (r : Record) (n : OutlineNode) : Nat :=
  { r with childRefs := List.replicate (n.children.length + n.bareRefs.length) 0 }.wireSize

/-- For each child of a node, the reference to it. -/
def childDistances (offsets : List Nat) (index : Nat) (n : OutlineNode) :
    List (Nat × Option UInt16) :=
  n.children.map fun child =>
    (child, distance? (offsets.getD index 0) (offsets.getD child 0))

/-- A record with its references filled in, and the children that no
reference reaches. -/
def linkRecord (offsets : List Nat) (index : Nat) (r : Record) (n : OutlineNode) :
    Record × List Notice :=
  let distances := childDistances offsets index n
  let lost := (distances.filter (·.2.isNone)).map fun (child, _) => .unreachableChild index child
  ({ r with childRefs := distances.filterMap (·.2) ++ n.bareRefs }, lost)

/-- The records of the outline in order, and where each begins. -/
def toRecords (o : Outline) : StateM Tables (List Record × List Nat) := do
  let bare ← o.nodes.mapM (·.draft.toRecord)
  let offsets := Record.offsetsFrom 0 (List.zipWith reservedSize bare o.nodes)
  let linked := (bare.zip o.nodes).mapIdx fun i pair => linkRecord offsets i pair.1 pair.2
  modify (·.note (linked.flatMap (·.2)))
  return (linked.map (·.1), offsets)

end Outline

/-! ## The builder -/

structure Builder where
  tables : Tables
  outline : Outline
  styles : List Style
  components : List Component
deriving DecidableEq

namespace Builder

def blank : Builder :=
  { tables := .blank, outline := .blank, styles := [], components := [] }

/-- The builder with a changed outline, taking over what it left out. -/
def withOutline (b : Builder) (o : Outline) : Builder :=
  { b with outline := { o with ignored := [] }, tables := b.tables.note o.ignored }

/-- Adds an element and answers its index. -/
def push (b : Builder) (d : Draft) (parent : Option Nat) : Nat × Builder :=
  (b.outline.nodes.length, b.withOutline (b.outline.push d parent))

/-- Adds a link. A child may be linked more than once; reading the
document decides what becomes of that. -/
def link (b : Builder) (parent child : Nat) : Builder :=
  b.withOutline (b.outline.link parent child)

def addBareRef (b : Builder) (parent : Nat) (distance : UInt16) : Builder :=
  b.withOutline (b.outline.addBareRef parent distance)

def intern (b : Builder) (s : String) : UInt8 × Builder :=
  let (i, tables) := (Tables.intern s).run b.tables
  (i, { b with tables })

def addResource (b : Builder) (path : String) : UInt8 × Builder :=
  let (i, tables) := (Tables.addResource path).run b.tables
  (i, { b with tables })

/-- Registers a style and answers its id. Styles past the last id share
it, and the first one registered under an id is the one that resolves. -/
def addStyle (b : Builder) (name : String) (properties : List Property) : UInt8 × Builder :=
  let id := UInt8.ofNat (min (b.styles.length + 1) 255)
  (id, { b with styles := b.styles ++ [{ id, name, properties }] })

/-- Registers a component; its template is written now. -/
def addComponent (b : Builder) (name : String) (parameters : List Parameter)
    (template : Outline) : Builder :=
  let ((records, _), tables) := template.toRecords.run (b.tables.note template.ignored)
  { b with
    tables
    components := b.components ++ [{ name, parameters, template := records.flatMap (·.toBytes) }] }

/-- The document, and everything noted on the way to it. -/
def build (b : Builder) : Document × List Notice :=
  let ((records, offsets), tables) := b.outline.toRecords.run b.tables
  ({ strings := "" :: tables.strings, records, offsets, styles := b.styles,
     components := b.components, resources := tables.resources },
   tables.notices)

end Builder

end SceneTree
