import SceneTree.Document.Wire

/-!
# Templates

The template of a component is a block of records. `Template.read` finds
the tree in it without making any element: which record is the child of
which, and which references lead nowhere.

References are taken in the order in which they stand. A record keeps the
first parent that claims it, so the edges form a forest. A reference
counts its distance forward, so a parent always stands before its
children, and the only reference that could close a circle is one to the
record itself.
-/

namespace SceneTree

structure TemplateNode where
  /-- Where its record begins in the block. -/
  offset : Nat
  record : Record
deriving DecidableEq

/-- A parent and a child, by the order of their records. -/
structure TemplateEdge where
  parent : Nat
  child : Nat
deriving DecidableEq

/-- A reference that is no edge, and where in the block it points. -/
structure UnresolvedRef where
  parent : Nat
  offset : Nat
  problem : RefFault
deriving DecidableEq

structure Template where
  nodes : List TemplateNode
  edges : List TemplateEdge
  unresolved : List UnresolvedRef
deriving DecidableEq

namespace Template

/-! ## Reading the tree -/

/-- The parent that claimed a node. -/
def parentIn? (edges : List TemplateEdge) (node : Nat) : Option Nat :=
  (edges.find? (·.child == node)).map (·.parent)

/-- A node and those above it, from `steps` steps up. -/
def lineageIn (edges : List TemplateEdge) : Nat → Nat → List Nat
  | 0, node => [node]
  | steps + 1, node =>
    node :: match parentIn? edges node with
      | some p => lineageIn edges steps p
      | none => []

/-- The node whose record begins at an offset. -/
def nodeAt? (nodes : List TemplateNode) (offset : Nat) : Option Nat :=
  nodes.findIdx? (·.offset == offset)

/-- Every reference of the block in order: the node that makes it, and the
offset it points at. -/
def refsOf (nodes : List TemplateNode) : List (Nat × Nat) :=
  nodes.zipIdx.flatMap fun (n, i) => n.record.childRefs.map fun r => (i, n.offset + r.toNat)

/-- Takes one reference: an edge, or the reason why not. -/
def take (t : Template) (ref : Nat × Nat) : Template :=
  let refuse (problem : RefFault) : Template :=
    { t with unresolved := t.unresolved ++ [{ parent := ref.1, offset := ref.2, problem }] }
  match nodeAt? t.nodes ref.2 with
  | none => refuse .dangling
  | some child =>
    if (parentIn? t.edges child).isSome then refuse .alreadyParented
    else if (lineageIn t.edges t.nodes.length ref.1).contains child then refuse .cycle
    else { t with edges := t.edges ++ [{ parent := ref.1, child }] }

/-- The tree in a block of records. -/
def ofNodes (nodes : List TemplateNode) : Template :=
  (refsOf nodes).foldl take { nodes, edges := [], unresolved := [] }

/-- Reads a block and finds its tree. -/
def read (bytes : List UInt8) : Except ShortRead Template := do
  let records ← Record.readAll bytes
  return ofNodes (records.map fun (offset, record) => { offset, record })

/-! ## Views -/

/-- The nodes without a parent, in the order of their records. -/
def roots (t : Template) : List Nat :=
  (List.range t.nodes.length).filter fun i => (parentIn? t.edges i).isNone

end Template

end SceneTree
