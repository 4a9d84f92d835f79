import SceneTree.Notice
import SceneTree.Scene.Basic

/-!
# Linking a document

The references of a document's records become the edges of its scene. A
reference counts from the record's own offset; where it lands, the offset
table must have an entry. Two records may share an offset: then the later
one is meant.

A reference that lands nowhere, or that the scene refuses, is skipped, and
the rest go on. Whatever the references say, a document with elements has
a root.
-/

namespace SceneTree

/-- Why a reference made no edge. -/
inductive SkipReason where
  | dangling
  | rejected (child : ElementId) (cause : LinkFault)
deriving DecidableEq

/-- A reference that made no edge: who made it, and where it points. -/
structure SkippedRef where
  parent : ElementId
  offset : Nat
  reason : SkipReason
deriving DecidableEq

namespace SkippedRef

def notice (r : SkippedRef) : Notice :=
  match r.reason with
  | .dangling => .danglingChild r.parent r.offset
  | .rejected child cause => .childRejected r.parent child cause

end SkippedRef

namespace Document

/-- The last record whose offset is `offset`. -/
def recordAt? (d : Document) (offset : Nat) : Option ElementId :=
  (d.offsets.reverse.idxOf? offset).map fun i => ⟨d.offsets.length - 1 - i⟩

/-- Every reference in order: the record that makes it, and the offset it
points at. -/
def refs (d : Document) : List (ElementId × Nat) :=
  (d.records.zip d.offsets).zipIdx.flatMap fun ((r, base), i) =>
    r.childRefs.map fun ref => (⟨i⟩, base + ref.toNat)

end Document

/-- A scene being linked, and the references skipped so far. -/
structure Linking where
  scene : Scene
  skipped : List SkippedRef

namespace Linking

/-- Takes one reference. -/
def take (d : Document) (l : Linking) (ref : ElementId × Nat) : Linking :=
  let skip (reason : SkipReason) : Linking :=
    { l with skipped := l.skipped ++ [{ parent := ref.1, offset := ref.2, reason }] }
  match d.recordAt? ref.2 with
  | none => skip .dangling
  | some child =>
    match l.scene.link ref.1 child with
    | .ok scene => { l with scene }
    | .error cause => skip (.rejected child cause)

end Linking

namespace Scene

/-- Links the elements of a document. A table of offsets that does not
match the records links nothing. -/
def connect (s : Scene) (d : Document) : Linking :=
  if d.offsets.length = d.records.length then
    d.refs.foldl (Linking.take d) { scene := s, skipped := [] }
  else { scene := s, skipped := [] }

/-- The roots among the elements of a document. -/
def documentRoots (s : Scene) (d : Document) : List ElementId :=
  s.roots.filter (·.index < d.records.length)

/-- The roots of a linked document, or why it has none. -/
def rootsOf (s : Scene) (d : Document) : Except LoadFault (List ElementId) :=
  if d.offsets.length ≠ d.records.length then
    .error (.offsetCount d.offsets.length d.records.length)
  else if (s.documentRoots d).isEmpty then .error (.noRoots d.records.length)
  else .ok (s.documentRoots d)

end Scene

end SceneTree
