import SceneTree.Document.Value
import SceneTree.Document.Widget
import SceneTree.Layout.Flags

/-!
# Element records

One element as a document stores it: a header of fixed size and four
tables. References to children are byte distances from the record's own
first byte, so the same record means the same thing in the document and
in a component's template.
-/

namespace SceneTree

/-- The fixed part of a record: the widget, an index for its name, hints
for place and size, the layout byte, and a style. Zero means "not given"
everywhere but in the widget. -/
structure Header where
  widget : Widget
  nameIndex : UInt8
  x : UInt16
  y : UInt16
  width : UInt16
  height : UInt16
  layout : LayoutFlags
  styleId : UInt8
deriving DecidableEq

namespace Header

/-- A header that gives nothing but the widget. -/
def ofWidget (w : Widget) : Header :=
  { widget := w, nameIndex := 0, x := 0, y := 0, width := 0, height := 0,
    layout := .empty, styleId := 0 }

/-- A place hint takes the element out of the flow. -/
def hasOffset (h : Header) : Bool := h.x != 0 || h.y != 0

end Header

/-- A property under a name of the document's own, given by its index. -/
structure Custom where
  key : UInt8
  value : Value
deriving DecidableEq

/-- An event byte and the index of the callback's name. -/
structure Trigger where
  event : UInt8
  callback : UInt8
deriving DecidableEq

/-- One element of a document or of a template. -/
structure Record where
  header : Header
  properties : List Property
  customs : List Custom
  triggers : List Trigger
  childRefs : List UInt16
deriving DecidableEq

namespace Record

/-- A record with empty tables. -/
def ofHeader (h : Header) : Record :=
  { header := h, properties := [], customs := [], triggers := [], childRefs := [] }

/-- The record of a container that gives nothing. -/
def blank : Record := ofHeader (.ofWidget .container)

end Record

end SceneTree
