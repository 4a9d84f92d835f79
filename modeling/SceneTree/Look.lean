import SceneTree.Geometry
import SceneTree.Text.Style
import SceneTree.Layout.Flags

/-!
# How an element looks and what size it asks for

These are the attributes as they stand after the style and the element's
own properties were applied. The optional text attributes mean "set here"
when they are present; what is not set here comes from above, and that is
kept apart, in the element's text style.

Two of the readings decide what can be seen: a border needs a width and a
colour that covers, a decoration needs either such a border or a
background that covers.
-/

namespace SceneTree

/-! ## The pointer -/

/-- The pointer shown over an element. -/
inductive PointerShape where
  | standard | hand | text | move | notAllowed
deriving DecidableEq

namespace PointerShape

/-- Unknown numbers read as the standard pointer. -/
def ofByte : UInt8 → PointerShape
  | 1 => .hand
  | 2 => .text
  | 3 => .move
  | 4 => .notAllowed
  | _ => .standard

def name : PointerShape → String
  | .standard => "Default"
  | .hand => "Pointer"
  | .text => "Text"
  | .move => "Move"
  | .notAllowed => "NotAllowed"

end PointerShape

/-! ## The look -/

structure Look where
  background : Color
  foreground : Option Color
  borderColor : Option Color
  border : Edges
  padding : Edges
  textAlign : Option TextAlign
  fontSize : Option UInt16
  fontFamily : Option String
  fontWeight : Option FontWeight
  visible : Bool
  pointer : PointerShape
  /-- 255 shows fully, 0 not at all. -/
  opacity : UInt8
deriving DecidableEq

namespace Look

/-- Visible, undecorated, with nothing set. -/
def plain : Look :=
  { background := .clear, foreground := none, borderColor := none, border := .zero,
    padding := .zero, textAlign := none, fontSize := none, fontFamily := none,
    fontWeight := none, visible := true, pointer := .standard, opacity := 255 }

/-- What stands between the edge and the content. -/
def insets (l : Look) : Edges := l.border + l.padding

/-- Whether the border has a colour that covers anything. -/
def hasBorderColor (l : Look) : Bool := l.borderColor.any fun c => !c.isClear

def showsBorder (l : Look) : Bool := !l.border.isZero && l.hasBorderColor

def showsDecoration (l : Look) : Bool := !l.background.isClear || l.showsBorder

/-- The opacity as a factor. -/
def opacityFactor (l : Look) : Single := .round (l.opacity.toNat / 255)

/-- The background as it is painted. -/
def shownBackground (l : Look) : Color := l.background.fade l.opacityFactor

end Look

/-! ## Decoration -/

/-- The part of a look that an instance hands to the root of its
component. -/
structure Decoration where
  background : Color
  border : Edges
  borderColor : Option Color
  padding : Edges
deriving DecidableEq

namespace Decoration

def none : Decoration :=
  { background := .clear, border := .zero, borderColor := .none, padding := .zero }

/-- Lays a decoration over a look: what it does not set stays. -/
def applyTo (d : Decoration) (l : Look) : Look :=
  { l with
    background := if d.background.isClear then l.background else d.background
    border := if d.border.isZero then l.border else d.border
    borderColor := d.borderColor <|> l.borderColor
    padding := if d.padding.isZero then l.padding else d.padding }

end Decoration

namespace Look

def decoration (l : Look) : Decoration :=
  { background := l.background, border := l.border, borderColor := l.borderColor,
    padding := l.padding }

/-- The look with its decoration taken off. -/
def undecorated (l : Look) : Look :=
  { l with background := .clear, border := .zero, borderColor := none, padding := .zero }

end Look

/-! ## Sizing -/

/-- What an element asks of the layout. -/
structure Sizing where
  width : Option Int
  height : Option Int
  maxWidth : Option Int
  maxHeight : Option Int
  /-- The space between its children. -/
  gap : Int
  /-- Where its children stand across their direction; without one, the
  alignment along the direction counts there too. -/
  crossAlign : Option Alignment
deriving DecidableEq

namespace Sizing

def free : Sizing :=
  { width := none, height := none, maxWidth := none, maxHeight := none, gap := 0,
    crossAlign := none }

end Sizing

end SceneTree
