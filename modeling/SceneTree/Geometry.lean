import SceneTree.Number.Word

/-!
# Geometry

Lengths are whole layout units. A document stores its hints in sixteen
bits; layout computes in signed words of 32 bits. A sum of hints fits those,
but a sum of measured sizes may not, and then it wraps around. Insets stay
in sixteen bits because they are stored, added and stored again: their sum
stops at the largest value.

Rectangles are half open: the right and the bottom edge are outside.
-/

namespace SceneTree

open Word (wrap)

/-! ## Insets -/

/-- One length per edge: border widths, padding, or their sum. -/
structure Edges where
  top : UInt16
  right : UInt16
  bottom : UInt16
  left : UInt16
deriving DecidableEq

namespace Edges

/-- The same length on every edge. -/
def uniform (n : UInt16) : Edges := ⟨n, n, n, n⟩

def zero : Edges := uniform 0

def isZero (e : Edges) : Bool := e == zero

/-- What the insets take from a width. -/
def horizontal (e : Edges) : Int := e.left.toNat + e.right.toNat

/-- What the insets take from a height. -/
def vertical (e : Edges) : Int := e.top.toNat + e.bottom.toNat

/-- The sum of two lengths, at most the largest one that can be stored. -/
def addLength (a b : UInt16) : UInt16 := UInt16.ofNat (min 65535 (a.toNat + b.toNat))

/-- The sum, edge by edge. -/
def add (a b : Edges) : Edges :=
  ⟨addLength a.top b.top, addLength a.right b.right,
   addLength a.bottom b.bottom, addLength a.left b.left⟩

instance : Add Edges := ⟨add⟩

end Edges

/-! ## Sizes and rectangles -/

/-- A width and a height, each a signed word. -/
structure Size where
  width : Int
  height : Int
deriving DecidableEq

namespace Size

def zero : Size := ⟨0, 0⟩

end Size

/-- An axis-aligned rectangle: origin at the top left, then its size, each
number a signed word. -/
structure Rect where
  x : Int
  y : Int
  width : Int
  height : Int
deriving DecidableEq

namespace Rect

def zero : Rect := ⟨0, 0, 0, 0⟩

/-- The rectangle of a size at the origin. -/
def ofSize (s : Size) : Rect := ⟨0, 0, s.width, s.height⟩

/-- The first column outside, to the right. -/
def right (r : Rect) : Int := wrap (r.x + r.width)

/-- The first row outside, below. -/
def bottom (r : Rect) : Int := wrap (r.y + r.height)

/-- All four edges are numbers that a word holds, so none of them wraps. -/
def Fits (r : Rect) : Prop :=
  Word.Fits r.x ∧ Word.Fits r.y ∧ Word.Fits (r.x + r.width) ∧ Word.Fits (r.y + r.height)

instance (r : Rect) : Decidable r.Fits := inferInstanceAs (Decidable (_ ∧ _))

namespace Fits

variable {r : Rect}

theorem right_eq (h : r.Fits) : r.right = r.x + r.width := Word.wrap_of_fits h.2.2.1

theorem bottom_eq (h : r.Fits) : r.bottom = r.y + r.height := Word.wrap_of_fits h.2.2.2

end Fits

def size (r : Rect) : Size := ⟨r.width, r.height⟩

/-- Whether a point lies inside; the right and bottom edges do not. -/
def contains (r : Rect) (x y : Int) : Bool :=
  decide (r.x ≤ x ∧ x < r.right ∧ r.y ≤ y ∧ y < r.bottom)

/-- The rectangle inside the insets. Insets wider than the rectangle
leave no size, never a negative one. -/
def deflate (r : Rect) (e : Edges) : Rect :=
  { x := wrap (r.x + e.left.toNat)
    y := wrap (r.y + e.top.toNat)
    width := max (wrap (r.width - e.horizontal)) 0
    height := max (wrap (r.height - e.vertical)) 0 }

/-- The rectangle with both sides raised to at least one unit, so that
it can be seen and hit. -/
def visible (r : Rect) : Rect :=
  { r with width := max r.width 1, height := max r.height 1 }

end Rect

end SceneTree
