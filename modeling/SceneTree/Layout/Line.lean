import SceneTree.ElementId
import SceneTree.Geometry
import SceneTree.Layout.Flags

/-!
# Lines of a flow

The children in the flow of an element stand in lines along its
direction. This module is the arithmetic of that, with no scene in sight:
from the items, the space and the layout byte to one rectangle per item.

Along the direction (the main axis) a line is filled: the items that grow
share what the others and the gaps leave, and the last of them takes what
does not divide. What is still free goes where the alignment says. Across
it, an item stands at its own size, or at the size of the line if it has
none or grows.

Free space is never negative; items that do not fit run over the end.

Sums wrap around. They are wrapped here where it shows: where a sum is
compared with the space there is, cut off, divided, or becomes a coordinate.
-/

namespace SceneTree

open Word (wrap)

/-- A child as its parent's flow sees it. -/
structure FlowItem where
  id : ElementId
  main : Int
  cross : Int
  /-- The size across, if the child asks for one. -/
  crossAsked : Option Int
  grows : Bool
deriving DecidableEq

/-- How a parent places the items of its flow. -/
structure FlowStyle where
  direction : Direction
  alignment : Alignment
  crossAlignment : Alignment
  wraps : Bool
  gap : Int
deriving DecidableEq

namespace FlowStyle

/-! ## Breaking -/

/-- Goes on with a line that is `used` long: an item that would run over
the end begins the next one. -/
def breakAfter (available gap : Int) (line : List FlowItem) (used : Int) :
    List FlowItem → List (List FlowItem)
  | [] => [line]
  | item :: rest =>
    let next := wrap (used + gap + item.main)
    if available < next then line :: breakAfter available gap [item] item.main rest
    else breakAfter available gap (line ++ [item]) next rest

/-- The lines of a flow. A line has an item at least, however long, unless
there is none for it. -/
def lines (f : FlowStyle) (available : Int) : List FlowItem → List (List FlowItem)
  | [] => [[]]
  | items@(first :: rest) =>
    if f.wraps then breakAfter available f.gap [first] first.main rest else [items]

/-! ## Along the line -/

/-- What the gaps between `n` items take. -/
def gaps (f : FlowStyle) (n : Nat) : Int := f.gap * (n - 1)

/-- The lengths along a line with `left` items still to grow. -/
def shareOut (share remainder : Int) : (left : Nat) → List FlowItem → List Int
  | _, [] => []
  | left, item :: rest =>
    if item.grows then
      (if left = 1 then share + remainder else share) :: shareOut share remainder (left - 1) rest
    else item.main :: shareOut share remainder left rest

/-- The length of each item of a line. -/
def lengths (f : FlowStyle) (available : Int) (line : List FlowItem) : List Int :=
  let growers := line.countP (·.grows)
  let fixed := ((line.filter (!·.grows)).map (·.main)).foldr (· + ·) 0
  let leftover := max (wrap (available - fixed - f.gaps line.length)) 0
  shareOut (leftover / growers) (leftover % growers) growers line

/-- Where the first item begins, and what separates it from the next. -/
def spread (f : FlowStyle) (free : Int) (n : Nat) : Int × Int :=
  match f.alignment with
  | .start => (0, f.gap)
  | .center => (free / 2, f.gap)
  | .finish => (free, f.gap)
  | .spaceBetween => if 1 < n then (0, f.gap + free / (n - 1)) else (free / 2, f.gap)

/-- Where pieces of the given lengths begin. -/
def starts (first spacing : Int) : List Int → List Int
  | [] => []
  | length :: rest => first :: starts (first + length + spacing) spacing rest

/-! ## Across the line -/

/-- The height of a line: with wrapping the largest item, without it all
there is. -/
def lineCross (f : FlowStyle) (available : Int) (line : List FlowItem) : Int :=
  let largest := ((line.map fun i => i.crossAsked.getD i.cross).max?).getD 0
  if f.wraps && decide (0 < largest) then largest else available

/-- The size of an item across its line. -/
def itemCross (lineCross : Int) (i : FlowItem) : Int :=
  i.crossAsked.getD (if i.grows || decide (i.cross ≤ 0) then lineCross else i.cross)

/-- Where an item begins across its line. Half of a negative rest is
taken toward zero. -/
def crossStart (f : FlowStyle) (lineCross cross : Int) : Int :=
  match f.crossAlignment with
  | .center => (wrap (lineCross - cross)).tdiv 2
  | .finish => lineCross - cross
  | .start | .spaceBetween => 0

/-! ## Rectangles -/

/-- A rectangle from its extents along and across the direction. -/
def rectAt (f : FlowStyle) (content : Rect) (main cross length width : Int) : Rect :=
  if f.direction.isRow then ⟨wrap (content.x + main), wrap (content.y + cross), length, width⟩
  else ⟨wrap (content.x + cross), wrap (content.y + main), width, length⟩

/-- The rectangles of one line that begins `offset` across. A reverse
direction counts the same places from the other end. -/
def placeLine (f : FlowStyle) (content : Rect) (available lineCross offset : Int)
    (line : List FlowItem) : List (ElementId × Rect) :=
  let lengths := f.lengths available line
  let free := max (wrap (available - (lengths.foldr (· + ·) 0 + f.gaps line.length))) 0
  let (first, spacing) := f.spread free line.length
  (line.zip (lengths.zip (starts first spacing lengths))).map fun (i, length, start) =>
    let cross := itemCross lineCross i
    let main := if f.direction.isReverse then available - start - length else start
    (i.id, f.rectAt content main (offset + f.crossStart lineCross cross) length cross)

/-- The rectangles of lines that follow one another across. -/
def placeLines (f : FlowStyle) (content : Rect) (available crossAvailable : Int) :
    (offset : Int) → List (List FlowItem) → List (ElementId × Rect)
  | _, [] => []
  | offset, line :: rest =>
    let height := f.lineCross crossAvailable line
    f.placeLine content available height offset line
      ++ f.placeLines content available crossAvailable (offset + height + f.gap) rest

/-- The rectangles of the items of a flow inside `content`, if there are
any. -/
def place (f : FlowStyle) (content : Rect) (items : List FlowItem) : List (ElementId × Rect) :=
  if items.isEmpty then []
  else
    let (available, crossAvailable) :=
      if f.direction.isRow then (content.width, content.height)
      else (content.height, content.width)
    f.placeLines content available crossAvailable 0 (f.lines available items)

end FlowStyle

end SceneTree
