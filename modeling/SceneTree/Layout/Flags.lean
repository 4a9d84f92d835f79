/-!
# The layout byte

One byte says how an element places its children and how its parent
places it:

    bit 7   unused
    bit 6   taken out of the flow
    bit 5   grows into the space that is left
    bit 4   wraps its children into lines
    bit 3-2 alignment
    bit 1-0 direction

All eight bits are kept, the unused one too.
-/

namespace SceneTree

/-! ## Direction -/

/-- The way the children of an element run. -/
inductive Direction where
  | row | column | rowReverse | columnReverse
deriving DecidableEq

namespace Direction

/-- Reads the two low bits. -/
def ofByte (b : UInt8) : Direction :=
  if b &&& 3 = 1 then .column
  else if b &&& 3 = 2 then .rowReverse
  else if b &&& 3 = 3 then .columnReverse
  else .row

def toByte : Direction → UInt8
  | .row => 0
  | .column => 1
  | .rowReverse => 2
  | .columnReverse => 3

def isRow : Direction → Bool
  | .row | .rowReverse => true
  | _ => false

def isReverse : Direction → Bool
  | .rowReverse | .columnReverse => true
  | _ => false

def name : Direction → String
  | .row => "Row"
  | .column => "Column"
  | .rowReverse => "RowReverse"
  | .columnReverse => "ColumnReverse"

end Direction

/-! ## Alignment -/

/-- Where the free space along an axis goes. -/
inductive Alignment where
  | start | center | finish | spaceBetween
deriving DecidableEq

namespace Alignment

/-- Reads the two low bits. -/
def ofByte (b : UInt8) : Alignment :=
  if b &&& 3 = 1 then .center
  else if b &&& 3 = 2 then .finish
  else if b &&& 3 = 3 then .spaceBetween
  else .start

def toByte : Alignment → UInt8
  | .start => 0
  | .center => 1
  | .finish => 2
  | .spaceBetween => 3

/-- The alignment as read across the direction of the children. There is
one item there, so there is no space between items. -/
def cross : Alignment → Alignment
  | .spaceBetween => .start
  | other => other

def name : Alignment → String
  | .start => "Start"
  | .center => "Center"
  | .finish => "End"
  | .spaceBetween => "SpaceBetween"

end Alignment

/-! ## The byte -/

structure LayoutFlags where
  bits : UInt8
deriving DecidableEq

namespace LayoutFlags

def empty : LayoutFlags := ⟨0⟩

def isEmpty (f : LayoutFlags) : Bool := f.bits == 0

def wrapBit : UInt8 := 16
def growBit : UInt8 := 32
def absoluteBit : UInt8 := 64

def direction (f : LayoutFlags) : Direction := .ofByte f.bits

def alignment (f : LayoutFlags) : Alignment := .ofByte (f.bits >>> 2)

def wraps (f : LayoutFlags) : Bool := f.bits &&& wrapBit == wrapBit

def grows (f : LayoutFlags) : Bool := f.bits &&& growBit == growBit

def isAbsolute (f : LayoutFlags) : Bool := f.bits &&& absoluteBit == absoluteBit

/-- Replaces the direction, keeping the other six bits. -/
def withDirection (f : LayoutFlags) (d : Direction) : LayoutFlags :=
  ⟨(f.bits &&& (0xFC : UInt8)) ||| d.toByte⟩

/-- Replaces the alignment, keeping the other six bits. -/
def withAlignment (f : LayoutFlags) (a : Alignment) : LayoutFlags :=
  ⟨(f.bits &&& (0xF3 : UInt8)) ||| (a.toByte <<< (2 : UInt8))⟩

def withGrow (f : LayoutFlags) : LayoutFlags := ⟨f.bits ||| growBit⟩

def withAbsolute (f : LayoutFlags) : LayoutFlags := ⟨f.bits ||| absoluteBit⟩

def withWrap (f : LayoutFlags) : LayoutFlags := ⟨f.bits ||| wrapBit⟩

end LayoutFlags

end SceneTree
