import SceneTree.Number.Single

/-!
# Colours

A colour is four channels of eight bits: red, green, blue, and how much
of what lies behind is covered. On the wire the channels stand in that
order.

`Color.fade` is the one computed colour: it scales the cover by a factor.
A factor of one or more leaves the colour alone; a negative or undefined
one uncovers everything.
-/

namespace SceneTree

/-- Four channels; an alpha of 255 covers fully, 0 not at all. -/
structure Color where
  red : UInt8
  green : UInt8
  blue : UInt8
  alpha : UInt8
deriving DecidableEq

namespace Color

/-- A colour that covers fully. -/
def solid (red green blue : UInt8) : Color := ⟨red, green, blue, 255⟩

/-! ## Named colours -/

def clear : Color := ⟨0, 0, 0, 0⟩
def black : Color := solid 0 0 0
def white : Color := solid 255 255 255
def pureRed : Color := solid 255 0 0
def pureGreen : Color := solid 0 255 0
def pureBlue : Color := solid 0 0 255
def gray : Color := solid 128 128 128

/-! ## The wire form -/

/-- The four channels in wire order. -/
def toBytes (c : Color) : List UInt8 := [c.red, c.green, c.blue, c.alpha]

/-- Reads exactly four channels. -/
def ofBytes? : List UInt8 → Option Color
  | [r, g, b, a] => some ⟨r, g, b, a⟩
  | _ => none

theorem ofBytes?_toBytes (c : Color) : ofBytes? c.toBytes = some c := rfl

/-! ## Cover -/

def isSolid (c : Color) : Bool := c.alpha == 255

def isClear (c : Color) : Bool := c.alpha == 0

/-- The colour with its cover scaled by `factor`; a half rounds up. -/
def fade (c : Color) (factor : Single) : Color :=
  if factor.atLeastOne then c
  else
    { c with
      alpha := (Single.ofNat c.alpha.toNat * factor.raiseToZero).toByte Single.nearestAway }

end Color

end SceneTree
