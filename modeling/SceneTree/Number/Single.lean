/-!
# Single-precision numbers, exactly

Opacity factors, scale factors and font sizes are numbers with 24
significant bits. A `Single` carries its exact value as a rational, so a
rule that uses one is arithmetic on rationals. What the format adds is
one step, `Single.round`: an exact result goes to the nearest number the
format has, and of two equally near ones to the even one.

Two roundings to an integer are kept apart because the rules that use
them differ: `nearestEven` is the format's own tie, `nearestAway` is the
tie of a size or a colour channel.

## What this does not hold

The sign of a zero. No rule of this library tells two zeros apart: a
product with zero is compared with one, rounded, or clamped, and all
three forget the sign.
-/

namespace SceneTree

/-- A number of 24 significant bits, an infinity, or the result of an
operation that has none. -/
inductive Single where
  | finite (value : Rat)
  | infinite (negative : Bool)
  | undefined
deriving DecidableEq

namespace Single

/-! ## Rounding to an integer -/

/-- The nearest integer; a half goes to the even neighbour. -/
def nearestEven (x : Rat) : Int :=
  let low := x.floor
  let part := x - low
  if part < 1 / 2 then low
  else if 1 / 2 < part then low + 1
  else if low % 2 = 0 then low
  else low + 1

/-- The nearest integer; a half goes away from zero. -/
def nearestAway (x : Rat) : Int :=
  if 0 ≤ x then (x + 1 / 2).floor else -((-x + 1 / 2).floor)

/-! ## Rounding to the format -/

/-- The distance of a rational from zero. -/
def distance (x : Rat) : Rat := if x < 0 then -x else x

/-- The power of two at or just below a nonzero number: the `k` with
`2 ^ k ≤ |x| < 2 ^ (k + 1)`.

The bit lengths of numerator and denominator leave two candidates, and
one comparison settles which. -/
def magnitude (x : Rat) : Int :=
  let k : Int := (x.num.natAbs.log2 : Int) - (x.den.log2 : Int)
  if (2 : Rat) ^ k ≤ distance x then k else k - 1

/-- The gap between neighbouring numbers of the format around `x`. It
never falls below the smallest positive number, `2 ^ (-149)`. -/
def spacing (x : Rat) : Rat := (2 : Rat) ^ max (magnitude x - 23) (-149)

/-- The first magnitude the format no longer reaches, `2 ^ 128`. -/
def limit : Rat := 0x100000000000000000000000000000000

/-- The number of the format nearest to an exact value. Values that would
round past the largest number become infinite. -/
def round (x : Rat) : Single :=
  if x = 0 then .finite 0
  else
    let value := nearestEven (x / spacing x) * spacing x
    if limit ≤ distance value then .infinite (decide (x < 0)) else .finite value

/-- A count as a number of the format; exact below `2 ^ 24`. -/
def ofNat (n : Nat) : Single := round n

/-! ## Operations -/

/-- The product, rounded once. Zero times an infinity has no value. -/
def mul : Single → Single → Single
  | .finite a, .finite b => round (a * b)
  | .finite a, .infinite n | .infinite n, .finite a =>
    if a = 0 then .undefined else .infinite (n != decide (a < 0))
  | .infinite m, .infinite n => .infinite (m != n)
  | .undefined, _ | _, .undefined => .undefined

instance : Mul Single := ⟨mul⟩

/-- Half of a number, rounded once. -/
def half : Single → Single
  | .finite a => round (a / 2)
  | other => other

/-- Whether the number is one or more. The undefined number is not. -/
def atLeastOne : Single → Bool
  | .finite a => decide (1 ≤ a)
  | .infinite negative => !negative
  | .undefined => false

/-- The number, raised to zero where it is negative. The undefined number
counts as negative. -/
def raiseToZero : Single → Single
  | .finite a => .finite (if a < 0 then 0 else a)
  | .infinite true | .undefined => .finite 0
  | .infinite false => .infinite false

/-- An integer between two bounds: `step` rounds a finite number, values
outside the bounds stop there, and the undefined number is zero. -/
def toIntBetween (low high : Int) (step : Rat → Int) : Single → Int
  | .finite a => max low (min high (step a))
  | .infinite true => low
  | .infinite false => high
  | .undefined => 0

/-- A layout coordinate: a signed 32-bit integer. -/
def toUnits (step : Rat → Int) (x : Single) : Int :=
  x.toIntBetween (-0x80000000) 0x7fffffff step

/-- A colour channel: an integer of eight bits. -/
def toByte (step : Rat → Int) (x : Single) : UInt8 :=
  UInt8.ofNat (x.toIntBetween 0 255 step).toNat

end Single

end SceneTree
