import SceneTree.Color

/-!
# Text style

The five attributes a run of text is drawn with, and the wire numbers of
the two that are enumerated. Every wire number has a reading: an unknown
alignment is the default one, and weights are read by the range they fall
in.
-/

namespace SceneTree

/-- How a run of text stands in its box. -/
inductive TextAlign where
  | start | center | finish | justify
deriving DecidableEq

namespace TextAlign

/-- Unknown numbers read as `start`. -/
def ofByte : UInt8 → TextAlign
  | 1 => .center
  | 2 => .finish
  | 3 => .justify
  | _ => .start

def name : TextAlign → String
  | .start => "Start"
  | .center => "Center"
  | .finish => "End"
  | .justify => "Justify"

end TextAlign

/-- How heavy the strokes are. -/
inductive FontWeight where
  | light | normal | bold | heavy
deriving DecidableEq

namespace FontWeight

/-- The weight of a number on the scale from 1 to 1000, read by range. -/
def ofNumber (n : UInt16) : FontWeight :=
  if n < 350 then .light
  else if n < 550 then .normal
  else if n < 800 then .bold
  else .heavy

/-- The weight of a number that may also be written on the short scale:
below ten, `7` stands for 700. -/
def ofScaledNumber (n : UInt16) : FontWeight :=
  ofNumber (if n < 10 then n * 100 else n)

def name : FontWeight → String
  | .light => "Light"
  | .normal => "Normal"
  | .bold => "Bold"
  | .heavy => "Heavy"

end FontWeight

/-- What a run of text is drawn with. Every element carries one, whether
it shows text or not, because its children may. -/
structure TextStyle where
  color : Color
  fontSize : UInt16
  fontFamily : String
  fontWeight : FontWeight
  align : TextAlign
deriving DecidableEq

namespace TextStyle

/-- The style of an element that no pass has reached yet. -/
def unset : TextStyle :=
  { color := .clear, fontSize := 0, fontFamily := "", fontWeight := .normal, align := .start }

end TextStyle

end SceneTree
