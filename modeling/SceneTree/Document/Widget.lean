/-!
# Widgets

What an element is: the first byte of its record. Bytes without a meaning
are kept as they are, so a record survives being read and written.
-/

namespace SceneTree

/-- The kind of an element. -/
inductive Widget where
  | app
  | container
  | text
  | image
  | canvas
  | button
  | input
  | checkbox
  | list
  | grid
  | scrollable
  | video
  | other (byte : UInt8)
deriving DecidableEq

namespace Widget

def ofByte : UInt8 → Widget
  | 0x00 => .app
  | 0x01 => .container
  | 0x02 => .text
  | 0x03 => .image
  | 0x04 => .canvas
  | 0x10 => .button
  | 0x11 => .input
  | 0x12 => .checkbox
  | 0x20 => .list
  | 0x21 => .grid
  | 0x22 => .scrollable
  | 0x30 => .video
  | byte => .other byte

def toByte : Widget → UInt8
  | .app => 0x00
  | .container => 0x01
  | .text => 0x02
  | .image => 0x03
  | .canvas => 0x04
  | .button => 0x10
  | .input => 0x11
  | .checkbox => 0x12
  | .list => 0x20
  | .grid => 0x21
  | .scrollable => 0x22
  | .video => 0x30
  | .other byte => byte

/-- Reading loses nothing: every byte is some widget's byte. -/
theorem toByte_ofByte (b : UInt8) : (ofByte b).toByte = b := by
  unfold ofByte
  split <;> rfl

def name : Widget → String
  | .app => "App"
  | .container => "Container"
  | .text => "Text"
  | .image => "Image"
  | .canvas => "Canvas"
  | .button => "Button"
  | .input => "Input"
  | .checkbox => "Checkbox"
  | .list => "List"
  | .grid => "Grid"
  | .scrollable => "Scrollable"
  | .video => "Video"
  | .other byte => s!"Other({byte})"

/-- Widgets that draw their text. -/
def showsText : Widget → Bool
  | .text | .button | .input => true
  | _ => false

/-- Widgets that may hold children and decoration. Text and images are
nothing but their content. -/
def holdsChildren : Widget → Bool
  | .text | .image => false
  | _ => true

end Widget

end SceneTree
