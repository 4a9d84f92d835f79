import SceneTree.Color
import SceneTree.Geometry
import SceneTree.Number.Word
import SceneTree.Document.Attribute

/-!
# Property values

A value is written as a tag and a payload. Only a payload of the size its
tag asks for is read; any other pair is kept as it stands, so that
nothing written by a later format is lost.

Strings and resources are indices into the document's tables. Whether an
index resolves is not a matter of the value.
-/

namespace SceneTree

/-! ## Tags -/

/-- The byte in front of a payload. -/
inductive ValueTag where
  | empty
  | byte
  | short
  | color
  | string
  | resource
  | percentage
  | edges
  | choice
  | other (byte : UInt8)
deriving DecidableEq

namespace ValueTag

def ofByte : UInt8 → ValueTag
  | 0x00 => .empty
  | 0x01 => .byte
  | 0x02 => .short
  | 0x03 => .color
  | 0x04 => .string
  | 0x05 => .resource
  | 0x06 => .percentage
  | 0x08 => .edges
  | 0x09 => .choice
  | b => .other b

def toByte : ValueTag → UInt8
  | .empty => 0x00
  | .byte => 0x01
  | .short => 0x02
  | .color => 0x03
  | .string => 0x04
  | .resource => 0x05
  | .percentage => 0x06
  | .edges => 0x08
  | .choice => 0x09
  | .other b => b

/-- Reading loses nothing: every byte is some tag's byte. -/
theorem toByte_ofByte (b : UInt8) : (ofByte b).toByte = b := by
  unfold ofByte
  split <;> rfl

def name : ValueTag → String
  | .empty => "None"
  | .byte => "Byte"
  | .short => "Short"
  | .color => "Color"
  | .string => "String"
  | .resource => "Resource"
  | .percentage => "Percentage"
  | .edges => "EdgeInsets"
  | .choice => "Enum"
  | .other b => s!"Other({b})"

end ValueTag

/-! ## Values -/

/-- What a property sets its attribute to. -/
inductive Value where
  | empty
  | byte (n : UInt8)
  | short (n : UInt16)
  | color (c : Color)
  | string (index : UInt8)
  | resource (index : UInt8)
  /-- In 256ths. -/
  | percentage (parts : UInt16)
  | edges (e : Edges)
  | choice (n : UInt8)
  | raw (tag : UInt8) (payload : List UInt8)
deriving DecidableEq

namespace Value

/-- Reads a payload under a tag. Insets may be written as one byte for
all four edges. -/
def ofPayload (tag : ValueTag) (payload : List UInt8) : Value :=
  match tag, payload with
  | .empty, [] => .empty
  | .byte, [b] => .byte b
  | .short, [low, high] => .short (Word.ofBytes low high)
  | .color, [r, g, b, a] => .color ⟨r, g, b, a⟩
  | .string, [i] => .string i
  | .resource, [i] => .resource i
  | .percentage, [low, high] => .percentage (Word.ofBytes low high)
  | .edges, [b] => .edges (.uniform b.toUInt16)
  | .edges, [t, r, b, l] => .edges ⟨t.toUInt16, r.toUInt16, b.toUInt16, l.toUInt16⟩
  | .choice, [b] => .choice b
  | tag, payload => .raw tag.toByte payload

/-- A length as one byte; longer ones are written as the longest. -/
def lengthByte (n : UInt16) : UInt8 := UInt8.ofNat (min n.toNat 255)

/-- The tag a value is written under. -/
def tag : Value → ValueTag
  | .empty => .empty
  | .byte _ => .byte
  | .short _ => .short
  | .color _ => .color
  | .string _ => .string
  | .resource _ => .resource
  | .percentage _ => .percentage
  | .edges _ => .edges
  | .choice _ => .choice
  | .raw tag _ => .ofByte tag

/-- The payload of a value. A raw one may be longer than a record can
hold; the record cuts it. -/
def payload : Value → List UInt8
  | .empty => []
  | .byte b | .choice b => [b]
  | .short n | .percentage n => Word.toBytes n
  | .color c => c.toBytes
  | .string i | .resource i => [i]
  | .edges e => [lengthByte e.top, lengthByte e.right, lengthByte e.bottom, lengthByte e.left]
  | .raw _ bytes => bytes

/-! ## Readings -/

/-- The number in a byte, a short or a choice. -/
def toNumber? : Value → Option UInt16
  | .byte b | .choice b => some b.toUInt16
  | .short n => some n
  | _ => none

def toColor? : Value → Option Color
  | .color c => some c
  | _ => none

/-- Insets; one number stands for all four edges. -/
def toEdges? : Value → Option Edges
  | .edges e => some e
  | .byte b => some (.uniform b.toUInt16)
  | .short n => some (.uniform n)
  | _ => none

def toStringIndex? : Value → Option UInt8
  | .string i => some i
  | _ => none

def toResourceIndex? : Value → Option UInt8
  | .resource i => some i
  | _ => none

/-! ## The form in a notice -/

/-- Numbers in brackets, separated by a comma and a space. -/
def listed (bytes : List UInt8) : String :=
  "[" ++ ", ".intercalate (bytes.map fun b => s!"{b}") ++ "]"

/-- The value as notices show it: its name, then what it holds. -/
def describe : Value → String
  | .empty => "None"
  | .byte n => s!"Byte({n})"
  | .short n => s!"Short({n})"
  | .color c =>
    s!"Color(Rgba \x7b r: {c.red}, g: {c.green}, b: {c.blue}, a: {c.alpha} \x7d)"
  | .string i => s!"String({i})"
  | .resource i => s!"Resource({i})"
  | .percentage n => s!"Percentage({n})"
  | .edges e =>
    s!"Edges(Edges \x7b top: {e.top}, right: {e.right}, bottom: {e.bottom}, left: {e.left} \x7d)"
  | .choice n => s!"Enum({n})"
  | .raw tag payload => s!"Raw \x7b value_type: {tag}, bytes: {listed payload} \x7d"

end Value

/-- One attribute of a style or an element, and what it is set to. -/
structure Property where
  target : Attribute
  value : Value
deriving DecidableEq

end SceneTree
