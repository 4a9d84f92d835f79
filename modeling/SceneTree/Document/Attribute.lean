/-!
# Attributes

What a property sets. The byte of an attribute says nothing about the
value beside it: whether a value fits is decided where the attribute is
applied.
-/

namespace SceneTree

inductive Attribute where
  | backgroundColor
  | foregroundColor
  | borderColor
  | borderWidth
  | padding
  | textContent
  | fontSize
  | fontWeight
  | textAlignment
  | imageSource
  | opacity
  | visibility
  | gap
  | maxWidth
  | maxHeight
  | width
  | layoutFlags
  | height
  | windowWidth
  | windowHeight
  | windowTitle
  | scaleFactor
  | cursor
  | fontFamily
  | crossAlignment
  | other (byte : UInt8)
deriving DecidableEq

namespace Attribute

def ofByte : UInt8 → Attribute
  | 0x01 => .backgroundColor
  | 0x02 => .foregroundColor
  | 0x03 => .borderColor
  | 0x04 => .borderWidth
  | 0x06 => .padding
  | 0x08 => .textContent
  | 0x09 => .fontSize
  | 0x0A => .fontWeight
  | 0x0B => .textAlignment
  | 0x0C => .imageSource
  | 0x0D => .opacity
  | 0x0F => .visibility
  | 0x10 => .gap
  | 0x13 => .maxWidth
  | 0x14 => .maxHeight
  | 0x19 => .width
  | 0x1A => .layoutFlags
  | 0x1B => .height
  | 0x20 => .windowWidth
  | 0x21 => .windowHeight
  | 0x22 => .windowTitle
  | 0x25 => .scaleFactor
  | 0x29 => .cursor
  | 0x2A => .fontFamily
  | 0x46 => .crossAlignment
  | byte => .other byte

def toByte : Attribute → UInt8
  | .backgroundColor => 0x01
  | .foregroundColor => 0x02
  | .borderColor => 0x03
  | .borderWidth => 0x04
  | .padding => 0x06
  | .textContent => 0x08
  | .fontSize => 0x09
  | .fontWeight => 0x0A
  | .textAlignment => 0x0B
  | .imageSource => 0x0C
  | .opacity => 0x0D
  | .visibility => 0x0F
  | .gap => 0x10
  | .maxWidth => 0x13
  | .maxHeight => 0x14
  | .width => 0x19
  | .layoutFlags => 0x1A
  | .height => 0x1B
  | .windowWidth => 0x20
  | .windowHeight => 0x21
  | .windowTitle => 0x22
  | .scaleFactor => 0x25
  | .cursor => 0x29
  | .fontFamily => 0x2A
  | .crossAlignment => 0x46
  | .other byte => byte

/-- Reading loses nothing: every byte is some attribute's byte. -/
theorem toByte_ofByte (b : UInt8) : (ofByte b).toByte = b := by
  unfold ofByte
  split <;> rfl

def name : Attribute → String
  | .backgroundColor => "BackgroundColor"
  | .foregroundColor => "ForegroundColor"
  | .borderColor => "BorderColor"
  | .borderWidth => "BorderWidth"
  | .padding => "Padding"
  | .textContent => "TextContent"
  | .fontSize => "FontSize"
  | .fontWeight => "FontWeight"
  | .textAlignment => "TextAlignment"
  | .imageSource => "ImageSource"
  | .opacity => "Opacity"
  | .visibility => "Visibility"
  | .gap => "Gap"
  | .maxWidth => "MaxWidth"
  | .maxHeight => "MaxHeight"
  | .width => "Width"
  | .layoutFlags => "LayoutFlags"
  | .height => "Height"
  | .windowWidth => "WindowWidth"
  | .windowHeight => "WindowHeight"
  | .windowTitle => "WindowTitle"
  | .scaleFactor => "ScaleFactor"
  | .cursor => "Cursor"
  | .fontFamily => "FontFamily"
  | .crossAlignment => "CrossAlignment"
  | .other byte => s!"Other({byte})"

end Attribute

end SceneTree
