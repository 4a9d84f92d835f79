import SceneTree.Document.Basic
import SceneTree.Look

/-!
# Settings

What a whole document starts from: colours, font, scale, window. They are
read once, from the first application record: first its style, then the
size in its header, then its own properties. A value that does not fit its
attribute changes nothing, and a document without an application record
has the settings below.

The scale counts in 256ths, as it is written; a factor is made of it
where it is used.
-/

namespace SceneTree

structure Settings where
  background : Color
  foreground : Color
  borderColor : Color
  borderWidth : UInt16
  textAlign : TextAlign
  visible : Bool
  fontSize : UInt16
  fontFamily : String
  fontWeight : FontWeight
  /-- In 256ths. -/
  scale : Nat
  windowWidth : UInt16
  windowHeight : UInt16
  title : String
deriving DecidableEq

namespace Settings

def standard : Settings :=
  { background := .black, foreground := .white, borderColor := .gray, borderWidth := 0,
    textAlign := .start, visible := true, fontSize := 16, fontFamily := "sans-serif",
    fontWeight := .normal, scale := 256, windowWidth := 800, windowHeight := 600,
    title := "krb" }

/-- The scale in a value: a byte is a whole factor, the longer numbers
count in 256ths. A scale of zero is none. -/
def scaleOf? (v : Value) : Option Nat :=
  (match v with
    | .percentage n | .short n => some n.toNat
    | .byte n => some (256 * n.toNat)
    | _ => none).filter (0 < ·)

/-- A length that has to be more than nothing. -/
def positive? (v : Value) : Option UInt16 := v.toNumber?.filter (0 < ·)

/-- The settings after one property. -/
def set (d : Document) (s : Settings) (p : Property) : Settings :=
  let v := p.value
  match p.target with
  | .backgroundColor => v.toColor?.elim s fun c => { s with background := c }
  | .foregroundColor => v.toColor?.elim s fun c => { s with foreground := c }
  | .borderColor => v.toColor?.elim s fun c => { s with borderColor := c }
  | .borderWidth => v.toNumber?.elim s fun n => { s with borderWidth := n }
  | .textAlignment => v.toNumber?.elim s fun n => { s with textAlign := .ofByte n.toUInt8 }
  | .visibility => v.toNumber?.elim s fun n => { s with visible := n != 0 }
  | .fontSize => (positive? v).elim s fun n => { s with fontSize := n }
  | .fontWeight => v.toNumber?.elim s fun n => { s with fontWeight := .ofScaledNumber n }
  | .fontFamily => (d.stringOf? v).elim s fun t => { s with fontFamily := t }
  | .windowWidth => (positive? v).elim s fun n => { s with windowWidth := n }
  | .windowHeight => (positive? v).elim s fun n => { s with windowHeight := n }
  | .windowTitle => (d.stringOf? v).elim s fun t => { s with title := t }
  | .scaleFactor => (scaleOf? v).elim s fun n => { s with scale := n }
  | _ => s

/-- The window size given by the header, where it gives one. -/
def setWindow (h : Header) (s : Settings) : Settings :=
  { s with
    windowWidth := if h.width = 0 then s.windowWidth else h.width
    windowHeight := if h.height = 0 then s.windowHeight else h.height }

/-- The settings of a document. -/
def ofDocument (d : Document) : Settings :=
  match d.app? with
  | none => standard
  | some app =>
    let fromStyle := match d.style? app.header.styleId with
      | some style => style.properties.foldl (set d) standard
      | none => standard
    app.properties.foldl (set d) (setWindow app.header fromStyle)

/-! ## Readings -/

def scaleFactor (s : Settings) : Single := .round (s.scale / 256)

/-- A font size in layout units before rounding. -/
def scaled (s : Settings) (fontSize : UInt16) : Single :=
  .ofNat fontSize.toNat * s.scaleFactor

/-- The smallest side a decorated element is given: one line of the
document's own font, at least one unit. -/
def unit (s : Settings) : Int := max ((s.scaled s.fontSize).toUnits Single.nearestAway) 1

/-- The text style a root starts from. -/
def textStyle (s : Settings) : TextStyle :=
  { color := s.foreground, fontSize := s.fontSize, fontFamily := s.fontFamily,
    fontWeight := s.fontWeight, align := s.textAlign }

def window (s : Settings) : Size := ⟨s.windowWidth.toNat, s.windowHeight.toNat⟩

end Settings

end SceneTree
