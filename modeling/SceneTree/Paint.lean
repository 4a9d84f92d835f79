import SceneTree.Scene.Basic

/-!
# Painting

A scene is painted as a list of commands: for each element that shows, in
the order in which they cover one another, its background, its border, and
then its text or its texture. Whatever an element draws itself is faded by
its opacity; its children fade by their own.

A widget that draws text never draws a texture, with or without a text.
-/

namespace SceneTree

inductive DrawCommand where
  | fill (rect : Rect) (color : Color)
  /-- Strokes along the inside of the edges. -/
  | border (rect : Rect) (widths : Edges) (color : Color)
  | text (rect : Rect) (text : String) (color : Color) (fontSize : UInt16)
  | texture (rect : Rect) (texture : Texture)
deriving DecidableEq

namespace Element

def backgroundCommands (e : Element) : List DrawCommand :=
  let color := e.look.shownBackground
  if color.isClear then [] else [.fill e.rect color]

def borderCommands (e : Element) : List DrawCommand :=
  match e.look.borderColor with
  | some color =>
    if e.look.showsBorder then [.border e.rect e.look.border (color.fade e.look.opacityFactor)]
    else []
  | none => []

def contentCommands (e : Element) : List DrawCommand :=
  if e.widget.showsText then
    match e.shownText? with
    | some text =>
      [.text e.contentRect text (e.textStyle.color.fade e.look.opacityFactor)
        e.textStyle.fontSize]
    | none => []
  else
    match e.loadedTexture? with
    | some texture => [.texture e.contentRect texture]
    | none => []

/-- What one element draws itself. -/
def paint (e : Element) : List DrawCommand :=
  e.backgroundCommands ++ e.borderCommands ++ e.contentCommands

end Element

namespace Scene

/-- Everything there is to draw, in order. -/
def paint (s : Scene) : List DrawCommand := s.shown.flatMap Element.paint

/-- How many elements are painted. -/
def paintedCount (s : Scene) : Nat := s.shown.length

end Scene

end SceneTree
