import SceneTree.Document.Basic
import SceneTree.Document.Event
import SceneTree.ElementId
import SceneTree.Look
import SceneTree.Texture

/-!
# Elements

One element of a scene: where it came from, what it is, its attributes,
and its place among the others. The attributes are written when its
record is resolved, the text style when styles are handed down, the
geometry by layout and by patches.

Whether an element stands for a component is decided once, when it is
made. Later stages look at its role, never at its custom properties.
-/

namespace SceneTree

/-- The record an element was made from. -/
inductive Source where
  | document (index : Nat)
  | template (component : ComponentId) (node : Nat)
deriving DecidableEq

/-- What an element that stands for a component keeps. -/
structure Instance where
  component : String
  definition : Option ComponentId
  /-- The component's parameters with this instance's values, then its
  other custom properties. -/
  arguments : List (String × Value)
  expanded : Bool
  /-- The children it had in the document, once it is expanded. -/
  usage : List ElementId
  /-- The roots of the template now attached to it. -/
  roots : List ElementId
  /-- Its own decoration, which the first of the roots wears. -/
  decoration : Decoration
deriving DecidableEq

namespace Instance

/-- The first argument under a name. -/
def argument? (i : Instance) (name : String) : Option Value := i.arguments.lookup name

end Instance

/-- What an element is to the later stages. -/
inductive Role where
  | plain (widget : Widget)
  | standIn (i : Instance)
deriving DecidableEq

namespace Role

def instance? : Role → Option Instance
  | .standIn i => some i
  | .plain _ => none

end Role

/-- An event and the callback it calls. -/
structure Binding where
  event : Event
  callback : String
deriving DecidableEq

structure Element where
  id : ElementId
  source : Source
  role : Role
  header : Header
  name : Option String
  look : Look
  sizing : Sizing
  layout : LayoutFlags
  text : Option String
  resource : Option UInt8
  texture : Option Texture
  textureLoaded : Bool
  bindings : List Binding
  /-- Whether the children of an instance go here. -/
  slot : Bool
  textStyle : TextStyle
  /-- The size it asks for, as last measured. -/
  intrinsic : Size
  /-- Its place, as last laid out or patched. -/
  rect : Rect
  parent : Option ElementId
  children : List ElementId
deriving DecidableEq

namespace Element

/-- An element nothing has been resolved for yet. -/
def fresh (id : ElementId) (source : Source) (header : Header) : Element :=
  { id, source, role := .plain header.widget, header, name := none, look := .plain,
    sizing := .free, layout := header.layout, text := none, resource := none, texture := none,
    textureLoaded := false, bindings := [], slot := false, textStyle := .unset,
    intrinsic := .zero, rect := .zero, parent := none, children := [] }

def widget (e : Element) : Widget := e.header.widget

def instance? (e : Element) : Option Instance := e.role.instance?

def isInstance (e : Element) : Bool := e.instance?.isSome

/-- An instance whose component has not been put in its place. -/
def isPending (e : Element) : Bool := e.instance?.any (!·.expanded)

def isVisible (e : Element) : Bool := e.look.visible

/-- Taken out of the flow by its layout byte or by a place hint. -/
def isAbsolute (e : Element) : Bool := e.layout.isAbsolute || e.header.hasOffset

def grows (e : Element) : Bool := e.layout.grows

/-- Visible and placed by the flow of its parent. -/
def inFlow (e : Element) : Bool := e.isVisible && !e.isAbsolute

/-- The callback of the first binding for an event. -/
def callback? (e : Element) (event : Event) : Option String :=
  (e.bindings.find? (·.event == event)).map (·.callback)

/-- Where the content goes if the element stands at `r`. -/
def contentWithin (e : Element) (r : Rect) : Rect := r.deflate e.look.insets

/-- Where the content goes now. -/
def contentRect (e : Element) : Rect := e.contentWithin e.rect

/-- The text it draws, if its widget draws any. -/
def shownText? (e : Element) : Option String :=
  if e.widget.showsText then e.text.filter (· ≠ "") else none

/-- The texture it has, once loading it has succeeded. -/
def loadedTexture? (e : Element) : Option Texture := if e.textureLoaded then e.texture else none

end Element

end SceneTree
