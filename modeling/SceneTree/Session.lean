import SceneTree.Adjust.Run
import SceneTree.Paint
import SceneTree.Pointer
import SceneTree.Scene.Connect
import SceneTree.Scene.Expand
import SceneTree.Scene.Inherit
import SceneTree.Scene.Textures

/-!
# Sessions

A session is one document with its scene. Loading makes the scene: the
elements, their links, the copies of components, the textures, the text
styles. A frame lays it out and runs the adjusters. Between frames the
viewport may change, an instance may be expanded again, and the pointer
may act.

Everything a step notes or calls is part of its answer.
-/

namespace SceneTree

/-- What a session is given beside the document. -/
structure SessionOptions where
  /-- Without one, the window of the document's settings. -/
  viewport : Option Size
  ruler : Ruler
  loader : Loader

namespace SessionOptions

def standard : SessionOptions := { viewport := none, ruler := .cells, loader := .none }

end SessionOptions

structure Session where
  document : Document
  settings : Settings
  scene : Scene
  handlers : Handlers
  textures : TextureStore
  ruler : Ruler
  loader : Loader
  pointer : Pointer
  viewport : Size
  /-- Whether anything changed since the last frame. -/
  dirty : Bool

namespace Session

/-! ## Loading -/

/-- The scene of a document up to its links, with what was noted. Linking
goes on where it can, whether or not the document has a root. -/
def linkedScene (d : Document) (st : Settings) : Scene × List Notice :=
  let linking := (Scene.ofDocument d st).connect d
  (linking.scene, d.populateNotices ++ linking.skipped.map (·.notice))

/-- A session on a document, or why there is none. -/
def load (d : Document) (handlers : Handlers) (options : SessionOptions) :
    Except LoadFault Session × List Notice :=
  let settings := Settings.ofDocument d
  let (linked, notices) := linkedScene d settings
  match linked.rootsOf d with
  | .error fault => (.error fault, notices)
  | .ok _ =>
    let expanded := linked.expandAll d settings
    let textured := expanded.scene.loadTextures .empty d options.loader
    let session : Session :=
      { document := d, settings, scene := textured.scene.inherit settings, handlers,
        textures := textured.store, ruler := options.ruler, loader := options.loader,
        pointer := .idle, viewport := options.viewport.getD settings.window, dirty := true }
    (.ok session, notices ++ expanded.notices ++ textured.notices)

/-! ## Frames -/

def rules (s : Session) : LayoutRules := { settings := s.settings, ruler := s.ruler }

/-- What one frame did. -/
structure Frame where
  laidOut : Nat
  adjusting : AdjustRun

/-- Lays out every root at the viewport and runs the adjusters. -/
def frame (s : Session) : Session × Frame :=
  let (laid, laidOut) := s.scene.layOut s.rules s.viewport
  let adjusting := laid.adjust s.rules s.document s.handlers
  ({ s with scene := adjusting.scene, dirty := false }, { laidOut, adjusting })

/-- Changes the viewport. The same size again changes nothing. -/
def resize (s : Session) (viewport : Size) : Session :=
  if viewport = s.viewport then s else { s with viewport, dirty := true }

/-! ## Expanding again -/

/-- Expands an instance again, in place of the copy it has, and brings
textures and text styles up to date whether or not that succeeds. -/
def reexpand (s : Session) (id : ElementId) :
    Session × Except ExpandFault (List ElementId) × List Notice :=
  let expansion := s.scene.expand s.document s.settings id
  let textured := expansion.scene.loadTextures s.textures s.document s.loader
  ({ s with
      scene := textured.scene.inherit s.settings
      textures := textured.store
      dirty := true },
   expansion.outcome, expansion.notices ++ textured.notices)

/-! ## The pointer -/

/-- One step of the pointer, and the callbacks it asks for, in order. -/
def point (s : Session) (action : PointerAction) (x y : Int) : Session × List String :=
  let (pointer, names) := s.pointer.step s.scene action x y
  ({ s with pointer }, names)

/-- Pressing and releasing at one point. -/
def click (s : Session) (x y : Int) : Session × List String :=
  let (pressed, first) := s.point .down x y
  let (released, second) := pressed.point .up x y
  (released, first ++ second)

/-! ## Showing -/

/-- A session in one line. -/
def describe (s : Session) : String :=
  s!"Session \x7b elements: {s.scene.size}, viewport: Size \x7b width: {s.viewport.width}, "
    ++ s!"height: {s.viewport.height} \x7d, registry: " ++ s.handlers.describe
    ++ s!", dirty: {s.dirty}, .. \x7d"

end Session

end SceneTree
