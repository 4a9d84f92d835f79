import SceneTree.Notice
import SceneTree.Scene.Basic

/-!
# Textures of a scene

Every element that names a resource and has no texture gets the outcome of
that resource. An element whose resource failed is tried again on the next
run, but its outcome is known by then, so no loader is asked twice.
-/

namespace SceneTree

/-- A scene with its textures, the store they came from, and how many
elements got one or failed to. -/
structure TextureRun where
  scene : Scene
  store : TextureStore
  loaded : Nat
  failed : Nat
  notices : List Notice

namespace TextureRun

/-- Gives one element the outcome of its resource. -/
def take (d : Document) (loader : Loader) (run : TextureRun) (wanted : ElementId × UInt8) :
    TextureRun :=
  let (id, index) := wanted
  let (outcome, store) := run.store.get d loader index
  let write (texture : Option Texture) : Scene :=
    run.scene.modify id fun e => { e with texture, textureLoaded := texture.isSome }
  match outcome with
  | .ok texture => { run with scene := write (some texture), store, loaded := run.loaded + 1 }
  | .error cause =>
    { run with
      scene := write none
      store
      failed := run.failed + 1
      notices := run.notices ++ [.textureUnavailable id index cause] }

end TextureRun

namespace Scene

/-- The elements that name a resource and have no texture yet. -/
def wanting (s : Scene) : List (ElementId × UInt8) :=
  (s.elements.filter (!·.textureLoaded)).filterMap fun e => e.resource.map (e.id, ·)

/-- Gives every element that wants one its texture, by id. -/
def loadTextures (s : Scene) (store : TextureStore) (d : Document) (loader : Loader) :
    TextureRun :=
  s.wanting.foldl (TextureRun.take d loader)
    { scene := s, store, loaded := 0, failed := 0, notices := [] }

end Scene

end SceneTree
