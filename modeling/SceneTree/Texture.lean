import SceneTree.Document.Basic
import SceneTree.Fault

/-!
# Textures

The library reads no files. A loader turns a path into a texture or says
why not, and the outcome is kept per resource index: an index is asked
for once, and a failure is an outcome like any other.

A loader may answer differently the second time. What it has been asked
before is therefore part of the question, and the store remembers the
questions in order.
-/

namespace SceneTree

/-- An image a loader holds under a handle of its own. -/
structure Texture where
  handle : UInt64
  width : UInt32
  height : UInt32
deriving DecidableEq

/-- Answers a path, given the paths it was asked before. -/
structure Loader where
  load : List String → String → Except TextureFault Texture

namespace Loader

/-- The loader that has nothing. -/
def none : Loader :=
  ⟨fun _ path => .error (.loadFailed path "no resource loader configured")⟩

/-- The loader that knows some paths: their textures, or why they have
none. -/
def ofEntries (entries : List (String × Except String Texture)) : Loader :=
  ⟨fun _ path =>
    match entries.lookup path with
    | some (.ok texture) => .ok texture
    | some (.error reason) => .error (.loadFailed path reason)
    | .none => .error (.loadFailed path "not found")⟩

end Loader

/-- One outcome per resource index, and the questions so far. -/
structure TextureStore where
  outcomes : List (UInt8 × Except TextureFault Texture)
  asked : List String

namespace TextureStore

def empty : TextureStore := { outcomes := [], asked := [] }

/-- How many indices have an outcome. -/
def size (t : TextureStore) : Nat := t.outcomes.length

def outcome? (t : TextureStore) (index : UInt8) : Option (Except TextureFault Texture) :=
  t.outcomes.lookup index

/-- The outcome for an index, from the loader if there is none yet. An
index outside the resource table is an outcome too, and asks no loader. -/
def get (t : TextureStore) (d : Document) (loader : Loader) (index : UInt8) :
    Except TextureFault Texture × TextureStore :=
  match t.outcome? index with
  | some known => (known, t)
  | none =>
    match d.resource? index with
    | some path =>
      let fresh := loader.load t.asked path
      (fresh, { outcomes := t.outcomes ++ [(index, fresh)], asked := t.asked ++ [path] })
    | none =>
      let fresh := .error (.unknownResource index)
      (fresh, { t with outcomes := t.outcomes ++ [(index, fresh)] })

end TextureStore

end SceneTree
