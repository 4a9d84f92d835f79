import SceneTree.Resolve
import SceneTree.Scene.Basic

/-!
# Filling a scene

Every record becomes an element with all its attributes. The elements of
a document are made first and in order, so in an empty scene record `i`
gets id `i`.
-/

namespace SceneTree

/-! ## One element -/

namespace Scene

/-- Makes the element of a record under the next id. The header is given
apart, as in `Element.resolve`. -/
def add (s : Scene) (d : Document) (st : Settings) (source : Source) (h : Header) (r : Record) :
    Scene :=
  (s.push source h).modify s.nextId (·.become d st r)

end Scene

namespace Record

/-- What is noted while an element is made of a record. -/
def notices (r : Record) (d : Document) (id : ElementId) (h : Header) : List Notice :=
  Element.resolveNotices d id h r ++ Role.noticesOf d r

end Record

/-! ## A document -/

namespace Scene

/-- The scene with the elements of a document added, not yet linked. -/
def addDocument (s : Scene) (d : Document) (st : Settings) : Scene :=
  d.records.zipIdx.foldl (fun s (r, i) => s.add d st (.document i) r.header r) s

/-- The elements of a document, not yet linked. -/
def ofDocument (d : Document) (st : Settings) : Scene := empty.addDocument d st

end Scene

namespace Document

/-- What is noted while the elements of a document are made in an empty
scene. -/
def populateNotices (d : Document) : List Notice :=
  d.records.zipIdx.flatMap fun (r, i) => r.notices d ⟨i⟩ r.header

end Document

end SceneTree
