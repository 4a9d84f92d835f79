import SceneTree.Document.Record

/-!
# Documents

A document is read once and never changed. It is a set of tables:
strings, element records with their byte offsets, styles, components and
resources. An index that does not resolve has no entry; what follows from
that is decided where the index is used.
-/

namespace SceneTree

/-- A named list of properties. Ids start at one; zero means "no style". -/
structure Style where
  id : UInt8
  name : String
  properties : List Property
deriving DecidableEq

/-- The place of a component in the document's table. -/
structure ComponentId where
  index : Nat
deriving DecidableEq

/-- A parameter of a component, with the value an instance has if it
gives none. -/
structure Parameter where
  name : String
  fallback : Value
deriving DecidableEq

/-- A subtree to be used again: its parameters and the bytes of its
records. -/
structure Component where
  name : String
  parameters : List Parameter
  template : List UInt8
deriving DecidableEq

structure Document where
  strings : List String
  records : List Record
  /-- The byte offset of each record in the element section. -/
  offsets : List Nat
  styles : List Style
  components : List Component
  /-- Where the images are found. -/
  resources : List String
deriving DecidableEq

namespace Document

def blank : Document :=
  { strings := [], records := [], offsets := [], styles := [], components := [], resources := [] }

/-! ## Look-ups -/

def string? (d : Document) (index : UInt8) : Option String := d.strings[index.toNat]?

/-- The name under an index. Index zero and the empty string both mean
"unnamed". -/
def name? (d : Document) (index : UInt8) : Option String :=
  if index = 0 then none else (d.string? index).filter (· ≠ "")

/-- The first style with the id; id zero never resolves. -/
def style? (d : Document) (id : UInt8) : Option Style :=
  if id = 0 then none else d.styles.find? (·.id == id)

def component? (d : Document) (id : ComponentId) : Option Component := d.components[id.index]?

/-- The first component with the name. -/
def componentNamed? (d : Document) (name : String) : Option ComponentId :=
  (d.components.findIdx? (·.name == name)).map ComponentId.mk

def resource? (d : Document) (index : UInt8) : Option String := d.resources[index.toNat]?

/-- The first application record: it sets what the whole document starts
from. -/
def app? (d : Document) : Option Record := d.records.find? (·.header.widget == .app)

/-- The string a value points at. -/
def stringOf? (d : Document) (v : Value) : Option String := v.toStringIndex?.bind d.string?

/-! ## Reserved names -/

/-- The custom property that makes an element stand for a component. -/
def componentKey : String := "_componentName"

/-- The custom property that marks where an instance's own children go. -/
def slotKey : String := "_slot"

end Document

namespace Record

/-- The value of the first custom property whose key reads `key`. -/
def custom? (r : Record) (d : Document) (key : String) : Option Value :=
  (r.customs.find? fun c => d.string? c.key == some key).map (·.value)

end Record

namespace Document

/-- A value as text, for the places where a component's argument stands in
for a text. Indices into either table read the string table. -/
def textOf (d : Document) : Value → String
  | .empty | .raw _ _ => ""
  | .string i | .resource i => (d.string? i).getD ""
  | .byte n | .choice n => s!"{n}"
  | .short n => s!"{n}"
  | .percentage n => s!"{n.toNat * 100 / 256}%"
  | .color c => "#" ++ hex c.red ++ hex c.green ++ hex c.blue ++ hex c.alpha
  | .edges e => s!"{e.top} {e.right} {e.bottom} {e.left}"
where
  /-- Two digits, with letters in lower case. -/
  hex (b : UInt8) : String :=
    String.ofList [Nat.digitChar (b.toNat / 16), Nat.digitChar (b.toNat % 16)]

end Document

end SceneTree
