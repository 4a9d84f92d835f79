import SceneTree.Document.Basic
import SceneTree.Fault

/-!
# The wire form of a record

    type 1, name 1, x 2, y 2, width 2, height 2, layout 1, style 1
    counts, 1 each: properties, children, triggers, customs
    properties:  attribute 1, tag 1, size 1, payload
    customs:     key 1, tag 1, size 1, payload
    triggers:    event 1, callback 1
    children:    distance 2

The counts stand in another order than the tables. Words are low byte
first.

A reader keeps its place when it fails: the cursor stands where the field
that was cut short began, and the fault says how many bytes that field
lacks.
-/

namespace SceneTree

/-! ## Reading -/

/-- A place in a run of bytes: how many were passed, and what follows. -/
structure Cursor where
  offset : Nat
  rest : List UInt8
deriving DecidableEq

namespace Cursor

/-- A place at a distance from the start; past the end nothing follows. -/
def startingAt (bytes : List UInt8) (offset : Nat) : Cursor := ⟨offset, bytes.drop offset⟩

def ofBytes (bytes : List UInt8) : Cursor := ⟨0, bytes⟩

def remaining (c : Cursor) : Nat := c.rest.length

def isEmpty (c : Cursor) : Bool := c.rest.isEmpty

/-- The place `n` bytes on. -/
def advance (c : Cursor) (n : Nat) : Cursor := ⟨c.offset + n, c.rest.drop n⟩

end Cursor

/-- Reads a value and moves the cursor, or fails and leaves it at the
field that was cut short. -/
abbrev Reader (α : Type) : Type := EStateM ShortRead Cursor α

namespace Reader

/-- Exactly `n` bytes. -/
def bytes (n : Nat) : Reader (List UInt8) := fun c =>
  if c.remaining < n then .error ⟨c.offset, n - c.remaining⟩ c
  else .ok (c.rest.take n) (c.advance n)

def byte : Reader UInt8 := do
  let b ← bytes 1
  return b.headD 0

def word : Reader UInt16 := do
  match ← bytes 2 with
  | [low, high] => return Word.ofBytes low high
  | _ => return 0

/-- The same thing `n` times. -/
def times (n : Nat) (item : Reader α) : Reader (List α) :=
  match n with
  | 0 => return []
  | n + 1 => do
    let first ← item
    let others ← times n item
    return first :: others

def value : Reader Value := do
  let tag ← byte
  let size ← byte
  let payload ← bytes size.toNat
  return .ofPayload (.ofByte tag) payload

def property : Reader Property := do
  let target ← byte
  let v ← value
  return ⟨.ofByte target, v⟩

def custom : Reader Custom := do
  let key ← byte
  let v ← value
  return ⟨key, v⟩

def trigger : Reader Trigger := do
  let event ← byte
  let callback ← byte
  return ⟨event, callback⟩

def header : Reader Header := do
  let widget ← byte
  let nameIndex ← byte
  let x ← word
  let y ← word
  let width ← word
  let height ← word
  let layout ← byte
  let styleId ← byte
  return { widget := .ofByte widget, nameIndex, x, y, width, height, layout := ⟨layout⟩, styleId }

def record : Reader Record := do
  let header ← header
  let propertyCount ← byte
  let childCount ← byte
  let triggerCount ← byte
  let customCount ← byte
  let properties ← times propertyCount.toNat property
  let customs ← times customCount.toNat custom
  let triggers ← times triggerCount.toNat trigger
  let childRefs ← times childCount.toNat word
  return { header, properties, customs, triggers, childRefs }

/-- Records to the end of the bytes, each with its offset. A record takes
a byte at least, so as many steps as there are bytes are enough. -/
def recordsWithin : Nat → Reader (List (Nat × Record))
  | 0 => return []
  | steps + 1 => do
    let c ← get
    if c.isEmpty then return []
    let first ← record
    let others ← recordsWithin steps
    return (c.offset, first) :: others

/-- What a reader makes of a cursor, without the place it ends at. -/
def runOn (r : Reader α) (c : Cursor) : Except ShortRead α :=
  match r c with
  | .ok a _ => .ok a
  | .error e _ => .error e

end Reader

namespace Record

/-- Every record of a block of bytes, with its offset. -/
def readAll (bytes : List UInt8) : Except ShortRead (List (Nat × Record)) :=
  (Reader.recordsWithin bytes.length).runOn (.ofBytes bytes)

/-! ## Writing -/

/-- The bytes of the header and the four counts. -/
def headerSize : Nat := 16

/-- A table holds as many entries as its count can say. -/
def countLimit : Nat := 255

end Record

namespace Value

/-- Tag, size and payload, cut to what the size can say. -/
def toBytes (v : Value) : List UInt8 :=
  let payload := v.payload.take Record.countLimit
  v.tag.toByte :: UInt8.ofNat payload.length :: payload

end Value

namespace Header

/-- The fixed fields, without the counts. -/
def toBytes (h : Header) : List UInt8 :=
  [h.widget.toByte, h.nameIndex] ++ Word.toBytes h.x ++ Word.toBytes h.y
    ++ Word.toBytes h.width ++ Word.toBytes h.height ++ [h.layout.bits, h.styleId]

end Header

namespace Record

/-- The record with every table cut to what its count can say. -/
def clipped (r : Record) : Record :=
  { r with
    properties := r.properties.take countLimit
    customs := r.customs.take countLimit
    triggers := r.triggers.take countLimit
    childRefs := r.childRefs.take countLimit }

/-- The bytes of a record. -/
def toBytes (r : Record) : List UInt8 :=
  let r := r.clipped
  r.header.toBytes
    ++ [UInt8.ofNat r.properties.length, UInt8.ofNat r.childRefs.length,
        UInt8.ofNat r.triggers.length, UInt8.ofNat r.customs.length]
    ++ r.properties.flatMap (fun p => p.target.toByte :: p.value.toBytes)
    ++ r.customs.flatMap (fun c => c.key :: c.value.toBytes)
    ++ r.triggers.flatMap (fun t => [t.event, t.callback])
    ++ r.childRefs.flatMap Word.toBytes

/-- The number of bytes a record is written with, counted without writing
it. -/
def wireSize (r : Record) : Nat :=
  let valueSize (v : Value) : Nat := 3 + min v.payload.length countLimit
  headerSize
    + ((r.properties.take countLimit).map (valueSize ·.value)).foldr (· + ·) 0
    + ((r.customs.take countLimit).map (valueSize ·.value)).foldr (· + ·) 0
    + 2 * min r.triggers.length countLimit
    + 2 * min r.childRefs.length countLimit

/-! ## Sections -/

/-- Where each piece of a run begins, given the sizes of the pieces. -/
def offsetsFrom (start : Nat) : List Nat → List Nat
  | [] => []
  | size :: sizes => start :: offsetsFrom (start + size) sizes

/-- Where records begin that are written one after another. -/
def packedOffsets (records : List Record) : List Nat := offsetsFrom 0 (records.map wireSize)

end Record

namespace Document

/-- The document with the given records, one after another. -/
def withRecords (d : Document) (records : List Record) : Document :=
  { d with records, offsets := Record.packedOffsets records }

/-- The document with the records of an element section. -/
def withSection (d : Document) (bytes : List UInt8) : Except LoadFault Document :=
  match Record.readAll bytes with
  | .ok placed => .ok { d with records := placed.map (·.2), offsets := placed.map (·.1) }
  | .error cause => .error (.malformed cause)

end Document

end SceneTree
