import Mathlib.Data.List.Basic
import SceneTree.Document.Wire

/-!
# Records survive being written and read

Not every record can be written as it is: tables are cut to 255 entries,
insets to 255 units, raw payloads to 255 bytes, and what has a meaning on
the wire is read back as what it means. `Record.normal` says what becomes
of a record, field by field and without a byte in sight. Reading what was
written gives the normal form (`Record.read_toBytes`), and a normal form
is its own.

`Reader.Takes` is the contract of a reader that the proofs compose: given
certain bytes it takes those and no others, whatever follows.
-/

namespace SceneTree

/-! ## Normal forms -/

namespace Edges

/-- A length of more than 255 units is written as 255. -/
def cutLength (n : UInt16) : UInt16 := UInt16.ofNat (min n.toNat 255)

def normal (e : Edges) : Edges :=
  ⟨cutLength e.top, cutLength e.right, cutLength e.bottom, cutLength e.left⟩

end Edges

namespace Value

/-- What a value is read back as. A raw payload is cut, and then read
under its tag like any other. -/
def normal : Value → Value
  | .edges e => .edges e.normal
  | .raw tag payload => .ofPayload (.ofByte tag) (payload.take Record.countLimit)
  | v => v

end Value

def Property.normal (p : Property) : Property :=
  { target := .ofByte p.target.toByte, value := p.value.normal }

def Custom.normal (c : Custom) : Custom := { c with value := c.value.normal }

def Header.normal (h : Header) : Header := { h with widget := .ofByte h.widget.toByte }

/-- What a record is read back as. -/
def Record.normal (r : Record) : Record :=
  { header := r.header.normal
    properties := (r.properties.take countLimit).map Property.normal
    customs := (r.customs.take countLimit).map Custom.normal
    triggers := r.triggers.take countLimit
    childRefs := r.childRefs.take countLimit }

/-! ## Values -/

namespace Edges

theorem toNat_cutLength (n : UInt16) : (cutLength n).toNat = min n.toNat 255 := by
  have hn := n.toNat_lt
  rw [cutLength, UInt16.toNat_ofNat']
  omega

/-- A length that fits a byte is not cut. -/
theorem cutLength_toUInt16 (b : UInt8) : cutLength b.toUInt16 = b.toUInt16 := by
  have hb := b.toNat_lt
  apply UInt16.toNat.inj
  rw [toNat_cutLength, UInt8.toNat_toUInt16]
  omega

end Edges

namespace Value

theorem toUInt16_lengthByte (n : UInt16) : (lengthByte n).toUInt16 = Edges.cutLength n := by
  apply UInt16.toNat.inj
  rw [Edges.toNat_cutLength, lengthByte, UInt8.toNat_toUInt16, UInt8.toNat_ofNat']
  omega

/-- The tag of a value is one that a byte reads as. -/
theorem ofByte_toByte_tag (v : Value) : ValueTag.ofByte v.tag.toByte = v.tag := by
  cases v with
  | raw tag payload => exact congrArg ValueTag.ofByte (ValueTag.toByte_ofByte tag)
  | _ => rfl

/-- Reading the payload that was written gives the normal form. -/
theorem ofPayload_payload (v : Value) :
    ofPayload v.tag (v.payload.take Record.countLimit) = v.normal := by
  cases v with
  | short n => exact congrArg Value.short (Word.ofBytes_toBytes n)
  | percentage n => exact congrArg Value.percentage (Word.ofBytes_toBytes n)
  | edges e =>
    rw [normal, Edges.normal, ← toUInt16_lengthByte, ← toUInt16_lengthByte, ← toUInt16_lengthByte,
      ← toUInt16_lengthByte]
    rfl
  | _ => rfl

/-- A raw value of a known form does not stay raw. -/
example : (raw 0x02 [0x34, 0x12]).normal = short 0x1234 := by decide

/-- What is kept raw is kept as it stands. -/
theorem ofPayload_eq_raw {t : ValueTag} {bytes payload : List UInt8} {tag : UInt8}
    (h : ofPayload t bytes = .raw tag payload) : tag = t.toByte ∧ payload = bytes := by
  unfold ofPayload at h
  split at h <;> cases h
  exact ⟨rfl, rfl⟩

theorem normal_of_ofPayload_eq_edges {t : ValueTag} {bytes : List UInt8} {e : Edges}
    (h : ofPayload t bytes = .edges e) : e.normal = e := by
  unfold ofPayload at h
  split at h <;> cases h
  next b => simp only [Edges.normal, Edges.uniform, Edges.cutLength_toUInt16]
  next t r b l => simp only [Edges.normal, Edges.cutLength_toUInt16]

/-- What is read from a payload that is short enough is in normal form. -/
theorem normal_ofPayload {t : ValueTag} {bytes : List UInt8}
    (ht : ValueTag.ofByte t.toByte = t) (hlen : bytes.length ≤ Record.countLimit) :
    (ofPayload t bytes).normal = ofPayload t bytes := by
  cases h : ofPayload t bytes with
  | edges e => exact congrArg Value.edges (normal_of_ofPayload_eq_edges h)
  | raw tag payload =>
    obtain ⟨rfl, rfl⟩ := ofPayload_eq_raw h
    rw [normal, ht, List.take_of_length_le hlen, h]
  | _ => rfl

theorem normal_normal (v : Value) : v.normal.normal = v.normal := by
  rw [← ofPayload_payload v]
  exact normal_ofPayload v.ofByte_toByte_tag (List.length_take_le _ _)

theorem length_toBytes (v : Value) :
    v.toBytes.length = 2 + min v.payload.length Record.countLimit := by
  rw [toBytes, List.length_cons, List.length_cons, List.length_take, Nat.min_comm]
  omega

end Value

/-! ## Normal forms are their own -/

theorem Property.normal_normal (p : Property) : p.normal.normal = p.normal := by
  rw [normal, normal, Attribute.toByte_ofByte, Value.normal_normal]

theorem Custom.normal_normal (c : Custom) : c.normal.normal = c.normal := by
  rw [normal, normal, Value.normal_normal]

theorem Header.normal_normal (h : Header) : h.normal.normal = h.normal := by
  rw [normal, normal, Widget.toByte_ofByte]

/-- Cutting and rewriting a table a second time does nothing. -/
theorem take_map_take {α : Type} {f : α → α} (hf : ∀ a, f (f a) = f a) (n : Nat) (l : List α) :
    (((l.take n).map f).take n).map f = (l.take n).map f := by
  rw [← List.map_take, List.take_take, Nat.min_self, List.map_map]
  exact List.map_congr_left fun a _ => hf a

theorem Record.normal_normal (r : Record) : r.normal.normal = r.normal := by
  simp only [normal, Header.normal_normal, take_map_take Property.normal_normal,
    take_map_take Custom.normal_normal, List.take_take, Nat.min_self]

/-! ## What a reader takes -/

namespace Reader

variable {α β : Type}

/-- The reader takes just these bytes, whatever follows them, and makes
`a` of them. -/
def Takes (r : Reader α) (taken : List UInt8) (a : α) : Prop :=
  ∀ offset rest, r ⟨offset, taken ++ rest⟩ = .ok a ⟨offset + taken.length, rest⟩

namespace Takes

theorem pure (a : α) : Takes (pure a) [] a := fun _ _ => rfl

theorem bind {r : Reader α} {next : α → Reader β} {taken taken' : List UInt8} {a : α} {b : β}
    (h : Takes r taken a) (h' : Takes (next a) taken' b) :
    Takes (r >>= next) (taken ++ taken') b := by
  intro offset rest
  change EStateM.bind r next _ = _
  rw [EStateM.bind, List.append_assoc, h]
  dsimp only
  rw [h', List.length_append, Nat.add_assoc]

theorem map {r : Reader α} {taken : List UInt8} {a : α} (h : Takes r taken a) (f : α → β) :
    Takes (do return f (← r)) taken (f a) := by
  intro offset rest
  change EStateM.bind r (fun a => Pure.pure (f a)) _ = _
  rw [EStateM.bind, h]
  rfl

theorem bytes (taken : List UInt8) : Takes (bytes taken.length) taken taken := by
  intro offset rest
  rw [Reader.bytes, Cursor.remaining, List.length_append, if_neg (by omega), List.take_left,
    Cursor.advance, List.drop_left]

theorem byte (b : UInt8) : Takes byte [b] b := map (bytes [b]) (·.headD 0)

theorem word (n : UInt16) : Takes word (Word.toBytes n) n := by
  intro offset rest
  have hread : Reader.bytes 2 ⟨offset, Word.toBytes n ++ rest⟩ = _ :=
    bytes (Word.toBytes n) offset rest
  simp only [Reader.word, Bind.bind, EStateM.bind, hread]
  exact congrArg (EStateM.Result.ok · _) (Word.ofBytes_toBytes n)

theorem times {γ : Type} {item : Reader α} {write : γ → List UInt8} {f : γ → α}
    (h : ∀ x, Takes item (write x) (f x)) (l : List γ) :
    Takes (Reader.times l.length item) (l.flatMap write) (l.map f) := by
  induction l with
  | nil => exact .pure []
  | cons x l ih => exact (h x).bind (ih.map (f x :: ·))

theorem times_self {item : Reader α} {write : α → List UInt8}
    (h : ∀ x, Takes item (write x) x) (l : List α) :
    Takes (Reader.times l.length item) (l.flatMap write) l := by
  have htimes := times h l
  rwa [List.map_id'] at htimes

end Takes

/-! ## Reading what was written -/

/-- A count of at most 255 is read back from its byte. -/
theorem toNat_ofNat_length {γ : Type} (l : List γ) :
    (UInt8.ofNat (l.take Record.countLimit).length).toNat =
      (l.take Record.countLimit).length := by
  have hlen := List.length_take_le Record.countLimit l
  rw [UInt8.toNat_ofNat']
  exact Nat.mod_eq_of_lt (Nat.lt_succ_of_le hlen)

theorem takes_value (v : Value) : Takes value v.toBytes v.normal := by
  rw [← v.ofPayload_payload, ← v.ofByte_toByte_tag]
  refine (Takes.byte v.tag.toByte).bind ((Takes.byte _).bind ?_)
  rw [toNat_ofNat_length]
  exact (Takes.bytes _).map _

theorem takes_property (p : Property) :
    Takes property (p.target.toByte :: p.value.toBytes) p.normal :=
  (Takes.byte p.target.toByte).bind ((takes_value p.value).map _)

theorem takes_custom (c : Custom) : Takes custom (c.key :: c.value.toBytes) c.normal :=
  (Takes.byte c.key).bind ((takes_value c.value).map _)

theorem takes_trigger (t : Trigger) : Takes trigger [t.event, t.callback] t :=
  (Takes.byte t.event).bind ((Takes.byte t.callback).map _)

theorem takes_header (h : Header) : Takes header h.toBytes h.normal := by
  have hbytes : h.toBytes = [h.widget.toByte] ++ ([h.nameIndex] ++ (Word.toBytes h.x ++
      (Word.toBytes h.y ++ (Word.toBytes h.width ++ (Word.toBytes h.height ++
        ([h.layout.bits] ++ [h.styleId])))))) := rfl
  rw [hbytes]
  refine (Takes.byte _).bind ((Takes.byte _).bind ((Takes.word _).bind ((Takes.word _).bind ?_)))
  exact (Takes.word _).bind ((Takes.word _).bind ((Takes.byte _).bind ((Takes.byte _).map _)))

/-- Reading takes what writing gave and makes the normal form of it. -/
theorem takes_record (r : Record) : Takes record r.toBytes r.normal := by
  let c := r.clipped
  have hbytes : r.toBytes = r.header.toBytes ++ ([UInt8.ofNat c.properties.length] ++
      ([UInt8.ofNat c.childRefs.length] ++ ([UInt8.ofNat c.triggers.length] ++
        ([UInt8.ofNat c.customs.length] ++
          (c.properties.flatMap (fun p => p.target.toByte :: p.value.toBytes) ++
            (c.customs.flatMap (fun c => c.key :: c.value.toBytes) ++
              (c.triggers.flatMap (fun t => [t.event, t.callback]) ++
                c.childRefs.flatMap Word.toBytes))))))) := by
    simp only [Record.toBytes, List.append_assoc, List.cons_append, List.nil_append]
    rfl
  rw [hbytes]
  refine (takes_header _).bind ((Takes.byte _).bind ((Takes.byte _).bind ((Takes.byte _).bind
    ((Takes.byte _).bind ?_))))
  have hproperties := Takes.times takes_property c.properties
  have hcustoms := Takes.times takes_custom c.customs
  have htriggers := Takes.times_self takes_trigger c.triggers
  have hchildRefs := Takes.times_self Takes.word c.childRefs
  simp only [toNat_ofNat_length, c, Record.clipped]
  exact hproperties.bind (hcustoms.bind (htriggers.bind (hchildRefs.map _)))

end Reader

namespace Record

/-! ## Sizes -/

/-- The bytes of a table whose entries are of different sizes. -/
theorem length_flatMap_eq_sum {α : Type} {write : α → List UInt8} {size : α → Nat}
    (h : ∀ a, (write a).length = size a) (l : List α) :
    (l.flatMap write).length = (l.map size).foldr (· + ·) 0 := by
  rw [List.length_flatMap, ← List.sum_eq_foldr]
  exact congrArg List.sum (List.map_congr_left fun a _ => h a)

/-- The bytes of a table whose entries are all of one size. -/
theorem length_flatMap_eq_mul {α : Type} {write : α → List UInt8} {n : Nat}
    (h : ∀ a, (write a).length = n) (l : List α) : (l.flatMap write).length = n * l.length := by
  rw [length_flatMap_eq_sum h, ← List.sum_eq_foldr, List.map_const', List.sum_replicate_nat,
    Nat.mul_comm]

/-- The size that is counted is the size that is written. -/
theorem length_toBytes (r : Record) : r.toBytes.length = r.wireSize := by
  have hentry (b : UInt8) (v : Value) :
      (b :: v.toBytes).length = 3 + min v.payload.length countLimit := by
    rw [List.length_cons, v.length_toBytes]
    omega
  have hproperties := length_flatMap_eq_sum (fun p : Property => hentry p.target.toByte p.value)
    r.clipped.properties
  have hcustoms := length_flatMap_eq_sum (fun c : Custom => hentry c.key c.value)
    r.clipped.customs
  have htrigger (t : Trigger) : [t.event, t.callback].length = 2 := rfl
  have htriggers := length_flatMap_eq_mul htrigger r.clipped.triggers
  have hchildRefs := length_flatMap_eq_mul Word.length_toBytes r.clipped.childRefs
  have hheader : r.clipped.header.toBytes.length = 12 := rfl
  rw [toBytes, wireSize]
  simp only [List.length_append, hproperties, hcustoms, htriggers, hchildRefs, hheader]
  simp only [clipped, List.length_take, List.length_cons, List.length_nil, Nat.min_comm, headerSize]

/-! ## The round trip -/

/-- A record written between any other bytes is as long as was counted, and
reading at its place stops right after it with the normal form. A normal
form is its own, so a record that has it is read back as it was. -/
theorem read_toBytes (r : Record) (pre suf : List UInt8) :
    let written := pre ++ r.toBytes ++ suf
    let after : Cursor := .startingAt written (pre.length + r.toBytes.length)
    r.toBytes.length = r.wireSize ∧
      Reader.record (.startingAt written pre.length) = .ok r.normal after ∧
      r.normal.normal = r.normal ∧
      (r.normal = r → Reader.record (.startingAt written pre.length) = .ok r after) := by
  intro written after
  have hstart : written.drop pre.length = r.toBytes ++ suf := by
    rw [show written = pre ++ (r.toBytes ++ suf) from List.append_assoc .., List.drop_left]
  have hafter : written.drop (pre.length + r.toBytes.length) = suf := by
    rw [← List.length_append, show written = pre ++ r.toBytes ++ suf from rfl, List.drop_left]
  have hread : Reader.record (.startingAt written pre.length) = .ok r.normal after := by
    rw [Cursor.startingAt, hstart, show after = ⟨_, _⟩ from rfl, hafter]
    exact Reader.takes_record r pre.length suf
  refine ⟨r.length_toBytes, hread, r.normal_normal, fun hr => ?_⟩
  rw [hread, hr]

end Record

end SceneTree
