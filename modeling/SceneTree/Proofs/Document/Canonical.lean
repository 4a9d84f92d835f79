import SceneTree.Proofs.Document.RoundTrip
import SceneTree.Proofs.Document.Template

/-!
# What reading keeps of the bytes

Reading interprets bytes: a type, an attribute or a tag becomes what it
means, and a payload is read under its tag. Whatever the bytes are, they
can all be told from the record again, with one exception. Insets may be
written in one byte for all four edges, and are read as if they had been
written in four (`Record.narrowInsets` counts them in the bytes). So
writing a record that was read gives back its bytes exactly if none of its
insets was written in one byte, and otherwise three bytes more for each
(`Record.toBytes_read`).

`Reader.Reads` is the converse of `Reader.Takes`: it says what the bytes
were that a reader has taken. A record is read from a `Spelling`, which is
its bytes field by field and not yet interpreted.
-/

namespace SceneTree

/-! ## Insets in one byte -/

namespace Record

/-- How many of the first `count` entries of a table are insets in one
byte. An entry is a key, a tag, a size and a payload. -/
def narrowEntries : Nat → List UInt8 → Nat
  | count + 1, _ :: tag :: size :: rest =>
    (if tag = 0x08 ∧ size = 1 then 1 else 0) + narrowEntries count (rest.drop size.toNat)
  | _, _ => 0

/-- How many insets the bytes of a record hold in one byte. The properties
and the customs, whose numbers stand at places 12 and 15, begin right after
the counts. -/
def narrowInsets (bytes : List UInt8) : Nat :=
  narrowEntries ((bytes.getD 12 0).toNat + (bytes.getD 15 0).toNat) (bytes.drop headerSize)

end Record

/-! ## Entries -/

/-- An entry of a table as it stands in the bytes. Its size is one byte. -/
structure Entry where
  key : UInt8
  tag : UInt8
  payload : List UInt8
  fits : payload.length ≤ Record.countLimit

namespace Entry

variable (e : Entry)

def toBytes : List UInt8 := e.key :: e.tag :: UInt8.ofNat e.payload.length :: e.payload

/-- Whether the entry is insets in one byte. -/
def isNarrow : Bool := e.tag == 0x08 && e.payload.length == 1

def value : Value := .ofPayload (.ofByte e.tag) e.payload

def property : Property := { target := .ofByte e.key, value := e.value }

def custom : Custom := { key := e.key, value := e.value }

theorem toNat_size : (UInt8.ofNat e.payload.length).toNat = e.payload.length := by
  have hfits := e.fits
  rw [UInt8.toNat_ofNat']
  exact Nat.mod_eq_of_lt (Nat.lt_succ_of_le hfits)

end Entry

namespace Value

variable {t : ValueTag} {payload : List UInt8}

/-- What is read under a tag is written under it. -/
theorem tag_ofPayload (ht : ValueTag.ofByte t.toByte = t) : (ofPayload t payload).tag = t := by
  unfold ofPayload
  split
  all_goals first | rfl | exact ht

theorem lengthByte_toUInt16 (b : UInt8) : lengthByte b.toUInt16 = b := by
  have hb := b.toNat_lt
  apply UInt8.toNat.inj
  rw [lengthByte, UInt8.toNat_ofNat', UInt8.toNat_toUInt16]
  omega

/-- The payload is kept as it is, unless it is insets in one byte. -/
theorem payload_ofPayload (h : ¬ (t = .edges ∧ payload.length = 1)) :
    (ofPayload t payload).payload = payload := by
  unfold ofPayload
  split
  case h_3 low high => exact Word.toBytes_ofBytes low high
  case h_7 low high => exact Word.toBytes_ofBytes low high
  case h_8 b => exact absurd ⟨rfl, rfl⟩ h
  case h_9 => simp only [Value.payload, lengthByte_toUInt16]
  all_goals rfl

end Value

namespace ValueTag

/-- Only one byte is the tag of insets. -/
theorem ofByte_eq_edges {b : UInt8} : ofByte b = .edges ↔ b = 0x08 := by
  constructor
  · intro h
    rw [← toByte_ofByte b, h]
    rfl
  · rintro rfl
    rfl

theorem ofByte_toByte_ofByte (b : UInt8) : ofByte (ofByte b).toByte = ofByte b := by
  rw [toByte_ofByte]

end ValueTag

namespace Entry

variable (e : Entry)

theorem toByte_tag_value : e.value.tag.toByte = e.tag := by
  rw [value, Value.tag_ofPayload (ValueTag.ofByte_toByte_ofByte e.tag), ValueTag.toByte_ofByte]

theorem isNarrow_iff : e.isNarrow ↔ e.tag = 0x08 ∧ e.payload.length = 1 := by
  simp [isNarrow]

/-- An entry is written as it was read, unless it is insets in one byte. -/
theorem toBytes_value (h : ¬ e.isNarrow) : e.key :: e.value.toBytes = e.toBytes := by
  rw [isNarrow_iff, ← ValueTag.ofByte_eq_edges] at h
  have hpayload : e.value.payload = e.payload := Value.payload_ofPayload h
  rw [Value.toBytes, toByte_tag_value, hpayload, List.take_of_length_le e.fits, toBytes]

/-- Those are written in four. -/
theorem length_toBytes_value :
    (e.key :: e.value.toBytes).length = e.toBytes.length + 3 * e.isNarrow.toNat := by
  by_cases h : e.isNarrow
  · obtain ⟨htag, hlength⟩ := e.isNarrow_iff.mp h
    obtain ⟨b, hb⟩ := List.length_eq_one_iff.mp hlength
    have hvalue : e.value = .edges (.uniform b.toUInt16) := by
      rw [value, htag, hb]
      rfl
    rw [hvalue, toBytes, hb, h]
    rfl
  · rw [e.toBytes_value h, Bool.eq_false_iff.mpr h]
    rfl

/-- What an entry says is in normal form. -/
theorem normal_value : e.value.normal = e.value :=
  Value.normal_ofPayload (ValueTag.ofByte_toByte_ofByte e.tag) e.fits

theorem normal_property : e.property.normal = e.property := by
  rw [Property.normal, property, Attribute.toByte_ofByte, normal_value]

theorem normal_custom : e.custom.normal = e.custom := by
  rw [Custom.normal, custom, normal_value]

theorem toBytes_property (h : ¬ e.isNarrow) :
    e.property.target.toByte :: e.property.value.toBytes = e.toBytes := by
  rw [← e.toBytes_value h, property, Attribute.toByte_ofByte]

/-- Counting in the bytes of entries counts the entries. -/
theorem narrowEntries_flatMap (es : List Entry) (rest : List UInt8) :
    Record.narrowEntries es.length (es.flatMap toBytes ++ rest) = es.countP isNarrow := by
  induction es with
  | nil =>
    rw [List.length_nil, List.countP_nil]
    unfold Record.narrowEntries
    rfl
  | cons e es ih =>
    have hsize : UInt8.ofNat e.payload.length = 1 ↔ e.payload.length = 1 := by
      rw [← UInt8.toNat_inj, e.toNat_size]
      rfl
    have hdrop : (e.payload ++ (es.flatMap toBytes ++ rest)).drop
        (UInt8.ofNat e.payload.length).toNat = es.flatMap toBytes ++ rest := by
      rw [e.toNat_size, List.drop_left]
    rw [List.flatMap_cons, List.append_assoc, toBytes, List.length_cons]
    simp only [List.cons_append, Record.narrowEntries, hdrop, ih, hsize, List.countP_cons,
      e.isNarrow_iff]
    omega

end Entry

/-! ## What a reader has taken -/

namespace Reader

variable {α β : Type}

/-- Whatever the reader makes, it has taken bytes for it that are as
`made` says, and left the rest. -/
def Reads (r : Reader α) (made : List UInt8 → α → Prop) : Prop :=
  ∀ c a c', r c = .ok a c' →
    ∃ taken, c.rest = taken ++ c'.rest ∧ c'.offset = c.offset + taken.length ∧ made taken a

namespace Reads

variable {made : List UInt8 → α → Prop} {r : Reader α}

theorem pure {a : α} (h : made [] a) : Reads (pure a) made := by
  rintro c _ _ ⟨⟩
  exact ⟨[], rfl, rfl, h⟩

/-- What comes after is told from what was taken first. -/
theorem bind {made' : List UInt8 → β → Prop} {next : α → Reader β} (h : Reads r made)
    (hnext : ∀ first a, made first a → Reads (next a) fun taken b => made' (first ++ taken) b) :
    Reads (r >>= next) made' := by
  intro c b c' hb
  obtain ⟨a, c₁, ha, hb⟩ := bind_eq_ok hb
  obtain ⟨first, hfirst, hoffset, hmade⟩ := h c a c₁ ha
  obtain ⟨taken, htaken, hoffset', hmade'⟩ := hnext first a hmade c₁ b c' hb
  refine ⟨first ++ taken, ?_, ?_, hmade'⟩
  · rw [hfirst, htaken, List.append_assoc]
  · rw [hoffset', hoffset, List.length_append, Nat.add_assoc]

theorem mono {made' : List UInt8 → α → Prop} (h : Reads r made)
    (hmono : ∀ taken a, made taken a → made' taken a) : Reads r made' := by
  intro c a c' ha
  obtain ⟨taken, htaken, hoffset, hmade⟩ := h c a c' ha
  exact ⟨taken, htaken, hoffset, hmono taken a hmade⟩

theorem bytes (n : Nat) : Reads (bytes n) fun taken a => taken = a ∧ a.length = n := by
  intro c a c' h
  rw [Reader.bytes, Cursor.remaining] at h
  split at h
  next => cases h
  next hlong =>
    cases h
    have hlength : (c.rest.take n).length = n := by
      rw [List.length_take]
      omega
    exact ⟨c.rest.take n, (List.take_append_drop n c.rest).symm, congrArg (c.offset + ·) hlength.symm,
      rfl, hlength⟩

theorem byte : Reads byte fun taken b => taken = [b] := by
  refine (bytes 1).bind fun first a ⟨hfirst, hlength⟩ => .pure ?_
  obtain ⟨b, rfl⟩ := List.length_eq_one_iff.mp hlength
  rw [hfirst]
  rfl

theorem word : Reads word fun taken n => taken = Word.toBytes n := by
  refine (bytes 2).bind fun first a ⟨hfirst, hlength⟩ => ?_
  obtain ⟨low, high, rfl⟩ := List.length_eq_two.mp hlength
  refine .pure ?_
  rw [hfirst, Word.toBytes_ofBytes]
  rfl

/-- A table was taken entry by entry. -/
theorem times {γ : Type} {item : Reader α} {write : γ → List UInt8} {f : γ → α}
    (h : Reads item fun taken a => ∃ x, taken = write x ∧ a = f x) (n : Nat) :
    Reads (Reader.times n item) fun taken l =>
      ∃ xs : List γ, xs.length = n ∧ taken = xs.flatMap write ∧ l = xs.map f := by
  induction n with
  | zero => exact .pure ⟨[], rfl, rfl, rfl⟩
  | succ n ih =>
    refine h.bind fun first a ⟨x, hfirst, ha⟩ => ih.bind ?_
    rintro others l ⟨xs, hlength, hothers, hl⟩
    refine .pure ⟨x :: xs, congrArg Nat.succ hlength, ?_, ?_⟩
    · rw [hfirst, hothers, List.append_nil, List.flatMap_cons]
    · rw [ha, hl, List.map_cons]

theorem times_self {item : Reader α} {write : α → List UInt8}
    (h : Reads item fun taken a => taken = write a) (n : Nat) :
    Reads (Reader.times n item) fun taken l => l.length = n ∧ taken = l.flatMap write := by
  refine (times (f := id) (h.mono fun taken a hw => ⟨a, hw, rfl⟩) n).mono ?_
  rintro taken l ⟨xs, hlength, htaken, rfl⟩
  rw [List.map_id]
  exact ⟨hlength, htaken⟩

end Reads

/-- An entry is a key in front of a value. -/
theorem reads_entry {make : UInt8 → Value → α} :
    Reads (do let key ← byte; let v ← value; return make key v) fun taken a =>
      ∃ e : Entry, taken = e.toBytes ∧ a = make e.key e.value := by
  refine Reads.byte.bind fun _ key hkey => ?_
  have hvalue : Reads value fun taken v => ∃ e : Entry, key :: taken = e.toBytes ∧
      e.key = key ∧ v = e.value := by
    refine Reads.byte.bind fun _ tag htag => Reads.byte.bind fun _ size hsize => ?_
    refine (Reads.bytes size.toNat).bind fun _ payload ⟨hpayload, hlength⟩ => .pure ?_
    have hfits : payload.length ≤ Record.countLimit := by
      rw [hlength]
      exact Nat.le_of_lt_succ size.toNat_lt
    refine ⟨⟨key, tag, payload, hfits⟩, ?_, rfl, rfl⟩
    rw [htag, hsize, hpayload, Entry.toBytes, hlength, UInt8.ofNat_toNat, List.append_nil]
    rfl
  refine hvalue.bind fun _ v ⟨e, htaken, hkey', hv⟩ => .pure ⟨e, ?_, ?_⟩
  · rw [hkey, ← htaken, List.append_nil]
    rfl
  · rw [hkey', hv]

theorem reads_property : Reads property fun taken p =>
    ∃ e : Entry, taken = e.toBytes ∧ p = e.property := reads_entry

theorem reads_custom : Reads custom fun taken c =>
    ∃ e : Entry, taken = e.toBytes ∧ c = e.custom := reads_entry

theorem reads_trigger : Reads trigger fun taken t => taken = [t.event, t.callback] := by
  refine Reads.byte.bind fun _ event hevent => Reads.byte.bind fun _ callback hcallback => .pure ?_
  rw [hevent, hcallback]
  rfl

/-- Every byte is the byte of some widget, so no header is lost. -/
theorem reads_header : Reads header fun taken h => taken = h.toBytes ∧ h.normal = h := by
  refine Reads.byte.bind fun _ widget hwidget => Reads.byte.bind fun _ nameIndex hname => ?_
  refine Reads.word.bind fun _ x hx => Reads.word.bind fun _ y hy => ?_
  refine Reads.word.bind fun _ width hwidth => Reads.word.bind fun _ height hheight => ?_
  refine Reads.byte.bind fun _ layout hlayout => Reads.byte.bind fun _ styleId hstyle => ?_
  refine .pure ⟨?_, ?_⟩
  · rw [hwidget, hname, hx, hy, hwidth, hheight, hlayout, hstyle, Header.toBytes,
      Widget.toByte_ofByte]
    rfl
  · rw [Header.normal, Widget.toByte_ofByte]

end Reader

/-! ## Spellings -/

/-- The bytes of a record field by field, the values not interpreted. Each
table has a length that its count can say. -/
structure Spelling where
  header : Header
  properties : List Entry
  customs : List Entry
  triggers : List Trigger
  childRefs : List UInt16
  known : header.normal = header
  properties_fit : properties.length ≤ Record.countLimit
  customs_fit : customs.length ≤ Record.countLimit
  triggers_fit : triggers.length ≤ Record.countLimit
  childRefs_fit : childRefs.length ≤ Record.countLimit

namespace Spelling

variable (s : Spelling)

/-- What the spelling says. -/
def record : Record :=
  { header := s.header
    properties := s.properties.map Entry.property
    customs := s.customs.map Entry.custom
    triggers := s.triggers
    childRefs := s.childRefs }

def toBytes : List UInt8 :=
  s.header.toBytes
    ++ [UInt8.ofNat s.properties.length, UInt8.ofNat s.childRefs.length,
        UInt8.ofNat s.triggers.length, UInt8.ofNat s.customs.length]
    ++ s.properties.flatMap Entry.toBytes ++ s.customs.flatMap Entry.toBytes
    ++ s.triggers.flatMap (fun t => [t.event, t.callback]) ++ s.childRefs.flatMap Word.toBytes

/-- How many of its insets are in one byte. -/
def narrow : Nat := s.properties.countP Entry.isNarrow + s.customs.countP Entry.isNarrow

theorem toNat_count {α : Type} {l : List α} (h : l.length ≤ Record.countLimit) :
    (UInt8.ofNat l.length).toNat = l.length := by
  rw [UInt8.toNat_ofNat']
  exact Nat.mod_eq_of_lt (Nat.lt_succ_of_le h)

theorem narrowInsets_toBytes : Record.narrowInsets s.toBytes = s.narrow := by
  have hdrop : s.toBytes.drop Record.headerSize =
      (s.properties ++ s.customs).flatMap Entry.toBytes
        ++ (s.triggers.flatMap (fun t => [t.event, t.callback])
          ++ s.childRefs.flatMap Word.toBytes) := by
    rw [List.flatMap_append]
    simp only [toBytes, List.append_assoc]
    rfl
  have hproperties : s.toBytes.getD 12 0 = UInt8.ofNat s.properties.length := by
    simp only [toBytes, List.append_assoc]
    rfl
  have hcustoms : s.toBytes.getD 15 0 = UInt8.ofNat s.customs.length := by
    simp only [toBytes, List.append_assoc]
    rfl
  rw [Record.narrowInsets, hdrop, hproperties, hcustoms, toNat_count s.properties_fit,
    toNat_count s.customs_fit, ← List.length_append, Entry.narrowEntries_flatMap,
    List.countP_append, narrow]

/-- A record that was read is in normal form. -/
theorem normal_record : s.record.normal = s.record := by
  have hproperties : (s.properties.map Entry.property).map Property.normal =
      s.properties.map Entry.property := by
    rw [List.map_map]
    exact List.map_congr_left fun e _ => e.normal_property
  have hcustoms : (s.customs.map Entry.custom).map Custom.normal = s.customs.map Entry.custom := by
    rw [List.map_map]
    exact List.map_congr_left fun e _ => e.normal_custom
  simp only [Record.normal, record, s.known, List.take_of_length_le, List.length_map,
    s.properties_fit, s.customs_fit, s.triggers_fit, s.childRefs_fit, hproperties, hcustoms]

theorem clipped_record : s.record.clipped = s.record := by
  simp only [Record.clipped, record, List.take_of_length_le, List.length_map, s.properties_fit,
    s.customs_fit, s.triggers_fit, s.childRefs_fit]

/-- The bytes of the entries when they are written again. -/
theorem length_rewritten (es : List Entry) {w : Entry → List UInt8}
    (h : ∀ e : Entry, (w e).length = e.toBytes.length + 3 * e.isNarrow.toNat) :
    (es.flatMap w).length = (es.flatMap Entry.toBytes).length + 3 * es.countP Entry.isNarrow := by
  induction es with
  | nil => rfl
  | cons e es ih =>
    rw [List.flatMap_cons, List.flatMap_cons, List.length_append, List.length_append, ih, h,
      List.countP_cons]
    cases e.isNarrow <;> simp <;> omega

/-- Insets that were read from one byte take three more when they are
written. -/
theorem length_toBytes_record : s.record.toBytes.length = s.toBytes.length + 3 * s.narrow := by
  have hproperties := length_rewritten s.properties
    (w := fun e => e.property.target.toByte :: e.property.value.toBytes)
    fun e => e.length_toBytes_value
  have hcustoms := length_rewritten s.customs
    (w := fun e => e.custom.key :: e.custom.value.toBytes) fun e => e.length_toBytes_value
  rw [Record.toBytes, clipped_record, record, toBytes, narrow]
  simp only [List.flatMap_map, List.length_append, List.length_map, hproperties, hcustoms]
  omega

/-- All else is written as it was read. -/
theorem toBytes_record (h : s.narrow = 0) : s.record.toBytes = s.toBytes := by
  obtain ⟨hproperties, hcustoms⟩ := Nat.add_eq_zero_iff.mp h
  rw [List.countP_eq_zero] at hproperties hcustoms
  have hproperties' : s.properties.flatMap
      (fun e => e.property.target.toByte :: e.property.value.toBytes) =
        s.properties.flatMap Entry.toBytes :=
    List.flatMap_congr fun e he => e.toBytes_property (hproperties e he)
  have hcustoms' : s.customs.flatMap (fun e => e.custom.key :: e.custom.value.toBytes) =
      s.customs.flatMap Entry.toBytes :=
    List.flatMap_congr fun e he => e.toBytes_value (hcustoms e he)
  rw [Record.toBytes, clipped_record, record, toBytes]
  simp only [List.flatMap_map, List.length_map, hproperties', hcustoms']

end Spelling

/-- A record is read from a spelling of it. -/
theorem Reader.reads_record : Reads record fun taken r =>
    ∃ s : Spelling, taken = s.toBytes ∧ r = s.record := by
  refine reads_header.bind fun _ h ⟨hheader, hknown⟩ => ?_
  refine Reads.byte.bind fun _ propertyCount hp => Reads.byte.bind fun _ childCount hc => ?_
  refine Reads.byte.bind fun _ triggerCount ht => Reads.byte.bind fun _ customCount hu => ?_
  refine (reads_property.times _).bind fun _ _ ⟨ps, hps, hptaken, hproperties⟩ => ?_
  refine (reads_custom.times _).bind fun _ _ ⟨us, hus, hutaken, hcustoms⟩ => ?_
  refine (reads_trigger.times_self _).bind fun _ ts ⟨hts, httaken⟩ => ?_
  refine (Reads.word.times_self _).bind fun _ cs ⟨hcs, hctaken⟩ => .pure ?_
  have hfit {n : UInt8} {k : Nat} (hk : k = n.toNat) : k ≤ Record.countLimit :=
    hk ▸ Nat.le_of_lt_succ n.toNat_lt
  refine ⟨⟨h, ps, us, ts, cs, hknown, hfit hps, hfit hus, hfit hts, hfit hcs⟩, ?_, ?_⟩
  · simp only [Spelling.toBytes]
    simp only [hheader, hp, hc, ht, hu, hptaken, hutaken, httaken, hctaken, hps, hus, hts, hcs,
      UInt8.ofNat_toNat, List.append_assoc, List.append_nil, List.cons_append, List.nil_append]
  · rw [Spelling.record, hproperties, hcustoms]

namespace Record

/-! ## Reading, then writing -/

/-- Whatever bytes a record was read from, writing it gives them back
exactly if none of its insets is in one byte there. In any case that takes
three bytes more for each such, and reads as the same record again. -/
theorem toBytes_read {bytes : List UInt8} {start : Nat} {r : Record} {after : Cursor}
    (h : Reader.record (.startingAt bytes start) = .ok r after) :
    let taken := (bytes.drop start).take (after.offset - start)
    after = .startingAt bytes (start + taken.length) ∧
      (r.toBytes = taken ↔ narrowInsets taken = 0) ∧
      r.wireSize = taken.length + 3 * narrowInsets taken ∧
      ∀ pre suf, let written := pre ++ r.toBytes ++ suf
        Reader.record (.startingAt written pre.length) =
          .ok r (.startingAt written (pre.length + r.toBytes.length)) := by
  obtain ⟨taken, hrest, hoffset, s, hspelled, rfl⟩ := Reader.reads_record _ r after h
  have hlength : after.offset - start = taken.length := by
    rw [hoffset]
    exact Nat.add_sub_cancel_left ..
  have htaken : (bytes.drop start).take (after.offset - start) = taken := by
    rw [hlength, show bytes.drop start = taken ++ after.rest from hrest, List.take_left]
  have hsize : s.record.wireSize = taken.length + 3 * narrowInsets taken := by
    rw [← s.record.length_toBytes, hspelled, s.narrowInsets_toBytes, s.length_toBytes_record]
  rw [htaken]
  refine ⟨?_, ⟨fun hsame => ?_, fun hnone => ?_⟩, hsize, fun pre suf => ?_⟩
  · rw [Cursor.startingAt, ← List.drop_drop, show bytes.drop start = taken ++ after.rest from hrest,
      List.drop_left]
    exact congrArg (Cursor.mk · after.rest) hoffset
  · rw [← s.record.length_toBytes, hsame] at hsize
    omega
  · rw [hspelled, s.narrowInsets_toBytes] at hnone
    rw [s.toBytes_record hnone, hspelled]
  · exact (read_toBytes s.record pre suf).2.2.2 s.normal_record

/-- A container whose padding is 5 on all edges, behind a byte that is not
part of it. The padding is written in one byte and its custom in four. -/
def padded : List UInt8 :=
  [0xFF, 0x01, 0, 0, 0, 0, 0, 0, 0, 0, 0, 0, 0, 1, 0, 0, 1]
    ++ [0x06, 0x08, 1, 5] ++ [7, 0x08, 4, 1, 2, 3, 4]

/-- Only its padding counts, and makes it three bytes longer. -/
theorem padded_widens : ∃ r after,
    Reader.record (.startingAt padded 1) = .ok r after ∧
      narrowInsets (padded.drop 1) = 1 ∧ r.toBytes ≠ padded.drop 1 ∧
      r.wireSize = (padded.drop 1).length + 3 := by
  have hread : ∃ r after, Reader.record (.startingAt padded 1) = .ok r after ∧ after.offset = 28 :=
    ⟨_, _, rfl, rfl⟩
  obtain ⟨r, after, h, hoffset⟩ := hread
  have hwritten := toBytes_read h
  rw [hoffset] at hwritten
  have hnarrow : narrowInsets (padded.drop 1) = 1 := rfl
  refine ⟨r, after, h, hnarrow, fun hsame => ?_, hwritten.2.2.1⟩
  exact absurd (hwritten.2.1.mp hsame) (by decide)

end Record

end SceneTree
