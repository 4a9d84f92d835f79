import Mathlib
import SceneTree.Document.Builder
import SceneTree.Proofs.Document.RoundTrip

/-!
# Where the records of a built document begin

Records that are written one after another are read back one after
another, each from where it was written (`Record.readAll_flatMap`). A
builder works those places out before the references to children are
known: it reserves room for one reference per link. A link that no
reference can express is dropped afterwards, and then the record is
shorter than the room it was given.

So the offsets of a built document are those of its bytes exactly if every
record fills its room, the last one apart, which nothing follows
(`Builder.offsets_eq_packed_iff`). A link to an earlier element is enough
to break that (`Builder.backward_link_shifts`).
-/

namespace SceneTree

/-! ## Runs of records -/

namespace Record

variable {start n : Nat} {sizes sizes' : List Nat}

theorem length_offsetsFrom (start : Nat) (sizes : List Nat) :
    (offsetsFrom start sizes).length = sizes.length := by
  induction sizes generalizing start with
  | nil => rfl
  | cons size sizes ih => rw [offsetsFrom, List.length_cons, ih, List.length_cons]

/-- The offsets tell all sizes but the last. -/
theorem offsetsFrom_eq_iff (hlength : sizes.length = sizes'.length) :
    offsetsFrom start sizes = offsetsFrom start sizes' ↔
      ∀ i, i + 1 < sizes.length → sizes[i]? = sizes'[i]? := by
  induction sizes generalizing start sizes' with
  | nil =>
    obtain rfl := List.length_eq_zero_iff.mp hlength.symm
    simp
  | cons size rest ih =>
    cases sizes' with
    | nil => cases hlength
    | cons size' rest' =>
      have hrest : rest.length = rest'.length := Nat.succ.inj hlength
      simp only [offsetsFrom, List.cons.injEq, true_and]
      cases rest with
      | nil =>
        obtain rfl := List.length_eq_zero_iff.mp hrest.symm
        simp [offsetsFrom]
      | cons next rest =>
        constructor
        · intro hoffsets i hi
          have hsize : size = size' := by
            cases rest' with
            | nil => cases hrest
            | cons next' rest' =>
              have hfirst := (List.cons.inj hoffsets).1
              omega
          subst hsize
          cases i with
          | zero => rfl
          | succ i => exact (ih hrest).mp hoffsets i (Nat.succ_lt_succ_iff.mp hi)
        · intro hsizes
          have hsize : size = size' := by simpa using hsizes 0 (by simp)
          rw [hsize]
          exact (ih hrest).mpr fun i hi => by simpa using hsizes (i + 1) (Nat.succ_lt_succ hi)

/-- References take two bytes each, as far as their count can say. -/
theorem wireSize_withRefs (r : Record) (refs : List UInt16) :
    { r with childRefs := refs }.wireSize =
      { r with childRefs := [] }.wireSize + 2 * min refs.length countLimit := by
  unfold wireSize
  simp

theorem headerSize_le_wireSize (r : Record) : headerSize ≤ r.wireSize := by
  unfold wireSize
  simp only [Nat.add_assoc]
  exact Nat.le_add_right _ _

/-- Records written one after another are read back in their normal forms,
each from where it begins. -/
theorem recordsWithin_flatMap (records : List Record) (hn : records.length ≤ n) (start : Nat) :
    ∃ c, Reader.recordsWithin n ⟨start, records.flatMap toBytes⟩ =
      .ok ((offsetsFrom start (records.map wireSize)).zip (records.map normal)) c := by
  induction records generalizing n start with
  | nil =>
    cases n with
    | zero => exact ⟨_, rfl⟩
    | succ n => exact ⟨_, rfl⟩
  | cons r records ih =>
    obtain ⟨n, rfl⟩ : ∃ m, n = m + 1 := ⟨n - 1, by rw [List.length_cons] at hn; omega⟩
    have hread : Reader.record ⟨start, r.toBytes ++ records.flatMap toBytes⟩ =
        .ok r.normal ⟨start + r.wireSize, records.flatMap toBytes⟩ := by
      rw [← r.length_toBytes]
      exact Reader.takes_record r start _
    obtain ⟨c, hrest⟩ := ih (Nat.succ_le_succ_iff.mp hn) (start + r.wireSize)
    have hmore : (Cursor.mk start (r.toBytes ++ records.flatMap toBytes)).isEmpty = false := by
      have hpos := r.length_toBytes ▸ r.headerSize_le_wireSize
      cases hbytes : r.toBytes with
      | nil =>
        rw [hbytes] at hpos
        exact absurd hpos (by decide)
      | cons b bytes => rfl
    refine ⟨c, ?_⟩
    rw [List.flatMap_cons]
    simp only [Reader.recordsWithin, bind, EStateM.bind, get, getThe, MonadStateOf.get, EStateM.get,
      hmore, Bool.false_eq_true, if_false, hread, hrest]
    rfl

/-- A block of records is read back from its bytes, each record from where
it begins. -/
theorem readAll_flatMap (records : List Record) :
    readAll (records.flatMap toBytes) =
      .ok ((packedOffsets records).zip (records.map normal)) := by
  have hlength : records.length ≤ (records.flatMap toBytes).length := by
    rw [List.length_flatMap]
    refine le_trans (Nat.le_of_eq (List.length_map _).symm) (List.length_le_sum_of_one_le _ ?_)
    intro size hsize
    obtain ⟨r, -, rfl⟩ := List.mem_map.mp hsize
    rw [r.length_toBytes]
    exact le_trans (by decide) r.headerSize_le_wireSize
  obtain ⟨c, hread⟩ := recordsWithin_flatMap records hlength 0
  rw [readAll, Reader.runOn, Cursor.ofBytes, hread]
  rfl

end Record

/-! ## Filling references in -/

/-- A pass over a list answers once for each item. -/
theorem length_mapM_run {σ α β : Type} (f : α → StateM σ β) (l : List α) (s : σ) :
    ((l.mapM f).run s).1.length = l.length := by
  induction l generalizing s with
  | nil => rfl
  | cons a l ih =>
    rw [List.mapM_cons]
    exact congrArg Nat.succ (ih ((f a).run s).2)

namespace Outline

variable {o : Outline} {t : Tables} {i : Nat} {n : OutlineNode} {r : Record} {offsets : List Nat}

/-- The records of the drafts, without references. -/
def bare (o : Outline) (t : Tables) : List Record :=
  ((o.nodes.mapM fun n : OutlineNode => n.draft.toRecord).run t).1

/-- The room that each record is given. -/
def rooms (o : Outline) (t : Tables) : List Nat := List.zipWith reservedSize (o.bare t) o.nodes

/-- Where each record begins, if all fill their room. -/
def reserved (o : Outline) (t : Tables) : List Nat := Record.offsetsFrom 0 (o.rooms t)

/-- The records with their references. -/
def filled (o : Outline) (t : Tables) : List Record :=
  (((o.bare t).zip o.nodes).mapIdx fun i p => linkRecord (o.reserved t) i p.1 p.2).map (·.1)

theorem toRecords_run (o : Outline) (t : Tables) :
    (o.toRecords.run t).1 = (o.filled t, o.reserved t) := rfl

theorem length_bare (o : Outline) (t : Tables) : (o.bare t).length = o.nodes.length :=
  length_mapM_run ..

theorem length_rooms (o : Outline) (t : Tables) : (o.rooms t).length = o.nodes.length := by
  rw [rooms, List.length_zipWith, length_bare, Nat.min_self]

theorem length_filled (o : Outline) (t : Tables) : (o.filled t).length = o.nodes.length := by
  rw [filled, List.length_map, List.length_mapIdx, List.length_zip, length_bare, Nat.min_self]

theorem exists_bare (t : Tables) (hn : o.nodes[i]? = some n) : ∃ r, (o.bare t)[i]? = some r := by
  have hi := (List.getElem?_eq_some_iff.mp hn).1
  rw [← length_bare o t] at hi
  exact ⟨_, List.getElem?_eq_getElem hi⟩

theorem getElem?_rooms (hn : o.nodes[i]? = some n) (hr : (o.bare t)[i]? = some r) :
    (o.rooms t)[i]? = some (reservedSize r n) := by
  rw [rooms, List.getElem?_zipWith, hr, hn]

theorem getElem?_filled (hn : o.nodes[i]? = some n) (hr : (o.bare t)[i]? = some r) :
    (o.filled t)[i]? = some (linkRecord (o.reserved t) i r n).1 := by
  have hzip : ((o.bare t).zip o.nodes)[i]? = some (r, n) :=
    List.getElem?_zip_eq_some.mpr ⟨hr, hn⟩
  rw [filled, List.getElem?_map, List.getElem?_mapIdx, hzip]
  rfl

/-- Every link that a reference can express gets one; the rest is dropped. -/
theorem length_childRefs_linkRecord (offsets : List Nat) (i : Nat) (r : Record) (n : OutlineNode) :
    (linkRecord offsets i r n).1.childRefs.length =
      n.children.countP (fun child =>
        (distance? (offsets.getD i 0) (offsets.getD child 0)).isSome) + n.bareRefs.length := by
  have hkept (l : List (Nat × Option UInt16)) :
      (l.filterMap (·.2)).length = l.countP (·.2.isSome) := List.length_filterMap_eq_countP ..
  simp only [linkRecord, List.length_append, hkept, childDistances, List.countP_map]
  rfl

theorem wireSize_linkRecord (offsets : List Nat) (i : Nat) (r : Record) (n : OutlineNode) :
    (linkRecord offsets i r n).1.wireSize = { r with childRefs := [] }.wireSize +
      2 * min (linkRecord offsets i r n).1.childRefs.length Record.countLimit :=
  r.wireSize_withRefs _

theorem reservedSize_eq (r : Record) (n : OutlineNode) :
    reservedSize r n = { r with childRefs := [] }.wireSize +
      2 * min (n.children.length + n.bareRefs.length) Record.countLimit := by
  rw [reservedSize, r.wireSize_withRefs, List.length_replicate]

/-- A record fills its room if every link got a reference, or if there are
more references than can be counted anyway. -/
theorem wireSize_linkRecord_eq_iff :
    (linkRecord offsets i r n).1.wireSize = reservedSize r n ↔
      (∀ child ∈ n.children, (distance? (offsets.getD i 0) (offsets.getD child 0)).isSome) ∨
        255 ≤ (linkRecord offsets i r n).1.childRefs.length := by
  have hcount := length_childRefs_linkRecord offsets i r n
  have hle := List.countP_le_length (p := fun child =>
    (distance? (offsets.getD i 0) (offsets.getD child 0)).isSome) (l := n.children)
  rw [← List.countP_eq_length, wireSize_linkRecord, reservedSize_eq, hcount, Record.countLimit]
  omega

end Outline

namespace Builder

/-- A built document. Reading the bytes of its records gives the records in
their normal forms, each where the packed offsets have it. The offsets that
the document itself gives are those exactly if each element but the last
either has a reference for every one of its links, or 255 references at
least. -/
theorem offsets_eq_packed_iff (b : Builder) :
    let d := b.build.1
    d.records.length = b.outline.nodes.length ∧
    Record.readAll (d.records.flatMap (·.toBytes)) =
      .ok ((Record.packedOffsets d.records).zip (d.records.map (·.normal))) ∧
    (d.offsets = Record.packedOffsets d.records ↔
      ∀ i n r, b.outline.nodes[i]? = some n → d.records[i]? = some r →
        i + 1 < d.records.length →
        (∀ child ∈ n.children,
          (Outline.distance? (d.offsets.getD i 0) (d.offsets.getD child 0)).isSome) ∨
            255 ≤ r.childRefs.length) := by
  intro d
  have hbuilt : (b.outline.toRecords.run b.tables).1 = (d.records, d.offsets) := rfl
  rw [Outline.toRecords_run, Prod.mk.injEq] at hbuilt
  obtain ⟨hrecords, hoffsets⟩ := hbuilt
  rw [← hrecords, ← hoffsets]
  have hlength : (b.outline.rooms b.tables).length =
      ((b.outline.filled b.tables).map (·.wireSize)).length := by
    rw [Outline.length_rooms, List.length_map, Outline.length_filled]
  refine ⟨b.outline.length_filled b.tables, Record.readAll_flatMap _, ?_⟩
  rw [Outline.reserved, Record.packedOffsets, Record.offsetsFrom_eq_iff hlength,
    Outline.length_rooms, Outline.length_filled]
  have hroom {i : Nat} {n : OutlineNode} {r : Record} (hn : b.outline.nodes[i]? = some n)
      (hr : (b.outline.bare b.tables)[i]? = some r) :
      ((b.outline.rooms b.tables)[i]? =
        ((b.outline.filled b.tables).map (·.wireSize))[i]?) ↔
          (Outline.linkRecord (b.outline.reserved b.tables) i r n).1.wireSize =
            Outline.reservedSize r n := by
    rw [Outline.getElem?_rooms hn hr, List.getElem?_map, Outline.getElem?_filled hn hr,
      Option.map_some, Option.some_inj]
    exact eq_comm
  constructor
  · intro hsizes i n r hn hr hi
    obtain ⟨r₀, hr₀⟩ := Outline.exists_bare b.tables hn
    rw [Outline.getElem?_filled hn hr₀] at hr
    obtain rfl := Option.some.inj hr
    exact Outline.wireSize_linkRecord_eq_iff.mp ((hroom hn hr₀).mp (hsizes i hi))
  · intro hreached i hi
    have hn := List.getElem?_eq_getElem (Nat.lt_of_succ_lt hi)
    obtain ⟨r₀, hr₀⟩ := Outline.exists_bare b.tables hn
    refine (hroom hn hr₀).mpr (Outline.wireSize_linkRecord_eq_iff.mpr ?_)
    exact hreached i _ _ hn (Outline.getElem?_filled hn hr₀) hi

/-- Three containers, of which the second is told to hold the first. The
link leaves no reference, but the third begins behind the room for one. -/
theorem backward_link_shifts :
    let (_, one) := blank.push .container none
    let (_, two) := one.push .container none
    let (_, three) := (two.link 1 0).push .container none
    three.build.1.offsets = [0, 16, 34] ∧
      Record.packedOffsets three.build.1.records = [0, 16, 32] := by
  decide

end Builder

end SceneTree
