import SceneTree.Proofs.Document.Truncated

/-!
# Blocks one after another

A block of records is read one record after another, until the bytes end
or a record is cut short. `Reader.Through` is that walk without a bound on
its steps, and `Reader.Stops` says how it ends; every block has such a walk
and such an end, and what is read is told by them alone
(`Record.exists_through`, `Record.readAll_of_through`).

A record does not depend on where it begins or on what follows it. So a
walk can be moved and lengthened, and the walk through two blocks is the
walk through the first and then that through the second
(`Record.readAll_append`).
-/

namespace SceneTree

namespace Reader

variable {c c' c'' : Cursor} {r : Record} {e : ShortRead} {placed others : List (Nat × Record)}
  {out : Except ShortRead (List (Nat × Record))} {n : Nat}

/-! ## Walks -/

/-- Reading one record after another leads from a place to another, past
these records. -/
inductive Through : Cursor → List (Nat × Record) → Cursor → Prop
  | nil (c : Cursor) : Through c [] c
  | cons {c c' c'' : Cursor} {r : Record} {placed : List (Nat × Record)} :
    record c = .ok r c' → Through c' placed c'' → Through c ((c.offset, r) :: placed) c''

/-- The walk ends at this place: there are no more bytes, or too few for
one more record. -/
inductive Stops (c : Cursor) (placed : List (Nat × Record)) :
    Except ShortRead (List (Nat × Record)) → Prop
  | whole : c.rest = [] → Stops c placed (.ok placed)
  | short {e : ShortRead} {c' : Cursor} :
    c.rest ≠ [] → record c = .error e c' → Stops c placed (.error e)

theorem Stops.cons (h : Stops c placed out) (p : Nat × Record) :
    Stops c (p :: placed) (out.map (p :: ·)) := by
  cases h with
  | whole hrest => exact .whole hrest
  | short hrest hread => exact .short hrest hread

/-- A record takes its header at least. -/
theorem headerSize_le_of_record (h : record c = .ok r c') :
    c.offset + Record.headerSize ≤ c'.offset ∧
      c'.rest.length + Record.headerSize ≤ c.rest.length := by
  obtain ⟨taken, hrest, hoffset, s, rfl, -⟩ := reads_record c r c' h
  have hsize : Record.headerSize ≤ s.toBytes.length := by
    have hheader : s.header.toBytes.length = 12 := rfl
    simp only [Spelling.toBytes, List.length_append, List.length_cons, hheader, Record.headerSize]
    omega
  rw [hrest, hoffset, List.length_append]
  omega

namespace Through

theorem trans (h : Through c placed c') (h' : Through c' others c'') :
    Through c (placed ++ others) c'' := by
  induction h with
  | nil => exact h'
  | cons hread _ ih => exact .cons hread (ih h')

/-- More bytes behind those that were read change nothing. -/
theorem more (h : Through c placed c') (bytes : List UInt8) :
    Through ⟨c.offset, c.rest ++ bytes⟩ placed ⟨c'.offset, c'.rest ++ bytes⟩ := by
  induction h with
  | nil => exact .nil _
  | @cons c c' _ r _ hread _ ih =>
    obtain ⟨taken, hrest, hoffset, htakes⟩ := Streams.record.eq_ok hread
    have hread : record ⟨c.offset, c.rest ++ bytes⟩ = .ok r ⟨c'.offset, c'.rest ++ bytes⟩ := by
      rw [hrest, List.append_assoc, htakes, hoffset]
    exact .cons hread ih

/-- Nor does it matter how many bytes stand before. -/
theorem moved (h : Through c placed c') (n : Nat) :
    Through ⟨n + c.offset, c.rest⟩ (placed.map fun p => (n + p.1, p.2))
      ⟨n + c'.offset, c'.rest⟩ := by
  induction h with
  | nil => exact .nil _
  | @cons c c' _ r _ hread _ ih =>
    obtain ⟨taken, hrest, hoffset, htakes⟩ := Streams.record.eq_ok hread
    have hread : record ⟨n + c.offset, c.rest⟩ = .ok r ⟨n + c'.offset, c'.rest⟩ := by
      rw [hrest, htakes, hoffset, Nat.add_assoc]
    exact .cons hread ih

/-- What was passed stood before what is left. -/
theorem exists_taken (h : Through c placed c') :
    ∃ taken, c.rest = taken ++ c'.rest ∧ c'.offset = c.offset + taken.length := by
  induction h with
  | nil => exact ⟨[], rfl, rfl⟩
  | cons hread _ ih =>
    obtain ⟨first, hrest, hoffset, -⟩ := Streams.record.eq_ok hread
    obtain ⟨taken, hrest', hoffset'⟩ := ih
    refine ⟨first ++ taken, ?_, ?_⟩
    · rw [hrest, hrest', List.append_assoc]
    · rw [hoffset', hoffset, List.length_append, Nat.add_assoc]

/-- Every record of a walk is read where the records before it have led,
and leads to where those behind it are read. -/
theorem getElem? (h : Through c placed c') {i : Nat} {p : Nat × Record}
    (hi : placed[i]? = some p) : ∃ c₁ c₂, Through c (placed.take i) c₁ ∧ c₁.offset = p.1 ∧
      record c₁ = .ok p.2 c₂ ∧ Through c₂ (placed.drop (i + 1)) c' := by
  induction h generalizing i with
  | nil => cases hi
  | @cons c c₁ c' r placed hread hrest ih =>
    cases i with
    | zero =>
      obtain rfl := Option.some.inj hi
      exact ⟨c, c₁, .nil c, rfl, hread, hrest⟩
    | succ i =>
      obtain ⟨c₂, c₃, hbefore, hoffset, hread', hbehind⟩ := ih hi
      exact ⟨c₂, c₃, .cons hread hbefore, hoffset, hread', hbehind⟩

end Through

/-! ## The walk of a block -/

/-- A step depends on whether there are bytes left. -/
theorem recordsWithin_step (n : Nat) (c : Cursor) : recordsWithin (n + 1) c =
    (if c.isEmpty then return [] else do
      let first ← record
      let others ← recordsWithin n
      return (c.offset, first) :: others : Reader (List (Nat × Record))) c :=
  rfl

/-- At the end of the bytes nothing more is read. -/
theorem runOn_of_nil (h : c.rest = []) (n : Nat) : (recordsWithin n).runOn c = .ok [] := by
  have hempty : c.isEmpty = true := by simpa [Cursor.isEmpty] using h
  cases n with
  | zero => rfl
  | succ n =>
    rw [runOn, recordsWithin_step, if_pos hempty]
    rfl

/-- Before it one record is read and then the others. -/
theorem recordsWithin_succ (h : c.rest ≠ []) (n : Nat) :
    recordsWithin (n + 1) c = EStateM.bind record (fun first => do
      let others ← recordsWithin n
      return (c.offset, first) :: others) c := by
  have hmore : ¬ c.isEmpty = true := by simpa [Cursor.isEmpty] using h
  rw [recordsWithin_step, if_neg hmore]
  rfl

theorem runOn_of_error (h : c.rest ≠ []) (hread : record c = .error e c') (n : Nat) :
    (recordsWithin (n + 1)).runOn c = .error e := by
  rw [runOn, recordsWithin_succ h, EStateM.bind, hread]

theorem runOn_of_ok (hread : record c = .ok r c') (n : Nat) :
    (recordsWithin (n + 1)).runOn c =
      ((recordsWithin n).runOn c').map ((c.offset, r) :: ·) := by
  have hmore : c.rest ≠ [] := by
    intro hnil
    have hsize := (headerSize_le_of_record hread).2
    rw [hnil] at hsize
    exact absurd hsize (by simp [Record.headerSize])
  rw [runOn, runOn, recordsWithin_succ hmore, EStateM.bind, hread]
  cases hothers : recordsWithin n c' <;> simp only [bind, EStateM.bind, hothers] <;> rfl

/-- Every block has a walk that ends, and steps enough for it are as many
as there are bytes. -/
theorem exists_through (hn : c.rest.length ≤ n) :
    ∃ placed c', Through c placed c' ∧ Stops c' placed ((recordsWithin n).runOn c) := by
  induction n generalizing c with
  | zero =>
    have hrest : c.rest = [] := List.length_eq_zero_iff.mp (Nat.le_zero.mp hn)
    exact ⟨[], c, .nil c, runOn_of_nil hrest 0 ▸ .whole hrest⟩
  | succ n ih =>
    by_cases hrest : c.rest = []
    · exact ⟨[], c, .nil c, runOn_of_nil hrest _ ▸ .whole hrest⟩
    · cases hread : record c with
      | ok r c₁ =>
        have hsize := (headerSize_le_of_record hread).2
        obtain ⟨placed, c', hthrough, hstops⟩ := ih (c := c₁) (by
          rw [Record.headerSize] at hsize
          omega)
        exact ⟨_, c', .cons hread hthrough, runOn_of_ok hread n ▸ hstops.cons _⟩
      | error e c₁ => exact ⟨[], c, .nil c, runOn_of_error hrest hread n ▸ .short hrest hread⟩

/-- What is read is what the walk passes, and then what is read from where
it has come to. -/
theorem Through.runOn_eq (h : Through c placed c') (hn : c.rest.length ≤ n) :
    ∃ m, c'.rest.length ≤ m ∧ (recordsWithin n).runOn c =
      ((recordsWithin m).runOn c').map (placed ++ ·) := by
  induction h generalizing n with
  | nil c =>
    refine ⟨n, hn, ?_⟩
    cases (recordsWithin n).runOn c <;> rfl
  | @cons c c₁ c' r placed hread _ ih =>
    have hsize := (headerSize_le_of_record hread).2
    rw [Record.headerSize] at hsize
    obtain ⟨n, rfl⟩ : ∃ k, n = k + 1 := ⟨n - 1, by omega⟩
    obtain ⟨m, hm, heq⟩ := ih (n := n) (by omega)
    refine ⟨m, hm, ?_⟩
    rw [runOn_of_ok hread, heq]
    cases (recordsWithin m).runOn c' <;> rfl

/-- A walk that ends tells what is read. -/
theorem Through.runOn_of_stops (h : Through c placed c') (hstops : Stops c' placed out)
    (hn : c.rest.length ≤ n) : (recordsWithin n).runOn c = out := by
  obtain ⟨m, hm, heq⟩ := h.runOn_eq hn
  rw [heq]
  cases hstops with
  | whole hrest =>
    rw [runOn_of_nil hrest]
    exact congrArg Except.ok (List.append_nil placed)
  | short hrest hread =>
    have hpos : 0 < c'.rest.length := List.length_pos_iff.mpr hrest
    obtain ⟨m, rfl⟩ : ∃ k, m = k + 1 := ⟨m - 1, by omega⟩
    rw [runOn_of_error hrest hread]
    rfl

end Reader

namespace Record

open Reader (Through Stops)

variable {bytes more : List UInt8} {placed others : List (Nat × Record)}

theorem exists_through (bytes : List UInt8) :
    ∃ placed c, Through (.ofBytes bytes) placed c ∧ Stops c placed (readAll bytes) :=
  Reader.exists_through (Nat.le_refl _)

theorem readAll_of_through {c : Cursor} {out : Except ShortRead (List (Nat × Record))}
    (h : Through (.ofBytes bytes) placed c) (hstops : Stops c placed out) :
    readAll bytes = out := h.runOn_of_stops hstops (Nat.le_refl _)

/-- A block that is read is walked through from end to end. -/
theorem through_of_readAll (h : readAll bytes = .ok placed) :
    Through (.ofBytes bytes) placed ⟨bytes.length, []⟩ := by
  obtain ⟨placed', ⟨offset, rest⟩, hthrough, hstops⟩ := exists_through bytes
  rw [h] at hstops
  cases hstops with
  | whole hrest =>
    obtain rfl : rest = [] := hrest
    obtain ⟨taken, hbytes, hoffset⟩ := hthrough.exists_taken
    obtain rfl : bytes = taken := hbytes.trans (List.append_nil taken)
    obtain rfl : offset = bytes.length := hoffset.trans (Nat.zero_add _)
    exact hthrough

/-- A walk through a block goes on into what stands behind it. -/
theorem through_append (h : readAll bytes = .ok placed) {c : Cursor}
    (hthrough : Through (.ofBytes more) others c) :
    Through (.ofBytes (bytes ++ more))
      (placed ++ others.map fun p => (bytes.length + p.1, p.2)) ⟨bytes.length + c.offset, c.rest⟩ :=
  ((through_of_readAll h).more more).trans (hthrough.moved bytes.length)

/-! ## Where records stand -/

/-- A walk through a block comes only to places in it. -/
theorem eq_startingAt_of_through {c : Cursor} (h : Through (.ofBytes bytes) placed c) :
    c = .startingAt bytes c.offset := by
  obtain ⟨taken, hbytes, hoffset⟩ := h.exists_taken
  rw [show c.offset = taken.length from hoffset.trans (Nat.zero_add _), Cursor.startingAt,
    show bytes = taken ++ c.rest from hbytes, List.drop_left]
  exact congrArg (Cursor.mk · c.rest) (hoffset.trans (Nat.zero_add _))

/-- Where a record begins, by its number, or the end of the bytes behind
the last one. -/
def offsetAt (bytes : List UInt8) (placed : List (Nat × Record)) (i : Nat) : Nat :=
  (placed[i]?.map (·.1)).getD bytes.length

/-- A walk begins where its first record does. -/
theorem offset_of_through {c : Cursor} (h : Through c placed ⟨bytes.length, []⟩) :
    offsetAt bytes placed 0 = c.offset := by
  cases h <;> rfl

/-- The records of a block stand one behind another from its beginning to
its end, each where the one before it ends. -/
theorem offsetAt_succ (h : readAll bytes = .ok placed) {i : Nat} {p : Nat × Record}
    (hi : placed[i]? = some p) : ∃ size, headerSize ≤ size ∧
      Reader.record (.startingAt bytes p.1) = .ok p.2 (.startingAt bytes (p.1 + size)) ∧
      offsetAt bytes placed (i + 1) = p.1 + size := by
  have hwalk := through_of_readAll h
  obtain ⟨c, c', hbefore, hoffset, hread, hbehind⟩ := hwalk.getElem? hi
  have hsize := (Reader.headerSize_le_of_record hread).1
  have hnext : offsetAt bytes placed (i + 1) = c'.offset := by
    rw [← offset_of_through hbehind, offsetAt, offsetAt, List.getElem?_drop]
  have hplace := eq_startingAt_of_through (hbefore.trans (.cons hread (.nil c')))
  rw [eq_startingAt_of_through hbefore, hplace] at hread
  refine ⟨c'.offset - p.1, by omega, ?_, by omega⟩
  rw [← hoffset, Nat.add_sub_cancel' (by omega)]
  exact hread

/-- Reading a block comes to an end, and two blocks are read like each of
them. Where the first is read whole, what stands behind it is read as it is
on its own, every offset being moved by the length of the first: records if
it is read, and the same fault if it is cut short. The records of a block
that is read begin at its first byte, and each is sixteen bytes long at
least and ends where the next one begins, the last one at the end of the
block. -/
theorem readAll_append (bytes more : List UInt8) :
    (∃ placed c, Through (.ofBytes bytes) placed c ∧ Stops c placed (readAll bytes)) ∧
    ∀ placed, readAll bytes = .ok placed →
      (∀ others, readAll more = .ok others → readAll (bytes ++ more) =
        .ok (placed ++ others.map fun p => (bytes.length + p.1, p.2))) ∧
      (∀ e, readAll more = .error e →
        readAll (bytes ++ more) = .error ⟨bytes.length + e.offset, e.missing⟩) ∧
      offsetAt bytes placed 0 = 0 ∧
      ∀ i p, placed[i]? = some p → ∃ size, headerSize ≤ size ∧
        Reader.record (.startingAt bytes p.1) = .ok p.2 (.startingAt bytes (p.1 + size)) ∧
        offsetAt bytes placed (i + 1) = p.1 + size := by
  refine ⟨exists_through bytes, fun placed h => ⟨fun others hmore => ?_, fun e hmore => ?_,
    offset_of_through (through_of_readAll h), fun i p hi => offsetAt_succ h hi⟩⟩
  · exact readAll_of_through (through_append h (through_of_readAll hmore)) (.whole rfl)
  · obtain ⟨others, ⟨offset, rest⟩, hthrough, hstops⟩ := exists_through more
    rw [hmore] at hstops
    cases hstops with
    | short hrest hread =>
      obtain ⟨done, missing, hlacks, rfl, rfl⟩ := Reader.Streams.record.eq_error hread
      have hmoved := hlacks.stops (bytes.length + offset)
      rw [Nat.add_assoc] at hmoved
      exact readAll_of_through (through_append h hthrough) (.short hrest hmoved)

/-- A blank record before the padded container, whole and without its last
two bytes. -/
theorem padded_behind_blank :
    let first := blank.toBytes
    let second := padded.drop 1
    readAll first = .ok [(0, blank)] ∧
      (∃ r, readAll second = .ok [(0, r)] ∧
        readAll (first ++ second) = .ok [(0, blank), (16, r)]) ∧
      readAll (second.take 25) = .error ⟨23, 2⟩ ∧
      readAll (first ++ second.take 25) = .error ⟨39, 2⟩ := by
  intro first second
  have hfirst : readAll first = .ok [(0, blank)] := rfl
  obtain ⟨r, hsecond⟩ : ∃ r, readAll second = .ok [(0, r)] := ⟨_, rfl⟩
  have hcut : readAll (second.take 25) = .error ⟨23, 2⟩ := rfl
  exact ⟨hfirst, ⟨r, hsecond, ((readAll_append first second).2 _ hfirst).1 _ hsecond⟩, hcut,
    ((readAll_append first (second.take 25)).2 _ hfirst).2.1 _ hcut⟩

end Record

end SceneTree
