import Mathlib
import SceneTree.Proofs.Document.Packed
import SceneTree.Proofs.Document.Pushes

/-!
# Short blocks lose no reference

A reference says at most 65535. One that would have to say more is dropped,
and then the block is shorter than the rooms of its records, so it is not
at once clear that a block of 65535 bytes has dropped none.

It has not. A reference is dropped only if the room of the child begins
behind 65535. In a pushed tree a child has one parent at most, so for each
such child the block is two bytes shorter, while the record of the child
takes sixteen itself: behind the bound there is room for all that is
missing (`Pushes.Ordered.reserved_lt`). Then the records fill their rooms,
and the references say where the children begin.
-/

namespace SceneTree

/-! ## Places behind a bound -/

namespace Record

variable {start bound offset : Nat} {sizes : List Nat}

theorem le_of_mem_offsetsFrom (h : offset ∈ offsetsFrom start sizes) : start ≤ offset := by
  induction sizes generalizing start with
  | nil => exact absurd h List.not_mem_nil
  | cons size sizes ih =>
    rcases List.mem_cons.mp h with rfl | h
    · exact Nat.le_refl _
    · exact Nat.le_trans (Nat.le_add_right _ _) (ih h)

theorem offsetsFrom_increasing (h : ∀ size ∈ sizes, 0 < size) :
    (offsetsFrom start sizes).Pairwise (· < ·) := by
  induction sizes generalizing start with
  | nil => exact .nil
  | cons size sizes ih =>
    obtain ⟨hsize, hsizes⟩ := List.forall_mem_cons.mp h
    refine List.pairwise_cons.mpr ⟨fun offset ho => ?_, ih hsizes⟩
    have hle := le_of_mem_offsetsFrom ho
    omega

/-- What begins behind a bound also ends there, so it fits between the
bound and the end. -/
theorem countP_offsetsFrom_le (h : ∀ size ∈ sizes, headerSize ≤ size) :
    headerSize * (offsetsFrom start sizes).countP (bound ≤ ·) ≤ start + sizes.sum - bound := by
  induction sizes generalizing start with
  | nil => exact Nat.zero_le _
  | cons size sizes ih =>
    obtain ⟨hsize, hsizes⟩ := List.forall_mem_cons.mp h
    have hrest : headerSize * (offsetsFrom (start + size) sizes).countP (bound ≤ ·) ≤
        start + size + sizes.sum - bound := ih hsizes
    rw [offsetsFrom, List.countP_cons, List.sum_cons]
    by_cases hstart : bound ≤ start
    · -- all of them begin there
      have hall : headerSize * sizes.length ≤ sizes.sum := by
        rw [Nat.mul_comm]
        exact List.card_nsmul_le_sum sizes headerSize hsizes
      have hcount := (offsetsFrom (start + size) sizes).countP_le_length (p := (bound ≤ ·))
      rw [length_offsetsFrom] at hcount
      have hcount := Nat.mul_le_mul_left headerSize hcount
      rw [if_pos (decide_eq_true hstart), Nat.mul_succ]
      omega
    · rw [if_neg (by simpa using hstart), Nat.add_zero]
      omega

end Record

/-! ## One record -/

namespace Outline

variable {base target i : Nat} {n : OutlineNode} {r : Record} {offsets : List Nat}

theorem distance?_of_lt (h : base ≤ target) (hfits : target < 0x10000) :
    distance? base target = some (UInt16.ofNat (target - base)) :=
  if_pos ⟨h, by omega⟩

/-- A distance forward is only too long if it ends behind the bound. -/
theorem le_of_distance?_eq_none (h : base ≤ target) (hnone : distance? base target = none) :
    0x10000 ≤ target := by
  by_contra hlt
  rw [distance?_of_lt h (Nat.not_le.mp hlt)] at hnone
  cases hnone

/-- A record that refers forward falls short of its room by two bytes for
each child that is behind the bound. -/
theorem reservedSize_le (hbare : n.bareRefs = []) (hfew : n.children.length ≤ 255)
    (hforward : ∀ child ∈ n.children, offsets.getD i 0 ≤ offsets.getD child 0) :
    reservedSize r n ≤ (linkRecord offsets i r n).1.wireSize +
      2 * n.children.countP (fun child => 0x10000 ≤ offsets.getD child 0) := by
  have hsplit := n.children.length_eq_countP_add_countP
    (p := fun child => (distance? (offsets.getD i 0) (offsets.getD child 0)).isSome)
  have hlost := List.countP_mono_left (l := n.children)
    (p := fun child => ¬ (distance? (offsets.getD i 0) (offsets.getD child 0)).isSome)
    (q := fun child => 0x10000 ≤ offsets.getD child 0) (by
      intro child hchild hnone
      rw [decide_eq_true_iff, Option.not_isSome_iff_eq_none] at hnone
      exact decide_eq_true (le_of_distance?_eq_none (hforward child hchild) hnone))
  rw [reservedSize_eq, wireSize_linkRecord, length_childRefs_linkRecord, hbare,
    List.length_nil, Nat.add_zero, Nat.add_zero]
  rw [Record.countLimit]
  omega

/-- A record whose children all begin before the bound refers to each. -/
theorem childRefs_linkRecord (hbare : n.bareRefs = [])
    (hforward : ∀ child ∈ n.children, offsets.getD i 0 ≤ offsets.getD child 0)
    (hfits : ∀ child ∈ n.children, offsets.getD child 0 < 0x10000) :
    (linkRecord offsets i r n).1.childRefs =
      n.children.map fun child => UInt16.ofNat (offsets.getD child 0 - offsets.getD i 0) := by
  show (childDistances offsets i n).filterMap (·.2) ++ n.bareRefs = _
  rw [childDistances, List.filterMap_map, hbare, List.append_nil, ← List.filterMap_eq_map]
  apply List.filterMap_congr
  intro child hchild
  exact distance?_of_lt (hforward child hchild) (hfits child hchild)

end Outline

/-! ## All records -/

/-- A list by its places. -/
theorem eq_map_getD (l : List Nat) : l = (List.range l.length).map (l.getD · 0) := by
  apply List.ext_getElem (by simp)
  intro i hi _
  simp [List.getD_eq_getElem?_getD, List.getElem?_eq_getElem hi]

namespace Pushes

variable {ps : Pushes} {t : Tables} {i c : Nat} {r : Record}

theorem Ordered.length_nodes (h : ps.Ordered) : ps.outline.nodes.length = ps.length := by
  rw [h.nodes_outline.2, List.length_mapIdx]

/-- What stands at a place of the outline and of its records. -/
theorem Ordered.exists_record (h : ps.Ordered) (t : Tables) (hi : i < ps.length) :
    ∃ n r, n.children = ps.children i ∧ n.bareRefs = [] ∧ (ps.outline.bare t)[i]? = some r ∧
      (ps.outline.rooms t)[i]? = some (Outline.reservedSize r n) ∧
      (ps.outline.filled t)[i]? = some (Outline.linkRecord (ps.outline.reserved t) i r n).1 := by
  have hn : ps.outline.nodes[i]? = some ⟨ps[i].1, ps.children i, []⟩ := by
    rw [h.nodes_outline.2, List.getElem?_mapIdx, List.getElem?_eq_getElem hi]
    rfl
  obtain ⟨r, hr⟩ := Outline.exists_bare t hn
  exact ⟨_, r, rfl, rfl, hr, Outline.getElem?_rooms hn hr, Outline.getElem?_filled hn hr⟩

/-- Every room has a header. -/
theorem headerSize_le_rooms (ps : Pushes) (t : Tables) :
    ∀ size ∈ ps.outline.rooms t, Record.headerSize ≤ size := by
  intro size hsize
  obtain ⟨i, hi, rfl⟩ := List.mem_iff_getElem.mp hsize
  rw [Outline.length_rooms] at hi
  obtain ⟨r, hr⟩ := Outline.exists_bare t (List.getElem?_eq_getElem hi)
  have hroom := Outline.getElem?_rooms (List.getElem?_eq_getElem hi) hr
  rw [(List.getElem?_eq_some_iff.mp hroom).2]
  exact Record.headerSize_le_wireSize _

theorem reserved_increasing (ps : Pushes) (t : Tables) :
    (ps.outline.reserved t).Pairwise (· < ·) :=
  Record.offsetsFrom_increasing fun size hsize =>
    Nat.lt_of_lt_of_le (by decide) (ps.headerSize_le_rooms t size hsize)

theorem Ordered.length_reserved (h : ps.Ordered) (t : Tables) :
    (ps.outline.reserved t).length = ps.length := by
  rw [Outline.reserved, Record.length_offsetsFrom, Outline.length_rooms, h.length_nodes]

/-- A child begins behind its parent. -/
theorem Ordered.getD_reserved_le (h : ps.Ordered) (t : Tables) (hc : c ∈ ps.children i) :
    (ps.outline.reserved t).getD i 0 ≤ (ps.outline.reserved t).getD c 0 := by
  have hp := mem_children.mp hc
  have hlt := h c i hp
  have hc := h.length_reserved t ▸ lt_of_parent? hp
  have hpair := List.pairwise_iff_getElem.mp (ps.reserved_increasing t) i c
    (Nat.lt_trans hlt hc) hc hlt
  simpa [List.getD_eq_getElem?_getD, hc, Nat.lt_trans hlt hc] using Nat.le_of_lt hpair

/-- What holds of a child holds of an element, and each is the child of one
parent at most. -/
theorem sum_countP_children_le (ps : Pushes) (p : Nat → Bool) :
    ((List.range ps.length).map fun i => (ps.children i).countP p).sum ≤
      (List.range ps.length).countP p := by
  have hsub : (List.range ps.length).flatMap ps.children ⊆ List.range ps.length := by
    intro c hc
    obtain ⟨j, -, hc⟩ := List.mem_flatMap.mp hc
    exact List.mem_range.mpr (lt_of_parent? (mem_children.mp hc))
  calc ((List.range ps.length).map fun i => (ps.children i).countP p).sum
    _ = ((List.range ps.length).flatMap ps.children).countP p := List.countP_flatMap.symm
    _ ≤ (List.range ps.length).countP p :=
      (List.subperm_of_subset (ps.map_child_edges ▸ ps.nodup_edges) hsub).countP_le p

/-- A block is shorter than its rooms by two bytes for each element behind
the bound, at most. -/
theorem Ordered.sum_rooms_le (h : ps.Ordered) (hfew : ∀ j, (ps.children j).length ≤ 255)
    (t : Tables) : (ps.outline.rooms t).sum ≤ ((ps.outline.filled t).map (·.wireSize)).sum +
      2 * (ps.outline.reserved t).countP (0x10000 ≤ ·) := by
  let offsets := ps.outline.reserved t
  let behind (c : Nat) : Bool := 0x10000 ≤ offsets.getD c 0
  let room (i : Nat) : Nat := (ps.outline.rooms t).getD i 0
  let size (i : Nat) : Nat := ((ps.outline.filled t).map (·.wireSize)).getD i 0
  have hrooms : ps.outline.rooms t = (List.range ps.length).map room := by
    conv_lhs => rw [eq_map_getD (ps.outline.rooms t), Outline.length_rooms, h.length_nodes]
  have hsizes : (ps.outline.filled t).map (·.wireSize) = (List.range ps.length).map size := by
    conv_lhs => rw [eq_map_getD ((ps.outline.filled t).map (·.wireSize)), List.length_map,
      Outline.length_filled, h.length_nodes]
  have hbehind : offsets.countP (0x10000 ≤ ·) = (List.range ps.length).countP behind := by
    conv_lhs => rw [eq_map_getD offsets, h.length_reserved, List.countP_map]
    rfl
  have hone (i : Nat) (hi : i ∈ List.range ps.length) :
      room i ≤ size i + 2 * (ps.children i).countP behind := by
    obtain ⟨n, r, hchildren, hbare, -, hroom, hfilled⟩ :=
      h.exists_record t (List.mem_range.mp hi)
    have hle : Outline.reservedSize r n ≤ (Outline.linkRecord offsets i r n).1.wireSize +
        2 * n.children.countP behind := Outline.reservedSize_le hbare (hchildren ▸ hfew i)
      fun c hc => h.getD_reserved_le t (hchildren ▸ hc)
    have hroom : room i = Outline.reservedSize r n := by
      simp only [room, List.getD_eq_getElem?_getD, hroom, Option.getD_some]
    have hsize : size i = (Outline.linkRecord offsets i r n).1.wireSize := by
      simp only [size, List.getD_eq_getElem?_getD, List.getElem?_map, hfilled, Option.map_some,
        Option.getD_some]
      rfl
    rw [hroom, hsize, ← hchildren]
    exact hle
  rw [hrooms, hsizes, hbehind]
  calc ((List.range ps.length).map room).sum
    _ ≤ ((List.range ps.length).map fun i =>
          size i + 2 * (ps.children i).countP behind).sum := List.sum_le_sum hone
    _ = ((List.range ps.length).map size).sum +
          2 * ((List.range ps.length).map fun i => (ps.children i).countP behind).sum := by
      rw [List.sum_map_add, List.sum_map_mul_left]
    _ ≤ _ := Nat.add_le_add_left (Nat.mul_le_mul_left 2 (ps.sum_countP_children_le behind)) _

section Short

variable (h : ps.Ordered) (hfew : ∀ j, (ps.children j).length ≤ 255)
  (hshort : ((ps.outline.filled t).flatMap (·.toBytes)).length ≤ 65535)

include h hfew hshort

/-- In a short block every element begins before the bound. -/
theorem Ordered.reserved_lt (c : Nat) : (ps.outline.reserved t).getD c 0 < 0x10000 := by
  have hbytes : ((ps.outline.filled t).flatMap (·.toBytes)).length =
      ((ps.outline.filled t).map (·.wireSize)).sum := by
    rw [List.length_flatMap]
    exact congrArg List.sum (List.map_congr_left fun r _ => r.length_toBytes)
  have hmissing := h.sum_rooms_le hfew t
  have hplace : Record.headerSize * (ps.outline.reserved t).countP (0x10000 ≤ ·) ≤
      0 + (ps.outline.rooms t).sum - 0x10000 :=
    Record.countP_offsetsFrom_le (ps.headerSize_le_rooms t)
  have hnone : (ps.outline.reserved t).countP (0x10000 ≤ ·) = 0 := by
    rw [Record.headerSize] at hplace
    omega
  rw [List.getD_eq_getElem?_getD]
  cases hc : (ps.outline.reserved t)[c]? with
  | none => decide
  | some offset =>
    have hbefore := List.countP_eq_zero.mp hnone offset (List.mem_of_getElem? hc)
    exact Nat.not_le.mp fun hle => hbefore (decide_eq_true hle)

/-- In a short block every element refers to all of its children. -/
theorem Ordered.childRefs_filled (hr : (ps.outline.filled t)[i]? = some r) :
    r.childRefs = (ps.children i).map fun c => UInt16.ofNat
      ((ps.outline.reserved t).getD c 0 - (ps.outline.reserved t).getD i 0) := by
  have hi := (List.getElem?_eq_some_iff.mp hr).1
  rw [Outline.length_filled, h.length_nodes] at hi
  obtain ⟨n, r₀, hchildren, hbare, -, -, hfilled⟩ := h.exists_record t hi
  obtain rfl := Option.some.inj (hfilled.symm.trans hr)
  rw [← hchildren]
  exact Outline.childRefs_linkRecord hbare
    (fun c hc => h.getD_reserved_le t (hchildren ▸ hc))
    (fun c _ => h.reserved_lt hfew hshort c)

/-- In a short block every record fills its room. -/
theorem Ordered.reserved_eq :
    ps.outline.reserved t = Record.packedOffsets (ps.outline.filled t) := by
  suffices hrooms : ps.outline.rooms t = (ps.outline.filled t).map (·.wireSize) from
    congrArg (Record.offsetsFrom 0) hrooms
  apply List.ext_getElem?
  intro i
  by_cases hi : i < ps.length
  · obtain ⟨n, r, hchildren, hbare, -, hroom, hfilled⟩ := h.exists_record t hi
    rw [hroom, List.getElem?_map, hfilled, Option.map_some, Option.some_inj, eq_comm]
    refine Outline.wireSize_linkRecord_eq_iff.mpr (.inl fun c hc => ?_)
    rw [Outline.distance?_of_lt (h.getD_reserved_le t (hchildren ▸ hc))
      (h.reserved_lt hfew hshort c)]
    rfl
  · rw [List.getElem?_eq_none, List.getElem?_eq_none]
    · rw [List.length_map, Outline.length_filled, h.length_nodes]
      exact Nat.not_lt.mp hi
    · rw [Outline.length_rooms, h.length_nodes]
      exact Nat.not_lt.mp hi

end Short

end Pushes

end SceneTree
