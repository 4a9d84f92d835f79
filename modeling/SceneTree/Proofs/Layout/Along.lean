import Mathlib
import SceneTree.Proofs.Layout.Lines

/-!
# Along and across a line

Where the items of a line stand, read along an axis. An item begins after
the items before it and what separates them (`getElem?_starts`), and a
reverse direction counts that from the other end (`getElem?_placeLine`).
So two items that follow one another are a gap apart at least
(`place_next`).

A flow does not always fill its content box. It does where the box has
just the room that the items ask for: then the last edge of the items is
the edge of the box, along the line (`place_fills_along`) and across it
(`place_fills_across`), whatever the direction and the alignments.
-/

namespace SceneTree

/-! ## Axes -/

/-- The two axes of a layout. -/
inductive Axis where
  | horizontal | vertical
deriving DecidableEq

def Axis.other : Axis → Axis
  | .horizontal => .vertical
  | .vertical => .horizontal

theorem Axis.eq_or (a b : Axis) : a = b ∨ a = b.other := by
  cases a <;> cases b <;> decide

/-- The axis that a direction runs along. -/
def Direction.axis : Direction → Axis
  | .row | .rowReverse => .horizontal
  | .column | .columnReverse => .vertical

def Direction.crossAxis (d : Direction) : Axis := d.axis.other

def Size.lengthOn : Axis → Size → Int
  | .horizontal, s => s.width
  | .vertical, s => s.height

namespace Rect

/-- Where a rectangle begins on an axis. -/
def startOn : Axis → Rect → Int
  | .horizontal, r => r.x
  | .vertical, r => r.y

def lengthOn : Axis → Rect → Int
  | .horizontal, r => r.width
  | .vertical, r => r.height

/-- The first place outside, on an axis. -/
def endOn (a : Axis) (r : Rect) : Int := r.startOn a + r.lengthOn a

/-- On an axis, a word holds where a rectangle begins, how long it is and
where it ends. -/
structure FitsOn (a : Axis) (r : Rect) : Prop where
  start : Word.Fits (r.startOn a)
  length : Word.Fits (r.lengthOn a)
  finish : Word.Fits (r.endOn a)

instance (a : Axis) (r : Rect) : Decidable (r.FitsOn a) :=
  decidable_of_iff
    (Word.Fits (r.startOn a) ∧ Word.Fits (r.lengthOn a) ∧ Word.Fits (r.endOn a))
    ⟨fun ⟨h₁, h₂, h₃⟩ => ⟨h₁, h₂, h₃⟩, fun h => ⟨h.start, h.length, h.finish⟩⟩

/-- No place inside wraps. -/
theorem FitsOn.wrap_add {a : Axis} {r : Rect} (h : r.FitsOn a) {offset : Int} (hoffset : 0 ≤ offset)
    (hle : offset ≤ r.lengthOn a) : Word.wrap (r.startOn a + offset) = r.startOn a + offset := by
  have hstart := h.start.1
  have hfinish := h.finish.2
  rw [endOn] at hfinish
  exact Word.wrap_of_fits ⟨by omega, by omega⟩

end Rect

/-- The size of an item across its line, if it is its own. -/
def FlowItem.ownCross (i : FlowItem) : Int := i.crossAsked.getD i.cross

namespace FlowStyle

open Word (wrap)

variable {f : FlowStyle} {content : Rect} {items : List FlowItem} {item : FlowItem}

section

variable (f) (content : Rect) (main cross length width : Int)

@[simp] theorem startOn_rectAt :
    (f.rectAt content main cross length width).startOn f.direction.axis =
      wrap (content.startOn f.direction.axis + main) := by
  unfold rectAt
  cases f.direction <;> rfl

@[simp] theorem lengthOn_rectAt :
    (f.rectAt content main cross length width).lengthOn f.direction.axis = length := by
  unfold rectAt
  cases f.direction <;> rfl

@[simp] theorem startOn_crossAxis_rectAt :
    (f.rectAt content main cross length width).startOn f.direction.crossAxis =
      wrap (content.startOn f.direction.crossAxis + cross) := by
  unfold rectAt
  cases f.direction <;> rfl

@[simp] theorem lengthOn_crossAxis_rectAt :
    (f.rectAt content main cross length width).lengthOn f.direction.crossAxis = width := by
  unfold rectAt
  cases f.direction <;> rfl

/-- A word holds where an item begins. -/
theorem fits_startOn_rectAt (a : Axis) :
    Word.Fits ((f.rectAt content main cross length width).startOn a) := by
  rcases a.eq_or f.direction.axis with rfl | rfl
  · rw [startOn_rectAt]
    exact Word.fits_wrap _
  · exact startOn_crossAxis_rectAt f content main cross length width ▸ Word.fits_wrap _

end

/-! ## One line -/

/-- What is free on a line, never less than nothing. -/
def freeOn (f : FlowStyle) (available : Int) (line : List FlowItem) : Int :=
  max (wrap (available - ((f.lengths available line).sum + f.gaps line.length))) 0

/-- What separates two items of a line. -/
def spacingOn (f : FlowStyle) (available : Int) (line : List FlowItem) : Int :=
  (f.spread (f.freeOn available line) line.length).2

/-- Where an item of a line begins along it, counted the forward way. -/
def startIn (f : FlowStyle) (available : Int) (line : List FlowItem) (i : Nat) : Int :=
  (f.spread (f.freeOn available line) line.length).1 +
    (((f.lengths available line).take i).sum + f.spacingOn available line * i)

theorem getElem?_starts (first spacing : Int) (lengths : List Int) (i : Nat) :
    (starts first spacing lengths)[i]? =
      lengths[i]?.map fun _ => first + ((lengths.take i).sum + spacing * i) := by
  induction lengths generalizing first i with
  | nil => rfl
  | cons length rest ih =>
    cases i with
    | zero => simp [starts]
    | succ i =>
      rw [starts, List.getElem?_cons_succ, List.getElem?_cons_succ, ih, List.take_succ_cons,
        List.sum_cons]
      refine congrArg (Option.map · rest[i]?) (funext fun _ => ?_)
      push_cast
      rw [Int.mul_add]
      omega

/-- An item that does not grow is as long as it asks to be. -/
theorem getElem?_lengths_of_not_grows (f : FlowStyle) (available : Int) {i : Nat}
    (hi : items[i]? = some item) (hgrows : item.grows = false) :
    (f.lengths available items)[i]? = some item.main := by
  unfold lengths
  generalize items.countP (·.grows) = left
  dsimp only
  generalize max (wrap (available - _ - f.gaps items.length)) 0 = leftover
  generalize leftover / (left : Int) = share
  generalize leftover % _ = remainder
  induction items generalizing left i with
  | nil => cases hi
  | cons first rest ih =>
    cases i with
    | zero =>
      obtain rfl := Option.some.inj hi
      simp [shareOut, hgrows]
    | succ i =>
      rw [shareOut]
      split
      next => exact ih hi _
      next => exact ih hi _

/-- The rectangle of each item of a line. -/
theorem getElem?_placeLine {available lineCross offset length : Int} {i : Nat}
    (hi : items[i]? = some item) (hlength : (f.lengths available items)[i]? = some length) :
    (f.placeLine content available lineCross offset items)[i]? =
      some (item.id, f.rectAt content
        (if f.direction.isReverse then available - f.startIn available items i - length
          else f.startIn available items i)
        (offset + f.crossStart lineCross (itemCross lineCross item)) length
        (itemCross lineCross item)) := by
  let starts := starts (f.spread (f.freeOn available items) items.length).1
    (f.spacingOn available items) (f.lengths available items)
  have hstart : starts[i]? = some (f.startIn available items i) := by
    rw [getElem?_starts, hlength]
    rfl
  have hzip : (items.zip ((f.lengths available items).zip starts))[i]? =
      some (item, length, f.startIn available items i) := by
    rw [List.getElem?_zip_eq_some, List.getElem?_zip_eq_some]
    exact ⟨hi, hlength, hstart⟩
  simp only [starts, freeOn, spacingOn, List.sum_eq_foldr] at hzip
  rw [placeLine, List.getElem?_map, hzip]
  rfl

theorem mem_placeLine {available lineCross offset : Int} {p : ElementId × Rect}
    (hp : p ∈ f.placeLine content available lineCross offset items) :
    ∃ i item length, items[i]? = some item ∧ (f.lengths available items)[i]? = some length ∧
      p = (item.id, f.rectAt content
        (if f.direction.isReverse then available - f.startIn available items i - length
          else f.startIn available items i)
        (offset + f.crossStart lineCross (itemCross lineCross item)) length
        (itemCross lineCross item)) := by
  obtain ⟨i, hi⟩ := List.mem_iff_getElem?.mp hp
  have hlt : i < items.length := by
    have hids := congrArg List.length (f.map_placeLine content available lineCross offset items)
    rw [List.length_map, List.length_map] at hids
    exact hids ▸ (List.getElem?_eq_some_iff.mp hi).1
  have hitem := List.getElem?_eq_getElem hlt
  have hlength := List.getElem?_eq_getElem ((f.length_lengths available items).symm ▸ hlt)
  refine ⟨i, _, _, hitem, hlength, ?_⟩
  rw [getElem?_placeLine hitem hlength] at hi
  exact (Option.some.inj hi).symm

/-- With a size of its own, an item that does not grow keeps it. -/
theorem itemCross_of_not_grows (lineCross : Int) (hgrows : item.grows = false)
    (hown : item.crossAsked = none → 0 < item.cross) :
    itemCross lineCross item = item.ownCross := by
  unfold itemCross FlowItem.ownCross
  cases hasked : item.crossAsked with
  | some asked => rfl
  | none =>
    have hpos := hown hasked
    simp only [hgrows, Bool.false_or, decide_eq_true_eq, Option.getD_none]
    exact if_neg (by omega)

/-! ## Whole flows -/

theorem mem_placeLines {available crossAvailable offset : Int} {lines : List (List FlowItem)}
    {p : ElementId × Rect} (hp : p ∈ f.placeLines content available crossAvailable offset lines) :
    ∃ line ∈ lines, ∃ start, p ∈ f.placeLine content available (f.lineCross crossAvailable line)
      start line := by
  induction lines generalizing offset with
  | nil => exact absurd hp List.not_mem_nil
  | cons line rest ih =>
    rcases List.mem_append.mp hp with hp | hp
    · exact ⟨line, List.mem_cons_self, offset, hp⟩
    · obtain ⟨other, hother, hp⟩ := ih hp
      exact ⟨other, List.mem_cons_of_mem _ hother, hp⟩

theorem place_eq (f : FlowStyle) (content : Rect) (items : List FlowItem) :
    f.place content items =
      f.placeLines content (content.lengthOn f.direction.axis)
        (content.lengthOn f.direction.crossAxis) 0
        (f.lines (content.lengthOn f.direction.axis) items) := by
  cases items with
  | nil => rfl
  | cons first rest =>
    rw [place, List.isEmpty_cons, if_neg Bool.false_ne_true]
    cases f.direction <;> rfl

/-- On whichever line it stands, an item is as wide as the line makes it, and
as long as it asks to be if it does not grow. -/
theorem mem_place {p : ElementId × Rect} (hp : p ∈ f.place content items) :
    ∃ item ∈ items, p.1 = item.id ∧ (∀ a, Word.Fits (p.2.startOn a)) ∧
      (∃ lineCross, p.2.lengthOn f.direction.crossAxis = itemCross lineCross item) ∧
      (item.grows = false → p.2.lengthOn f.direction.axis = item.main) := by
  rw [place_eq] at hp
  obtain ⟨line, hline, start, hp⟩ := mem_placeLines hp
  obtain ⟨i, item, length, hitem, hlength, rfl⟩ := mem_placeLine hp
  have hmem : item ∈ items := by
    rw [← flatten_lines f (content.lengthOn f.direction.axis) items]
    exact List.mem_flatten.mpr ⟨line, hline, List.mem_of_getElem? hitem⟩
  refine ⟨item, hmem, rfl, fun _ => fits_startOn_rectAt .., ⟨_, lengthOn_crossAxis_rectAt ..⟩,
    fun hgrows => ?_⟩
  rw [getElem?_lengths_of_not_grows f _ hitem hgrows] at hlength
  rw [lengthOn_rectAt]
  exact (Option.some.inj hlength).symm

/-- Without wrapping there is one line. -/
theorem place_of_not_wraps (hwraps : f.wraps = false) (content : Rect) (items : List FlowItem) :
    f.place content items = f.placeLine content (content.lengthOn f.direction.axis)
      (content.lengthOn f.direction.crossAxis) 0 items := by
  rw [place_eq]
  cases items with
  | nil => rfl
  | cons first rest => simp [lines, placeLines, lineCross, hwraps]

/-! ### One after another -/

theorem gap_le_spacingOn (f : FlowStyle) (available : Int) (line : List FlowItem) :
    f.gap ≤ f.spacingOn available line := by
  have hfree : 0 ≤ f.freeOn available line := Int.le_max_right _ _
  unfold spacingOn spread
  split
  next => exact Int.le_refl _
  next => exact Int.le_refl _
  next => exact Int.le_refl _
  next =>
    split
    next hn =>
      have hshare : 0 ≤ f.freeOn available line / ((line.length : Int) - 1) :=
        Int.ediv_nonneg hfree (by omega)
      dsimp only
      omega
    next => exact Int.le_refl _

theorem spacingOn_eq_gap (h : f.alignment ≠ .spaceBetween) (available : Int)
    (line : List FlowItem) : f.spacingOn available line = f.gap := by
  unfold spacingOn spread
  split
  next => rfl
  next => rfl
  next => rfl
  next hbetween => exact absurd hbetween h

/-- Each item of a line begins where the one before it ends and something
separates them. -/
theorem startIn_succ {available length : Int} {i : Nat}
    (hlength : (f.lengths available line)[i]? = some length) :
    f.startIn available line (i + 1) =
      f.startIn available line i + length + f.spacingOn available line := by
  have hsum : ((f.lengths available line).take (i + 1)).sum =
      ((f.lengths available line).take i).sum + length := by
    rw [List.take_add_one, hlength, List.sum_append]
    simp
  unfold startIn
  rw [hsum]
  push_cast
  rw [Int.mul_add]
  omega

/-- On one line that runs forward, an item that does not grow is as long as
it asks to be, and what separates it from the next comes after that. -/
theorem place_next (hwraps : f.wraps = false) (hforward : f.direction.isReverse = false)
    (content : Rect) {i : Nat} {a b : FlowItem} (ha : items[i]? = some a)
    (hb : items[i + 1]? = some b) (hgrows : a.grows = false) :
    ∃ r q, (a.id, r) ∈ f.place content items ∧ (b.id, q) ∈ f.place content items ∧
      r.lengthOn f.direction.axis = a.main ∧
      q.startOn f.direction.axis = wrap (r.startOn f.direction.axis + a.main +
        f.spacingOn (content.lengthOn f.direction.axis) items) := by
  have hlength := getElem?_lengths_of_not_grows f (content.lengthOn f.direction.axis) ha hgrows
  have hlt := (List.getElem?_eq_some_iff.mp hb).1
  have hnext := List.getElem?_eq_getElem
    ((f.length_lengths (content.lengthOn f.direction.axis) items).symm ▸ hlt)
  rw [place_of_not_wraps hwraps]
  refine ⟨_, _, List.mem_of_getElem? (getElem?_placeLine ha hlength),
    List.mem_of_getElem? (getElem?_placeLine hb hnext), lengthOn_rectAt .., ?_⟩
  rw [startOn_rectAt, startOn_rectAt, hforward, if_neg Bool.false_ne_true,
    if_neg Bool.false_ne_true, startIn_succ hlength, Int.add_assoc (wrap _), Word.wrap_wrap_add]
  congr 1
  omega

/-! ### Just room enough -/

/-- Nothing to spread: the items begin at the start, a gap apart. -/
theorem spread_zero (f : FlowStyle) (n : Nat) : f.spread 0 n = (0, f.gap) := by
  unfold spread
  split
  next => rfl
  next => rfl
  next => rfl
  next => split <;> simp

theorem lengths_of_not_grows (f : FlowStyle) (available : Int)
    (hgrows : ∀ i ∈ items, i.grows = false) :
    f.lengths available items = items.map (·.main) := by
  apply List.ext_getElem?
  intro i
  rw [List.getElem?_map]
  cases hi : items[i]? with
  | none =>
    rw [List.getElem?_eq_none_iff] at hi
    exact List.getElem?_eq_none (by rwa [length_lengths])
  | some item =>
    exact getElem?_lengths_of_not_grows f available hi (hgrows item (List.mem_of_getElem? hi))

section JustRoom

variable {available : Int} (hgap : 0 ≤ f.gap) (hgrows : ∀ i ∈ items, i.grows = false)
  (hmain : ∀ i ∈ items, 0 ≤ i.main)
  (hroom : available = (items.map (·.main)).sum + f.gaps items.length)

include hgrows hroom in
/-- Where there is just room enough, nothing is free. -/
theorem startIn_of_room (i : Nat) :
    f.startIn available items i = ((items.map (·.main)).take i).sum + f.gap * i := by
  have hfree : f.freeOn available items = 0 := by
    rw [freeOn, lengths_of_not_grows f available hgrows, ← hroom, Int.sub_self]
    rfl
  rw [startIn, spacingOn, hfree, spread_zero, lengths_of_not_grows f available hgrows]
  exact Int.zero_add _

include hgap hgrows hmain hroom in
/-- Where there is just room enough, the first item begins at the start,
the last one ends at the end, and all others are between. -/
theorem startIn_within {i : Nat} (hi : items[i]? = some item) :
    0 ≤ f.startIn available items i ∧
      f.startIn available items i + item.main ≤ available ∧
      (i = 0 → f.startIn available items i = 0) ∧
      (i + 1 = items.length → f.startIn available items i + item.main = available) := by
  have hlt := (List.getElem?_eq_some_iff.mp hi).1
  have hnonneg (l : List Int) (hl : l ⊆ items.map (·.main)) : 0 ≤ l.sum := by
    apply List.sum_nonneg
    intro x hx
    obtain ⟨j, hj, rfl⟩ := List.mem_map.mp (hl hx)
    exact hmain j hj
  have hbefore := hnonneg _ (List.take_subset i _)
  have hafter := hnonneg _ (List.drop_subset (i + 1) _)
  have hsum := (items.map (·.main)).sum_take_add_sum_drop (i + 1)
  have hitem : ((items.map (·.main)).take (i + 1)).sum =
      ((items.map (·.main)).take i).sum + item.main := by
    rw [List.take_add_one, List.getElem?_map, hi, List.sum_append]
    simp
  have hgaps : f.gap * i ≤ f.gaps items.length :=
    Int.mul_le_mul_of_nonneg_left (by omega) hgap
  have hzero : 0 ≤ f.gap * i := Int.mul_nonneg hgap (Int.natCast_nonneg i)
  rw [startIn_of_room hgrows hroom]
  refine ⟨by omega, by omega, ?_, ?_⟩
  · rintro rfl
    simp
  · intro hlast
    have hnone : (items.map (·.main)).drop (i + 1) = [] := by
      rw [List.drop_eq_nil_iff, List.length_map]
      exact Nat.le_of_eq hlast.symm
    have hgaps : f.gaps items.length = f.gap * i := by
      rw [gaps, ← hlast]
      push_cast
      rw [Int.add_sub_cancel]
    rw [hnone, List.sum_nil] at hsum
    omega

end JustRoom

/-- Where the box has just the room that the items ask for along it, they
reach from edge to edge. -/
theorem place_fills_along (hwraps : f.wraps = false) (hfits : content.FitsOn f.direction.axis)
    (hgap : 0 ≤ f.gap)
    (hgrows : ∀ i ∈ items, i.grows = false) (hmain : ∀ i ∈ items, 0 ≤ i.main)
    (hne : items ≠ [])
    (hroom : content.lengthOn f.direction.axis = (items.map (·.main)).sum + f.gaps items.length) :
    (∀ p ∈ f.place content items, p.2.endOn f.direction.axis ≤ content.endOn f.direction.axis) ∧
      ∃ p ∈ f.place content items, p.2.endOn f.direction.axis = content.endOn f.direction.axis := by
  have hlength {i : Nat} {item : FlowItem} (hi : items[i]? = some item) :=
    getElem?_lengths_of_not_grows f (content.lengthOn f.direction.axis) hi
      (hgrows item (List.mem_of_getElem? hi))
  have hwithin {i : Nat} {item : FlowItem} (hi : items[i]? = some item) :=
    startIn_within hgap hgrows hmain hroom hi
  have hpos : 0 < items.length := List.length_pos_iff.mpr hne
  rw [place_of_not_wraps hwraps]
  constructor
  · intro p hp
    obtain ⟨i, item, length, hi, hl, rfl⟩ := mem_placeLine hp
    obtain rfl := Option.some.inj (hl.symm.trans (hlength hi))
    have hmain := hmain item (List.mem_of_getElem? hi)
    have hi := hwithin hi
    rw [Rect.endOn, Rect.endOn, startOn_rectAt, lengthOn_rectAt, hfits.wrap_add] <;> split <;> omega
  · -- the item that stands last on the axis is the first one of a reverse direction
    let i := if f.direction.isReverse then 0 else items.length - 1
    have hlt : i < items.length := by
      dsimp only [i]
      split <;> omega
    have hi : items[i]? = some items[i] := List.getElem?_eq_getElem hlt
    refine ⟨_, List.mem_of_getElem? (getElem?_placeLine hi (hlength hi)), ?_⟩
    have hmain := hmain items[i] (List.getElem_mem hlt)
    obtain ⟨hstart, hfinish, hfirst, hlast⟩ := hwithin hi
    rw [Rect.endOn, Rect.endOn, startOn_rectAt, lengthOn_rectAt, hfits.wrap_add]
    · split
      next hreverse =>
        have hzero := hfirst (if_pos hreverse)
        omega
      next hforward =>
        have hend : i = items.length - 1 := if_neg hforward
        have hfull := hlast (by omega)
        omega
    · split <;> omega
    · split <;> omega

/-- An item that is no wider than its line stays inside it. -/
theorem crossStart_within (f : FlowStyle) {lineCross cross : Int} (h : cross ≤ lineCross)
    (hcross : 0 ≤ cross) (hfits : Word.Fits lineCross) :
    0 ≤ f.crossStart lineCross cross ∧ f.crossStart lineCross cross + cross ≤ lineCross := by
  have hnonneg : 0 ≤ lineCross - cross := Int.sub_nonneg.mpr h
  have hlarge := hfits.2
  have hrest : wrap (lineCross - cross) = lineCross - cross :=
    Word.wrap_of_fits ⟨by omega, by omega⟩
  have hhalf := Int.tdiv_le_self 2 hnonneg
  have hzero := Int.tdiv_nonneg hnonneg (show 0 ≤ 2 by decide)
  unfold crossStart
  rw [hrest]
  split <;> omega

/-- Where the box is just as wide as the widest item, the items reach the
far edge of it and no farther. -/
theorem place_fills_across (hwraps : f.wraps = false) (hfits : content.FitsOn f.direction.crossAxis)
    (hgrows : ∀ i ∈ items, i.grows = false)
    (hown : ∀ i ∈ items, 0 ≤ i.ownCross ∧ (i.crossAsked = none → 0 < i.cross))
    (hle : ∀ i ∈ items, i.ownCross ≤ content.lengthOn f.direction.crossAxis)
    (hwidest : ∃ i ∈ items, i.ownCross = content.lengthOn f.direction.crossAxis) :
    (∀ p ∈ f.place content items,
        p.2.endOn f.direction.crossAxis ≤ content.endOn f.direction.crossAxis) ∧
      ∃ p ∈ f.place content items,
        p.2.endOn f.direction.crossAxis = content.endOn f.direction.crossAxis := by
  have hcross {item : FlowItem} (hitem : item ∈ items) :=
    itemCross_of_not_grows (content.lengthOn f.direction.crossAxis) (hgrows item hitem)
      (hown item hitem).2
  rw [place_of_not_wraps hwraps]
  constructor
  · intro p hp
    obtain ⟨i, item, length, hi, -, rfl⟩ := mem_placeLine hp
    have hitem := List.mem_of_getElem? hi
    have hpos := (hown item hitem).1
    obtain ⟨hstart, hwithin⟩ := f.crossStart_within (hle item hitem) hpos hfits.length
    rw [Rect.endOn, Rect.endOn, startOn_crossAxis_rectAt, lengthOn_crossAxis_rectAt, hcross hitem,
      Int.zero_add, hfits.wrap_add hstart (by omega)]
    omega
  · obtain ⟨item, hitem, hwidest⟩ := hwidest
    have hpos := (hown item hitem).1
    obtain ⟨i, hi⟩ := List.mem_iff_getElem?.mp hitem
    refine ⟨_, List.mem_of_getElem? (getElem?_placeLine hi
      (getElem?_lengths_of_not_grows f _ hi (hgrows item hitem))), ?_⟩
    have hnone : f.crossStart (content.lengthOn f.direction.crossAxis) item.ownCross = 0 := by
      rw [hwidest]
      unfold crossStart
      split <;> simp
    rw [Rect.endOn, Rect.endOn, startOn_crossAxis_rectAt, lengthOn_crossAxis_rectAt,
      hcross hitem, hnone, Int.zero_add, hfits.wrap_add (Int.le_refl 0) (by omega)]
    omega

end FlowStyle

end SceneTree
