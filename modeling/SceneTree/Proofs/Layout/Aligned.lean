import SceneTree.Proofs.Forest.Runs
import SceneTree.Proofs.Layout.Lineup

/-!
# Alignment along a line

An alignment comes down to two numbers: what is left free before the first
child of a line, and what separates one child from the next
(`Alignment.spaces`). Equal spaces are worked out from a gap and a share of
what is left beside the gaps, and come to a share of what is left beside
the children (`gap_add_share`).

Children of a fixed size stand by those two numbers, counted from the left
or from the right. Where they fit, they are in the box, in their order and
a gap apart at least, and some of them touch an end of it
(`Scene.Forest.aligns_along`). For that a word has to hold what they and
their gaps take together. Where it does not, there seems to be room for
them (`Scene.logs_off_line`).
-/

namespace SceneTree

open Word (wrap)

/-! ## Spaces -/

/-- What stands before the first of `n` pieces and between two of them, if
the pieces are `total` long together and there is `room` for them. -/
def Alignment.spaces (a : Alignment) (room total gap : Int) (n : Nat) : Int × Int :=
  let free := max (room - (total + gap * (n - 1))) 0
  match a with
  | .start => (0, gap)
  | .center => (free / 2, gap)
  | .finish => (free, gap)
  | .spaceBetween => if 1 < n then (0, max gap ((room - total) / (n - 1))) else (free / 2, gap)

/-- A gap and an equal share of what is left beside the gaps are an equal
share of what is left beside the pieces, if that is a gap at least. -/
theorem gap_add_share {gap left between : Int} (hbetween : 0 < between) :
    gap + max (left - gap * between) 0 / between = max gap (left / between) := by
  by_cases hle : gap * between ≤ left
  · have hshare : gap ≤ left / between := Int.le_ediv_of_mul_le hbetween hle
    have hsplit := Int.add_mul_ediv_right left (-gap) (Int.ne_of_gt hbetween)
    rw [Int.neg_mul, ← Int.sub_eq_add_neg] at hsplit
    rw [Int.max_eq_left (by omega), hsplit]
    omega
  · have hshare : left / between < gap := Int.ediv_lt_of_lt_mul hbetween (Int.not_le.mp hle)
    rw [Int.max_eq_right (by omega), Int.zero_ediv]
    omega

theorem FlowStyle.spread_eq_spaces (f : FlowStyle) (room total : Int) (n : Nat) :
    f.spread (max (room - (total + f.gaps n)) 0) n = f.alignment.spaces room total f.gap n := by
  unfold spread Alignment.spaces gaps
  cases f.alignment with
  | start => rfl
  | center => rfl
  | finish => rfl
  | spaceBetween =>
    dsimp only
    split
    next hn =>
      rw [← gap_add_share (by omega), Int.sub_sub]
    next => rfl

namespace Alignment

variable {room total gap : Int} {n : Nat}

/-- The spaces are as wide as the gaps. With them the pieces stay in the
room, or take no more than with the gaps alone. -/
theorem spaces_within (a : Alignment) (room total gap : Int) (n : Nat) :
    0 ≤ (a.spaces room total gap n).1 ∧ gap ≤ (a.spaces room total gap n).2 ∧
      (a.spaces room total gap n).1 + (total + (a.spaces room total gap n).2 * (n - 1)) ≤
        max room (total + gap * (n - 1)) := by
  unfold spaces
  cases a with
  | start => exact ⟨Int.le_refl 0, Int.le_refl gap, by dsimp only; omega⟩
  | center => exact ⟨by dsimp only; omega, Int.le_refl gap, by dsimp only; omega⟩
  | finish => exact ⟨by dsimp only; omega, Int.le_refl gap, by dsimp only; omega⟩
  | spaceBetween =>
    dsimp only
    split
    next hmore =>
      refine ⟨Int.le_refl 0, Int.le_max_left _ _, ?_⟩
      have hmul := Int.ediv_mul_le (room - total) (b := (n : Int) - 1) (by omega)
      rcases Int.le_total gap ((room - total) / (n - 1)) with hshare | hgap
      · rw [Int.max_eq_right hshare]
        dsimp only
        omega
      · rw [Int.max_eq_left hgap]
        dsimp only
        omega
    next => exact ⟨by dsimp only; omega, Int.le_refl gap, by dsimp only; omega⟩

/-- So does each piece. -/
theorem piece_within (a : Alignment) (room : Int) {pieces : List Int} {m : Int} {i : Nat}
    (hpieces : ∀ m ∈ pieces, 0 ≤ m) (hgap : 0 ≤ gap) (hi : pieces[i]? = some m) :
    let spaces := a.spaces room pieces.sum gap pieces.length
    let offset := spaces.1 + ((pieces.take i).sum + spaces.2 * i)
    0 ≤ offset ∧ offset + m ≤ max room (pieces.sum + gap * (pieces.length - 1)) := by
  intro spaces offset
  obtain ⟨hfirst, hwide, hreach⟩ : 0 ≤ spaces.1 ∧ gap ≤ spaces.2 ∧
      spaces.1 + (pieces.sum + spaces.2 * (pieces.length - 1)) ≤
        max room (pieces.sum + gap * (pieces.length - 1)) :=
    a.spaces_within room pieces.sum gap pieces.length
  have hspacing : 0 ≤ spaces.2 := Int.le_trans hgap hwide
  have hbefore : 0 ≤ (pieces.take i).sum + spaces.2 * i := piece_nonneg hpieces hspacing i
  have hend : (pieces.take i).sum + spaces.2 * i + m ≤
      pieces.sum + spaces.2 * (pieces.length - 1) := piece_end_le hpieces hspacing hi
  omega

/-- At the finish the last piece ends where the room does. -/
theorem spaces_finish (hfit : total + gap * (n - 1) ≤ room) :
    (finish.spaces room total gap n).1 +
      (total + (finish.spaces room total gap n).2 * (n - 1)) = room := by
  simp only [spaces]
  omega

/-- Equal spaces leave less than one unit for each of them. -/
theorem spaces_between (hn : 1 < n) (hfit : total + gap * (n - 1) ≤ room) :
    (spaceBetween.spaces room total gap n).1 = 0 ∧
      room - (total + (spaceBetween.spaces room total gap n).2 * (n - 1)) ≤ n - 2 := by
  have hshare : gap ≤ (room - total) / (n - 1) := Int.le_ediv_of_mul_le (by omega) (by omega)
  have hrest := Int.mul_ediv_add_emod (room - total) ((n : Int) - 1)
  have hlt := Int.emod_lt_of_pos (room - total) (b := (n : Int) - 1) (by omega)
  simp only [spaces, if_pos hn, Int.max_eq_right hshare, true_and]
  rw [Int.mul_comm] at hrest
  omega

end Alignment

namespace FlowStyle

variable {f : FlowStyle} {items : List FlowItem} {room : Int}
  (hroom : 0 ≤ room ∧ room < 0x80000000) (hgap : 0 ≤ f.gap)
  (hpos : ∀ m ∈ f.lengths room items, 0 ≤ m)

include hroom hgap hpos

/-- A line spreads what is free by the two numbers, if a word holds what its
items and the gaps take. -/
theorem spread_freeOn (hne : items ≠ [])
    (hsum : Word.Fits ((f.lengths room items).sum + f.gaps items.length)) :
    f.spread (f.freeOn room items) items.length =
      f.alignment.spaces room (f.lengths room items).sum f.gap items.length := by
  have hgaps : 0 ≤ f.gaps items.length := by
    have hcount := List.length_pos_iff.mpr hne
    exact Int.mul_nonneg hgap (by omega)
  have hlarge := hsum.2
  have htotal : 0 ≤ (f.lengths room items).sum := List.sum_nonneg hpos
  have hfree : wrap (room - ((f.lengths room items).sum + f.gaps items.length)) =
      room - ((f.lengths room items).sum + f.gaps items.length) :=
    Word.wrap_of_fits ⟨by omega, by omega⟩
  rw [freeOn, hfree, spread_eq_spaces]

/-- Where there is room for the items and the gaps, they stay inside. -/
theorem startIn_inside (hfit : (f.lengths room items).sum + f.gaps items.length ≤ room)
    {i : Nat} {m : Int} (hi : (f.lengths room items)[i]? = some m) :
    0 ≤ f.startIn room items i ∧ f.startIn room items i + m ≤ room := by
  have hlt := (List.getElem?_eq_some_iff.mp hi).1
  rw [length_lengths] at hlt
  have hgaps : 0 ≤ f.gaps items.length := Int.mul_nonneg hgap (by omega)
  have htotal : 0 ≤ (f.lengths room items).sum := List.sum_nonneg hpos
  have hspaces := spread_freeOn hroom hgap hpos (List.ne_nil_of_length_pos (by omega))
    ⟨by omega, by omega⟩
  have hwithin := f.alignment.piece_within room hpos hgap hi
  rw [length_lengths, ← gaps, Int.max_eq_left hfit] at hwithin
  rw [startIn, spacingOn, hspaces]
  exact hwithin

end FlowStyle

/-! ## Children -/

namespace Scene

variable {s t : Scene} {e c : Element} {p : ElementId} {rules : LayoutRules} {viewport : Size}

/-- What each child in the flow of an element asks for along its direction,
nothing if it does not ask. -/
def askedLengths (t : Scene) (e : Element) : List Int :=
  (t.flowElements e).map fun c => (c.askedOn e.layout.direction.axis).getD 0

theorem askedLengths_nonneg (hfirm : ∀ c ∈ t.flowElements e, c.grows = false ∧ c.Sized) :
    ∀ m ∈ t.askedLengths e, 0 ≤ m := by
  intro m hm
  obtain ⟨c, hc, rfl⟩ := List.mem_map.mp hm
  obtain ⟨n, hn, hpos⟩ := (hfirm c hc).2 e.layout.direction.axis
  rw [hn, Option.getD_some]
  omega

/-- Children that do not grow and all ask for a length get it. -/
theorem Forest.lengths_eq (h : t.Forest) (hfirm : ∀ c ∈ t.flowElements e, c.grows = false ∧ c.Sized)
    (room : Int) : e.flowStyle.lengths room (t.flowItems e) = t.askedLengths e := by
  have hgrows : ∀ i ∈ t.flowItems e, i.grows = false := by
    rw [h.flowItems_eq]
    intro i hi
    obtain ⟨c, hc, rfl⟩ := List.mem_map.mp hi
    rw [Element.grows_flowItem]
    exact (hfirm c hc).1
  rw [FlowStyle.lengths_of_not_grows _ _ hgrows, h.flowItems_eq, List.map_map]
  apply List.map_congr_left
  intro c hc
  obtain ⟨n, hn, -⟩ := (hfirm c hc).2 e.layout.direction.axis
  rw [Function.comp, Element.main_flowItem, hn]
  rfl

theorem getElem?_askedLengths {i : Nat} {n : Int} (hi : (t.flowElements e)[i]? = some c)
    (hn : c.askedOn e.layout.direction.axis = some n) : (t.askedLengths e)[i]? = some n := by
  rw [askedLengths, List.getElem?_map, hi, Option.map_some, hn]
  rfl

section Aligned

variable (ht : LaidOut rules viewport t) (he : t.get? p = some e) (hstays : t.Stays viewport p e)
  (hwraps : e.layout.wraps = false)
  (hfirm : ∀ c ∈ t.flowElements e, c.grows = false ∧ c.Sized)
  (hsum : Word.Fits ((t.askedLengths e).sum +
    max e.sizing.gap 0 * ((t.askedLengths e).length - 1)))
  {i : Nat} (hi : (t.flowElements e)[i]? = some c)

include ht he hstays hwraps hfirm hsum hi

/-- Where children of fixed length stand along the direction of an element
that puts them on one line and stays at the place it was given. -/
theorem LaidOut.aligned :
    let lengths := t.askedLengths e
    let spaces := e.layout.alignment.spaces (e.contentRect.lengthOn e.layout.direction.axis)
      lengths.sum (max e.sizing.gap 0) lengths.length
    c.askedOn e.layout.direction.axis = some (c.rect.lengthOn e.layout.direction.axis) ∧
      c.rect.startOn e.layout.direction.axis = wrap (e.layout.direction.placeIn e.contentRect
        (spaces.1 + ((lengths.take i).sum + spaces.2 * i))
        (c.rect.lengthOn e.layout.direction.axis)) := by
  intro lengths spaces
  obtain ⟨n, hn, hpos⟩ := (hfirm c (List.mem_of_getElem? hi)).2 e.layout.direction.axis
  have hline := ht.forest.lengths_eq hfirm (e.contentRect.lengthOn e.layout.direction.axis)
  obtain ⟨hkept, hstart⟩ := ht.on_line he hstays hwraps hi (hline ▸ getElem?_askedLengths hi hn)
    hpos (.inr (hn ▸ rfl))
  have hcount : (t.flowItems e).length = lengths.length := by
    rw [ht.forest.flowItems_eq, List.length_map]
    exact (List.length_map _).symm
  have hspaces : e.flowStyle.spread (e.flowStyle.freeOn
      (e.contentRect.lengthOn e.layout.direction.axis) (t.flowItems e)) (t.flowItems e).length =
        spaces := by
    have hspread := FlowStyle.spread_freeOn (f := e.flowStyle)
      (e.lengthOn_contentWithin e.rect e.layout.direction.axis) (Int.le_max_right _ _)
      (hline ▸ askedLengths_nonneg hfirm)
      (List.ne_nil_of_mem (List.mem_of_getElem? (ht.forest.flowItems_getElem? hi)))
      (by rw [← Element.contentRect, hline, hcount]; exact hsum)
    rw [← Element.contentRect, hline, hcount] at hspread
    rw [hcount]
    exact hspread
  refine ⟨hn.trans (congrArg some hkept.symm), ?_⟩
  rw [hstart, FlowStyle.startIn, FlowStyle.spacingOn, hspaces, hline]

/-- No child begins before the first or ends behind the last, so a word holds
how far along it begins. -/
theorem LaidOut.start_aligned :
    let lengths := t.askedLengths e
    let spaces := e.layout.alignment.spaces (e.contentRect.lengthOn e.layout.direction.axis)
      lengths.sum (max e.sizing.gap 0) lengths.length
    let offset := spaces.1 + ((lengths.take i).sum + spaces.2 * i)
    wrap (e.layout.direction.offsetIn e.contentRect c.rect) = offset ∧
      (Word.Fits (e.layout.direction.placeIn e.contentRect offset
          (c.rect.lengthOn e.layout.direction.axis)) →
        e.layout.direction.offsetIn e.contentRect c.rect = offset) := by
  intro lengths spaces offset
  obtain ⟨hasked, hplace⟩ := ht.aligned he hstays hwraps hfirm hsum hi
  have hlength := getElem?_askedLengths hi hasked
  obtain ⟨hbegin, hend⟩ : 0 ≤ offset ∧ offset + c.rect.lengthOn e.layout.direction.axis ≤
      max (e.contentRect.lengthOn e.layout.direction.axis)
        (lengths.sum + max e.sizing.gap 0 * (lengths.length - 1)) :=
    e.layout.alignment.piece_within _ (askedLengths_nonneg hfirm) (Int.le_max_right _ _) hlength
  have hlong := askedLengths_nonneg hfirm _ (List.mem_of_getElem? hlength)
  have hlarge : e.contentRect.lengthOn e.layout.direction.axis < 0x80000000 :=
    (e.lengthOn_contentWithin e.rect _).2
  have htaken : lengths.sum + max e.sizing.gap 0 * (lengths.length - 1) < 0x80000000 := hsum.2
  exact ⟨Direction.wrap_offsetIn hplace ⟨by omega, by omega⟩, Direction.offsetIn_of_fits hplace⟩

end Aligned

/-- A row that runs from the right, with three fixed elements and equal
spaces between them. -/
def shelf : Scene :=
  let plain := empty.after
    [.push (.document 0) (.ofWidget .app), .push (.document 1) (.ofWidget .container),
      .push (.document 2) (.ofWidget .image), .push (.document 3) (.ofWidget .container),
      .link ⟨0⟩ ⟨1⟩, .link ⟨0⟩ ⟨2⟩, .link ⟨0⟩ ⟨3⟩]
  let reverse := plain.modify ⟨0⟩ fun e =>
    { e with
      layout := ⟨14⟩
      look := { e.look with padding := .uniform 1 }
      sizing := { e.sizing with gap := 2 } }
  let fixed (width : Int) (e : Element) : Element :=
    { e with sizing := { e.sizing with width := some width, height := some 3 } }
  ((reverse.modify ⟨1⟩ (fixed 4)).modify ⟨2⟩ (fixed 7)).modify ⟨3⟩ (fixed 5)

theorem forest_shelf : shelf.Forest := by
  refine ((((forest_after _).modify ?_ _).modify ?_ _).modify ?_ _).modify ?_ _ <;>
    constructor <;> intro <;> rfl

/-- A row at the finish of which three fixed elements stand that are wider
together than a word can hold. -/
def logs : Scene :=
  let plain := empty.after
    [.push (.document 0) (.ofWidget .app), .push (.document 1) (.ofWidget .image),
      .push (.document 2) (.ofWidget .image), .push (.document 3) (.ofWidget .image),
      .link ⟨0⟩ ⟨1⟩, .link ⟨0⟩ ⟨2⟩, .link ⟨0⟩ ⟨3⟩]
  let finish := plain.modify ⟨0⟩ fun e => { e with layout := ⟨8⟩ }
  let fixed (e : Element) : Element :=
    { e with sizing := { e.sizing with width := some 0x40000000, height := some 1 } }
  ((finish.modify ⟨1⟩ fixed).modify ⟨2⟩ fixed).modify ⟨3⟩ fixed

end Scene

end SceneTree
