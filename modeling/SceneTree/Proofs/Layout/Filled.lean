import SceneTree.Proofs.Forest.Runs
import SceneTree.Proofs.Layout.Lineup

/-!
# Growth fills a line

What the children that do not grow and the gaps leave of a line is shared
out among those that do. The shares add up to all of it
(`FlowStyle.sum_lengths`), so nothing is free for the alignment to spread,
and each child begins a gap behind the one before it
(`FlowStyle.startIn_filled`). None of this is disturbed when the children
settle, if every one that does not grow asks for its size
(`Scene.Forest.growth_fills`).

All of it takes place inside the line, so no length and no sum of lengths
wraps. Where the line itself is too far out, places do; how far along the
line a child begins is then still right as a word.
-/

namespace SceneTree

open Word (wrap)

namespace FlowStyle

variable {f : FlowStyle} {items : List FlowItem} {item : FlowItem} {room : Int} {i : Nat}

/-! ## Shares -/

/-- How many items of a line grow. -/
def growers (items : List FlowItem) : Nat := items.countP (·.grows)

/-- What the items take that do not grow. -/
def fixed (items : List FlowItem) : Int := ((items.filter (!·.grows)).map (·.main)).sum

/-- What is left for those that do. -/
def leftIn (f : FlowStyle) (room : Int) (items : List FlowItem) : Int :=
  max (wrap (room - fixed items - f.gaps items.length)) 0

theorem lengths_eq_shareOut (f : FlowStyle) (room : Int) (items : List FlowItem) :
    f.lengths room items = shareOut (f.leftIn room items / growers items)
      (f.leftIn room items % growers items) (growers items) items := by
  rw [leftIn, fixed, List.sum_eq_foldr]
  rfl

theorem growers_cons (first : FlowItem) (rest : List FlowItem) :
    growers (first :: rest) = growers rest + if first.grows then 1 else 0 :=
  List.countP_cons

/-- What is left is shared out as it is, if it is not less than nothing. -/
theorem leftIn_eq (hroom : room < 0x80000000) (hgap : 0 ≤ f.gap) (hfixed : 0 ≤ fixed items)
    (hne : items ≠ []) (hleft : 0 ≤ room - fixed items - f.gaps items.length) :
    f.leftIn room items = room - fixed items - f.gaps items.length := by
  have hgaps : 0 ≤ f.gaps items.length := by
    have hcount := List.length_pos_iff.mpr hne
    exact Int.mul_nonneg hgap (by omega)
  rw [leftIn, Word.wrap_of_fits ⟨by omega, by omega⟩]
  exact Int.max_eq_left hleft

/-- An item that grows gets a share, and the last one the remainder too. -/
theorem getElem?_shareOut (share remainder : Int) (hi : items[i]? = some item)
    (hgrows : item.grows) :
    (shareOut share remainder (growers items) items)[i]? =
      some (if (items.drop (i + 1)).any (·.grows) then share else share + remainder) := by
  -- The count is that of what is left of the list all along, so the item at
  -- which it is one is the last that grows.
  induction items generalizing i with
  | nil => cases hi
  | cons first rest ih =>
    rw [growers_cons, shareOut]
    cases i with
    | zero =>
      obtain rfl := Option.some.inj hi
      have hlast : growers rest + 1 = 1 ↔ rest.any (·.grows) = false := by
        rw [Nat.add_eq_right, growers, List.countP_eq_zero, List.any_eq_false]
      rw [if_pos hgrows, if_pos hgrows, List.getElem?_cons_zero, Nat.zero_add,
        List.drop_one, List.tail_cons]
      cases hany : rest.any (·.grows) with
      | false => rw [if_pos (hlast.mpr hany), if_neg Bool.false_ne_true]
      | true => rw [if_neg (mt hlast.mp (by simp [hany])), if_pos rfl]
    | succ i =>
      have hrest := ih (List.getElem?_cons_succ ▸ hi)
      rw [List.drop_succ_cons]
      split <;> exact hrest

/-- The lengths add up: to what is fixed, and to what is shared if there is
an item to take it. -/
theorem sum_shareOut (share remainder : Int) (items : List FlowItem) :
    (shareOut share remainder (growers items) items).sum =
      fixed items + share * growers items + if growers items = 0 then 0 else remainder := by
  induction items with
  | nil => simp [shareOut, fixed, growers]
  | cons first rest ih =>
    rw [growers_cons, shareOut]
    cases hgrows : first.grows with
    | false =>
      have hfixed : fixed (first :: rest) = first.main + fixed rest := by simp [fixed, hgrows]
      rw [if_neg Bool.false_ne_true, if_neg Bool.false_ne_true, Nat.add_zero, List.sum_cons, ih,
        hfixed]
      omega
    | true =>
      have hfixed : fixed (first :: rest) = fixed rest := by simp [fixed, hgrows]
      rw [if_pos rfl, if_pos rfl, Nat.add_sub_cancel, List.sum_cons, ih, hfixed, Nat.cast_succ,
        Int.mul_add]
      split <;> split <;> omega

theorem getElem?_lengths_of_grows (f : FlowStyle) (room : Int) (hi : items[i]? = some item)
    (hgrows : item.grows) :
    (f.lengths room items)[i]? = some (if (items.drop (i + 1)).any (·.grows)
      then f.leftIn room items / growers items
      else f.leftIn room items / growers items + f.leftIn room items % growers items) := by
  rw [lengths_eq_shareOut, getElem?_shareOut _ _ hi hgrows]

/-- Where there is a unit at least for each item that grows, no item is left
without a length. -/
theorem one_le_lengths (hfirm : ∀ item ∈ items, item.grows = false → 1 ≤ item.main)
    (hleft : (growers items : Int) ≤ f.leftIn room items) {length : Int}
    (hlength : (f.lengths room items)[i]? = some length) : 1 ≤ length := by
  have hlt := (List.getElem?_eq_some_iff.mp hlength).1
  rw [length_lengths] at hlt
  have hi := List.getElem?_eq_getElem hlt
  cases hgrows : items[i].grows with
  | false =>
    rw [getElem?_lengths_of_not_grows f room hi hgrows] at hlength
    exact Option.some.inj hlength ▸ hfirm _ (List.getElem_mem hlt) hgrows
  | true =>
    have hgrow : 0 < growers items := List.countP_pos_iff.mpr ⟨_, List.getElem_mem hlt, hgrows⟩
    have hshare : 1 ≤ f.leftIn room items / growers items :=
      Int.le_ediv_of_mul_le (by omega) (by omega)
    have hrest := Int.emod_nonneg (f.leftIn room items) (b := growers items) (by omega)
    rw [getElem?_lengths_of_grows f room hi hgrows] at hlength
    obtain rfl := Option.some.inj hlength
    split <;> omega

variable (hgrow : 1 ≤ growers items)
  (hleft : f.leftIn room items = room - fixed items - f.gaps items.length)

include hgrow hleft

/-- With an item that grows the lengths and the gaps fill the line. -/
theorem sum_lengths : (f.lengths room items).sum + f.gaps items.length = room := by
  have hshares := Int.ediv_mul_add_emod (f.leftIn room items) (growers items)
  rw [lengths_eq_shareOut, sum_shareOut, if_neg (by omega)]
  omega

/-- So each item begins a gap behind the one before, however the line is
aligned. -/
theorem startIn_filled (i : Nat) :
    f.startIn room items i = ((f.lengths room items).take i).sum + f.gap * i := by
  have hfree : f.freeOn room items = 0 := by
    rw [freeOn, sum_lengths hgrow hleft, Int.sub_self]
    rfl
  rw [startIn, spacingOn, hfree, spread_zero, Int.zero_add]

end FlowStyle

/-! ## Children -/

namespace Scene

variable {s t : Scene} {e c : Element} {p : ElementId} {rules : LayoutRules} {viewport : Size}

section Items

variable (h : t.Forest) (e : Element)

include h

theorem Forest.growers_flowItems :
    FlowStyle.growers (t.flowItems e) = (t.flowElements e).countP (·.grows) := by
  rw [h.flowItems_eq, FlowStyle.growers, List.countP_map]
  exact List.countP_congr fun c _ => by rw [Function.comp, Element.grows_flowItem]

theorem Forest.fixed_flowItems (hfirm : ∀ c ∈ t.flowElements e, c.grows = false → c.Sized) :
    FlowStyle.fixed (t.flowItems e) = (((t.flowElements e).filter (!·.grows)).map fun c =>
      (c.askedOn e.layout.direction.axis).getD 0).sum := by
  have hfilter : (t.flowItems e).filter (!·.grows) =
      ((t.flowElements e).filter (!·.grows)).map fun c => c.flowItem e.layout.direction c.id := by
    rw [h.flowItems_eq, List.filter_map]
    congr 1
    exact List.filter_congr fun c _ => by rw [Function.comp, Element.grows_flowItem]
  rw [FlowStyle.fixed, hfilter, List.map_map]
  congr 1
  apply List.map_congr_left
  intro c hc
  obtain ⟨hmem, hgrows⟩ := List.mem_filter.mp hc
  obtain ⟨n, hn, -⟩ := hfirm c hmem (by simpa using hgrows) e.layout.direction.axis
  rw [Function.comp, Element.main_flowItem, hn]
  rfl

/-- An item that does not grow asks for a length. -/
theorem Forest.one_le_main (hfirm : ∀ c ∈ t.flowElements e, c.grows = false → c.Sized) :
    ∀ item ∈ t.flowItems e, item.grows = false → 1 ≤ item.main := by
  rw [h.flowItems_eq]
  intro item hitem hgrows
  obtain ⟨c, hc, rfl⟩ := List.mem_map.mp hitem
  obtain ⟨n, hn, hpos⟩ := hfirm c hc (Element.grows_flowItem .. ▸ hgrows) e.layout.direction.axis
  rwa [Element.main_flowItem, hn]

theorem Forest.fixed_nonneg (hfirm : ∀ c ∈ t.flowElements e, c.grows = false → c.Sized) :
    0 ≤ FlowStyle.fixed (t.flowItems e) := by
  apply List.sum_nonneg
  intro m hm
  obtain ⟨item, hitem, rfl⟩ := List.mem_map.mp hm
  obtain ⟨hmem, hgrows⟩ := List.mem_filter.mp hitem
  have hpos := h.one_le_main e hfirm item hmem (by simpa using hgrows)
  omega

end Items

section Filled

variable (ht : LaidOut rules viewport t) (he : t.get? p = some e) (hstays : t.Stays viewport p e)
  (hwraps : e.layout.wraps = false)

include ht he hstays hwraps

/-- A child that grows and asks for no size across is as wide as there is
room for it. -/
theorem LaidOut.grown_across (hc : c ∈ t.flowElements e) (hgrows : c.grows)
    (hasked : c.askedOn e.layout.direction.crossAxis = none)
    (hpos : 1 ≤ e.contentRect.lengthOn e.layout.direction.crossAxis) :
    c.rect.lengthOn e.layout.direction.crossAxis =
      e.contentRect.lengthOn e.layout.direction.crossAxis := by
  obtain ⟨i, hi⟩ := List.mem_iff_getElem?.mp hc
  obtain ⟨length, hlength⟩ :=
    ht.forest.exists_length hi (e.contentRect.lengthOn e.layout.direction.axis)
  obtain ⟨r, hrect, -, hwide, -⟩ := ht.settled_on_line he hstays hwraps hi hlength
  rw [FlowStyle.itemCross, Element.crossAsked_flowItem, hasked, Option.getD_none,
    Element.grows_flowItem, hgrows, Bool.true_or, if_pos rfl] at hwide
  rw [hrect, Element.lengthOn_settle_of_firm _ _ (hwide ▸ hpos) (.inl hgrows), hwide]

variable (hfirm : ∀ c ∈ t.flowElements e, c.grows = false → c.Sized)
  (hleft : (FlowStyle.growers (t.flowItems e) : Int) ≤
    e.flowStyle.leftIn (e.contentRect.lengthOn e.layout.direction.axis) (t.flowItems e))
  {i : Nat} (hi : (t.flowElements e)[i]? = some c)

include hfirm hleft hi

/-- Settling moves no child of a line that is filled, and changes no
length. -/
theorem LaidOut.filled :
    let room := e.contentRect.lengthOn e.layout.direction.axis
    (e.flowStyle.lengths room (t.flowItems e))[i]? =
        some (c.rect.lengthOn e.layout.direction.axis) ∧
      c.rect.startOn e.layout.direction.axis = wrap (e.layout.direction.placeIn e.contentRect
        (e.flowStyle.startIn room (t.flowItems e) i)
        (c.rect.lengthOn e.layout.direction.axis)) := by
  intro room
  obtain ⟨length, hlength⟩ := ht.forest.exists_length hi room
  have hpos := FlowStyle.one_le_lengths (ht.forest.one_le_main e hfirm) hleft hlength
  have hcfirm : c.grows = true ∨ (c.askedOn e.layout.direction.axis).isSome := by
    cases hgrows : c.grows with
    | true => exact .inl rfl
    | false =>
      obtain ⟨n, hn, -⟩ := hfirm c (List.mem_of_getElem? hi) hgrows e.layout.direction.axis
      exact .inr (hn ▸ rfl)
  obtain ⟨hkept, hstart⟩ := ht.on_line he hstays hwraps hi hlength hpos hcfirm
  exact ⟨hlength.trans (congrArg some hkept.symm), hstart⟩

/-- A child of a line that is filled begins behind the lengths and the gaps
before it. -/
theorem LaidOut.start_filled (hgrow : 1 ≤ FlowStyle.growers (t.flowItems e))
    (hshared : e.flowStyle.leftIn (e.contentRect.lengthOn e.layout.direction.axis) (t.flowItems e) =
      e.contentRect.lengthOn e.layout.direction.axis - FlowStyle.fixed (t.flowItems e) -
        e.flowStyle.gaps (t.flowItems e).length) :
    let room := e.contentRect.lengthOn e.layout.direction.axis
    let offset := ((e.flowStyle.lengths room (t.flowItems e)).take i).sum + e.flowStyle.gap * i
    wrap (e.layout.direction.offsetIn e.contentRect c.rect) = offset ∧
      (e.contentRect.FitsOn e.layout.direction.axis →
        e.layout.direction.offsetIn e.contentRect c.rect = offset) := by
  intro room offset
  obtain ⟨hlength, hplace⟩ := ht.filled he hstays hwraps hfirm hleft hi
  rw [FlowStyle.startIn_filled hgrow hshared] at hplace
  have hgap : 0 ≤ e.flowStyle.gap := Int.le_max_right _ _
  have hpieces : ∀ m ∈ e.flowStyle.lengths room (t.flowItems e), 0 ≤ m := by
    intro m hm
    obtain ⟨j, hj⟩ := List.mem_iff_getElem?.mp hm
    have hpos := FlowStyle.one_le_lengths (ht.forest.one_le_main e hfirm) hleft hj
    omega
  have hbegin : 0 ≤ offset := piece_nonneg hpieces hgap i
  have hlong : 0 ≤ c.rect.lengthOn e.layout.direction.axis :=
    hpieces _ (List.mem_of_getElem? hlength)
  have hinside : offset + c.rect.lengthOn e.layout.direction.axis ≤ room := by
    have hend := piece_end_le hpieces hgap hlength
    rw [FlowStyle.length_lengths, ← FlowStyle.gaps,
      FlowStyle.sum_lengths hgrow hshared] at hend
    exact hend
  have hlarge : room < 0x80000000 := (e.lengthOn_contentWithin e.rect _).2
  exact ⟨Direction.wrap_offsetIn hplace ⟨by omega, by omega⟩, fun hbox =>
    Direction.offsetIn_of_fits hplace (Direction.fits_placeIn hbox hbegin hlong hinside)⟩

end Filled

/-- A container in a root, with a row in it that runs from the right. A
fixed element is between two that grow. The second of those asks for a
width, which does not count. -/
def tray : Scene :=
  let plain := empty.after
    [.push (.document 0) (.ofWidget .app), .push (.document 1) (.ofWidget .container),
      .push (.document 2) (.ofWidget .container), .push (.document 3) (.ofWidget .image),
      .push (.document 4) (.ofWidget .container), .link ⟨0⟩ ⟨1⟩, .link ⟨1⟩ ⟨2⟩,
      .link ⟨1⟩ ⟨3⟩, .link ⟨1⟩ ⟨4⟩]
  let reverse := plain.modify ⟨1⟩ fun e =>
    { e with
      layout := ⟨14⟩
      look := { e.look with padding := .uniform 1 }
      sizing := { e.sizing with gap := 2, width := some 33, height := some 5 } }
  let growing := reverse.modify ⟨2⟩ fun e => { e with layout := ⟨32⟩ }
  let fixed := growing.modify ⟨3⟩ fun e =>
    { e with sizing := { e.sizing with width := some 4, height := some 2 } }
  fixed.modify ⟨4⟩ fun e =>
    { e with layout := ⟨32⟩, sizing := { e.sizing with width := some 9 } }

theorem forest_tray : tray.Forest := by
  refine ((((forest_after _).modify ?_ _).modify ?_ _).modify ?_ _).modify ?_ _ <;>
    constructor <;> intro <;> rfl

end Scene

end SceneTree
