import SceneTree.Proofs.Layout.Hug
import SceneTree.Proofs.Layout.LaidOut

/-!
# The children on one line

The flow of an element divides the box that is inside the rectangle the
element was put at. When the element settles, the rectangle may change. If
it does not (`Scene.Stays`), the box that was divided is the content box the
element has in the end, and where its children stand can be said in terms
of it.

That is done here for an element that puts its children on one line, as
pieces with the same space between any two (`piece_succ`, `piece_next`). A
child that grows, or asks for a length, keeps the length that the line gave
it, and stands where the line put it, counted along the direction from the
end where that begins (`LaidOut.on_line`).
-/

namespace SceneTree

open Word (wrap)

/-! ## Pieces -/

section Pieces

variable {lengths : List Int} {spacing m : Int} {i j : Nat}

/-- Of pieces with the same space between any two, the next one begins that
much behind each. -/
theorem piece_succ (hi : lengths[i]? = some m) :
    (lengths.take (i + 1)).sum + spacing * (i + 1 : Nat) =
      (lengths.take i).sum + spacing * i + m + spacing := by
  obtain ⟨hlt, rfl⟩ := List.getElem?_eq_some_iff.mp hi
  rw [lengths.sum_take_succ i hlt]
  push_cast
  rw [Int.mul_add]
  omega

/-- The last one ends where they all do. -/
theorem last_piece_end (hi : lengths[i]? = some m) (hlast : i + 1 = lengths.length) :
    (lengths.take i).sum + spacing * i + m = lengths.sum + spacing * (lengths.length - 1) := by
  have hnext : _ = (lengths.take i).sum + spacing * i + m + spacing := piece_succ hi
  rw [hlast, List.take_length] at hnext
  rw [Int.mul_sub]
  omega

section

variable (hpos : ∀ m ∈ lengths, 0 ≤ m) (hspacing : 0 ≤ spacing)

include hpos hspacing

/-- None begins before the first. -/
theorem piece_nonneg (i : Nat) : 0 ≤ (lengths.take i).sum + spacing * i :=
  Int.add_nonneg (List.sum_nonneg fun m hm => hpos m (List.mem_of_mem_take hm))
    (Int.mul_nonneg hspacing (Int.natCast_nonneg i))

/-- A later one begins no nearer than the next. -/
theorem piece_next (hi : lengths[i]? = some m) (hij : i < j) :
    (lengths.take i).sum + spacing * i + m + spacing ≤ (lengths.take j).sum + spacing * j := by
  have hsplit := (lengths.take j).sum_take_add_sum_drop (i + 1)
  rw [List.take_take, Nat.min_eq_left (show i + 1 ≤ j from hij)] at hsplit
  have hrest : 0 ≤ ((lengths.take j).drop (i + 1)).sum := by
    apply List.sum_nonneg
    intro x hx
    exact hpos x (List.mem_of_mem_take (List.mem_of_mem_drop hx))
  have hspaces : spacing * (i + 1 : Nat) ≤ spacing * j :=
    Int.mul_le_mul_of_nonneg_left (by omega) hspacing
  rw [← piece_succ hi]
  omega

/-- Each ends before all of them do. -/
theorem piece_end_le (hi : lengths[i]? = some m) :
    (lengths.take i).sum + spacing * i + m ≤ lengths.sum + spacing * (lengths.length - 1) := by
  have hnext := piece_next hpos hspacing hi (List.getElem?_eq_some_iff.mp hi).1
  rw [List.take_length] at hnext
  rw [Int.mul_sub]
  omega

end

end Pieces

/-! ## Rectangles -/

/-- How far along a direction a rectangle begins in a box. A reverse
direction is counted from the far edge of the box. -/
def Direction.offsetIn (d : Direction) (box r : Rect) : Int :=
  if d.isReverse then box.endOn d.axis - r.endOn d.axis else r.startOn d.axis - box.startOn d.axis

/-- Where on its axis a piece of some length begins that stands so far along
a direction in a box. -/
def Direction.placeIn (d : Direction) (box : Rect) (offset length : Int) : Int :=
  if d.isReverse then box.endOn d.axis - offset - length else box.startOn d.axis + offset

namespace Direction

variable {d : Direction} {box r : Rect} {offset : Int}

/-- In words, a piece in its place is as far along as it was put. -/
theorem wrap_offsetIn (h : r.startOn d.axis = wrap (d.placeIn box offset (r.lengthOn d.axis)))
    (hword : Word.Fits offset) : wrap (d.offsetIn box r) = offset := by
  have hround : wrap (d.offsetIn box r) = wrap offset := by
    unfold offsetIn
    unfold placeIn at h
    split at h
    next hreverse =>
      rw [if_pos hreverse, Rect.endOn, Rect.endOn, h]
      simp only [wrap, Rect.endOn]
      omega
    next hforward =>
      rw [if_neg hforward, h, Word.wrap_wrap_sub, add_sub_cancel_left]
  rw [hround, Word.wrap_of_fits hword]

/-- If the place did not wrap, it is just that far along. -/
theorem offsetIn_of_fits (h : r.startOn d.axis = wrap (d.placeIn box offset (r.lengthOn d.axis)))
    (hfits : Word.Fits (d.placeIn box offset (r.lengthOn d.axis))) :
    d.offsetIn box r = offset := by
  rw [Word.wrap_of_fits hfits] at h
  unfold offsetIn
  unfold placeIn at h
  split at h
  next hreverse =>
    rw [if_pos hreverse, Rect.endOn, Rect.endOn, h, Rect.endOn]
    omega
  next hforward => rw [if_neg hforward, h, add_sub_cancel_left]

/-- No place inside the box wraps, if none of its edges does. -/
theorem fits_placeIn (hbox : box.FitsOn d.axis) {length : Int} (hoffset : 0 ≤ offset)
    (hlength : 0 ≤ length) (hle : offset + length ≤ box.lengthOn d.axis) :
    Word.Fits (d.placeIn box offset length) := by
  have hstart := hbox.start.1
  have hfinish := hbox.finish.2
  unfold placeIn
  rw [Rect.endOn] at hfinish ⊢
  split <;> exact ⟨by omega, by omega⟩

end Direction

/-- A reverse direction counts the same places from the other end. -/
theorem FlowStyle.startOn_rectAt_placeIn (f : FlowStyle) (content : Rect)
    (start cross length width : Int) :
    (f.rectAt content
      (if f.direction.isReverse then content.lengthOn f.direction.axis - start - length else start)
      cross length width).startOn f.direction.axis =
        wrap (f.direction.placeIn content start length) := by
  rw [startOn_rectAt, Direction.placeIn, Rect.endOn]
  congr 1
  split <;> omega

/-- On one line an item is as long as the line makes it, and begins where
the line says, counted along the direction. -/
theorem FlowStyle.exists_place {f : FlowStyle} {items : List FlowItem} {item : FlowItem}
    {content : Rect} {length : Int} {i : Nat} (hwraps : f.wraps = false)
    (hi : items[i]? = some item)
    (hlength : (f.lengths (content.lengthOn f.direction.axis) items)[i]? = some length) :
    ∃ r, (item.id, r) ∈ f.place content items ∧ r.lengthOn f.direction.axis = length ∧
      r.lengthOn f.direction.crossAxis =
        itemCross (content.lengthOn f.direction.crossAxis) item ∧
      r.startOn f.direction.axis = wrap (f.direction.placeIn content
        (f.startIn (content.lengthOn f.direction.axis) items i) length) := by
  rw [place_of_not_wraps hwraps]
  exact ⟨_, List.mem_of_getElem? (getElem?_placeLine hi hlength), lengthOn_rectAt ..,
    lengthOn_crossAxis_rectAt .., startOn_rectAt_placeIn ..⟩

namespace Element

variable {e : Element}

/-- Asks for a size, one unit wide and high at least. -/
def Sized (e : Element) : Prop := ∀ a, ∃ n, e.askedOn a = some n ∧ 1 ≤ n

theorem crossAsked_flowItem (d : Direction) (id : ElementId) (c : Element) :
    (c.flowItem d id).crossAsked = c.askedOn d.crossAxis := by
  cases d <;> rfl

instance (e : Element) : Decidable e.Sized :=
  decidable_of_iff (∀ a ∈ [Axis.horizontal, .vertical], ∃ n ∈ e.askedOn a, 1 ≤ n)
    ⟨fun h a => h a (by cases a <;> simp), fun h a _ => h a⟩

/-- One that grows does not close around its children. -/
theorem settle_of_grows (h : e.grows = true) (unit : Int) (p : Placement) (children : List Rect)
    (r : Rect) : e.settle unit p children r = e.settle unit p [] r := by
  have hopen (p : Placement) : ¬ (p = .flow ∧ !e.grows) := by simp [h]
  simp only [settle, if_neg (hopen p)]

/-- One that grows, or asks for a length, is settled with the length that
it was given. -/
theorem lengthOn_settle_of_firm (unit : Int) (p : Placement) {children : List Rect} {r : Rect}
    {a : Axis} (hr : 1 ≤ r.lengthOn a) (h : e.grows = true ∨ (e.askedOn a).isSome) :
    (e.settle unit p children r).lengthOn a = r.lengthOn a := by
  rcases h with hgrows | hasked
  · rw [settle_of_grows hgrows]
    exact lengthOn_settle unit p hr (.inr rfl)
  · exact lengthOn_settle unit p hr (.inl hasked)

end Element

namespace Scene

variable {t : Scene} {e c : Element} {p : ElementId} {rules : LayoutRules} {viewport : Size}

/-- The children in the flow of an element. -/
def flowElements (s : Scene) (e : Element) : List Element := (s.flowChildren e).filterMap s.get?

theorem Forest.flowItems_eq (h : t.Forest) (e : Element) :
    t.flowItems e = (t.flowElements e).map fun c => c.flowItem e.layout.direction c.id := by
  rw [flowItems, flowElements, List.map_filterMap]
  apply List.filterMap_congr
  intro x _
  cases hx : t.get? x with
  | none => rfl
  | some c => rw [Option.map_some, Option.map_some, h.named hx]

theorem Forest.flowItems_getElem? (h : t.Forest) {i : Nat}
    (hi : (t.flowElements e)[i]? = some c) :
    (t.flowItems e)[i]? = some (c.flowItem e.layout.direction c.id) := by
  rw [h.flowItems_eq, List.getElem?_map, hi]
  rfl

/-- Each child on a line has a length there. -/
theorem Forest.exists_length (h : t.Forest) {i : Nat} (hi : (t.flowElements e)[i]? = some c)
    (room : Int) : ∃ length, (e.flowStyle.lengths room (t.flowItems e))[i]? = some length := by
  have hlt := (List.getElem?_eq_some_iff.mp (h.flowItems_getElem? hi)).1
  exact ⟨_, List.getElem?_eq_getElem ((e.flowStyle.length_lengths room _).symm ▸ hlt)⟩

theorem Forest.get?_of_mem_flowElements (h : t.Forest) (hc : c ∈ t.flowElements e) :
    t.get? c.id = some c := by
  obtain ⟨x, -, hx⟩ := List.mem_filterMap.mp hc
  rwa [h.named hx]

/-- Settling left an element at the rectangle that it was put at. -/
def Stays (t : Scene) (viewport : Size) (p : ElementId) (e : Element) : Prop :=
  ∃ q, t.Put (t.rootStarts viewport) p e.rect q

section Line

variable (ht : LaidOut rules viewport t) (he : t.get? p = some e) (hstays : t.Stays viewport p e)
  (hwraps : e.layout.wraps = false) {i : Nat} (hi : (t.flowElements e)[i]? = some c) {length : Int}
  (hlength : (e.flowStyle.lengths (e.contentRect.lengthOn e.layout.direction.axis)
    (t.flowItems e))[i]? = some length)

include ht he hstays hwraps hi hlength

/-- Each child on the line settles where the line put it. -/
theorem LaidOut.settled_on_line : ∃ r,
    c.rect = c.settle rules.settings.unit .flow (t.flowRects c) r ∧
      r.lengthOn e.layout.direction.axis = length ∧
      r.lengthOn e.layout.direction.crossAxis =
        FlowStyle.itemCross (e.contentRect.lengthOn e.layout.direction.crossAxis)
          (c.flowItem e.layout.direction c.id) ∧
      r.startOn e.layout.direction.axis = wrap (e.layout.direction.placeIn e.contentRect
        (e.flowStyle.startIn (e.contentRect.lengthOn e.layout.direction.axis) (t.flowItems e) i)
        length) := by
  obtain ⟨q, hput⟩ := hstays
  have hitem := ht.forest.flowItems_getElem? hi
  obtain ⟨r, hplaced, hr⟩ := FlowStyle.exists_place (f := e.flowStyle) hwraps hitem hlength
  rw [id_flowItem] at hplaced
  have hputc := hput.child he (mem_placeChildren.mpr (.inr ⟨rfl, hplaced⟩))
  have hc := ht.forest.get?_of_mem_flowElements (List.mem_of_getElem? hi)
  exact ⟨r, ht.settled hputc hc, hr⟩

/-- A child that grows or asks for a length is as long as the line made it
and stands where the line put it. -/
theorem LaidOut.on_line (hpos : 1 ≤ length)
    (hfirm : c.grows = true ∨ (c.askedOn e.layout.direction.axis).isSome) :
    c.rect.lengthOn e.layout.direction.axis = length ∧
      c.rect.startOn e.layout.direction.axis = wrap (e.layout.direction.placeIn e.contentRect
        (e.flowStyle.startIn (e.contentRect.lengthOn e.layout.direction.axis) (t.flowItems e) i)
        (c.rect.lengthOn e.layout.direction.axis)) := by
  obtain ⟨r, hrect, hlong, -, hstart⟩ := ht.settled_on_line he hstays hwraps hi hlength
  have hkept : c.rect.lengthOn e.layout.direction.axis = length := by
    rw [hrect, Element.lengthOn_settle_of_firm _ _ (hlong ▸ hpos) hfirm, hlong]
  refine ⟨hkept, ?_⟩
  rw [hkept, ← hstart, hrect, Element.startOn_settle]

end Line

end Scene

end SceneTree
