import SceneTree.Proofs.Layout.Aligned

/-!
# Flows in many lines

A flow of many lines goes on with a line as long as the next item still
fits, and begins another line with the first that does not
(`FlowStyle.broken_lines`). The lines follow one another across the
direction in bands, each as wide as its widest item needs it, with a gap
between any two (`FlowStyle.exists_place_on_band`).

Children of a fixed size keep the places that the flow gave them. So two of
them on one line are a gap apart along the direction, two on different lines
are a gap apart across it, and no two meet (`Scene.Forest.wraps_apart`).

Words have to hold the sums that this compares and the places it comes to.
An item that takes a sum beyond that seems to fit, and stays on its line
(`Scene.planks_share_line`).
-/

namespace SceneTree

open Word (wrap)

/-! ## Breaking -/

namespace FlowStyle

variable {f : FlowStyle} {items line rest : List FlowItem} {lines : List (List FlowItem)}
  {item : FlowItem} {available crossAvailable : Int} {i k : Nat}

/-- What the items of a line and the gaps between them take along it. -/
def extent (f : FlowStyle) (line : List FlowItem) : Int :=
  (line.map (·.main)).sum + f.gaps line.length

theorem extent_singleton (f : FlowStyle) (item : FlowItem) : f.extent [item] = item.main := by
  simp [extent, gaps]

theorem extent_concat (f : FlowStyle) (line : List FlowItem) (item : FlowItem) :
    f.extent (line ++ [item]) = f.extent line + f.gap + item.main := by
  simp only [extent, gaps, List.map_append, List.map_singleton, List.sum_append,
    List.sum_singleton, List.length_append, List.length_singleton, Nat.cast_add, Nat.cast_one,
    Int.mul_sub, Int.mul_add]
  omega

/-- Items cut into lines, each as late as possible: no line is empty, each
has a single item or fits, and none had room for the first item of the
next. -/
structure Broken (f : FlowStyle) (available : Int) (items : List FlowItem)
    (lines : List (List FlowItem)) : Prop where
  flatten : lines.flatten = items
  ne_nil : ∀ line ∈ lines, line ≠ []
  fits : ∀ line ∈ lines, line.length = 1 ∨ f.extent line ≤ available
  full : lines.IsChain fun line next =>
    ∃ first, next.head? = some first ∧ available < f.extent (line ++ [first])

/-- Another line in front of the first one, where that had no room for what
follows. -/
theorem Broken.cons (h : f.Broken available (item :: rest) lines) (hne : line ≠ [])
    (hfits : line.length = 1 ∨ f.extent line ≤ available)
    (hfull : available < f.extent (line ++ [item])) :
    f.Broken available (line ++ item :: rest) (line :: lines) where
  flatten := by rw [List.flatten_cons, h.flatten]
  ne_nil := List.forall_mem_cons.mpr ⟨hne, h.ne_nil⟩
  fits := List.forall_mem_cons.mpr ⟨hfits, h.fits⟩
  full := by
    refine List.IsChain.cons h.full fun next hnext => ⟨item, ?_, hfull⟩
    obtain ⟨others, rfl⟩ := List.head?_eq_some_iff.mp hnext
    obtain ⟨first, more, rfl⟩ := List.exists_cons_of_ne_nil (h.ne_nil next List.mem_cons_self)
    have hflatten := h.flatten
    rw [List.flatten_cons, List.cons_append] at hflatten
    rw [List.head?_cons, (List.cons.inj hflatten).1]

/-- The sums that breaking compares with the space there is, from a line on
that is `used` long. -/
def comparedAfter (available gap used : Int) : List FlowItem → List Int
  | [] => []
  | item :: rest =>
    let next := used + gap + item.main
    next :: comparedAfter available gap (if available < next then item.main else next) rest

/-- The sums that breaking compares with the space there is: what a line and
the next item take together, for each item but the first. -/
def compared (f : FlowStyle) (available : Int) : List FlowItem → List Int
  | [] => []
  | first :: rest => comparedAfter available f.gap first.main rest

theorem broken_breakAfter (line items : List FlowItem) (hne : line ≠ [])
    (hfits : line.length = 1 ∨ f.extent line ≤ available)
    (hsums : ∀ n ∈ comparedAfter available f.gap (f.extent line) items, Word.Fits n) :
    f.Broken available (line ++ items)
      (breakAfter available f.gap line (f.extent line) items) := by
  induction items generalizing line with
  | nil =>
    rw [breakAfter, List.append_nil]
    exact ⟨by simp, by simpa using hne, by simpa using hfits, .singleton line⟩
  | cons item rest ih =>
    rw [comparedAfter, ← extent_concat] at hsums
    obtain ⟨hsum, hsums⟩ := List.forall_mem_cons.mp hsums
    rw [breakAfter, ← extent_concat, Word.wrap_of_fits hsum]
    split
    next hfull =>
      rw [if_pos hfull, ← extent_singleton f] at hsums
      have hrest := ih [item] (List.cons_ne_nil _ _) (.inl rfl) hsums
      rw [extent_singleton, List.singleton_append] at hrest
      exact hrest.cons hne hfits hfull
    next hroom =>
      rw [if_neg hroom] at hsums
      have hrest := ih (line ++ [item]) (by simp) (.inr (Int.not_lt.mp hroom)) hsums
      rwa [List.append_assoc, List.singleton_append] at hrest

/-- A flow of many lines cuts its items into lines as late as possible, if
words hold the sums that it compares. Without items there is one line, and
it is empty. -/
theorem broken_lines (hwraps : f.wraps) (available : Int) (hne : items ≠ [])
    (hsums : ∀ n ∈ f.compared available items, Word.Fits n) :
    f.Broken available items (f.lines available items) := by
  cases items with
  | nil => exact absurd rfl hne
  | cons first rest =>
    rw [compared, ← extent_singleton f] at hsums
    have hfirst : f.Broken available _ _ :=
      broken_breakAfter [first] rest (List.cons_ne_nil _ _) (.inl rfl) hsums
    rw [extent_singleton, List.singleton_append] at hfirst
    rwa [lines, if_pos hwraps]

/-! ## Bands -/

/-- Where a line begins across the direction: behind the lines before it and
the gaps. -/
def bandStart (f : FlowStyle) (crossAvailable : Int) (lines : List (List FlowItem)) (k : Nat) :
    Int :=
  ((lines.map (f.lineCross crossAvailable)).take k).sum + f.gap * k

/-- What the lines and the gaps between them take across the direction. -/
def stack (f : FlowStyle) (crossAvailable : Int) (lines : List (List FlowItem)) : Int :=
  (lines.map (f.lineCross crossAvailable)).sum + f.gaps lines.length

theorem bandStart_succ (f : FlowStyle) (crossAvailable : Int) (line : List FlowItem)
    (lines : List (List FlowItem)) (k : Nat) :
    f.bandStart crossAvailable (line :: lines) (k + 1) =
      f.lineCross crossAvailable line + f.gap + f.bandStart crossAvailable lines k := by
  rw [bandStart, bandStart, List.map_cons, List.take_succ_cons, List.sum_cons]
  push_cast
  rw [Int.mul_add]
  omega

/-- Each line is placed in its band. -/
theorem placeLine_subset (hk : lines[k]? = some line) (content : Rect)
    (available crossAvailable offset : Int) :
    f.placeLine content available (f.lineCross crossAvailable line)
        (offset + f.bandStart crossAvailable lines k) line ⊆
      f.placeLines content available crossAvailable offset lines := by
  induction lines generalizing offset k with
  | nil => cases hk
  | cons first rest ih =>
    rw [placeLines]
    cases k with
    | zero =>
      obtain rfl := Option.some.inj hk
      have hzero : offset + f.bandStart crossAvailable (first :: rest) 0 = offset := by
        simp [bandStart]
      rw [hzero]
      exact List.subset_append_left _ _
    | succ k =>
      have hnext : offset + f.bandStart crossAvailable (first :: rest) (k + 1) =
          offset + f.lineCross crossAvailable first + f.gap +
            f.bandStart crossAvailable rest k := by
        rw [bandStart_succ]
        omega
      rw [hnext]
      exact List.Subset.trans (ih hk _) (List.subset_append_right _ _)

/-- An item is as long as its line makes it and begins where the line says,
counted along the direction. Across, it stands in the band of the line. -/
theorem exists_place_on_band {content : Rect} {length : Int} {l : List FlowItem}
    (hk : (f.lines (content.lengthOn f.direction.axis) items)[k]? = some l)
    (hi : l[i]? = some item)
    (hlength : (f.lengths (content.lengthOn f.direction.axis) l)[i]? = some length) :
    let height := f.lineCross (content.lengthOn f.direction.crossAxis) l
    let lines := f.lines (content.lengthOn f.direction.axis) items
    ∃ r, (item.id, r) ∈ f.place content items ∧ r.lengthOn f.direction.axis = length ∧
      r.lengthOn f.direction.crossAxis = itemCross height item ∧
      r.startOn f.direction.axis = wrap (f.direction.placeIn content
        (f.startIn (content.lengthOn f.direction.axis) l i) length) ∧
      r.startOn f.direction.crossAxis = wrap (content.startOn f.direction.crossAxis +
        (f.bandStart (content.lengthOn f.direction.crossAxis) lines k +
          f.crossStart height (itemCross height item))) := by
  intro height lines
  have hplaced := placeLine_subset hk content (content.lengthOn f.direction.axis)
    (content.lengthOn f.direction.crossAxis) 0 (List.mem_of_getElem? (getElem?_placeLine hi hlength))
  rw [← place_eq, Int.zero_add] at hplaced
  exact ⟨_, hplaced, lengthOn_rectAt .., lengthOn_crossAxis_rectAt ..,
    startOn_rectAt_placeIn .., startOn_crossAxis_rectAt ..⟩

/-- A line that wraps is wide enough for its items, if they ask for something. -/
theorem ownCross_le_lineCross (hwraps : f.wraps) (hpos : ∀ i ∈ line, 1 ≤ i.ownCross)
    (hitem : item ∈ line) (available : Int) : item.ownCross ≤ f.lineCross available line := by
  have hmem : item.ownCross ∈ line.map FlowItem.ownCross := List.mem_map.mpr ⟨item, hitem, rfl⟩
  obtain ⟨widest, hwidest⟩ : ∃ n, (line.map FlowItem.ownCross).max? = some n :=
    Option.isSome_iff_exists.mp (List.isSome_max?_of_mem hmem)
  have hle := (List.max?_eq_some_iff.mp hwidest).2 _ hmem
  have hfirst := hpos item hitem
  have hlarge : ((line.map fun i => i.crossAsked.getD i.cross).max?).getD 0 = widest := by
    rw [show (line.map fun i => i.crossAsked.getD i.cross) = line.map FlowItem.ownCross from rfl,
      hwidest, Option.getD_some]
  have hwide : 0 < widest := by omega
  simp only [lineCross, hlarge, hwraps, Bool.true_and, decide_eq_true_eq, if_pos hwide]
  exact hle

theorem lineCross_nonneg (hwraps : f.wraps) (hpos : ∀ i ∈ line, 1 ≤ i.ownCross) (hne : line ≠ [])
    (available : Int) : 0 ≤ f.lineCross available line := by
  obtain ⟨item, hitem⟩ := List.exists_mem_of_ne_nil line hne
  have hle := ownCross_le_lineCross hwraps hpos hitem available
  have hfirst := hpos item hitem
  omega

end FlowStyle

/-! ## Apart -/

/-- A point is in a rectangle if on each axis it is in between. -/
def Rect.Covers (r : Rect) (x y : Int) : Prop :=
  (r.x ≤ x ∧ x < r.x + r.width) ∧ r.y ≤ y ∧ y < r.y + r.height

/-- No point lies in both rectangles. -/
def Rect.Apart (r q : Rect) : Prop := ∀ x y, ¬ (r.Covers x y ∧ q.Covers x y)

theorem Rect.apart_of_endOn_le {a : Axis} {r q : Rect} (h : r.endOn a ≤ q.startOn a) :
    r.Apart q := by
  rintro x y ⟨⟨⟨-, hright⟩, -, hbottom⟩, ⟨hleft, -⟩, htop, -⟩
  cases a with
  | horizontal => exact absurd (Int.le_trans h hleft) (Int.not_le.mpr hright)
  | vertical => exact absurd (Int.le_trans h htop) (Int.not_le.mpr hbottom)

theorem Rect.Apart.symm {r q : Rect} (h : r.Apart q) : q.Apart r := fun x y hm => h x y hm.symm

/-- Going along a direction, one rectangle ends before the other begins, a
gap before it at least. -/
def Direction.Clears (d : Direction) (gap : Int) (r q : Rect) : Prop :=
  if d.isReverse then q.endOn d.axis + gap ≤ r.startOn d.axis
  else r.endOn d.axis + gap ≤ q.startOn d.axis

namespace Direction

variable {d : Direction} {gap : Int} {r q : Rect}

theorem clears_of_offsetIn (box : Rect)
    (h : d.offsetIn box r + r.lengthOn d.axis + gap ≤ d.offsetIn box q) : d.Clears gap r q := by
  unfold Clears
  unfold offsetIn at h
  split at h
  next hreverse =>
    rw [if_pos hreverse]
    simp only [Rect.endOn] at h ⊢
    omega
  next hforward =>
    rw [if_neg hforward, Rect.endOn]
    omega

theorem Clears.apart (h : d.Clears gap r q) (hgap : 0 ≤ gap) : r.Apart q := by
  unfold Clears at h
  split at h
  next => exact (Rect.apart_of_endOn_le (show q.endOn d.axis ≤ r.startOn d.axis by omega)).symm
  next => exact Rect.apart_of_endOn_le (show r.endOn d.axis ≤ q.startOn d.axis by omega)

end Direction

/-- One that asks for a size and gets it stays where it is put. -/
theorem Element.settle_of_sized {e : Element} (h : e.Sized) (unit : Int) (p : Placement)
    (children : List Rect) {r : Rect} (hr : r.Visible) : e.settle unit p children r = r := by
  refine settle_eq_self unit p hr (closeAround_eq_self fun _ a hnone => ?_)
  obtain ⟨n, hn, -⟩ := h a
  rw [hn] at hnone
  cases hnone

/-! ## Children -/

namespace Scene

variable {s t : Scene} {e c : Element} {p : ElementId} {rules : LayoutRules} {viewport : Size}
  {box outer : Rect} {q : Placement} {l l' : List Element} {i j k m : Nat}

/-- The lines in which the children of an element stand in a box. -/
def linesIn (t : Scene) (e : Element) (box : Rect) : List (List Element) :=
  (e.flowStyle.lines (box.lengthOn e.layout.direction.axis) (t.flowItems e)).map fun line =>
    line.filterMap fun i => t.get? i.id

/-- Words hold what the lines of an element come to in a box: the sums that
breaking compares, the far edge of the box along the direction, and across
it the stack of the lines and where that ends. -/
structure LinesFit (t : Scene) (e : Element) (box : Rect) : Prop where
  compared : ∀ n ∈ e.flowStyle.compared (box.lengthOn e.layout.direction.axis) (t.flowItems e),
    Word.Fits n
  along : box.FitsOn e.layout.direction.axis
  stack : Word.Fits (e.flowStyle.stack (box.lengthOn e.layout.direction.crossAxis)
    (e.flowStyle.lines (box.lengthOn e.layout.direction.axis) (t.flowItems e)))
  across : Word.Fits (box.startOn e.layout.direction.crossAxis +
    e.flowStyle.stack (box.lengthOn e.layout.direction.crossAxis)
      (e.flowStyle.lines (box.lengthOn e.layout.direction.axis) (t.flowItems e)))

instance (t : Scene) (e : Element) (box : Rect) : Decidable (t.LinesFit e box) :=
  let f := e.flowStyle
  let room := box.lengthOn e.layout.direction.axis
  let stack := f.stack (box.lengthOn e.layout.direction.crossAxis) (f.lines room (t.flowItems e))
  decidable_of_iff
    ((∀ n ∈ f.compared room (t.flowItems e), Word.Fits n) ∧ box.FitsOn e.layout.direction.axis ∧
      Word.Fits stack ∧ Word.Fits (box.startOn e.layout.direction.crossAxis + stack))
    ⟨fun ⟨h₁, h₂, h₃, h₄⟩ => ⟨h₁, h₂, h₃, h₄⟩, fun h => ⟨h.compared, h.along, h.stack, h.across⟩⟩

namespace Forest

/-- Items of the flow are the items of the elements they stand for. -/
theorem map_filterMap_flowItems (h : t.Forest) {items : List FlowItem}
    (hitems : ∀ i ∈ items, i ∈ t.flowItems e) :
    (items.filterMap fun i => t.get? i.id).map
      (fun c => c.flowItem e.layout.direction c.id) = items := by
  rw [List.map_filterMap]
  refine (List.filterMap_congr fun i hi => ?_).trans List.filterMap_some
  obtain ⟨c, hc, rfl⟩ := List.mem_map.mp (h.flowItems_eq e ▸ hitems i hi)
  rw [id_flowItem, h.get?_of_mem_flowElements hc, Option.map_some]

/-- Each child stands on one of the lines, in order. -/
theorem flatten_linesIn (h : t.Forest) (e : Element) (box : Rect) :
    (t.linesIn e box).flatten = t.flowElements e := by
  rw [linesIn, ← List.filterMap_flatten, FlowStyle.flatten_lines, h.flowItems_eq,
    List.filterMap_map]
  refine (List.filterMap_congr fun c hc => ?_).trans List.filterMap_some
  rw [Function.comp, id_flowItem, h.get?_of_mem_flowElements hc]

theorem linesIn_getElem? (h : t.Forest) (hk : (t.linesIn e box)[k]? = some l) :
    (e.flowStyle.lines (box.lengthOn e.layout.direction.axis) (t.flowItems e))[k]? =
      some (l.map fun c => c.flowItem e.layout.direction c.id) := by
  rw [linesIn, List.getElem?_map] at hk
  obtain ⟨items, hitems, rfl⟩ := Option.map_eq_some_iff.mp hk
  rw [hitems, h.map_filterMap_flowItems]
  intro i hi
  rw [← FlowStyle.flatten_lines e.flowStyle (box.lengthOn e.layout.direction.axis) (t.flowItems e)]
  exact List.mem_flatten.mpr ⟨items, List.mem_of_getElem? hitems, hi⟩

theorem mem_flowElements_of_line (h : t.Forest) (hl : l ∈ t.linesIn e box) (hc : c ∈ l) :
    c ∈ t.flowElements e := by
  rw [← h.flatten_linesIn e box]
  exact List.mem_flatten.mpr ⟨l, hl, hc⟩

end Forest

section Wrapped

variable (ht : LaidOut rules viewport t) (he : t.get? p = some e)
  (hput : t.Put (t.rootStarts viewport) p outer q) (hwraps : e.layout.wraps)
  (hfirm : ∀ c ∈ t.flowElements e, c.grows = false ∧ c.Sized)
  (hk : (t.linesIn e (e.contentWithin outer))[k]? = some l)

include ht hfirm hk

/-- What is asked of the children of a line, as items of the flow. -/
theorem LaidOut.asks_on_line (hc : c ∈ l) : c ∈ t.flowElements e ∧ c.grows = false ∧
    1 ≤ (c.flowItem e.layout.direction c.id).main ∧
    1 ≤ (c.flowItem e.layout.direction c.id).ownCross := by
  have hflow := ht.forest.mem_flowElements_of_line (List.mem_of_getElem? hk) hc
  obtain ⟨hgrows, hsized⟩ := hfirm c hflow
  obtain ⟨main, hmain, hmainPos⟩ := hsized e.layout.direction.axis
  obtain ⟨cross, hcross, hcrossPos⟩ := hsized e.layout.direction.crossAxis
  rw [Element.main_flowItem, Element.ownCross_flowItem, hmain, hcross]
  exact ⟨hflow, hgrows, hmainPos, hcrossPos⟩

theorem LaidOut.lengths_on_line (room : Int) :
    e.flowStyle.lengths room (l.map fun c => c.flowItem e.layout.direction c.id) =
      l.map fun c => (c.flowItem e.layout.direction c.id).main := by
  rw [FlowStyle.lengths_of_not_grows, List.map_map]
  · rfl
  · intro i hi
    obtain ⟨c, hc, rfl⟩ := List.mem_map.mp hi
    rw [Element.grows_flowItem]
    exact (ht.asks_on_line hfirm hk hc).2.1

include he hput

/-- A child on a line is placed where the line puts it, in the band of the
line, at the size it asks for. -/
theorem LaidOut.exists_placed_on_band (hi : l[i]? = some c) :
    let d := e.layout.direction
    let box := e.contentWithin outer
    let items := l.map fun c => c.flowItem d c.id
    let height := e.flowStyle.lineCross (box.lengthOn d.crossAxis) items
    let lines := e.flowStyle.lines (box.lengthOn d.axis) (t.flowItems e)
    ∃ r, t.Put (t.rootStarts viewport) c.id r .flow ∧
      r.lengthOn d.axis = (c.flowItem d c.id).main ∧
      r.lengthOn d.crossAxis = (c.flowItem d c.id).ownCross ∧
      r.startOn d.axis = wrap (d.placeIn box
        (e.flowStyle.startIn (box.lengthOn d.axis) items i) (r.lengthOn d.axis)) ∧
      r.startOn d.crossAxis = wrap (box.startOn d.crossAxis +
        (e.flowStyle.bandStart (box.lengthOn d.crossAxis) lines k +
          e.flowStyle.crossStart height (r.lengthOn d.crossAxis))) := by
  intro d box items height lines
  obtain ⟨hflow, hgrows, -⟩ := ht.asks_on_line hfirm hk (List.mem_of_getElem? hi)
  have hitem : items[i]? = some (c.flowItem d c.id) := by
    rw [List.getElem?_map, hi, Option.map_some]
  have hlength : (e.flowStyle.lengths (box.lengthOn d.axis) items)[i]? =
      some (c.flowItem d c.id).main := by
    rw [ht.lengths_on_line hfirm hk, List.getElem?_map, hi, Option.map_some]
  have hown : FlowStyle.itemCross height (c.flowItem d c.id) = (c.flowItem d c.id).ownCross := by
    obtain ⟨n, hn, -⟩ := (hfirm c hflow).2 d.crossAxis
    refine FlowStyle.itemCross_of_not_grows height ((Element.grows_flowItem ..).trans hgrows) ?_
    rw [Element.crossAsked_flowItem, hn]
    exact fun hnone => nomatch hnone
  obtain ⟨r, hplaced, hlong, hwide, hplace, hstart⟩ := FlowStyle.exists_place_on_band
    (f := e.flowStyle) (ht.forest.linesIn_getElem? hk) hitem hlength
  rw [id_flowItem] at hplaced
  have hputc := hput.child he (mem_placeChildren.mpr (.inr ⟨rfl, hplaced⟩))
  exact ⟨r, hputc, hlong, hwide.trans hown, hlong ▸ hplace, hwide ▸ hstart⟩

include hwraps

/-- A child on a line has the size it asks for, and stands where the line
put it, in the band of the line. -/
theorem LaidOut.on_band (hi : l[i]? = some c) :
    let d := e.layout.direction
    let box := e.contentWithin outer
    let items := l.map fun c => c.flowItem d c.id
    let height := e.flowStyle.lineCross (box.lengthOn d.crossAxis) items
    let lines := e.flowStyle.lines (box.lengthOn d.axis) (t.flowItems e)
    c.rect.lengthOn d.axis = (c.flowItem d c.id).main ∧
      c.rect.startOn d.axis = wrap (d.placeIn box
        (e.flowStyle.startIn (box.lengthOn d.axis) items i) (c.rect.lengthOn d.axis)) ∧
      (1 ≤ c.rect.lengthOn d.crossAxis ∧ c.rect.lengthOn d.crossAxis ≤ height) ∧
      c.rect.startOn d.crossAxis = wrap (box.startOn d.crossAxis +
        (e.flowStyle.bandStart (box.lengthOn d.crossAxis) lines k +
          e.flowStyle.crossStart height (c.rect.lengthOn d.crossAxis))) := by
  intro d box items height lines
  have hc := List.mem_of_getElem? hi
  obtain ⟨hflow, -, hmain, hcross⟩ := ht.asks_on_line hfirm hk hc
  obtain ⟨r, hputc, hlong, hwide, hplace, hstart⟩ :=
    ht.exists_placed_on_band he hput hfirm hk hi
  have hvisible : r.Visible := by
    have hon (a : Axis) : 1 ≤ r.lengthOn a := by
      rcases a.eq_or d.axis with rfl | rfl
      · exact hlong ▸ hmain
      · exact hcross.trans_eq hwide.symm
    exact ⟨hon .horizontal, hon .vertical⟩
  have hfit : (c.flowItem d c.id).ownCross ≤ height := by
    refine FlowStyle.ownCross_le_lineCross hwraps (fun i hi => ?_)
      (List.mem_map.mpr ⟨c, hc, rfl⟩) _
    obtain ⟨c', hc', rfl⟩ := List.mem_map.mp hi
    exact (ht.asks_on_line hfirm hk hc').2.2.2
  have hrect : c.rect = r := by
    rw [ht.settled hputc (ht.forest.get?_of_mem_flowElements hflow)]
    exact Element.settle_of_sized (hfirm c hflow).2 _ _ _ hvisible
  rw [hrect]
  exact ⟨hlong, hplace, hwide ▸ ⟨hcross, hfit⟩, hstart⟩

variable (hwords : t.LinesFit e (e.contentWithin outer))

include hwords

omit he hput in
/-- Where there is a child, the lines are cut as late as possible. -/
theorem LaidOut.broken_of_mem (hc : c ∈ l) :
    e.flowStyle.Broken ((e.contentWithin outer).lengthOn e.layout.direction.axis) (t.flowItems e)
      (e.flowStyle.lines ((e.contentWithin outer).lengthOn e.layout.direction.axis)
        (t.flowItems e)) := by
  have hflow := (ht.asks_on_line hfirm hk hc).1
  refine FlowStyle.broken_lines hwraps _ ?_ hwords.compared
  rw [ht.forest.flowItems_eq]
  exact List.ne_nil_of_mem (List.mem_map_of_mem hflow)

/-- Of two children on one line, the later one begins behind the other and a
gap. -/
theorem LaidOut.clears_on_line {a b : Element} (hij : i < j) (ha : l[i]? = some a)
    (hb : l[j]? = some b) :
    e.layout.direction.Clears (max e.sizing.gap 0) a.rect b.rect := by
  let room := (e.contentWithin outer).lengthOn e.layout.direction.axis
  let items := l.map fun c => c.flowItem e.layout.direction c.id
  have hgap : max e.sizing.gap 0 ≤ e.flowStyle.spacingOn room items :=
    e.flowStyle.gap_le_spacingOn room items
  have hlengths : e.flowStyle.lengths room items =
      l.map fun c => (c.flowItem e.layout.direction c.id).main :=
    ht.lengths_on_line hfirm hk room
  have hpos : ∀ n ∈ e.flowStyle.lengths room items, 0 ≤ n := by
    rw [hlengths]
    intro n hn
    obtain ⟨c, hc, rfl⟩ := List.mem_map.mp hn
    have hmain := (ht.asks_on_line hfirm hk hc).2.2.1
    omega
  have hlength {i : Nat} {c : Element} (hi : l[i]? = some c) :
      (e.flowStyle.lengths room items)[i]? = some (c.rect.lengthOn e.layout.direction.axis) := by
    rw [hlengths, List.getElem?_map, hi, Option.map_some,
      (ht.on_band he hput hwraps hfirm hk hi).1]
  -- There are two of them, so the line is not one that is too long for its
  -- only item.
  have hfit : (e.flowStyle.lengths room items).sum + e.flowStyle.gaps items.length ≤ room := by
    have hbroken := ht.broken_of_mem hwraps hfirm hk hwords (List.mem_of_getElem? ha)
    have hline := List.mem_of_getElem? (ht.forest.linesIn_getElem? hk)
    have hlt : j < items.length := by
      rw [List.length_map]
      exact (List.getElem?_eq_some_iff.mp hb).1
    rcases hbroken.fits items hline with hsingle | hfit
    · omega
    · rw [hlengths]
      rwa [FlowStyle.extent, List.map_map] at hfit
  have hoffset {i : Nat} {c : Element} (hi : l[i]? = some c) :
      e.layout.direction.offsetIn (e.contentWithin outer) c.rect =
        e.flowStyle.startIn room items i := by
    obtain ⟨hstart, hend⟩ := FlowStyle.startIn_inside (e.lengthOn_contentWithin outer _)
      (Int.le_max_right _ _) hpos hfit (hlength hi)
    exact Direction.offsetIn_of_fits (ht.on_band he hput hwraps hfirm hk hi).2.1
      (Direction.fits_placeIn hwords.along hstart
        (hpos _ (List.mem_of_getElem? (hlength hi))) hend)
  have hnext := piece_next hpos (Int.le_trans (Int.le_max_right _ _) hgap) (hlength ha) hij
  apply Direction.clears_of_offsetIn (e.contentWithin outer)
  rw [hoffset ha, hoffset hb, FlowStyle.startIn, FlowStyle.startIn]
  omega

omit he hput in
/-- No line has less than no width. -/
theorem LaidOut.heights_nonneg (hc : c ∈ l) : ∀ height ∈
    (e.flowStyle.lines ((e.contentWithin outer).lengthOn e.layout.direction.axis)
      (t.flowItems e)).map
        (e.flowStyle.lineCross ((e.contentWithin outer).lengthOn e.layout.direction.crossAxis)),
    0 ≤ height := by
  intro height hheight
  have hbroken := ht.broken_of_mem hwraps hfirm hk hwords hc
  obtain ⟨line, hline, rfl⟩ := List.mem_map.mp hheight
  refine FlowStyle.lineCross_nonneg hwraps (fun item hitem => ?_) (hbroken.ne_nil line hline) _
  have hflow : item ∈ t.flowItems e :=
    hbroken.flatten ▸ List.mem_flatten.mpr ⟨line, hline, hitem⟩
  obtain ⟨c, hc, rfl⟩ := List.mem_map.mp (ht.forest.flowItems_eq e ▸ hflow)
  obtain ⟨n, hn, hpos⟩ := (hfirm c hc).2 e.layout.direction.crossAxis
  rwa [Element.ownCross_flowItem, hn, Option.getD_some]

/-- A child on a line is inside the band of the line. -/
theorem LaidOut.within_band (hc : c ∈ l) :
    let cross := e.layout.direction.crossAxis
    let box := e.contentWithin outer
    let lines := e.flowStyle.lines (box.lengthOn e.layout.direction.axis) (t.flowItems e)
    let top := box.startOn cross + e.flowStyle.bandStart (box.lengthOn cross) lines k
    top ≤ c.rect.startOn cross ∧ c.rect.endOn cross ≤ top +
      e.flowStyle.lineCross (box.lengthOn cross)
        (l.map fun c => c.flowItem e.layout.direction c.id) := by
  intro cross box lines top
  obtain ⟨i, hi⟩ := List.mem_iff_getElem?.mp hc
  let height := e.flowStyle.lineCross (box.lengthOn cross)
    (l.map fun c => c.flowItem e.layout.direction c.id)
  let across := e.flowStyle.crossStart height (c.rect.lengthOn cross)
  obtain ⟨hpos, hfit, hstart⟩ : 1 ≤ c.rect.lengthOn cross ∧ c.rect.lengthOn cross ≤ height ∧
      c.rect.startOn cross = wrap (box.startOn cross +
        (e.flowStyle.bandStart (box.lengthOn cross) lines k + across)) := by
    obtain ⟨-, -, ⟨hpos, hfit⟩, hstart⟩ := ht.on_band he hput hwraps hfirm hk hi
    exact ⟨hpos, hfit, hstart⟩
  have hheights := ht.heights_nonneg hwraps hfirm hk hwords hc
  have hheight : (lines.map (e.flowStyle.lineCross (box.lengthOn cross)))[k]? = some height := by
    rw [List.getElem?_map, ht.forest.linesIn_getElem? hk]
    rfl
  have hgap : 0 ≤ e.flowStyle.gap := Int.le_max_right _ _
  have hbefore : 0 ≤ e.flowStyle.bandStart (box.lengthOn cross) lines k :=
    piece_nonneg hheights hgap k
  have hlast : e.flowStyle.bandStart (box.lengthOn cross) lines k + height ≤
      e.flowStyle.stack (box.lengthOn cross) lines := by
    have hle := piece_end_le hheights hgap hheight
    rwa [List.length_map] at hle
  have hstack : e.flowStyle.stack (box.lengthOn cross) lines < 0x80000000 := hwords.stack.2
  have hlarge : box.startOn cross + e.flowStyle.stack (box.lengthOn cross) lines < 0x80000000 :=
    hwords.across.2
  have hsmall : -0x80000000 ≤ box.startOn cross := by
    rw [show box = outer.deflate e.look.insets from rfl, Rect.startOn_deflate]
    exact (Word.fits_wrap _).1
  obtain ⟨hinside, hinside'⟩ : 0 ≤ across ∧ across + c.rect.lengthOn cross ≤ height :=
    e.flowStyle.crossStart_within hfit (by omega) ⟨by omega, by omega⟩
  rw [Word.wrap_of_fits ⟨by omega, by omega⟩] at hstart
  rw [Rect.endOn, hstart]
  change top ≤ _ ∧ _ ≤ top + height
  omega

/-- Of two lines, all of the later one begins behind the other and a gap. -/
theorem LaidOut.apart_on_bands {a b : Element} (hkm : k < m)
    (hm : (t.linesIn e (e.contentWithin outer))[m]? = some l') (ha : a ∈ l) (hb : b ∈ l') :
    a.rect.endOn e.layout.direction.crossAxis + max e.sizing.gap 0 ≤
      b.rect.startOn e.layout.direction.crossAxis := by
  have hfirst := (ht.within_band he hput hwraps hfirm hk hwords ha).2
  have hsecond := (ht.within_band he hput hwraps hfirm hm hwords hb).1
  have hgap : 0 ≤ e.flowStyle.gap := Int.le_max_right _ _
  have hnext := piece_next (ht.heights_nonneg hwraps hfirm hk hwords ha) hgap
    (by rw [List.getElem?_map, ht.forest.linesIn_getElem? hk]; rfl) hkm
  have hmax : max e.sizing.gap 0 = e.flowStyle.gap := rfl
  rw [FlowStyle.bandStart] at hfirst hsecond
  omega

end Wrapped

/-- A root that wraps its children from the right, the first two on one
line. The third is longer than the root is wide. -/
def rack : Scene :=
  let plain := empty.after
    [.push (.document 0) (.ofWidget .app), .push (.document 1) (.ofWidget .container),
      .push (.document 2) (.ofWidget .image), .push (.document 3) (.ofWidget .container),
      .push (.document 4) (.ofWidget .text), .link ⟨0⟩ ⟨1⟩, .link ⟨0⟩ ⟨2⟩, .link ⟨0⟩ ⟨3⟩,
      .link ⟨0⟩ ⟨4⟩]
  let wrapping := plain.modify ⟨0⟩ fun e =>
    { e with
      layout := ⟨22⟩
      look := { e.look with padding := .uniform 1 }
      sizing := { e.sizing with gap := 2 } }
  let fixed (width height : Int) (e : Element) : Element :=
    { e with sizing := { e.sizing with width := some width, height := some height } }
  (((wrapping.modify ⟨1⟩ (fixed 6 2)).modify ⟨2⟩ (fixed 5 3)).modify ⟨3⟩ (fixed 20 4)).modify ⟨4⟩
    (fixed 3 1)

theorem forest_rack : rack.Forest := by
  refine (((((forest_after _).modify ?_ _).modify ?_ _).modify ?_ _).modify ?_ _).modify ?_ _ <;>
    constructor <;> intro <;> rfl

/-- A root of many lines with two fixed elements. The first is as wide as a
word can say. -/
def planks : Scene :=
  let plain := empty.after
    [.push (.document 0) (.ofWidget .app), .push (.document 1) (.ofWidget .image),
      .push (.document 2) (.ofWidget .image), .link ⟨0⟩ ⟨1⟩, .link ⟨0⟩ ⟨2⟩]
  let wrapping := plain.modify ⟨0⟩ fun e => { e with layout := ⟨16⟩ }
  let fixed (width : Int) (e : Element) : Element :=
    { e with sizing := { e.sizing with width := some width, height := some 1 } }
  (wrapping.modify ⟨1⟩ (fixed 0x7FFFFFFF)).modify ⟨2⟩ (fixed 1)

end Scene

end SceneTree
