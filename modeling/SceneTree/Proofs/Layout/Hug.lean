import SceneTree.Proofs.Layout.Afresh
import SceneTree.Proofs.Layout.Along

/-!
# Hugging and closing

The size of an element that asks for none is worked out twice. Measuring
adds up what its children ask for (`Element.hug`), before anything has a
place. Settling closes the rectangle of the element around the edges of the
children that stand in it (`Element.closeAround`). This module reads both
along an axis, the same way for widths and for heights: what measuring
gives there (`Element.hug_along`, `Element.hug_across`), and when settling
has nothing to close (`Element.settle_eq_self`).
-/

namespace SceneTree

open Word (wrap)

/-! ## Insets and sizes along an axis -/

theorem Size.ext_on {s t : Size} (h : ∀ a, s.lengthOn a = t.lengthOn a) : s = t := by
  cases s
  cases t
  exact congrArg₂ Size.mk (h .horizontal) (h .vertical)

@[simp] theorem Rect.lengthOn_size (a : Axis) (r : Rect) : r.size.lengthOn a = r.lengthOn a := by
  cases a <;> rfl

namespace Edges

/-- What insets take before the content, on an axis. -/
def leadOn : Axis → Edges → Int
  | .horizontal, e => e.left.toNat
  | .vertical, e => e.top.toNat

/-- What insets take behind the content. -/
def trailOn : Axis → Edges → Int
  | .horizontal, e => e.right.toNat
  | .vertical, e => e.bottom.toNat

theorem leadOn_nonneg (a : Axis) (e : Edges) : 0 ≤ e.leadOn a := by
  cases a <;> exact Int.natCast_nonneg _

theorem trailOn_nonneg (a : Axis) (e : Edges) : 0 ≤ e.trailOn a := by
  cases a <;> exact Int.natCast_nonneg _

end Edges

theorem Rect.startOn_deflate (a : Axis) (r : Rect) (e : Edges) :
    (r.deflate e).startOn a = Word.wrap (r.startOn a + e.leadOn a) := by
  cases a <;> rfl

theorem Rect.lengthOn_deflate (a : Axis) (r : Rect) (e : Edges) :
    (r.deflate e).lengthOn a = max (Word.wrap (r.lengthOn a - (e.leadOn a + e.trailOn a))) 0 := by
  cases a <;> rfl

namespace Element

variable {e : Element} {rules : LayoutRules} {sizes : List Size}

/-! ## Asking -/

/-- The size that an element asks for outright, on an axis. -/
def askedOn : Axis → Element → Option Int
  | .horizontal, e => e.sizing.width
  | .vertical, e => e.sizing.height

section

variable (d : Direction) (id : ElementId) (c : Element)

theorem main_flowItem :
    (c.flowItem d id).main = (c.askedOn d.axis).getD (c.intrinsic.lengthOn d.axis) := by
  cases d <;> rfl

theorem cross_flowItem : (c.flowItem d id).cross = c.intrinsic.lengthOn d.crossAxis := by
  cases d <;> rfl

theorem ownCross_flowItem : (c.flowItem d id).ownCross =
    (c.askedOn d.crossAxis).getD (c.intrinsic.lengthOn d.crossAxis) := by
  cases d <;> rfl

theorem grows_flowItem : (c.flowItem d id).grows = c.grows := by
  cases d <;> rfl

end

/-! ## Measuring -/

/-- Along the direction the children stand one after another. -/
theorem hug_along (e : Element) (hne : sizes ≠ []) :
    (e.hug sizes).lengthOn e.layout.direction.axis = wrap
      ((sizes.map (·.lengthOn e.layout.direction.axis)).sum + e.flowStyle.gaps sizes.length) := by
  have hempty : sizes.isEmpty = false := by simpa using hne
  unfold hug
  rw [List.sum_eq_foldr, hempty]
  cases e.layout.direction <;> rfl

/-- Across it the widest one counts. -/
theorem hug_across (e : Element) (sizes : List Size) :
    (e.hug sizes).lengthOn e.layout.direction.crossAxis =
      (sizes.map (·.lengthOn e.layout.direction.crossAxis)).foldl max 0 := by
  unfold hug
  cases sizes with
  | nil => cases e.layout.direction <;> rfl
  | cons first rest => cases e.layout.direction <;> rfl

theorem foldl_max_mem {l : List Int} (hne : l ≠ []) (hpos : ∀ n ∈ l, 0 ≤ n) :
    l.foldl max 0 ∈ l ∧ ∀ n ∈ l, n ≤ l.foldl max 0 := by
  have hmax : (0 :: l).max? = some (l.foldl max 0) := List.max?_cons'
  obtain ⟨hmem, hle⟩ := List.max?_eq_some_iff.mp hmax
  have hle : ∀ n ∈ l, n ≤ l.foldl max 0 := fun n hn => hle n (List.mem_cons_of_mem _ hn)
  refine ⟨?_, hle⟩
  rcases List.mem_cons.mp hmem with hzero | hmem
  · obtain ⟨n, hn⟩ := List.exists_mem_of_ne_nil l hne
    have hn0 : n = l.foldl max 0 := by
      have hle := hle n hn
      have hpos := hpos n hn
      omega
    exact hn0 ▸ hn
  · exact hmem

/-- What its children take together on an axis: along the direction one
behind the other, across it the widest. -/
def spanOn (a : Axis) (e : Element) (sizes : List Size) : Int :=
  if a = e.layout.direction.axis then
    (sizes.map (·.lengthOn a)).sum + e.flowStyle.gaps sizes.length
  else (sizes.map (·.lengthOn a)).foldl max 0

/-- What holds its children on an axis with border and padding around
them. -/
def neededOn (a : Axis) (e : Element) (sizes : List Size) : Int :=
  e.spanOn a sizes + (e.look.insets.leadOn a + e.look.insets.trailOn a)

/-- Children that are one unit wide and high at least take one at least. -/
theorem spanOn_pos (e : Element) (hne : sizes ≠ []) (hpos : ∀ n ∈ sizes, ∀ a, 1 ≤ n.lengthOn a)
    (a : Axis) : 1 ≤ e.spanOn a sizes := by
  have hlengths : ∀ n ∈ sizes.map (·.lengthOn a), 1 ≤ n := by
    intro n hn
    obtain ⟨size, hsize, rfl⟩ := List.mem_map.mp hn
    exact hpos size hsize a
  have hnonneg : ∀ n ∈ sizes.map (·.lengthOn a), 0 ≤ n := fun n hn => by
    have hn := hlengths n hn
    omega
  unfold spanOn
  split
  next =>
    obtain ⟨size, hsize⟩ := List.exists_mem_of_ne_nil sizes hne
    have hfirst := hpos size hsize a
    have hsum := List.single_le_sum hnonneg _ (List.mem_map.mpr ⟨size, hsize, rfl⟩)
    have hcount : 0 < sizes.length := List.length_pos_iff.mpr hne
    have hgaps : 0 ≤ e.flowStyle.gaps sizes.length :=
      Int.mul_nonneg (Int.le_max_right _ _) (by omega)
    omega
  next => exact hlengths _ (foldl_max_mem (mt List.map_eq_nil_iff.mp hne) hnonneg).1

/-- Measuring gives what the children take, if a word holds that. -/
theorem lengthOn_hug (e : Element) (hne : sizes ≠ []) {a : Axis} (hfits : Word.Fits (e.spanOn a sizes)) :
    (e.hug sizes).lengthOn a = e.spanOn a sizes := by
  rcases a.eq_or e.layout.direction.axis with rfl | rfl
  · rw [spanOn, if_pos rfl] at hfits ⊢
    rw [hug_along e hne, Word.wrap_of_fits hfits]
  · rw [spanOn, if_neg (by cases e.layout.direction <;> decide)]
    exact hug_across e sizes

/-- A size that is asked for outright counts, if it is one. -/
theorem lengthOn_naturalSize_of_asked {a : Axis} {n : Int} (hasked : e.askedOn a = some n) :
    (e.naturalSize rules sizes).lengthOn a = max n 0 := by
  unfold naturalSize
  cases a with
  | horizontal =>
    have hwidth : e.sizing.width = some n := hasked
    rw [hwidth]
    rfl
  | vertical =>
    have hheight : e.sizing.height = some n := hasked
    rw [hheight]
    rfl

/-- What is measured as one unit at least is what is asked for, if anything
is. -/
theorem getD_askedOn {a : Axis} (hpos : 1 ≤ (e.naturalSize rules sizes).lengthOn a) :
    (e.askedOn a).getD ((e.naturalSize rules sizes).lengthOn a) =
      (e.naturalSize rules sizes).lengthOn a := by
  cases hasked : e.askedOn a with
  | none => rfl
  | some n =>
    rw [lengthOn_naturalSize_of_asked hasked] at hpos ⊢
    rw [Option.getD_some]
    omega

/-- Without a largest size, what counts is what is asked for outright, and
then the content. -/
theorem lengthOn_naturalSize (hwidth : e.sizing.maxWidth = none)
    (hheight : e.sizing.maxHeight = none) (a : Axis) :
    (e.naturalSize rules sizes).lengthOn a =
      max ((e.askedOn a).getD ((e.contentSize rules sizes).lengthOn a)) 0 := by
  have hnone (o : Option Int) : (o <|> none) = o := by cases o <;> rfl
  unfold naturalSize
  rw [hwidth, hheight, hnone, hnone]
  cases a <;> rfl

/-- The content of an element with nothing but children is what holds them
and the insets. -/
theorem lengthOn_contentSize (htext : e.text.filter (· ≠ "") = none)
    (htexture : e.loadedTexture? = none) (hhug : e.hug sizes ≠ .zero) (a : Axis) :
    (e.contentSize rules sizes).lengthOn a =
      wrap ((e.hug sizes).lengthOn a + (e.look.insets.leadOn a + e.look.insets.trailOn a)) := by
  have hinner : e.innerSize rules sizes = e.hug sizes := by
    simp only [innerSize, htext, htexture]
  simp only [contentSize, hinner, if_neg hhug]
  cases a <;> rfl

/-- What is left inside the insets is a length that a word holds. -/
theorem lengthOn_contentWithin (e : Element) (r : Rect) (a : Axis) :
    0 ≤ (e.contentWithin r).lengthOn a ∧ (e.contentWithin r).lengthOn a < 0x80000000 := by
  have hlarge :=
    (Word.fits_wrap (r.lengthOn a - (e.look.insets.leadOn a + e.look.insets.trailOn a))).2
  rw [contentWithin, Rect.lengthOn_deflate]
  omega

/-! ## Settling -/

/-- A rectangle that leaves room for something inside its insets has a
content box of just that size. -/
theorem contentWithin_of_lengthOn {a : Axis} {r : Rect} {room : Int} (hfits : r.FitsOn a)
    (hroom : 0 ≤ room)
    (hr : r.lengthOn a = room + (e.look.insets.leadOn a + e.look.insets.trailOn a)) :
    (e.contentWithin r).FitsOn a ∧ (e.contentWithin r).lengthOn a = room ∧
      (e.contentWithin r).endOn a + e.look.insets.trailOn a = r.endOn a := by
  have hlead := e.look.insets.leadOn_nonneg a
  have htrail := e.look.insets.trailOn_nonneg a
  have hlarge := hfits.length.2
  have hfinish := hfits.finish.2
  have hbegin := hfits.start.1
  have hrest : wrap (r.lengthOn a - (e.look.insets.leadOn a + e.look.insets.trailOn a)) = room := by
    rw [hr, Int.add_sub_cancel]
    exact Word.wrap_of_fits ⟨by omega, by omega⟩
  have hlength : (e.contentWithin r).lengthOn a = room := by
    rw [contentWithin, Rect.lengthOn_deflate, hrest]
    exact Int.max_eq_left hroom
  have hstart : (e.contentWithin r).startOn a = r.startOn a + e.look.insets.leadOn a := by
    rw [contentWithin, Rect.startOn_deflate, hfits.wrap_add hlead (by omega)]
  have hend : (e.contentWithin r).endOn a + e.look.insets.trailOn a = r.endOn a := by
    rw [Rect.endOn, hlength, hstart, Rect.endOn, hr]
    omega
  rw [Rect.endOn] at hfinish
  refine ⟨⟨?_, ?_, ?_⟩, hlength, hend⟩
  · rw [hstart]
    exact ⟨by omega, by omega⟩
  · rw [hlength]
    exact ⟨by omega, by omega⟩
  · rw [Rect.endOn, hlength, hstart]
    exact ⟨by omega, by omega⟩

/-- Where the children reach just as far as the insets leave room, on each
axis that no size is asked for on, there is nothing to close. -/
theorem closeAround_eq_self {children : List Rect} {r : Rect}
    (h : children ≠ [] → ∀ a, e.askedOn a = none → Word.Fits (r.lengthOn a) ∧
      (∀ q ∈ children, Word.Fits (q.endOn a) ∧ q.endOn a + e.look.insets.trailOn a ≤ r.endOn a) ∧
        ∃ q ∈ children, q.endOn a + e.look.insets.trailOn a = r.endOn a) :
    e.closeAround children r = r := by
  by_cases hne : children = []
  · rw [hne]
    rfl
  have hmax (a : Axis) (hasked : e.askedOn a = none) {far : Int}
      (hfar : (children.map fun q => wrap (q.endOn a)).max? = some far) :
      wrap (far - r.startOn a + e.look.insets.trailOn a) = r.lengthOn a := by
    obtain ⟨hlength, hle, q, hq, hreach⟩ := h hne a hasked
    obtain ⟨hmem, hfarthest⟩ := List.max?_eq_some_iff.mp hfar
    obtain ⟨q', hq', rfl⟩ := List.mem_map.mp hmem
    obtain ⟨hfits', hle'⟩ := hle q' hq'
    have hge := hfarthest _ (List.mem_map.mpr ⟨q, hq, rfl⟩)
    rw [Word.wrap_of_fits (hle q hq).1, Word.wrap_of_fits hfits'] at hge
    rw [Word.wrap_of_fits hfits']
    have hsum : q'.endOn a - r.startOn a + e.look.insets.trailOn a = r.lengthOn a := by
      have hend : r.endOn a = r.startOn a + r.lengthOn a := rfl
      omega
    rw [hsum, Word.wrap_of_fits hlength]
  have hwidth {right : Int} (hasked : e.sizing.width = none)
      (hright : (children.map (·.right)).max? = some right) :
      wrap (right - r.x + e.look.insets.right.toNat) = r.width := hmax .horizontal hasked hright
  have hheight {bottom : Int} (hasked : e.sizing.height = none)
      (hbottom : (children.map (·.bottom)).max? = some bottom) :
      wrap (bottom - r.y + e.look.insets.bottom.toNat) = r.height := hmax .vertical hasked hbottom
  unfold closeAround extent?
  cases hright : (children.map (·.right)).max? with
  | none => rfl
  | some right =>
    cases hbottom : (children.map (·.bottom)).max? with
    | none => rfl
    | some bottom =>
      cases hw : e.sizing.width <;> cases hh : e.sizing.height <;> simp_all

/-- With nothing to close, an element that can be seen stays where it was
put. -/
theorem settle_eq_self (unit : Int) (p : Placement) {children : List Rect} {r : Rect}
    (hvisible : r.Visible) (hclose : e.closeAround children r = r) :
    e.settle unit p children r = r := by
  have hclosed : e.settle unit p children r = e.settle unit .fixed children r := by
    simp only [settle, hclose, ite_self]
  rw [hclosed, settle_fixed unit e children hvisible]

/-- Settling moves nothing. -/
theorem startOn_settle (unit : Int) (p : Placement) (children : List Rect) (r : Rect) (a : Axis) :
    (e.settle unit p children r).startOn a = r.startOn a := by
  have hclose : (e.closeAround children r).startOn a = r.startOn a := by
    unfold closeAround
    split
    next => rfl
    next => cases a <;> rfl
  have hthicken (r : Rect) : (e.thicken unit r).startOn a = r.startOn a := by
    unfold thicken
    repeat' split
    all_goals cases a <;> rfl
  have hvisible (r : Rect) : r.visible.startOn a = r.startOn a := by cases a <;> rfl
  unfold settle
  rw [hvisible, hthicken]
  split
  next => exact hclose
  next => rfl

/-- Where a size is asked for or there is nothing to close around, an
element of one unit at least is settled already. -/
theorem lengthOn_settle (unit : Int) (p : Placement) {children : List Rect} {r : Rect} {a : Axis}
    (hr : 1 ≤ r.lengthOn a) (h : (e.askedOn a).isSome ∨ children = []) :
    (e.settle unit p children r).lengthOn a = r.lengthOn a := by
  have hclose : (e.closeAround children r).lengthOn a = r.lengthOn a := by
    rcases h with hasked | rfl
    · have hnone : (e.askedOn a).isNone = false := by simp [hasked]
      unfold closeAround
      split
      next => rfl
      next => cases a <;> exact if_neg (Bool.eq_false_iff.mp hnone)
    · rfl
  have hthicken {r : Rect} (hr : 1 ≤ r.lengthOn a) :
      (e.thicken unit r).lengthOn a = r.lengthOn a := by
    unfold thicken
    cases a <;> simp only [Rect.lengthOn] at hr ⊢
    all_goals
      repeat' split
      all_goals first | rfl | omega
  have hvisible {r : Rect} (hr : 1 ≤ r.lengthOn a) : r.visible.lengthOn a = r.lengthOn a := by
    cases a <;> exact Int.max_eq_left hr
  have hclosed : (if p = .flow ∧ !e.grows then e.closeAround children r else r).lengthOn a =
      r.lengthOn a := by
    split
    next => exact hclose
    next => rfl
  unfold settle
  rw [hvisible (by rw [hthicken] <;> omega), hthicken (by omega), hclosed]

end Element

end SceneTree
