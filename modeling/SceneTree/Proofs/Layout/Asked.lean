import SceneTree.Proofs.Forest.Runs
import SceneTree.Proofs.Layout.Aside
import SceneTree.Proofs.Layout.Hug
import SceneTree.Proofs.Layout.LaidOut
import SceneTree.Proofs.Layout.Lineup

/-!
# What is asked for is given

A size that an element asks for outright goes through the whole layout.
Measuring puts it before any content, a flow takes it as it is, along the
line unless the element grows and across it always, and settling closes no
axis for which a size is asked.

What stands out of the flow is put at the content origin of its parent, by
its place hint if it shows, before the parent has settled. Settling moves
nothing, so that origin is still the one the parent has in the end. Origin
and hint are added as words, like all places. There the element has its
natural size, but for what settling does to a flat one
(`Element.lengthOn_settle_fixed`). Both halves are put together in
`Scene.Forest.gives_what_is_asked`.
-/

namespace SceneTree

open Word (wrap)

theorem Settings.one_le_unit (s : Settings) : 1 ≤ s.unit := Int.le_max_right _ _

namespace Element

variable {e : Element} {rules : LayoutRules} {sizes : List Size}

/-- The place hint of an element, on an axis. -/
def hintOn : Axis → Element → Int
  | .horizontal, e => e.header.x.toNat
  | .vertical, e => e.header.y.toNat

theorem startOn_looseRect (content : Rect) (e : Element) (a : Axis) :
    (e.looseRect content).startOn a =
      if e.isVisible then wrap (content.startOn a + e.hintOn a) else content.startOn a := by
  unfold looseRect
  split
  next => cases a <;> rfl
  next => cases a <;> rfl

theorem lengthOn_looseRect (content : Rect) (e : Element) (a : Axis) :
    (e.looseRect content).lengthOn a = e.intrinsic.lengthOn a := by
  unfold looseRect
  split
  next => cases a <;> rfl
  next => cases a <;> rfl

theorem naturalSize_nonneg (a : Axis) : 0 ≤ (e.naturalSize rules sizes).lengthOn a := by
  cases a <;> exact Int.le_max_right _ _

/-- Holds children and has something to show for itself, so that it is
thickened where it is flat. -/
def Decorated (e : Element) : Prop := e.widget.holdsChildren ∧ e.look.showsDecoration

instance (e : Element) : Decidable e.Decorated := inferInstanceAs (Decidable (_ ∧ _))

/-- Thickening gives an extent to a decorated element that has one on the
other axis only. -/
theorem lengthOn_thicken (unit : Int) (e : Element) {r : Rect} (hr : ∀ a, 0 ≤ r.lengthOn a)
    (a : Axis) : (e.thicken unit r).lengthOn a =
      if e.Decorated ∧ r.lengthOn a = 0 ∧ r.lengthOn a.other ≠ 0 then unit else r.lengthOn a := by
  have hwidth : 0 ≤ r.width := hr .horizontal
  have hheight : 0 ≤ r.height := hr .vertical
  unfold thicken
  by_cases hdecorated : e.Decorated
  · rw [if_pos (Bool.and_eq_true_iff.mpr hdecorated)]
    cases a with
    | horizontal =>
      simp only [hdecorated, true_and, Axis.other, Rect.lengthOn]
      repeat' split
      all_goals first | rfl | omega
    | vertical =>
      simp only [hdecorated, true_and, Axis.other, Rect.lengthOn]
      repeat' split
      all_goals first | rfl | omega
  · rw [if_neg fun h => hdecorated (Bool.and_eq_true_iff.mp h), if_neg fun h => hdecorated h.1]

/-- What does not close around its children has the extents it is given, but
for a flat one that is decorated, and one unit at least. -/
theorem lengthOn_settle_fixed {unit : Int} (hunit : 1 ≤ unit) (e : Element) (children : List Rect)
    {r : Rect} (hr : ∀ a, 0 ≤ r.lengthOn a) (a : Axis) :
    (e.settle unit .fixed children r).lengthOn a =
      if e.Decorated ∧ r.lengthOn a = 0 ∧ r.lengthOn a.other ≠ 0 then unit
      else max (r.lengthOn a) 1 := by
  have hopen : ¬ (Placement.fixed = .flow ∧ !e.grows) := fun hflow => nomatch hflow.1
  have hvisible (r : Rect) : r.visible.lengthOn a = max (r.lengthOn a) 1 := by cases a <;> rfl
  simp only [settle, if_neg hopen, hvisible, e.lengthOn_thicken unit hr]
  split
  next => exact Int.max_eq_left hunit
  next => rfl

end Element

namespace Scene

variable {s t : Scene} {e ep : Element} {x p : ElementId} {rules : LayoutRules} {viewport : Size}
  {outer place : Rect} {q q' : Placement} {a : Axis} {n : Int}

section Child

variable (ht : LaidOut rules viewport t) (he : t.get? x = some e) (hep : t.get? p = some ep)
  (hput : t.Put (t.rootStarts viewport) p outer q)
  (hplaced : (x, place, q') ∈ t.placeChildren ep outer)

include ht he

theorem LaidOut.intrinsic_nonneg (a : Axis) : 0 ≤ e.intrinsic.lengthOn a := by
  rw [ht.measured he]
  exact e.naturalSize_nonneg a

/-- A size that is asked for is the one that is measured. -/
theorem LaidOut.intrinsic_of_asked (hasked : e.askedOn a = some n) (hpos : 1 ≤ n) :
    e.intrinsic.lengthOn a = n := by
  rw [ht.measured he, Element.lengthOn_naturalSize_of_asked hasked]
  omega

include hplaced

/-- A child is put at the size it asks for, unless it grows along the
line. -/
theorem LaidOut.lengthOn_placed (hasked : e.askedOn a = some n) (hpos : 1 ≤ n)
    (hgrows : ¬ (e.inFlow ∧ e.grows ∧ ep.layout.direction.axis = a)) : place.lengthOn a = n := by
  rcases mem_placeChildren.mp hplaced with ⟨-, ex, -, hex, -, rfl⟩ | ⟨-, hm⟩
  · obtain rfl := Option.some.inj (he.symm.trans hex)
    rw [Element.lengthOn_looseRect]
    exact ht.intrinsic_of_asked he hasked hpos
  · obtain ⟨item, hitem, hid, -, ⟨lineCross, hwide⟩, hlong⟩ := FlowStyle.mem_place hm
    obtain ⟨y, hy, hsome⟩ := List.mem_filterMap.mp hitem
    obtain ⟨ey, hey, rfl⟩ := Option.map_eq_some_iff.mp hsome
    obtain rfl : x = y := hid.trans (id_flowItem _ y ey)
    obtain rfl := Option.some.inj (he.symm.trans hey)
    rcases a.eq_or ep.layout.direction.axis with rfl | rfl
    · obtain ⟨-, ex, hex, hflow⟩ := mem_flowChildren.mp hy
      obtain rfl := Option.some.inj (he.symm.trans hex)
      have hfirm : e.grows = false := Bool.eq_false_iff.mpr fun h => hgrows ⟨hflow, h, rfl⟩
      refine (hlong ((Element.grows_flowItem _ x e).trans hfirm)).trans ?_
      rw [Element.main_flowItem, hasked, Option.getD_some]
    · have hcross : (e.flowItem ep.layout.direction x).crossAsked = some n := by
        rw [Element.crossAsked_flowItem]
        exact hasked
      refine hwide.trans ?_
      rw [FlowStyle.itemCross, hcross, Option.getD_some]

include hep hput

/-- And it settles at that size. -/
theorem LaidOut.lengthOn_of_asked (hasked : e.askedOn a = some n) (hpos : 1 ≤ n)
    (hgrows : ¬ (e.inFlow ∧ e.grows ∧ ep.layout.direction.axis = a)) : e.rect.lengthOn a = n := by
  have hlength := ht.lengthOn_placed he hplaced hasked hpos hgrows
  rw [ht.settled (hput.child hep hplaced) he,
    Element.lengthOn_settle _ _ (hlength ▸ hpos) (.inl (hasked ▸ rfl)), hlength]

/-- What stands out of the flow of its parent is put loosely in the box that
the parent has in the end, or in one that begins where that does. -/
theorem LaidOut.loose (hloose : e.inFlow = false) (a : Axis) :
    (e.rect.startOn a = if e.isVisible then wrap (ep.contentRect.startOn a + e.hintOn a)
      else ep.contentRect.startOn a) ∧
      e.rect.lengthOn a =
        if e.Decorated ∧ e.intrinsic.lengthOn a = 0 ∧ e.intrinsic.lengthOn a.other ≠ 0
        then rules.settings.unit else max (e.intrinsic.lengthOn a) 1 := by
  have horigin : ep.contentRect.startOn a = (ep.contentWithin outer).startOn a := by
    rw [Element.contentRect, Element.contentWithin, Element.contentWithin, Rect.startOn_deflate,
      Rect.startOn_deflate, ht.settled hput hep, Element.startOn_settle]
  rcases mem_placeChildren.mp hplaced with ⟨rfl, ex, -, hex, -, rfl⟩ | ⟨-, hm⟩
  · obtain rfl := Option.some.inj (he.symm.trans hex)
    have hsize (a : Axis) : 0 ≤ (e.looseRect (ep.contentWithin outer)).lengthOn a := by
      rw [Element.lengthOn_looseRect]
      exact ht.intrinsic_nonneg he a
    rw [ht.settled (hput.child hep hplaced) he, Element.startOn_settle, Element.startOn_looseRect,
      horigin, Element.lengthOn_settle_fixed rules.settings.one_le_unit e _ hsize]
    simp only [Element.lengthOn_looseRect, true_and]
  · obtain ⟨-, ex, hex, hflow⟩ := mem_flowChildren.mp (mem_flowChildren_of_place hm)
    obtain rfl := Option.some.inj (he.symm.trans hex)
    exact absurd hflow (Bool.eq_false_iff.mp hloose)

end Child

/-- A layout gives every child of an element what it asks for. A size of one
unit at least is its size, unless it grows and the size is along the line.
If it is out of the flow it stands at the content origin of its parent, by
its place hint if it is to be seen there, and in the corner if it is hidden;
either way it has its natural size, one unit at least, or one line where it
is decorated and flat on just that axis. -/
theorem Forest.gives_what_is_asked (h : s.Forest) (rules : LayoutRules) (viewport : Size)
    {x p : ElementId} {e ep : Element} (he : (s.layOut rules viewport).1.get? x = some e)
    (hp : (s.layOut rules viewport).1.parent? x = some p)
    (hep : (s.layOut rules viewport).1.get? p = some ep) :
    (∀ a n, e.askedOn a = some n → 1 ≤ n →
      ¬ (e.inFlow ∧ e.grows ∧ ep.layout.direction.axis = a) → e.rect.lengthOn a = n) ∧
    (e.isVisible → e.isAbsolute →
      ∀ a, e.rect.startOn a = wrap (ep.contentRect.startOn a + e.hintOn a)) ∧
    (e.isVisible = false → ∀ a, e.rect.startOn a = ep.contentRect.startOn a) ∧
    (e.isVisible = false ∨ e.isAbsolute → ∀ a, e.rect.lengthOn a =
      if e.Decorated ∧ e.intrinsic.lengthOn a = 0 ∧ e.intrinsic.lengthOn a.other ≠ 0
      then rules.settings.unit else max (e.intrinsic.lengthOn a) 1) := by
  have ht := h.laidOut rules viewport
  obtain ⟨outer, q, hput⟩ := ht.put (contains_of_get? hep)
  have hchild : x ∈ ep.children := children_of_get? hep ▸ ht.forest.mirror.mpr hp
  obtain ⟨place, q', hplaced⟩ := exists_placed outer hchild (contains_of_get? he)
  have hloose (hloose : e.isVisible = false ∨ e.isAbsolute) :=
    ht.loose he hep hput hplaced (Element.Aside.inFlow hloose)
  refine ⟨fun a n => ht.lengthOn_of_asked he hep hput hplaced, fun hvisible habsolute a => ?_,
    fun hhidden a => ?_, fun haside a => (hloose haside a).2⟩
  · rw [(hloose (.inr habsolute) a).1, if_pos hvisible]
  · rw [(hloose (.inl hhidden) a).1, if_neg (Bool.eq_false_iff.mp hhidden)]

/-- A padded root, and on it a filled container that stands aside. It asks
for a width and holds nothing that would give it a height. -/
def poster : Scene :=
  let plain := empty.after
    [.push (.document 0) (.ofWidget .app),
      .push (.document 1) { Header.ofWidget .container with x := 3, y := 2 }, .link ⟨0⟩ ⟨1⟩]
  let padded := plain.modify ⟨0⟩ fun e => { e with look := { e.look with padding := .uniform 1 } }
  padded.modify ⟨1⟩ fun e =>
    { e with
      look := { e.look with background := .white }
      sizing := { e.sizing with width := some 7 } }

theorem forest_poster : poster.Forest := by
  refine ((forest_after _).modify ?_ _).modify ?_ _ <;> constructor <;> intro <;> rfl

/-- It stands by its hint inside the padding, as wide as it asks and one line
high. -/
theorem poster_gives : ∃ e ep,
    let rules : LayoutRules := ⟨.standard, .cells⟩
    let t := (poster.layOut rules ⟨80, 24⟩).1
    (t.get? ⟨1⟩ = some e ∧ t.parent? ⟨1⟩ = some ⟨0⟩ ∧ t.get? ⟨0⟩ = some ep ∧
      e.askedOn .horizontal = some 7 ∧ e.isVisible ∧ e.isAbsolute ∧ e.Decorated ∧
      e.intrinsic = ⟨7, 0⟩ ∧ e.rect = ⟨4, 3, 7, 16⟩) ∧
    (∀ a n, e.askedOn a = some n → 1 ≤ n →
      ¬ (e.inFlow ∧ e.grows ∧ ep.layout.direction.axis = a) → e.rect.lengthOn a = n) ∧
    (e.isVisible → e.isAbsolute →
      ∀ a, e.rect.startOn a = wrap (ep.contentRect.startOn a + e.hintOn a)) ∧
    (e.isVisible = false → ∀ a, e.rect.startOn a = ep.contentRect.startOn a) ∧
    (e.isVisible = false ∨ e.isAbsolute → ∀ a, e.rect.lengthOn a =
      if e.Decorated ∧ e.intrinsic.lengthOn a = 0 ∧ e.intrinsic.lengthOn a.other ≠ 0
      then rules.settings.unit else max (e.intrinsic.lengthOn a) 1) := by
  let t := (poster.layOut ⟨.standard, .cells⟩ ⟨80, 24⟩).1
  have hroot : ∃ ep, t.get? ⟨0⟩ = some ep := Option.isSome_iff_exists.mp (by decide +kernel)
  have hchild : ∃ e ∈ t.get? ⟨1⟩, t.parent? ⟨1⟩ = some ⟨0⟩ ∧ e.askedOn .horizontal = some 7 ∧
      e.isVisible ∧ e.isAbsolute ∧ e.Decorated ∧ e.intrinsic = ⟨7, 0⟩ ∧
      e.rect = ⟨4, 3, 7, 16⟩ := by
    decide +kernel
  obtain ⟨ep, hep⟩ := hroot
  obtain ⟨e, he, hp, hreads⟩ := hchild
  exact ⟨e, ep, ⟨he, hp, hep, hreads⟩, forest_poster.gives_what_is_asked _ _ he hp hep⟩

end Scene

end SceneTree
