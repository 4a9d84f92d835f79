import SceneTree.Proofs.Forest.Runs
import SceneTree.Proofs.Layout.Hug
import SceneTree.Proofs.Layout.LaidOut

/-!
# Rigid elements keep the size they ask for

What an element asks for is worked out before anything has a place, and
what it gets after everything below it has one. The two meet in elements of
which no size is a matter of the layout (`Element.Rigid`): none below
stretches, breaks its children into lines, is limited, hidden or taken out
of the flow, or has other content beside its children.

Two facts carry this from the leaves up. Whatever the parent is, its flow
gives a rigid element the size it asks for (`RigidBelow.size_of_put`). And
in an element of just the size that holds its children they reach from edge
to edge, whatever its direction and alignments are, so that it has nothing
to close (`RigidBelow.rect_of_put`).
-/

namespace SceneTree

namespace Element

variable {e : Element} {size : Size} {sizes : List Size} {rules : LayoutRules}

/-- Nothing about an element that asks for `size` lets a layout give it
another one. -/
structure Rigid (size : Size) (e : Element) : Prop where
  inFlow : e.inFlow
  grows : e.grows = false
  wraps : e.layout.wraps = false
  maxWidth : e.sizing.maxWidth = none
  maxHeight : e.sizing.maxHeight = none
  width : ∀ n ∈ e.sizing.width, 1 ≤ n
  height : ∀ n ∈ e.sizing.height, 1 ≤ n
  leaf : e.children = [] → 1 ≤ size.width ∧ 1 ≤ size.height
  bare : e.children ≠ [] → e.text.filter (· ≠ "") = none ∧ e.loadedTexture? = none

instance (size : Size) (e : Element) : Decidable (e.Rigid size) :=
  decidable_of_iff
    (e.inFlow ∧ e.grows = false ∧ e.layout.wraps = false ∧ e.sizing.maxWidth = none ∧
      e.sizing.maxHeight = none ∧ (∀ n ∈ e.sizing.width, 1 ≤ n) ∧ (∀ n ∈ e.sizing.height, 1 ≤ n) ∧
      (e.children = [] → 1 ≤ size.width ∧ 1 ≤ size.height) ∧
      (e.children ≠ [] → e.text.filter (· ≠ "") = none ∧ e.loadedTexture? = none))
    ⟨fun ⟨h₁, h₂, h₃, h₄, h₅, h₆, h₇, h₈, h₉⟩ => ⟨h₁, h₂, h₃, h₄, h₅, h₆, h₇, h₈, h₉⟩,
      fun h => ⟨h.inFlow, h.grows, h.wraps, h.maxWidth, h.maxHeight, h.width, h.height, h.leaf,
        h.bare⟩⟩

/-- On each axis on which an element asks for no size, a word holds what it
takes around its children, and where that ends. -/
def FitsAround (e : Element) (sizes : List Size) : Prop :=
  e.children ≠ [] → ∀ a, e.askedOn a = none →
    Word.Fits (e.neededOn a sizes) ∧ Word.Fits (e.rect.startOn a + e.neededOn a sizes)

instance (e : Element) (sizes : List Size) : Decidable (e.FitsAround sizes) :=
  decidable_of_iff
    (e.children ≠ [] → ∀ a ∈ [Axis.horizontal, .vertical], e.askedOn a = none →
      Word.Fits (e.neededOn a sizes) ∧ Word.Fits (e.rect.startOn a + e.neededOn a sizes))
    ⟨fun h hne a => h hne a (by cases a <;> simp), fun h hne a _ => h hne a⟩

namespace Rigid

/-- The geometry that an element happens to have does not count. -/
theorem still_iff : e.still.Rigid size ↔ e.Rigid size := by
  constructor
  · intro h
    exact ⟨h.inFlow, h.grows, h.wraps, h.maxWidth, h.maxHeight, h.width, h.height, h.leaf, h.bare⟩
  · intro h
    exact ⟨h.inFlow, h.grows, h.wraps, h.maxWidth, h.maxHeight, h.width, h.height, h.leaf, h.bare⟩

theorem asked_pos (h : e.Rigid size) {a : Axis} {n : Int} (hn : e.askedOn a = some n) : 1 ≤ n := by
  cases a with
  | horizontal => exact h.width n hn
  | vertical => exact h.height n hn

/-- With children, on an axis where no size is asked for, it is what holds
them and the insets that is measured. -/
theorem lengthOn_of_children (h : e.Rigid size) (hmeasured : size = e.naturalSize rules sizes)
    (hchildren : e.children ≠ []) (hne : sizes ≠ []) (hpos : ∀ n ∈ sizes, ∀ a, 1 ≤ n.lengthOn a)
    {a : Axis} (hasked : e.askedOn a = none) (hfits : Word.Fits (e.neededOn a sizes)) :
    size.lengthOn a = e.neededOn a sizes := by
  obtain ⟨htext, htexture⟩ := h.bare hchildren
  have hspan := e.spanOn_pos hne hpos a
  have hlead := e.look.insets.leadOn_nonneg a
  have htrail := e.look.insets.trailOn_nonneg a
  have hlarge := hfits.2
  have hhug : (e.hug sizes).lengthOn a = e.spanOn a sizes := by
    apply e.lengthOn_hug hne
    unfold Element.neededOn at hlarge
    exact ⟨by omega, by omega⟩
  have hne : e.hug sizes ≠ .zero := by
    intro hzero
    rw [hzero] at hhug
    rw [← hhug] at hspan
    cases a <;> exact absurd hspan (by decide)
  rw [hmeasured, lengthOn_naturalSize h.maxWidth h.maxHeight, hasked, Option.getD_none,
    lengthOn_contentSize htext htexture hne, hhug, ← neededOn, Word.wrap_of_fits hfits]
  unfold neededOn
  omega

/-- An element is one unit wide and high at least if its children are. -/
theorem lengthOn_pos (h : e.Rigid size) (hmeasured : size = e.naturalSize rules sizes)
    (hfits : e.FitsAround sizes) (hsizes : e.children ≠ [] → sizes ≠ [])
    (hpos : ∀ n ∈ sizes, ∀ a, 1 ≤ n.lengthOn a) (a : Axis) : 1 ≤ size.lengthOn a := by
  by_cases hchildren : e.children = []
  · obtain ⟨hwidth, hheight⟩ := h.leaf hchildren
    cases a with
    | horizontal => exact hwidth
    | vertical => exact hheight
  cases hasked : e.askedOn a with
  | some n =>
    have hpos := h.asked_pos hasked
    rw [hmeasured, lengthOn_naturalSize_of_asked hasked]
    omega
  | none =>
    have hspan := e.spanOn_pos (hsizes hchildren) hpos a
    have hlead := e.look.insets.leadOn_nonneg a
    have htrail := e.look.insets.trailOn_nonneg a
    rw [h.lengthOn_of_children hmeasured hchildren (hsizes hchildren) hpos hasked
      (hfits hchildren a hasked).1, neededOn]
    omega

end Rigid

end Element

namespace Scene

variable {s t : Scene} {e : Element} {c p x y : ElementId} {rules : LayoutRules}
  {viewport : Size} {r : Rect} {q : Placement}

/-- What was measured as one unit at least is what is asked for, if anything
is. -/
theorem LaidOut.getD_askedOn (ht : LaidOut rules viewport t) (he : t.get? x = some e) {a : Axis}
    (hpos : 1 ≤ e.intrinsic.lengthOn a) :
    (e.askedOn a).getD (e.intrinsic.lengthOn a) = e.intrinsic.lengthOn a := by
  rw [ht.measured he] at hpos ⊢
  exact Element.getD_askedOn hpos

/-- A word holds where an element is put. -/
theorem Put.fits_startOn (hput : t.Put (t.rootStarts viewport) x r q) (a : Axis) :
    Word.Fits (r.startOn a) := by
  cases hput with
  | start hm =>
    obtain ⟨root, -, hpair⟩ := List.mem_map.mp hm
    cases hpair
    have hzero : (Rect.ofSize viewport).startOn a = 0 := by cases a <;> rfl
    rw [hzero]
    decide
  | @child parent _ ep outer _ q' _ hput hep hm =>
    rcases mem_placeChildren.mp hm with ⟨-, ex, -, -, -, rfl⟩ | ⟨-, hm⟩
    · unfold Element.looseRect
      split <;> cases a <;> exact Word.fits_wrap _
    · obtain ⟨-, -, -, hfits, -, -⟩ := FlowStyle.mem_place hm
      exact hfits a

/-- An element and all below it are rigid, by the sizes last measured. -/
def RigidBelow (t : Scene) (c : ElementId) : Prop :=
  ∀ x e, t.AtOrAbove c x → t.get? x = some e → e.Rigid e.intrinsic

/-- Words hold what an element and all below it take around their
children. -/
def FitsBelow (t : Scene) (c : ElementId) : Prop :=
  ∀ x e, t.AtOrAbove c x → t.get? x = some e → e.FitsAround (t.flowSizes e)

namespace RigidBelow

variable (h : t.RigidBelow c) (hfits : t.FitsBelow c)

include h in
theorem child (ht : t.Forest) (hx : t.AtOrAbove c x) (he : t.get? x = some e)
    (hy : y ∈ e.children) :
    ∃ ey, t.get? y = some ey ∧ t.AtOrAbove c y ∧ ey.Rigid ey.intrinsic := by
  rw [← children_of_get? he] at hy
  obtain ⟨ey, hey⟩ := contains_iff.mp (ht.contains_child hy)
  have hup : t.AtOrAbove c y := .head (ht.mirror.mp hy) hx
  exact ⟨ey, hey, hup, h y ey hup hey⟩

include h in
/-- All children stand in the flow. -/
theorem flowChildren_eq (ht : t.Forest) (hx : t.AtOrAbove c x) (he : t.get? x = some e) :
    t.flowChildren e = e.children := by
  apply List.filter_eq_self.mpr
  intro y hy
  obtain ⟨ey, hey, -, hrigid⟩ := h.child ht hx he hy
  rw [hey]
  exact hrigid.inFlow

include h in
/-- Each is asked about once when their parent is measured. -/
theorem flowSizes_ne_nil (ht : t.Forest) (hx : t.AtOrAbove c x) (he : t.get? x = some e)
    (hne : e.children ≠ []) : t.flowSizes e ≠ [] := by
  obtain ⟨y, hy⟩ := List.exists_mem_of_ne_nil _ hne
  obtain ⟨ey, hey, -, -⟩ := h.child ht hx he hy
  refine List.ne_nil_of_mem (List.mem_filterMap.mpr ⟨y, ?_, by rw [hey]; rfl⟩)
  rwa [h.flowChildren_eq ht hx he]

include h in
theorem exists_of_mem_flowSizes (ht : t.Forest) (hx : t.AtOrAbove c x) (he : t.get? x = some e)
    {n : Size} (hn : n ∈ t.flowSizes e) :
    ∃ y ∈ e.children, ∃ ey, t.get? y = some ey ∧ ey.intrinsic = n := by
  obtain ⟨y, hy, hsome⟩ := List.mem_filterMap.mp hn
  rw [h.flowChildren_eq ht hx he] at hy
  obtain ⟨ey, hey, hsize⟩ := Option.map_eq_some_iff.mp hsome
  exact ⟨y, hy, ey, hey, hsize⟩

include h hfits in
/-- Every element asks for one unit at least, either way. -/
theorem intrinsic_pos (ht : LaidOut rules viewport t) (hx : t.AtOrAbove c x)
    (he : t.get? x = some e) (a : Axis) : 1 ≤ e.intrinsic.lengthOn a := by
  refine ht.forest.leaves_up (P := fun x => ∀ e, t.AtOrAbove c x → t.get? x = some e →
    ∀ a, 1 ≤ e.intrinsic.lengthOn a) ?_ (contains_of_get? he) e hx he a
  intro x e₀ he₀ ih e hx he
  obtain rfl := Option.some.inj (he₀.symm.trans he)
  refine (h x e₀ hx he₀).lengthOn_pos (ht.measured he₀) (hfits x e₀ hx he₀)
    (h.flowSizes_ne_nil ht.forest hx he₀) fun n hn a => ?_
  obtain ⟨y, hy, ey, hey, rfl⟩ := h.exists_of_mem_flowSizes ht.forest hx he₀ hn
  obtain ⟨-, -, hup, -⟩ := h.child ht.forest hx he₀ hy
  exact ih y hy ey hup hey a

include h hfits in
theorem flowSizes_pos (ht : LaidOut rules viewport t) (hx : t.AtOrAbove c x)
    (he : t.get? x = some e) : ∀ n ∈ t.flowSizes e, ∀ a, 1 ≤ n.lengthOn a := by
  intro n hn a
  obtain ⟨y, hy, ey, hey, rfl⟩ := h.exists_of_mem_flowSizes ht.forest hx he hn
  obtain ⟨-, -, hup, -⟩ := h.child ht.forest hx he hy
  exact h.intrinsic_pos hfits ht hup hey a

/-! ### Placing -/

include h hfits in
/-- As an item of a flow, an element is as long and as wide as it asks to
be. -/
theorem item (ht : LaidOut rules viewport t) (hx : t.AtOrAbove c x) (he : t.get? x = some e)
    (d : Direction) : (e.flowItem d x).main = e.intrinsic.lengthOn d.axis ∧
      (e.flowItem d x).ownCross = e.intrinsic.lengthOn d.crossAxis ∧
      0 < (e.flowItem d x).cross ∧ (e.flowItem d x).grows = false := by
  have hpos := h.intrinsic_pos hfits ht hx he
  rw [Element.main_flowItem, Element.ownCross_flowItem, Element.cross_flowItem,
    Element.grows_flowItem]
  exact ⟨ht.getD_askedOn he (hpos _), ht.getD_askedOn he (hpos _), hpos _, (h x e hx he).grows⟩

include h hfits in
/-- Whatever its parent is, an element is put in a place of the size that
it asks for. -/
theorem size_of_put (ht : LaidOut rules viewport t) (hp : t.parent? c = some p)
    (hx : t.AtOrAbove c x) (he : t.get? x = some e)
    (hput : t.Put (t.rootStarts viewport) x r q) : r.size = e.intrinsic := by
  cases hput with
  | start hm =>
    -- a root has no parent, and all elements below one do
    obtain ⟨root, hroot, hpair⟩ := List.mem_map.mp hm
    cases hpair
    have hnone := (ht.forest.mem_roots.mp hroot).2
    have hc := eq_of_atOrAbove_root hnone hx
    rw [← hc, hp] at hnone
    cases hnone
  | @child parent _ ep outer _ q' _ hput hep hm =>
    rcases mem_placeChildren.mp hm with ⟨-, ex, -, hex, hloose, -⟩ | ⟨-, hm⟩
    · obtain rfl := Option.some.inj (he.symm.trans hex)
      exact absurd (h x e hx he).inFlow (by simp [hloose])
    · obtain ⟨item, hitem, hid, -, ⟨lineCross, hwidth⟩, hlength⟩ := FlowStyle.mem_place hm
      obtain ⟨y, -, hsome⟩ := List.mem_filterMap.mp hitem
      obtain ⟨ey, hey, rfl⟩ := Option.map_eq_some_iff.mp hsome
      obtain rfl : x = y := hid.trans (id_flowItem _ y ey)
      obtain rfl := Option.some.inj (he.symm.trans hey)
      obtain ⟨hmain, hcross, hpos, hgrows⟩ := h.item hfits ht hx he ep.layout.direction
      have hown := FlowStyle.itemCross_of_not_grows lineCross hgrows fun _ => hpos
      apply Size.ext_on
      intro a
      rw [Rect.lengthOn_size]
      rcases a.eq_or ep.layout.direction.axis with rfl | rfl
      · exact (hlength hgrows).trans hmain
      · exact (hwidth.trans hown).trans hcross

/-! ### Filling -/

include h in
/-- What is asked of the children, as items and as sizes. -/
theorem map_flowItems {α : Type} {f : FlowItem → α} {g : Size → α} (ht : t.Forest)
    (hx : t.AtOrAbove c x) (he : t.get? x = some e)
    (hfg : ∀ y ey, t.AtOrAbove c y → t.get? y = some ey →
      f (ey.flowItem e.layout.direction y) = g ey.intrinsic) :
    (t.flowItems e).map f = (t.flowSizes e).map g := by
  rw [flowItems, flowSizes, List.map_filterMap, List.map_filterMap]
  apply List.filterMap_congr
  intro y hy
  rw [h.flowChildren_eq ht hx he] at hy
  obtain ⟨ey, hey, hup, -⟩ := h.child ht hx he hy
  rw [hey]
  exact congrArg some (hfg y ey hup hey)

include h hfits in
/-- In a box of just the size that holds them the children reach from edge
to edge. -/
theorem place_fills (ht : LaidOut rules viewport t) (hx : t.AtOrAbove c x)
    (he : t.get? x = some e) (hne : e.children ≠ []) {content : Rect} {a : Axis}
    (hbox : content.FitsOn a) (hcontent : content.lengthOn a = e.spanOn a (t.flowSizes e)) :
    (∀ p ∈ e.flowStyle.place content (t.flowItems e), p.2.endOn a ≤ content.endOn a) ∧
      ∃ p ∈ e.flowStyle.place content (t.flowItems e), p.2.endOn a = content.endOn a := by
  have hsizes := h.flowSizes_ne_nil ht.forest hx he hne
  have hmains := h.map_flowItems ht.forest hx he fun y ey hup hey => (h.item hfits ht hup hey _).1
  have hcrosses := h.map_flowItems ht.forest hx he fun y ey hup hey => (h.item hfits ht hup hey _).2.1
  have hitems {i : FlowItem} (hi : i ∈ t.flowItems e) :
      0 < i.cross ∧ i.grows = false ∧ 0 ≤ i.main ∧ 0 ≤ i.ownCross := by
    obtain ⟨y, hy, hsome⟩ := List.mem_filterMap.mp hi
    obtain ⟨ey, hey, rfl⟩ := Option.map_eq_some_iff.mp hsome
    rw [h.flowChildren_eq ht.forest hx he] at hy
    obtain ⟨ey', hey', hup, -⟩ := h.child ht.forest hx he hy
    obtain rfl := Option.some.inj (hey.symm.trans hey')
    obtain ⟨hmain, hown, hcross, hgrows⟩ := h.item hfits ht hup hey e.layout.direction
    have hlong := h.intrinsic_pos hfits ht hup hey e.layout.direction.axis
    have hwide := h.intrinsic_pos hfits ht hup hey e.layout.direction.crossAxis
    exact ⟨hcross, hgrows, by omega, by omega⟩
  have hwraps : e.flowStyle.wraps = false := (h x e hx he).wraps
  rcases a.eq_or e.layout.direction.axis with rfl | rfl
  · have hlength : (t.flowItems e).length = (t.flowSizes e).length := by
      simpa using congrArg List.length hmains
    refine FlowStyle.place_fills_along hwraps hbox (Int.le_max_right _ _)
      (fun i hi => (hitems hi).2.1) (fun i hi => (hitems hi).2.2.1) ?_ ?_
    · intro hnil
      rw [hnil] at hlength
      exact hsizes (List.length_eq_zero_iff.mp hlength.symm)
    · rw [hmains, hlength]
      exact hcontent.trans (if_pos rfl)
  · have hnonneg : ∀ n ∈ (t.flowSizes e).map (·.lengthOn e.layout.direction.crossAxis), 0 ≤ n := by
      intro n hn
      obtain ⟨size, hsize, rfl⟩ := List.mem_map.mp hn
      exact Int.le_of_lt (h.flowSizes_pos hfits ht hx he size hsize _)
    obtain ⟨hwidest, hle⟩ := Element.foldl_max_mem (mt List.map_eq_nil_iff.mp hsizes) hnonneg
    have hacross : e.layout.direction.crossAxis ≠ e.layout.direction.axis := by
      cases e.layout.direction <;> decide
    have hwide : content.lengthOn e.layout.direction.crossAxis =
        ((t.flowSizes e).map (·.lengthOn e.layout.direction.crossAxis)).foldl max 0 :=
      hcontent.trans (if_neg hacross)
    rw [← hwide, ← hcrosses] at hwidest hle
    refine FlowStyle.place_fills_across hwraps hbox (fun i hi => (hitems hi).2.1)
      (fun i hi => ⟨(hitems hi).2.2.2, fun _ => (hitems hi).1⟩) (fun i hi => ?_) ?_
    · exact hle _ (List.mem_map.mpr ⟨i, hi, rfl⟩)
    · obtain ⟨i, hi, hcross⟩ := List.mem_map.mp hwidest
      exact ⟨i, hi, hcross⟩

include h in
/-- Each child is put where the flow placed it. -/
theorem put_of_place (ht : t.Forest) (hx : t.AtOrAbove c x) (he : t.get? x = some e)
    (hput : t.Put (t.rootStarts viewport) x r q) {p : ElementId × Rect}
    (hm : p ∈ e.flowStyle.place (e.contentWithin r) (t.flowItems e)) :
    p.1 ∈ e.children ∧ t.AtOrAbove c p.1 ∧
      t.Put (t.rootStarts viewport) p.1 p.2 .flow ∧ ∃ ey, t.get? p.1 = some ey := by
  have hy := (mem_flowChildren.mp (mem_flowChildren_of_place hm)).1
  obtain ⟨ey, hey, hup, -⟩ := h.child ht hx he hy
  exact ⟨hy, hup, hput.child he (mem_placeChildren.mpr (.inr ⟨rfl, hm⟩)), ey, hey⟩

include h in
/-- If the children stay where they are put, they stand where the flow placed
them. -/
theorem flowRects_eq (ht : t.Forest) (hx : t.AtOrAbove c x) (he : t.get? x = some e)
    (hput : t.Put (t.rootStarts viewport) x r q)
    (hstay : ∀ y ∈ e.children, ∀ ey ry, t.AtOrAbove c y → t.get? y = some ey →
      t.Put (t.rootStarts viewport) y ry .flow → ey.rect = ry) :
    t.flowRects e = (e.flowStyle.place (e.contentWithin r) (t.flowItems e)).map (·.2) := by
  rw [flowRects, ← map_id_flowItems, ← FlowStyle.map_place e.flowStyle (e.contentWithin r),
    List.filterMap_map, ← List.filterMap_eq_map]
  apply List.filterMap_congr
  intro p hm
  obtain ⟨hy, hup, hputy, ey, hey⟩ := h.put_of_place ht hx he hput hm
  simp only [Function.comp, hey, Option.map_some, hstay p.1 hy ey p.2 hup hey hputy]

include h hfits in
/-- On an axis where it asks for no length, an element that is put where all
its edges fit ends right behind its children and the inset there. -/
theorem place_reaches (ht : LaidOut rules viewport t) (hp : t.parent? c = some p)
    (hx : t.AtOrAbove c x) (he : t.get? x = some e)
    (hput : t.Put (t.rootStarts viewport) x r q) (hchildren : e.children ≠ []) {a : Axis}
    (hbox : r.FitsOn a) (hlength : r.lengthOn a = e.neededOn a (t.flowSizes e)) :
    let places := (e.flowStyle.place (e.contentWithin r) (t.flowItems e)).map (·.2)
    (∀ place ∈ places, Word.Fits (place.endOn a) ∧
        place.endOn a + e.look.insets.trailOn a ≤ r.endOn a) ∧
      ∃ place ∈ places, place.endOn a + e.look.insets.trailOn a = r.endOn a := by
  have hsizes := h.flowSizes_ne_nil ht.forest hx he hchildren
  have hroom := e.spanOn_pos hsizes (h.flowSizes_pos hfits ht hx he) a
  obtain ⟨hinner, hcontent, hend⟩ :=
    Element.contentWithin_of_lengthOn hbox (Int.le_of_lt hroom) hlength
  obtain ⟨hle, farthest, hm, hreach⟩ := h.place_fills hfits ht hx he hchildren hinner hcontent
  refine ⟨fun place hplace => ?_, farthest.2, List.mem_map.mpr ⟨farthest, hm, rfl⟩, by omega⟩
  obtain ⟨p, hm, rfl⟩ := List.mem_map.mp hplace
  obtain ⟨-, hup, hputy, ey, hey⟩ := h.put_of_place ht.forest hx he hput hm
  have hlong : p.2.lengthOn a = ey.intrinsic.lengthOn a := by
    rw [← h.size_of_put hfits ht hp hup hey hputy, Rect.lengthOn_size]
  have hpos := h.intrinsic_pos hfits ht hup hey a
  have hbegin := (hputy.fits_startOn a).1
  have hle := hle p hm
  have hfinish := hbox.finish.2
  have htrail := e.look.insets.trailOn_nonneg a
  exact ⟨⟨by rw [Rect.endOn]; omega, by omega⟩, by omega⟩

include h hfits in
/-- Where an element is put it stays, at just that size. -/
theorem rect_of_put (ht : LaidOut rules viewport t) (hp : t.parent? c = some p)
    (hx : t.AtOrAbove c x) (he : t.get? x = some e)
    (hput : t.Put (t.rootStarts viewport) x r q) : e.rect = r := by
  refine ht.forest.leaves_up (P := fun x => ∀ e r q, t.AtOrAbove c x → t.get? x = some e →
    t.Put (t.rootStarts viewport) x r q → e.rect = r) ?_ (contains_of_get? he) e r q hx he hput
  intro x e₀ he₀ ih e r q hx he hput
  obtain rfl := Option.some.inj (he₀.symm.trans he)
  have hrigid := h x e₀ hx he₀
  have hsize := h.size_of_put hfits ht hp hx he₀ hput
  have hlength (a : Axis) : r.lengthOn a = e₀.intrinsic.lengthOn a := by
    rw [← hsize, Rect.lengthOn_size]
  have hpos := h.intrinsic_pos hfits ht hx he₀
  have hvisible : r.Visible :=
    ⟨(hpos .horizontal).trans_eq (hlength .horizontal).symm,
      (hpos .vertical).trans_eq (hlength .vertical).symm⟩
  have hplaced := h.flowRects_eq ht.forest hx he₀ hput fun y hy ey ry => ih y hy ey ry .flow
  rw [ht.settled hput he₀]
  refine Element.settle_eq_self _ _ hvisible (Element.closeAround_eq_self fun hne a hasked => ?_)
  have hchildren : e₀.children ≠ [] := by
    intro hnil
    rw [flowRects, h.flowChildren_eq ht.forest hx he₀, hnil] at hne
    exact hne rfl
  obtain ⟨hneeded, hreaches⟩ := hfits x e₀ hx he₀ hchildren a hasked
  have hmeasured := hrigid.lengthOn_of_children (ht.measured he₀) hchildren
    (h.flowSizes_ne_nil ht.forest hx he₀ hchildren) (h.flowSizes_pos hfits ht hx he₀) hasked hneeded
  have hbox : r.FitsOn a := by
    refine ⟨hput.fits_startOn a, ?_, ?_⟩
    · rwa [hlength, hmeasured]
    · rw [Rect.endOn, hlength, hmeasured]
      rwa [ht.settled hput he₀, Element.startOn_settle] at hreaches
  rw [hplaced]
  exact ⟨hbox.length, h.place_reaches hfits ht hp hx he₀ hput hchildren hbox
    ((hlength a).trans hmeasured)⟩

end RigidBelow

/-! ## Layouts -/

/-- A layout writes down what every element asks for, and keeps all but
the geometry. -/
theorem Forest.intrinsic_layOut (h : s.Forest) (rules : LayoutRules) (viewport : Size)
    (he : (s.layOut rules viewport).1.get? x = some e) :
    ∃ e₀, s.get? x = some e₀ ∧ e₀.still = e.still ∧ e.intrinsic = s.naturalSize rules x := by
  obtain ⟨e₁, he₁, hunplaced⟩ := (alike_withRects (s.measured rules) _).exists_get? he
  rw [h.get?_measured] at he₁
  obtain ⟨e₀, he₀, rfl⟩ := Option.map_eq_some_iff.mp he₁
  have hstill : e₀.still = e.still := (congrArg Element.still hunplaced :)
  have hintrinsic : s.naturalSize rules x = e.intrinsic := (congrArg Element.intrinsic hunplaced :)
  exact ⟨e₀, he₀, hstill, hintrinsic.symm⟩

/-- A root that wraps, with a padded container that runs upward. It holds a
fixed element and another container, with a text of a fixed width. -/
def pane : Scene :=
  let plain := empty.after
    [.push (.document 0) (.ofWidget .app), .push (.document 1) (.ofWidget .container),
      .push (.document 2) (.ofWidget .image), .push (.document 3) (.ofWidget .container),
      .push (.document 4) (.ofWidget .text), .link ⟨0⟩ ⟨1⟩, .link ⟨1⟩ ⟨2⟩, .link ⟨1⟩ ⟨3⟩,
      .link ⟨3⟩ ⟨4⟩]
  let wrapping := plain.modify ⟨0⟩ fun e => { e with layout := ⟨16⟩ }
  let upward := wrapping.modify ⟨1⟩ fun e =>
    { e with
      layout := ⟨7⟩
      look := { e.look with padding := .uniform 1 }
      sizing := { e.sizing with gap := 2 } }
  let fixed := upward.modify ⟨2⟩ fun e =>
    { e with sizing := { e.sizing with width := some 5, height := some 3 } }
  fixed.modify ⟨4⟩ fun e =>
    { e with text := some "hi", sizing := { e.sizing with width := some 7 } }

theorem forest_pane : pane.Forest := by
  refine ((((forest_after _).modify ?_ _).modify ?_ _).modify ?_ _).modify ?_ _ <;>
    constructor <;> intro <;> rfl

/-- A container in a root, with two fixed elements that are wider together
than a word can hold. -/
def beam : Scene :=
  let plain := empty.after
    [.push (.document 0) (.ofWidget .app), .push (.document 1) (.ofWidget .container),
      .push (.document 2) (.ofWidget .image), .push (.document 3) (.ofWidget .image),
      .link ⟨0⟩ ⟨1⟩, .link ⟨1⟩ ⟨2⟩, .link ⟨1⟩ ⟨3⟩]
  let fixed (e : Element) : Element :=
    { e with sizing := { e.sizing with width := some 0x40000000, height := some 1 } }
  (plain.modify ⟨2⟩ fixed).modify ⟨3⟩ fixed

theorem forest_beam : beam.Forest := by
  refine ((forest_after _).modify ?_ _).modify ?_ _ <;>
    constructor <;> intro <;> rfl

end Scene

end SceneTree
