import SceneTree.Proofs.Forest.Shown
import SceneTree.Proofs.Layout.LaidOut

/-!
# What stands aside

A child that is hidden or out of the flow, and all below it, has no say in
the layout of the rest. Two scenes that differ in nothing else (`Differ`)
are laid out alike outside of it. If the child is hidden in both, they are
painted alike as well, and the same element is found at every point.

An element reads its children in the flow when it is measured and when it
closes around them, and the child that stands aside is not among these. So
sizes and rectangles agree from the leaves up (`Differ.eq_of_flow`); in
between, the places agree from the roots down (`Differ.put`). What shows is
told by the subtrees that are painted, and that of a hidden child is empty.
-/

namespace SceneTree

/-- The element with one child in the place of another. -/
def Element.trade (x y : ElementId) (e : Element) : Element :=
  { e with children := e.children.map fun c => if c = x then y else c }

/-- An element that takes no part in the flow of its parent. -/
def Element.Aside (e : Element) : Prop := e.isVisible = false ∨ e.isAbsolute

theorem Element.Aside.inFlow {e : Element} (h : e.Aside) : e.inFlow = false := by
  rcases h with hhidden | habsolute
  · rw [Element.inFlow, hhidden, Bool.false_and]
  · rw [Element.inFlow, habsolute, Bool.not_true, Bool.and_false]

/-- Geometry has no say in it. -/
theorem Element.Aside.congr (e e' : Element) (hsame : e'.still = e.still) (he : e.Aside) :
    e'.Aside := by
  have hvisible : e'.isVisible = e.isVisible := (congrArg Element.isVisible hsame :)
  have habsolute : e'.isAbsolute = e.isAbsolute := (congrArg Element.isAbsolute hsame :)
  rwa [Element.Aside, hvisible, habsolute]

namespace Scene

open Element (still unplaced)

variable {α : Type} {g : Element → α} {s t s' t' : Scene} {host x y z u c p : ElementId}
  {e e' : Element} {rules : LayoutRules} {viewport : Size}

/-! ## Outside -/

/-- There, and neither `x` nor below it. -/
def Outside (s : Scene) (x z : ElementId) : Prop := s.contains z ∧ ¬ s.AtOrAbove x z

/-- Which ids these are. -/
theorem Forest.outside_iff_mem (hs : s.Forest) :
    s.Outside x z ↔ z ∈ s.ids.filter fun z => !s.isAtOrAbove x z := by
  rw [List.mem_filter, hs.mem_ids, Bool.not_eq_true', Bool.eq_false_iff, ne_eq,
    hs.isAtOrAbove_iff, Outside]

theorem Forest.outside_parent (hs : s.Forest) (hz : s.Outside x z) (hp : s.parent? z = some p) :
    s.Outside x p := ⟨hs.contains_parent hp, not_atOrAbove_of_parent? hz.2 hp⟩

theorem Forest.outside_child (hs : s.Forest) (hp : s.Outside x p) (hc : c ∈ s.children p)
    (hne : c ≠ x) : s.Outside x c := by
  have hparent := hs.mirror.mp hc
  refine ⟨hs.contains_child hc, fun ha => ?_⟩
  rcases atOrAbove_iff.mp ha with heq | ha
  · exact hne heq
  · exact hp.2 ((above_iff_of_parent? hparent).mp ha)

/-- Two scenes that differ at and below one child of a parent only, `x` in
the one and `y` in the other, with the same place among the children. Of
everything outside `g` reads the same. -/
structure Differ (g : Element → α) (s t : Scene) (host x y : ElementId) : Prop where
  child : s.parent? x = some host
  child' : t.parent? y = some host
  outside_iff : ∀ z, t.Outside y z ↔ s.Outside x z
  same : ∀ z e, s.Outside x z → s.get? z = some e →
    ∃ e', t.get? z = some e' ∧ g e' = g (e.trade x y)

namespace Differ

/-- Scenes that differ so in a reading differ so in what can be read off
it. -/
theorem reading {β : Type} {k : Element → β} (h : Differ g s t host x y) (r : α → β)
    (hk : ∀ e, k e = r (g e) := by intro; rfl) : Differ k s t host x y where
  child := h.child
  child' := h.child'
  outside_iff := h.outside_iff
  same z e hz he := by
    obtain ⟨e', he', hg⟩ := h.same z e hz he
    exact ⟨e', he', by rw [hk, hk, hg]⟩

theorem read (h : Differ g s t host x y) (hz : s.Outside x z) (he : s.get? z = some e)
    (he' : t.get? z = some e') : g e' = g (e.trade x y) := by
  obtain ⟨e'', he'', hg⟩ := h.same z e hz he
  obtain rfl := Option.some.inj (he'.symm.trans he'')
  exact hg

theorem exists_read (h : Differ g s t host x y) (hz : s.Outside x z) :
    ∃ e e', s.get? z = some e ∧ t.get? z = some e' ∧ g e' = g (e.trade x y) := by
  obtain ⟨e, he⟩ := contains_iff.mp hz.1
  obtain ⟨e', he', hg⟩ := h.same z e hz he
  exact ⟨e, e', he, he', hg⟩

/-- Whatever writes geometry only leaves the difference where it is. -/
theorem alike (h : Differ still s t host x y) (hs : Alike still s s') (ht : Alike still t t') :
    Differ still s' t' host x y where
  child := (hs.core.sameShape.parent? x).trans h.child
  child' := (ht.core.sameShape.parent? y).trans h.child'
  outside_iff z := by
    rw [Outside, Outside, ht.contains, hs.contains, ht.core.sameShape.atOrAbove_iff,
      hs.core.sameShape.atOrAbove_iff]
    exact h.outside_iff z
  same z e hz he := by
    obtain ⟨e₀, he₀, hstill⟩ := hs.exists_get? he
    have hz₀ : s.Outside x z :=
      ⟨contains_of_get? he₀, fun ha => hz.2 (hs.core.sameShape.atOrAbove_iff.mpr ha)⟩
    obtain ⟨e₁, he₁, hsame⟩ := h.same z e₀ hz₀ he₀
    obtain ⟨e', he', hstill'⟩ := ht.symm.exists_get? he₁
    refine ⟨e', he', ?_⟩
    calc e'.still
        = e₁.still := hstill'
      _ = (e₀.trade x y).still := hsame
      _ = (e.trade x y).still := (congrArg (Element.trade x y) hstill :)

/-! ### The tree outside -/

theorem parent?_eq (h : Differ still s t host x y) (hz : s.Outside x z) :
    t.parent? z = s.parent? z := by
  obtain ⟨e, e', he, he', hsame⟩ := h.exists_read hz
  rw [parent?_of_get? he, parent?_of_get? he']
  exact (congrArg Element.parent hsame :)

theorem children_eq (h : Differ still s t host x y) (hz : s.Outside x z) (he : s.get? z = some e)
    (he' : t.get? z = some e') :
    e'.children = e.children.map fun c => if c = x then y else c :=
  (congrArg Element.children (h.read hz he he') :)

theorem atOrAbove_iff (h : Differ still s t host x y) (hs : s.Forest) (hz : s.Outside x z) :
    t.AtOrAbove u z ↔ s.AtOrAbove u z :=
  atOrAbove_congr (P := s.Outside x) hs.outside_parent h.parent?_eq hz

/-- The roots are outside. -/
theorem outside_of_root (h : s.parent? x = some host) (hz : s.parent? z = none)
    (hlive : s.contains z) : s.Outside x z := by
  refine ⟨hlive, fun ha => ?_⟩
  rw [eq_of_atOrAbove_root hz ha, hz] at h
  cases h

theorem roots_eq (h : Differ still s t host x y) (hs : s.Forest) (ht : t.Forest) :
    t.roots = s.roots := by
  have hmem (z : ElementId) : z ∈ t.roots ↔ z ∈ s.roots := by
    rw [hs.mem_roots, ht.mem_roots]
    constructor
    · rintro ⟨hlive, hp⟩
      have hz := (h.outside_iff z).mp (outside_of_root h.child' hp hlive)
      exact ⟨hz.1, (h.parent?_eq hz).symm.trans hp⟩
    · rintro ⟨hlive, hp⟩
      have hz := outside_of_root h.child hp hlive
      exact ⟨((h.outside_iff z).mpr hz).1, (h.parent?_eq hz).trans hp⟩
  apply List.Perm.eq_of_pairwise _ ht.roots_increasing hs.roots_increasing
  · exact (List.perm_ext_iff_of_nodup (Forest.nodup_of_increasing ht.roots_increasing)
      (Forest.nodup_of_increasing hs.roots_increasing)).mpr hmem
  · intro a b _ _ hab hba
    exact absurd hab (Nat.lt_asymm hba)

/-! ### The flow outside -/

theorem any_inFlow_of_aside (hx : ∀ e, s.get? x = some e → e.Aside) :
    (s.get? x).any (·.inFlow) = false := by
  cases he : s.get? x with
  | none => rfl
  | some e => exact (hx e he).inFlow

section Flow

variable (h : Differ still s t host x y) (hs : s.Forest)
  (hx : ∀ e, s.get? x = some e → e.Aside) (hy : ∀ e, t.get? y = some e → e.Aside)
  (hz : s.Outside x z) (he : s.get? z = some e) (he' : t.get? z = some e')

include hs hx hz he

/-- What stands in a flow outside is itself outside. -/
theorem outside_of_flow (hc : c ∈ s.flowChildren e) : s.Outside x c := by
  obtain ⟨hmem, ec, hec, hflow⟩ := mem_flowChildren.mp hc
  apply hs.outside_child hz (children_of_get? he ▸ hmem)
  rintro rfl
  exact Bool.false_ne_true ((hx ec hec).inFlow.symm.trans hflow)

include h hy he'

theorem flowChildren_eq : t.flowChildren e' = s.flowChildren e := by
  have hflow : ∀ c ∈ e.children,
      (t.get? (if c = x then y else c)).any (·.inFlow) = (s.get? c).any (·.inFlow) := by
    intro c hc
    by_cases hcx : c = x
    · rw [if_pos hcx, hcx, any_inFlow_of_aside hx, any_inFlow_of_aside hy]
    · obtain ⟨ec, ec', hec, hec', hsame⟩ :=
        h.exists_read (hs.outside_child hz (children_of_get? he ▸ hc) hcx)
      rw [if_neg hcx, hec, hec']
      exact (congrArg Element.inFlow hsame :)
  have hfixed : ∀ c ∈ s.flowChildren e, (if c = x then y else c) = c := by
    intro c hc
    apply if_neg
    rintro rfl
    exact (outside_of_flow hs hx hz he hc).2 .refl
  calc t.flowChildren e'
      = (e.children.map fun c => if c = x then y else c).filter
          fun c => (t.get? c).any (·.inFlow) := by
          rw [flowChildren, h.children_eq hz he he']
    _ = (s.flowChildren e).map fun c => if c = x then y else c := by
        rw [List.filter_map, flowChildren]
        exact congrArg _ (List.filter_congr hflow)
    _ = s.flowChildren e := (List.map_congr_left hfixed).trans (List.map_id' _)

/-- What is read of the children in a flow outside is the same, if it is the
same of each. -/
theorem filterMap_flow {β : Type} {k : ElementId → Element → β}
    (hk : ∀ c ec ec', c ∈ e.children → s.Outside x c → s.get? c = some ec →
      t.get? c = some ec' → k c ec' = k c ec) :
    (t.flowChildren e').filterMap (fun c => (t.get? c).map (k c)) =
      (s.flowChildren e).filterMap fun c => (s.get? c).map (k c) := by
  rw [h.flowChildren_eq hs hx hy hz he he']
  apply List.filterMap_congr
  intro c hc
  have hout := outside_of_flow hs hx hz he hc
  obtain ⟨ec, ec', hec, hec', -⟩ := h.exists_read hout
  rw [hec, hec', Option.map_some, Option.map_some,
    hk c ec ec' (mem_flowChildren.mp hc).1 hout hec hec']

/-- What an element takes from itself and from its children in the flow is
the same outside, from the leaves up. -/
theorem eq_of_flow {β : Type} {k : Element → β}
    (hk : ∀ z e e', s.Outside x z → s.get? z = some e → t.get? z = some e' →
      ((t.flowChildren e').filterMap fun c => (t.get? c).map k) =
        (s.flowChildren e).filterMap (fun c => (s.get? c).map k) → k e' = k e) :
    k e' = k e := by
  revert e e'
  refine hs.leaves_up (P := fun z => s.Outside x z → ∀ {e e' : Element},
    s.get? z = some e → t.get? z = some e' → k e' = k e) ?_ hz.1 hz
  intro z e he ih hz e₀ e' he₀ he'
  obtain rfl := Option.some.inj (he.symm.trans he₀)
  apply hk z e e' hz he he'
  exact h.filterMap_flow hs hx hy hz he he' fun c ec ec' hc hout hec hec' => ih c hc hout hec hec'

end Flow

/-! ## Layout outside -/

section Layout

variable (hx : ∀ e, s.get? x = some e → e.Aside) (hy : ∀ e, t.get? y = some e → e.Aside)

include hx hy

/-- What is outside asks for the same sizes. -/
theorem intrinsic_eq (h : Differ still s t host x y) (hs : LaidOut rules viewport s)
    (ht : LaidOut rules viewport t) (hz : s.Outside x z) (he : s.get? z = some e)
    (he' : t.get? z = some e') : e'.intrinsic = e.intrinsic := by
  refine h.eq_of_flow hs.forest hx hy hz he he' ?_
  intro z e e' hz he he' (hsizes : t.flowSizes e' = s.flowSizes e)
  calc e'.intrinsic
      = e'.naturalSize rules (t.flowSizes e') := ht.measured he'
    _ = e.naturalSize rules (t.flowSizes e') :=
        (congrArg (Element.naturalSize rules · (t.flowSizes e')) (h.read hz he he') :)
    _ = e.naturalSize rules (s.flowSizes e) := by rw [hsizes]
    _ = e.intrinsic := (hs.measured he).symm

theorem differ_unplaced (h : Differ still s t host x y) (hs : LaidOut rules viewport s)
    (ht : LaidOut rules viewport t) : Differ unplaced s t host x y where
  child := h.child
  child' := h.child'
  outside_iff := h.outside_iff
  same z e hz he := by
    obtain ⟨e', he', hstill⟩ := h.same z e hz he
    refine ⟨e', he', ?_⟩
    calc e'.unplaced
        = { e'.still with intrinsic := e'.intrinsic } := rfl
      _ = (e.trade x y).unplaced := by rw [hstill, h.intrinsic_eq hx hy hs ht hz he he']; rfl

/-- What is outside is put at the same places. -/
theorem put (h : Differ unplaced s t host x y) (hs : s.Forest) {starts : List (ElementId × Rect)}
    {r : Rect} {q : Placement} (hput : s.Put starts z r q) (hz : s.Outside x z) :
    t.Put starts z r q := by
  have hstill : Differ still s t host x y := h.reading still
  induction hput with
  | start hm => exact .start hm
  | @child p c e r place q q' _ he hm ih =>
    obtain ⟨hc, -⟩ := mem_children_of_placeChildren hm
    have hp := hs.outside_parent hz (hs.mirror.mp (children_of_get? he ▸ hc))
    obtain ⟨e', he', hsame⟩ := h.same p e hp he
    have hcontent : e'.contentWithin r = e.contentWithin r :=
      (congrArg (Element.contentWithin · r) hsame :)
    refine .child (ih hp) he' (mem_placeChildren.mpr ?_)
    rcases mem_placeChildren.mp hm with ⟨rfl, ec, -, hec, hloose, rfl⟩ | ⟨rfl, hflow⟩
    · obtain ⟨ec', hec', hsamec⟩ := h.same c ec hz hec
      have hmem : c ∈ e'.children := by
        rw [hstill.children_eq hp he he']
        refine List.mem_map.mpr ⟨c, hc, if_neg ?_⟩
        rintro rfl
        exact hz.2 .refl
      refine .inl ⟨rfl, ec', hmem, hec', (congrArg Element.inFlow hsamec :).trans hloose, ?_⟩
      rw [hcontent]
      exact (congrArg (Element.looseRect (e.contentWithin r)) hsamec.symm :)
    · have hitems : t.flowItems e' = s.flowItems e := by
        have hdirection : e'.layout.direction = e.layout.direction :=
          (congrArg (·.layout.direction) hsame :)
        rw [flowItems, flowItems, hdirection]
        refine hstill.filterMap_flow hs hx hy hp he he' fun c ec ec' _ hout hec hec' => ?_
        exact (congrArg (Element.flowItem e.layout.direction c) (h.read hout hec hec') :)
      have hstyle : e'.flowStyle = e.flowStyle := (congrArg Element.flowStyle hsame :)
      refine .inr ⟨rfl, ?_⟩
      rw [hstyle, hcontent, hitems]
      exact hflow

/-- There it settles alike. -/
theorem rect_eq (h : Differ unplaced s t host x y) (hs : LaidOut rules viewport s)
    (ht : LaidOut rules viewport t) (hz : s.Outside x z) (he : s.get? z = some e)
    (he' : t.get? z = some e') : e'.rect = e.rect := by
  have hstill : Differ still s t host x y := h.reading still
  have hstarts : t.rootStarts viewport = s.rootStarts viewport := by
    rw [rootStarts, hstill.roots_eq hs.forest ht.forest, rootStarts]
  refine hstill.eq_of_flow hs.forest hx hy hz he he' ?_
  intro z e e' hz he he' (hrects : t.flowRects e' = s.flowRects e)
  obtain ⟨r, q, hput⟩ := hs.put hz.1
  have hput' : t.Put (t.rootStarts viewport) z r q :=
    hstarts ▸ h.put hx hy hs.forest hput hz
  calc e'.rect
      = e'.settle rules.settings.unit q (t.flowRects e') r := ht.settled hput' he'
    _ = e.settle rules.settings.unit q (t.flowRects e') r :=
        (congrArg (Element.settle rules.settings.unit · q (t.flowRects e') r)
          (h.read hz he he') :)
    _ = e.settle rules.settings.unit q (s.flowRects e) r := by rw [hrects]
    _ = e.rect := (hs.settled hput he).symm

/-- Scenes that were laid out differ in nothing else. -/
theorem laidOut (h : Differ still s t host x y) (hs : LaidOut rules viewport s)
    (ht : LaidOut rules viewport t) : Differ id s t host x y where
  child := h.child
  child' := h.child'
  outside_iff := h.outside_iff
  same z e hz he := by
    have hunplaced := h.differ_unplaced hx hy hs ht
    obtain ⟨e', he', hsame⟩ := hunplaced.same z e hz he
    refine ⟨e', he', ?_⟩
    calc e'
        = { e'.unplaced with rect := e'.rect } := rfl
      _ = e.trade x y := by rw [hsame, hunplaced.rect_eq hx hy hs ht hz he he']; rfl

end Layout

/-! ## What shows outside -/

section Shown

variable (h : Differ id s t host x y) (hs : s.Forest) (ht : t.Forest)

include h hs ht

theorem isShown_eq (hz : s.Outside x z) : t.isShown z = s.isShown z := by
  have hstill : Differ still s t host x y := h.reading still
  rw [Bool.eq_iff_iff, isShown, isShown, ht.isEntered_iff, hs.isEntered_iff]
  apply forall_congr'
  intro u
  rw [hstill.atOrAbove_iff hs hz]
  apply imp_congr_right
  intro hu
  have hout : s.Outside x u :=
    ⟨hs.contains_of_atOrAbove hu hz.1, fun ha => hz.2 (hu.trans ha)⟩
  obtain ⟨e, e', he, he', hsame⟩ := h.exists_read hout
  have hvisible : e'.isVisible = e.isVisible := (congrArg Element.isVisible hsame :)
  rw [he, he', Option.any_some, Option.any_some, hvisible]

variable (hx : ∀ e, s.get? x = some e → e.isVisible = false)
  (hy : ∀ e, t.get? y = some e → e.isVisible = false)

include hx hy

/-- The same is shown of a subtree outside: nothing of what is traded. -/
theorem filter_subtree (hz : s.Outside x z) :
    (t.subtree z).filter t.isShown = (s.subtree z).filter s.isShown := by
  refine hs.leaves_up (P := fun z => s.Outside x z →
    (t.subtree z).filter t.isShown = (s.subtree z).filter s.isShown) ?_ hz.1 hz
  intro z e he ih hz
  have hstill : Differ still s t host x y := h.reading still
  obtain ⟨e', he', -⟩ := h.same z e hz he
  have hbelow : (e'.children.flatMap t.subtree).filter t.isShown =
      (e.children.flatMap s.subtree).filter s.isShown := by
    rw [List.filter_flatMap, List.filter_flatMap, hstill.children_eq hz he he',
      List.flatMap_map]
    apply List.flatMap_congr
    intro c hc
    by_cases hcx : c = x
    · obtain ⟨ex, hex⟩ := contains_iff.mp (contains_of_parent? h.child)
      obtain ⟨ey, hey⟩ := contains_iff.mp (contains_of_parent? h.child')
      rw [if_pos hcx, hcx]
      exact (ht.filter_isEntered_subtree hey (hy ey hey)).trans
        (hs.filter_isEntered_subtree hex (hx ex hex)).symm
    · rw [if_neg hcx]
      exact ih c hc (hs.outside_child hz (children_of_get? he ▸ hc) hcx)
  rw [hs.subtree_of_get? he, ht.subtree_of_get? he', List.filter_cons, List.filter_cons,
    h.isShown_eq hs ht hz, hbelow]

/-- The same elements show, in the same order. -/
theorem shown_eq : t.shown = s.shown.map (Element.trade x y) := by
  have hstill : Differ still s t host x y := h.reading still
  have horder : t.preorder.filter t.isShown = s.preorder.filter s.isShown := by
    rw [preorder, preorder, List.filter_flatMap, List.filter_flatMap, hstill.roots_eq hs ht]
    apply List.flatMap_congr
    intro root hroot
    obtain ⟨hlive, hp⟩ := hs.mem_roots.mp hroot
    exact h.filter_subtree hs ht hx hy (outside_of_root h.child hp hlive)
  rw [ht.shown_eq, hs.shown_eq, horder, List.map_filterMap]
  apply List.filterMap_congr
  intro z hz
  obtain ⟨hmem, hshown⟩ := List.mem_filter.mp hz
  have hout : s.Outside x z := by
    refine ⟨hs.mem_preorder.mp hmem, fun ha => ?_⟩
    obtain ⟨ex, hex⟩ := contains_iff.mp (contains_of_parent? h.child)
    have hvisible := hs.isEntered_iff.mp hshown x ha
    rw [hex, Option.any_some, hx ex hex] at hvisible
    exact Bool.false_ne_true hvisible
  obtain ⟨e, e', he, he', hsame⟩ := h.exists_read hout
  rw [he, he', Option.map_some]
  exact congrArg some hsame

/-- So the same is painted. -/
theorem paint_eq : t.paint = s.paint := by
  rw [paint, h.shown_eq hs ht hx hy, List.flatMap_map]
  rfl

/-- And the same element is found at a point. -/
theorem elementAt?_eq (left top : Int) : t.elementAt? left top = s.elementAt? left top := by
  rw [elementAt?, regions, h.shown_eq hs ht hx hy, List.map_map]
  rfl

end Shown

end Differ

/-- Let two forests differ at and below one child of a parent only, and let
that child be hidden or out of the flow in both. Then a layout gives
everything outside the same size and the same rectangle in both. If the
child is hidden in both, they are painted alike then, and have the same
element at every point; and so they are and have as they stand, if outside
the geometry is the same as well. -/
theorem Forest.aside_has_no_say (hs : s.Forest) (ht : t.Forest) (h : Differ still s t host x y)
    (hx : ∀ e, s.get? x = some e → e.isVisible = false ∨ e.isAbsolute)
    (hy : ∀ e, t.get? y = some e → e.isVisible = false ∨ e.isAbsolute)
    (rules : LayoutRules) (viewport : Size) :
    let s' := (s.layOut rules viewport).1
    let t' := (t.layOut rules viewport).1
    (∀ z e, s'.get? z = some e → ¬ s.AtOrAbove x z →
      ∃ e', t'.get? z = some e' ∧ e'.intrinsic = e.intrinsic ∧ e'.rect = e.rect) ∧
    ((∀ e, s.get? x = some e → e.isVisible = false) →
      (∀ e, t.get? y = some e → e.isVisible = false) →
      (t'.paint = s'.paint ∧ ∀ left top, t'.elementAt? left top = s'.elementAt? left top) ∧
      (Differ id s t host x y →
        t.paint = s.paint ∧ ∀ left top, t.elementAt? left top = s.elementAt? left top)) := by
  intro s' t'
  have halike : Alike still s s' := alike_layOut rules s viewport
  have halike' : Alike still t t' := alike_layOut rules t viewport
  have hlaid : LaidOut rules viewport s' := hs.laidOut rules viewport
  have hlaid' : LaidOut rules viewport t' := ht.laidOut rules viewport
  have hhidden (e e' : Element) (hsame : e'.still = e.still) (he : e.isVisible = false) :
      e'.isVisible = false := (congrArg Element.isVisible hsame :).trans he
  have hdiffer : Differ id s' t' host x y := (h.alike halike halike').laidOut
    (halike.forall_get? Element.Aside.congr hx) (halike'.forall_get? Element.Aside.congr hy)
    hlaid hlaid'
  refine ⟨fun z e he hz => ?_, fun hx hy => ⟨⟨?_, ?_⟩, fun hfull => ⟨?_, ?_⟩⟩⟩
  · have hout : s'.Outside x z :=
      ⟨contains_of_get? he, fun ha => hz (halike.core.sameShape.atOrAbove_iff.mp ha)⟩
    obtain ⟨e', he', hsame⟩ := hdiffer.same z e hout he
    exact ⟨e', he', (congrArg Element.intrinsic hsame :), (congrArg Element.rect hsame :)⟩
  · exact hdiffer.paint_eq hlaid.forest hlaid'.forest (halike.forall_get? hhidden hx)
      (halike'.forall_get? hhidden hy)
  · exact hdiffer.elementAt?_eq hlaid.forest hlaid'.forest (halike.forall_get? hhidden hx)
      (halike'.forall_get? hhidden hy)
  · exact hfull.paint_eq hs ht hx hy
  · exact hfull.elementAt?_eq hs ht hx hy

/-- A root, an element and one of fixed size, put together by `calls`, in
which `x` is hidden. -/
def veiled (x : ElementId) (calls : List Call) : Scene :=
  let plain := empty.after <|
    [.push (.document 0) (.ofWidget .app), .push (.document 1) (.ofWidget .container),
      .push (.document 2) (.ofWidget .container)] ++ calls
  (plain.modify x fun e => { e with look := { e.look with visible := false } }).modify ⟨2⟩
    fun e => { e with sizing := { e.sizing with width := some 5, height := some 5 } }

theorem forest_veiled (x : ElementId) (calls : List Call) : (veiled x calls).Forest := by
  refine ((forest_after _).modify ?_ _).modify ?_ _ <;> constructor <;> intro <;> rfl

/-- A hidden child without anything below it. -/
def veiledLeaf : Scene := veiled ⟨1⟩ [.link ⟨0⟩ ⟨1⟩, .link ⟨0⟩ ⟨2⟩]

/-- In its place another one, with something below it. -/
def veiledBranch : Scene := veiled ⟨3⟩
  [.push (.document 3) (.ofWidget .text), .link ⟨3⟩ ⟨1⟩, .link ⟨0⟩ ⟨3⟩, .link ⟨0⟩ ⟨2⟩]

theorem forest_veiledLeaf : veiledLeaf.Forest := forest_veiled _ _

theorem forest_veiledBranch : veiledBranch.Forest := forest_veiled _ _

theorem differ_veiled : Differ still veiledLeaf veiledBranch ⟨0⟩ ⟨1⟩ ⟨3⟩ := by
  have hleaf (z : ElementId) : veiledLeaf.Outside ⟨1⟩ z ↔ z ∈ [(⟨0⟩ : ElementId), ⟨2⟩] := by
    have hids : (veiledLeaf.ids.filter fun z => !veiledLeaf.isAtOrAbove ⟨1⟩ z) =
        [⟨0⟩, ⟨2⟩] := by decide +kernel
    rw [forest_veiledLeaf.outside_iff_mem, hids]
  have hbranch (z : ElementId) : veiledBranch.Outside ⟨3⟩ z ↔ z ∈ [(⟨0⟩ : ElementId), ⟨2⟩] := by
    have hids : (veiledBranch.ids.filter fun z => !veiledBranch.isAtOrAbove ⟨3⟩ z) =
        [⟨0⟩, ⟨2⟩] := by decide +kernel
    rw [forest_veiledBranch.outside_iff_mem, hids]
  have hsame : ∀ z ∈ [(⟨0⟩ : ElementId), ⟨2⟩], (veiledBranch.get? z).map still =
      (veiledLeaf.get? z).map fun e => (e.trade ⟨1⟩ ⟨3⟩).still := by
    decide +kernel
  refine ⟨by decide +kernel, by decide +kernel, fun z => (hbranch z).trans (hleaf z).symm, ?_⟩
  intro z e hz he
  have hz := hsame z ((hleaf z).mp hz)
  rw [he, Option.map_some] at hz
  exact Option.map_eq_some_iff.mp hz

/-- The fixed element comes to lie at the same place in both, and both look
and answer alike. -/
theorem veiled_aside :
    (Differ still veiledLeaf veiledBranch ⟨0⟩ ⟨1⟩ ⟨3⟩ ∧
      (∀ e, veiledLeaf.get? ⟨1⟩ = some e → e.isVisible = false) ∧
      ∀ e, veiledBranch.get? ⟨3⟩ = some e → e.isVisible = false) ∧
    let s' := (veiledLeaf.layOut ⟨.standard, .cells⟩ ⟨100, 50⟩).1
    let t' := (veiledBranch.layOut ⟨.standard, .cells⟩ ⟨100, 50⟩).1
    (∃ e e', s'.get? ⟨2⟩ = some e ∧ e.rect = ⟨0, 0, 5, 5⟩ ∧ t'.get? ⟨2⟩ = some e' ∧
      e'.intrinsic = e.intrinsic ∧ e'.rect = e.rect) ∧
    t'.paint = s'.paint ∧ ∀ left top, t'.elementAt? left top = s'.elementAt? left top := by
  have hhidden {w : Scene} {v : ElementId} (h : (w.get? v).all (!·.isVisible)) :
      ∀ e, w.get? v = some e → e.isVisible = false := by
    intro e he
    rw [he, Option.all_some, Bool.not_eq_true'] at h
    exact h
  have hleaf : ∀ e, veiledLeaf.get? ⟨1⟩ = some e → e.isVisible = false :=
    hhidden (by decide +kernel)
  have hbranch : ∀ e, veiledBranch.get? ⟨3⟩ = some e → e.isVisible = false :=
    hhidden (by decide +kernel)
  obtain ⟨hsame, hpainted⟩ := forest_veiledLeaf.aside_has_no_say
    forest_veiledBranch differ_veiled (fun e he => .inl (hleaf e he))
    (fun e he => .inl (hbranch e he)) ⟨.standard, .cells⟩ ⟨100, 50⟩
  have hrect : (((veiledLeaf.layOut ⟨.standard, .cells⟩ ⟨100, 50⟩).1).get? ⟨2⟩).map (·.rect) =
      some ⟨0, 0, 5, 5⟩ := by decide +kernel
  have hbeside : ¬ veiledLeaf.AtOrAbove ⟨1⟩ ⟨2⟩ := by
    rw [← forest_veiledLeaf.isAtOrAbove_iff]
    decide +kernel
  obtain ⟨e, he, hplace⟩ := Option.map_eq_some_iff.mp hrect
  obtain ⟨e', he', hsizes⟩ := hsame ⟨2⟩ e he hbeside
  exact ⟨⟨differ_veiled, hleaf, hbranch⟩, ⟨e, e', he, hplace, he', hsizes⟩,
    (hpainted hleaf hbranch).1⟩

end Scene

end SceneTree
