import SceneTree.Proofs.Layout.Rigid

/-!
# Siblings in a row

Where the children in the flow of an element begin is settled before what
is below them has a place. It goes by the sizes that were measured: of two
siblings on a line that runs forward the second begins behind the measured
length of the first and a gap, unless that is more than a word holds
(`Forest.siblings_apart`).

That keeps the two apart as long as the first does not get longer than it
was measured. It does not where a length is asked for, where nothing in
the flow is below it, and where all below it is rigid. But an element
closes around what its children got, and nothing gets less than one unit,
even if it asked for nothing. So an empty child can push an element over
the beginning of the next (`crowded_overlaps`).
-/

namespace SceneTree

open Word (wrap)

namespace Scene

variable {s t : Scene} {e ea eb : Element} {a b p : ElementId} {rules : LayoutRules}
  {viewport : Size}

theorem getElem?_flowItems {i : Nat} (ha : (t.flowChildren e)[i]? = some a)
    (hea : t.get? a = some ea) :
    (t.flowItems e)[i]? = some (ea.flowItem e.layout.direction a) := by
  rw [← map_id_flowItems, List.getElem?_map] at ha
  obtain ⟨item, hitem, hid⟩ := Option.map_eq_some_iff.mp ha
  obtain ⟨y, -, hsome⟩ := List.mem_filterMap.mp (List.mem_of_getElem? hitem)
  obtain ⟨ey, hey, rfl⟩ := Option.map_eq_some_iff.mp hsome
  obtain rfl : y = a := (id_flowItem _ y ey).symm.trans hid
  obtain rfl := Option.some.inj (hea.symm.trans hey)
  exact hitem

/-- Of two elements that follow one another on a line that runs forward, the
first not growing, the first is put at its measured length and the second
begins that length and the spacing behind it. -/
theorem LaidOut.put_next (ht : LaidOut rules viewport t) {outer : Rect} {q : Placement} {i : Nat}
    (hput : t.Put (t.rootStarts viewport) p outer q) (he : t.get? p = some e)
    (hwraps : e.layout.wraps = false) (hforward : e.layout.direction.isReverse = false)
    (ha : (t.flowChildren e)[i]? = some a) (hb : (t.flowChildren e)[i + 1]? = some b)
    (hea : t.get? a = some ea) (heb : t.get? b = some eb) (hgrows : ea.grows = false)
    (hpos : 1 ≤ ea.intrinsic.lengthOn e.layout.direction.axis) :
    let axis := e.layout.direction.axis
    ∃ ra rb, t.Put (t.rootStarts viewport) a ra .flow ∧ t.Put (t.rootStarts viewport) b rb .flow ∧
      ra.lengthOn axis = ea.intrinsic.lengthOn axis ∧
      rb.startOn axis = wrap (ra.startOn axis + ea.intrinsic.lengthOn axis +
        e.flowStyle.spacingOn ((e.contentWithin outer).lengthOn axis) (t.flowItems e)) := by
  have hmain : (ea.flowItem e.layout.direction a).main =
      ea.intrinsic.lengthOn e.layout.direction.axis := by
    rw [Element.main_flowItem]
    exact ht.getD_askedOn hea hpos
  obtain ⟨ra, rb, hma, hmb, hlength, hstart⟩ := FlowStyle.place_next (f := e.flowStyle) hwraps
    hforward (e.contentWithin outer) (getElem?_flowItems ha hea) (getElem?_flowItems hb heb)
    ((Element.grows_flowItem _ a ea).trans hgrows)
  rw [id_flowItem] at hma hmb
  rw [hmain] at hstart
  exact ⟨ra, rb, hput.child he (mem_placeChildren.mpr (.inr ⟨rfl, hma⟩)),
    hput.child he (mem_placeChildren.mpr (.inr ⟨rfl, hmb⟩)), hlength.trans hmain, hstart⟩

/-- A child that is put at its measured length keeps it, if it asks for a
length, has nothing in its flow, or is rigid along with all below it. -/
theorem LaidOut.keeps_measured (ht : LaidOut rules viewport t) {r : Rect} {axis : Axis}
    (hparent : t.parent? a = some p) (hput : t.Put (t.rootStarts viewport) a r .flow)
    (hea : t.get? a = some ea) (hpos : 1 ≤ ea.intrinsic.lengthOn axis)
    (hr : r.lengthOn axis = ea.intrinsic.lengthOn axis)
    (hfirm : (ea.askedOn axis).isSome ∨ t.flowChildren ea = [] ∨
      (t.RigidBelow a ∧ t.FitsBelow a)) :
    ea.rect.lengthOn axis = ea.intrinsic.lengthOn axis := by
  have hsettles (hclose : (ea.askedOn axis).isSome ∨ t.flowRects ea = []) :
      ea.rect.lengthOn axis = ea.intrinsic.lengthOn axis := by
    rw [ht.settled hput hea, Element.lengthOn_settle _ _ (hr ▸ hpos) hclose, hr]
  rcases hfirm with hasked | hnone | ⟨hrigid, hfits⟩
  · exact hsettles (.inl hasked)
  · refine hsettles (.inr ?_)
    rw [flowRects, hnone]
    rfl
  · rw [hrigid.rect_of_put hfits ht hparent .refl hea hput, hr]

/-- Siblings on a line that runs forward keep apart. Of two that follow one
another in a flow without wrapping, the first not growing and measured one
unit long at least, the second begins behind the measured length of the
first and the gap, or more if the free space is put between them. So where
a word holds that sum, they are the gap apart unless the first got longer
than it was measured. It has just that length if it asks for one, if it has
no children in the flow, or if it is rigid along with all below it and words
hold what is there. -/
theorem Forest.siblings_apart (h : s.Forest) (rules : LayoutRules) (viewport : Size)
    {p a b : ElementId} {e ea eb : Element} {i : Nat}
    (he : (s.layOut rules viewport).1.get? p = some e) (hwraps : e.layout.wraps = false)
    (hforward : e.layout.direction.isReverse = false)
    (ha : ((s.layOut rules viewport).1.flowChildren e)[i]? = some a)
    (hb : ((s.layOut rules viewport).1.flowChildren e)[i + 1]? = some b)
    (hea : (s.layOut rules viewport).1.get? a = some ea)
    (heb : (s.layOut rules viewport).1.get? b = some eb) (hgrows : ea.grows = false)
    (hpos : 1 ≤ ea.intrinsic.lengthOn e.layout.direction.axis) :
    let t := (s.layOut rules viewport).1
    let axis := e.layout.direction.axis
    let gap := max e.sizing.gap 0
    let firm := (ea.askedOn axis).isSome ∨ t.flowChildren ea = [] ∨
      (t.RigidBelow a ∧ t.FitsBelow a)
    (∃ outer q, t.Put (t.rootStarts viewport) p outer q) ∧
    (firm → ea.rect.lengthOn axis = ea.intrinsic.lengthOn axis) ∧
    ∀ outer q, t.Put (t.rootStarts viewport) p outer q →
      let spacing :=
        e.flowStyle.spacingOn ((e.contentWithin outer).lengthOn axis) (t.flowItems e)
      gap ≤ spacing ∧ (e.layout.alignment ≠ .spaceBetween → spacing = gap) ∧
      eb.rect.startOn axis =
        wrap (ea.rect.startOn axis + ea.intrinsic.lengthOn axis + spacing) ∧
      (Word.Fits (ea.rect.startOn axis + ea.intrinsic.lengthOn axis + spacing) →
        eb.rect.startOn axis = ea.rect.startOn axis + ea.intrinsic.lengthOn axis + spacing ∧
        (ea.rect.endOn axis + gap ≤ eb.rect.startOn axis ↔
          ea.rect.lengthOn axis ≤ ea.intrinsic.lengthOn axis + (spacing - gap)) ∧
        (firm → ea.rect.endOn axis + gap ≤ eb.rect.startOn axis)) := by
  intro t axis gap firm
  have ht : LaidOut rules viewport t := h.laidOut rules viewport
  have hput_next {outer : Rect} {q : Placement} (hput : t.Put (t.rootStarts viewport) p outer q) :=
    ht.put_next hput he hwraps hforward ha hb hea heb hgrows hpos
  have hexists := ht.put (contains_of_get? he)
  have hfirm (hcases : firm) : ea.rect.lengthOn axis = ea.intrinsic.lengthOn axis := by
    obtain ⟨outer, q, hput⟩ := hexists
    obtain ⟨ra, -, hputa, -, hra, -⟩ := hput_next hput
    have hparent : t.parent? a = some p := by
      refine ht.forest.mirror.mp ?_
      rw [children_of_get? he]
      exact (mem_flowChildren.mp (List.mem_of_getElem? ha)).1
    exact ht.keeps_measured hparent hputa hea hpos hra hcases
  refine ⟨hexists, hfirm, fun outer q hput => ?_⟩
  intro spacing
  obtain ⟨ra, rb, hputa, hputb, -, hstart⟩ := hput_next hput
  have hnext : eb.rect.startOn axis =
      wrap (ea.rect.startOn axis + ea.intrinsic.lengthOn axis + spacing) := by
    rw [ht.settled hputa hea, ht.settled hputb heb, Element.startOn_settle,
      Element.startOn_settle, hstart]
  have hgap : gap ≤ spacing := e.flowStyle.gap_le_spacingOn _ _
  refine ⟨hgap, fun hbetween => FlowStyle.spacingOn_eq_gap hbetween _ _, hnext, fun hword => ?_⟩
  rw [Word.wrap_of_fits hword] at hnext
  refine ⟨hnext, ?_, fun hcases => ?_⟩
  · rw [Rect.endOn, hnext]
    omega
  · have hlength := hfirm hcases
    rw [Rect.endOn, hnext]
    omega

/-- A root with three children in a row. The first holds a fixed element
and an empty one; the other two are fixed. -/
def crowded : Scene :=
  let plain := empty.after
    [.push (.document 0) (.ofWidget .app), .push (.document 1) (.ofWidget .container),
      .push (.document 2) (.ofWidget .container), .push (.document 3) (.ofWidget .container),
      .push (.document 4) (.ofWidget .container), .push (.document 5) (.ofWidget .container),
      .link ⟨0⟩ ⟨1⟩, .link ⟨1⟩ ⟨2⟩, .link ⟨1⟩ ⟨3⟩, .link ⟨0⟩ ⟨4⟩, .link ⟨0⟩ ⟨5⟩]
  let fixed (e : Element) : Element :=
    { e with sizing := { e.sizing with width := some 5, height := some 5 } }
  ((plain.modify ⟨2⟩ fixed).modify ⟨4⟩ fixed).modify ⟨5⟩ fixed

theorem forest_crowded : crowded.Forest := by
  refine (((forest_after _).modify ?_ _).modify ?_ _).modify ?_ _ <;>
    constructor <;> intro <;> rfl

/-- What a layout leaves of it: the root, which has no flags and no gap, and
its children by flags, measured size and rectangle. -/
theorem exists_crowded : ∃ e e₁ e₄ e₅,
    let t := (crowded.layOut ⟨.standard, .cells⟩ ⟨100, 50⟩).1
    (t.get? ⟨0⟩ = some e ∧ t.get? ⟨1⟩ = some e₁ ∧ t.get? ⟨4⟩ = some e₄ ∧ t.get? ⟨5⟩ = some e₅) ∧
      (e.layout = .empty ∧ e.sizing.gap = 0 ∧ t.flowChildren e = [⟨1⟩, ⟨4⟩, ⟨5⟩]) ∧
      (e₁.layout = .empty ∧ e₁.intrinsic = ⟨5, 5⟩ ∧ e₁.rect = ⟨0, 0, 6, 5⟩) ∧
      e₄.layout = .empty ∧ e₄.intrinsic = ⟨5, 5⟩ ∧ e₄.rect = ⟨5, 0, 5, 5⟩ := by
  let t := (crowded.layOut ⟨.standard, .cells⟩ ⟨100, 50⟩).1
  have hroot : (t.get? ⟨0⟩).map (fun e => (e.layout, e.sizing.gap, t.flowChildren e)) =
      some (.empty, 0, [⟨1⟩, ⟨4⟩, ⟨5⟩]) := by decide +kernel
  have hfirst : (t.get? ⟨1⟩).map (fun e => (e.layout, e.intrinsic, e.rect)) =
      some (.empty, ⟨5, 5⟩, ⟨0, 0, 6, 5⟩) := by decide +kernel
  have hsecond : (t.get? ⟨4⟩).map (fun e => (e.layout, e.intrinsic, e.rect)) =
      some (.empty, ⟨5, 5⟩, ⟨5, 0, 5, 5⟩) := by decide +kernel
  have hthird : t.contains ⟨5⟩ := by decide +kernel
  obtain ⟨e, he, hroot⟩ := Option.map_eq_some_iff.mp hroot
  obtain ⟨e₁, he₁, hfirst⟩ := Option.map_eq_some_iff.mp hfirst
  obtain ⟨e₄, he₄, hsecond⟩ := Option.map_eq_some_iff.mp hsecond
  obtain ⟨e₅, he₅⟩ := contains_iff.mp hthird
  simp only [Prod.mk.injEq] at hroot hfirst hsecond
  exact ⟨e, e₁, e₄, e₅, ⟨he, he₁, he₄, he₅⟩, hroot, hfirst, hsecond⟩

/-- The two fixed elements keep apart. -/
theorem crowded_apart : ∃ e ea eb,
    let t := (crowded.layOut ⟨.standard, .cells⟩ ⟨100, 50⟩).1
    let axis := e.layout.direction.axis
    let gap := max e.sizing.gap 0
    let firm := (ea.askedOn axis).isSome ∨ t.flowChildren ea = [] ∨
      (t.RigidBelow ⟨4⟩ ∧ t.FitsBelow ⟨4⟩)
    (t.get? ⟨0⟩ = some e ∧ e.layout.wraps = false ∧ e.layout.direction.isReverse = false ∧
      (t.flowChildren e)[1]? = some ⟨4⟩ ∧ (t.flowChildren e)[2]? = some ⟨5⟩ ∧
      t.get? ⟨4⟩ = some ea ∧ t.get? ⟨5⟩ = some eb ∧ ea.grows = false ∧
      1 ≤ ea.intrinsic.lengthOn axis) ∧
    (∃ outer q, t.Put (t.rootStarts ⟨100, 50⟩) ⟨0⟩ outer q) ∧
    (firm → ea.rect.lengthOn axis = ea.intrinsic.lengthOn axis) ∧
    ∀ outer q, t.Put (t.rootStarts ⟨100, 50⟩) ⟨0⟩ outer q →
      let spacing :=
        e.flowStyle.spacingOn ((e.contentWithin outer).lengthOn axis) (t.flowItems e)
      gap ≤ spacing ∧ (e.layout.alignment ≠ .spaceBetween → spacing = gap) ∧
      eb.rect.startOn axis =
        wrap (ea.rect.startOn axis + ea.intrinsic.lengthOn axis + spacing) ∧
      (Word.Fits (ea.rect.startOn axis + ea.intrinsic.lengthOn axis + spacing) →
        eb.rect.startOn axis = ea.rect.startOn axis + ea.intrinsic.lengthOn axis + spacing ∧
        (ea.rect.endOn axis + gap ≤ eb.rect.startOn axis ↔
          ea.rect.lengthOn axis ≤ ea.intrinsic.lengthOn axis + (spacing - gap)) ∧
        (firm → ea.rect.endOn axis + gap ≤ eb.rect.startOn axis)) := by
  obtain ⟨e, -, ea, eb, ⟨he, -, hea, heb⟩, ⟨hlayout, -, hflow⟩, -, hplain, hsize, -⟩ :=
    exists_crowded
  have hwraps : e.layout.wraps = false := by rw [hlayout]; rfl
  have hforward : e.layout.direction.isReverse = false := by rw [hlayout]; rfl
  have ha := congrArg (·[1]?) hflow
  have hb := congrArg (·[2]?) hflow
  have hgrows : ea.grows = false := by rw [Element.grows, hplain]; rfl
  have hpos : 1 ≤ ea.intrinsic.lengthOn e.layout.direction.axis := by
    rw [hlayout, hsize]
    decide
  exact ⟨e, ea, eb, ⟨he, hwraps, hforward, ha, hb, hea, heb, hgrows, hpos⟩,
    forest_crowded.siblings_apart _ _ he hwraps hforward ha hb hea heb hgrows hpos⟩

/-- The first of the three runs over the second. It was measured five units
long, and its empty child got a sixth. -/
theorem crowded_overlaps : ¬ ∀ (s : Scene) (rules : LayoutRules) (viewport : Size)
    (p a b : ElementId) (e ea eb : Element) (i : Nat), s.Forest →
    let t := (s.layOut rules viewport).1
    t.get? p = some e → e.layout.wraps = false → e.layout.direction.isReverse = false →
    (t.flowChildren e)[i]? = some a → (t.flowChildren e)[i + 1]? = some b →
    t.get? a = some ea → t.get? b = some eb → ea.grows = false → eb.grows = false →
    (∀ axis, 1 ≤ ea.intrinsic.lengthOn axis ∧ 1 ≤ eb.intrinsic.lengthOn axis) →
      ea.rect.endOn e.layout.direction.axis + max e.sizing.gap 0 ≤
        eb.rect.startOn e.layout.direction.axis := by
  intro hclaim
  obtain ⟨e, ea, eb, -, ⟨he, hea, heb, -⟩, ⟨hlayout, hgap, hflow⟩, ⟨hplaina, hsizea, hrecta⟩,
    hplainb, hsizeb, hrectb⟩ := exists_crowded
  have hapart := hclaim crowded _ _ ⟨0⟩ ⟨1⟩ ⟨4⟩ e ea eb 0 forest_crowded he
    (by rw [hlayout]; rfl) (by rw [hlayout]; rfl) (congrArg (·[0]?) hflow)
    (congrArg (·[1]?) hflow) hea heb (by rw [Element.grows, hplaina]; rfl)
    (by rw [Element.grows, hplainb]; rfl)
    (by rw [hsizea, hsizeb]; intro axis; cases axis <;> decide)
  rw [hlayout, hgap, hrecta, hrectb] at hapart
  exact absurd hapart (by decide)

end Scene

end SceneTree
