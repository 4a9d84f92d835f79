import SceneTree.Proofs.Forest.Runs
import SceneTree.Proofs.Layout.Hug
import SceneTree.Proofs.Layout.LaidOut

/-!
# Arranging commutes with moving

Layout reads the place of a rectangle only to put others in or around it.
Sizes come from sizes and from differences of places, so every step of it
gives the moved answer for a moved rectangle: deflating, the lines of a flow,
the corner and the place hints, closing around children and settling. An
arrangement is made of these, and by induction on its depth it moves as a
whole (`arrangeWithin_shifted`). So after an element is moved, arranging below
it again moves all that lies there by the same distance
(`Forest.layOutBelow_moved`).

Only one step notices when places wrap: closing goes by the farthest edge of
the children, and an edge that wraps is not the farthest any more. So no
rectangle below the element may wrap, neither where it is nor where it goes.
-/

namespace SceneTree

open Word (wrap)

/-! ## Rectangles -/

/-- The largest of some numbers goes up with them. -/
theorem max?_map_add (d : Int) (l : List Int) : (l.map (· + d)).max? = l.max?.map (· + d) := by
  cases l with
  | nil => rfl
  | cons n l =>
    have hfold : (l.map (· + d)).foldl max (n + d) = l.foldl max n + d := by
      induction l generalizing n with
      | nil => rfl
      | cons m l ih => rw [List.map_cons, List.foldl_cons, List.foldl_cons, ← ih, max_add]
    rw [List.map_cons, List.max?_cons', List.max?_cons', hfold, Option.map_some]

namespace Rect

/-- The rectangle further right and further down. -/
def moved (dx dy : Int) (r : Rect) : Rect := { r with x := r.x + dx, y := r.y + dy }

/-- The same for words. -/
def shifted (dx dy : Int) (r : Rect) : Rect := { r with x := wrap (r.x + dx), y := wrap (r.y + dy) }

/-- Nothing of a rectangle wraps, neither where it is nor further right and
further down. -/
def FitsMoved (dx dy : Int) (r : Rect) : Prop := r.Fits ∧ (r.moved dx dy).Fits

instance (dx dy : Int) (r : Rect) : Decidable (r.FitsMoved dx dy) :=
  inferInstanceAs (Decidable (_ ∧ _))

variable (dx dy : Int)

theorem shifted_eq_moved {r : Rect} (hx : Word.Fits (r.x + dx)) (hy : Word.Fits (r.y + dy)) :
    r.shifted dx dy = r.moved dx dy := by
  rw [shifted, moved, Word.wrap_of_fits hx, Word.wrap_of_fits hy]

@[simp] theorem lengthOn_shifted (r : Rect) (a : Axis) :
    (r.shifted dx dy).lengthOn a = r.lengthOn a := by
  cases a <;> rfl

theorem deflate_shifted (r : Rect) (insets : Edges) :
    (r.shifted dx dy).deflate insets = (r.deflate insets).shifted dx dy := by
  simp only [deflate, shifted, mk.injEq, and_true, Word.wrap_wrap_add]
  constructor <;> congr 1 <;> omega

theorem visible_shifted (r : Rect) : (r.shifted dx dy).visible = r.visible.shifted dx dy := rfl

variable {dx dy} {r : Rect} (h : r.FitsMoved dx dy)

include h

theorem right_shifted : (r.shifted dx dy).right = r.right + dx := by
  rw [shifted_eq_moved dx dy h.2.1 h.2.2.1, h.2.right_eq, h.1.right_eq, moved]
  dsimp only
  omega

theorem bottom_shifted : (r.shifted dx dy).bottom = r.bottom + dy := by
  rw [shifted_eq_moved dx dy h.2.1 h.2.2.1, h.2.bottom_eq, h.1.bottom_eq, moved]
  dsimp only
  omega

end Rect

/-! ## Lines -/

namespace FlowStyle

variable (dx dy : Int) (f : FlowStyle) (content : Rect)

theorem rectAt_shifted (main cross length width : Int) :
    f.rectAt (content.shifted dx dy) main cross length width =
      (f.rectAt content main cross length width).shifted dx dy := by
  unfold rectAt
  split
  next =>
    simp only [Rect.shifted, Rect.mk.injEq, and_true, Word.wrap_wrap_add]
    constructor <;> congr 1 <;> omega
  next =>
    simp only [Rect.shifted, Rect.mk.injEq, and_true, Word.wrap_wrap_add]
    constructor <;> congr 1 <;> omega

theorem placeLine_shifted (available lineCross offset : Int) (line : List FlowItem) :
    f.placeLine (content.shifted dx dy) available lineCross offset line =
      (f.placeLine content available lineCross offset line).map
        fun p => (p.1, p.2.shifted dx dy) := by
  simp only [placeLine, rectAt_shifted, List.map_map]
  rfl

theorem placeLines_shifted (available crossAvailable offset : Int) (lines : List (List FlowItem)) :
    f.placeLines (content.shifted dx dy) available crossAvailable offset lines =
      (f.placeLines content available crossAvailable offset lines).map
        fun p => (p.1, p.2.shifted dx dy) := by
  induction lines generalizing offset with
  | nil => rfl
  | cons line rest ih => rw [placeLines, placeLines, placeLine_shifted, ih, List.map_append]

theorem place_shifted (items : List FlowItem) :
    f.place (content.shifted dx dy) items =
      (f.place content items).map fun p => (p.1, p.2.shifted dx dy) := by
  rw [place_eq, place_eq, placeLines_shifted, Rect.lengthOn_shifted, Rect.lengthOn_shifted]

end FlowStyle

/-! ## One element -/

namespace Element

/-- The element with its rectangle moved. -/
def moved (dx dy : Int) (e : Element) : Element := { e with rect := e.rect.moved dx dy }

variable {dx dy : Int}

theorem contentWithin_shifted (e : Element) (r : Rect) :
    e.contentWithin (r.shifted dx dy) = (e.contentWithin r).shifted dx dy :=
  r.deflate_shifted dx dy e.look.insets

theorem looseRect_shifted (e : Element) (content : Rect) :
    e.looseRect (content.shifted dx dy) = (e.looseRect content).shifted dx dy := by
  unfold looseRect
  split
  next =>
    simp only [Rect.shifted, Rect.mk.injEq, and_true, Word.wrap_wrap_add]
    constructor <;> congr 1 <;> omega
  next => rfl

variable {rects : List Rect} (h : ∀ r ∈ rects, r.FitsMoved dx dy)

include h

theorem extent?_shifted : extent? (rects.map (Rect.shifted dx dy)) =
    (extent? rects).map fun edges => (edges.1 + dx, edges.2 + dy) := by
  have hright : (rects.map (Rect.shifted dx dy)).map (·.right) =
      (rects.map (·.right)).map (· + dx) := by
    rw [List.map_map, List.map_map]
    exact List.map_congr_left fun r hr => Rect.right_shifted (h r hr)
  have hbottom : (rects.map (Rect.shifted dx dy)).map (·.bottom) =
      (rects.map (·.bottom)).map (· + dy) := by
    rw [List.map_map, List.map_map]
    exact List.map_congr_left fun r hr => Rect.bottom_shifted (h r hr)
  simp only [extent?, hright, hbottom, max?_map_add]
  cases (rects.map (·.right)).max? with
  | none => rfl
  | some right => cases (rects.map (·.bottom)).max? <;> rfl

/-- The edges of the children and the near edges of the element move alike,
so it closes around them at the same size. -/
theorem closeAround_shifted (e : Element) (r : Rect) :
    e.closeAround (rects.map (Rect.shifted dx dy)) (r.shifted dx dy) =
      (e.closeAround rects r).shifted dx dy := by
  have hshift (far near d inset : Int) :
      wrap (far + d - wrap (near + d) + inset) = wrap (far - near + inset) := by
    unfold wrap
    omega
  rw [closeAround, closeAround, extent?_shifted h]
  cases extent? rects with
  | none => rfl
  | some edges => simp only [Option.map_some, Rect.shifted, hshift]

omit h in
theorem thicken_shifted (unit : Int) (e : Element) (r : Rect) :
    e.thicken unit (r.shifted dx dy) = (e.thicken unit r).shifted dx dy := by
  simp only [thicken, apply_ite (Rect.shifted dx dy)]
  rfl

theorem settle_shifted (unit : Int) (e : Element) (p : Placement) (r : Rect) :
    e.settle unit p (rects.map (Rect.shifted dx dy)) (r.shifted dx dy) =
      (e.settle unit p rects r).shifted dx dy := by
  simp only [settle, closeAround_shifted h]
  split
  next => rw [thicken_shifted, Rect.visible_shifted]
  next => rw [thicken_shifted, Rect.visible_shifted]

end Element

/-! ## Arrangements -/

/-- The arrangement with all that was decided moved, in words. -/
def Arranged.shifted (dx dy : Int) (a : Arranged) : Arranged :=
  { rect := a.rect.shifted dx dy
    below := a.below.map fun p => (p.1, p.2.shifted dx dy) }

namespace Scene

open Element (unplaced)

variable {s : Scene} {e : Element} {id x : ElementId} {rules : LayoutRules} {dx dy : Int}
  {r : Rect} {n : Nat}

theorem placeChildren_shifted (s : Scene) (e : Element) (r : Rect) :
    s.placeChildren e (r.shifted dx dy) =
      (s.placeChildren e r).map fun (c, place, q) => (c, place.shifted dx dy, q) := by
  simp only [placeChildren, Element.contentWithin_shifted, Element.looseRect_shifted,
    FlowStyle.place_shifted, List.map_append, List.map_map]
  rfl

/-- What is arranged for a child and below it is all below its parent. -/
theorem mem_rectsBelow {c : ElementId} {place : Rect} {q : Placement} {a : Arranged}
    (hc : (c, place, q) ∈ s.placeChildren e r) (ha : s.arrangeWithin rules n c place q = some a)
    {p : ElementId × Rect} (hp : p = (c, a.rect) ∨ p ∈ a.below) : p ∈ s.rectsBelow rules n e r := by
  refine List.mem_flatMap.mpr ⟨(c, place, q), hc, ?_⟩
  dsimp only
  rw [rectsWithin_of_arrange ha]
  exact List.mem_cons.mpr hp

/-- An arrangement moves with the rectangle that it starts from. -/
theorem arrangeWithin_shifted (s : Scene) (id : ElementId) (r : Rect) (q : Placement)
    (h : ∀ a, s.arrangeWithin rules n id r q = some a → ∀ p ∈ a.below, p.2.FitsMoved dx dy) :
    s.arrangeWithin rules n id (r.shifted dx dy) q =
      (s.arrangeWithin rules n id r q).map (Arranged.shifted dx dy) := by
  induction n generalizing id r q with
  | zero => rfl
  | succ n ih =>
    cases he : s.get? id with
    | none => simp only [arrangeWithin, he, Option.map_none]
    | some e =>
      have hbelow : ∀ p ∈ s.rectsBelow rules n e r, p.2.FitsMoved dx dy :=
        h _ (arrangeWithin_succ he rules n r q)
      have hchild {c : ElementId} {place : Rect} {q : Placement}
          (hc : (c, place, q) ∈ s.placeChildren e r) :
          s.arrangeWithin rules n c (place.shifted dx dy) q =
            (s.arrangeWithin rules n c place q).map (Arranged.shifted dx dy) :=
        ih c place q fun a ha p hp => hbelow p (mem_rectsBelow hc ha (.inr hp))
      have hinFlow : s.flowRectsWithin rules n e (r.shifted dx dy) =
          (s.flowRectsWithin rules n e r).map (Rect.shifted dx dy) := by
        rw [flowRectsWithin, flowRectsWithin, Element.contentWithin_shifted,
          FlowStyle.place_shifted, List.filterMap_map, List.map_filterMap]
        refine List.filterMap_congr fun c hc => ?_
        rw [Function.comp_apply, hchild (mem_placeChildren.mpr (.inr ⟨rfl, hc⟩)), Option.map_map,
          Option.map_map]
        rfl
      have hrects : ∀ rect ∈ s.flowRectsWithin rules n e r, rect.FitsMoved dx dy := by
        intro rect hrect
        obtain ⟨c, hc, hsome⟩ := List.mem_filterMap.mp hrect
        obtain ⟨a, ha, rfl⟩ := Option.map_eq_some_iff.mp hsome
        exact hbelow _ (mem_rectsBelow (mem_placeChildren.mpr (.inr ⟨rfl, hc⟩)) ha (.inl rfl))
      have hmoved : s.rectsBelow rules n e (r.shifted dx dy) =
          (s.rectsBelow rules n e r).map fun p => (p.1, p.2.shifted dx dy) := by
        rw [rectsBelow, rectsBelow, placeChildren_shifted, List.flatMap_map, List.map_flatMap]
        refine List.flatMap_congr fun p hp => ?_
        simp only [rectsWithin, hchild hp]
        cases s.arrangeWithin rules n p.1 p.2.1 p.2.2 <;> rfl
      rw [arrangeWithin_succ he, arrangeWithin_succ he, hinFlow, hmoved,
        Element.settle_shifted hrects]
      rfl

/-- What is put somewhere stays there. -/
theorem startOn_arrangeWithin {q : Placement} {a : Arranged}
    (ha : s.arrangeWithin rules n id r q = some a) (axis : Axis) :
    a.rect.startOn axis = r.startOn axis := by
  cases n with
  | zero => cases ha
  | succ n =>
    obtain ⟨e, -, rfl⟩ := Option.map_eq_some_iff.mp ha
    exact Element.startOn_settle ..

/-- Where nothing wraps, an arrangement moves as a whole. -/
theorem arrange_moved (s : Scene) (id : ElementId) (r : Rect)
    (horigin : Word.Fits (r.x + dx) ∧ Word.Fits (r.y + dy))
    (hbelow : ∀ p ∈ (s.arrange rules id r).tail, p.2.FitsMoved dx dy) :
    s.arrange rules id (r.moved dx dy) =
      (s.arrange rules id r).map fun p => (p.1, p.2.moved dx dy) := by
  rw [← Rect.shifted_eq_moved dx dy horigin.1 horigin.2]
  rw [arrange] at hbelow
  rw [arrange, arrange]
  cases ha : s.arrangeWithin rules s.slots.size id r .fixed with
  | none => rw [arrangeWithin_shifted s id r .fixed (by simp [ha]), ha]; rfl
  | some a =>
    rw [ha] at hbelow
    have hx : a.rect.x = r.x := startOn_arrangeWithin ha .horizontal
    have hy : a.rect.y = r.y := startOn_arrangeWithin ha .vertical
    have hrect : a.rect.shifted dx dy = a.rect.moved dx dy :=
      Rect.shifted_eq_moved dx dy (hx ▸ horigin.1) (hy ▸ horigin.2)
    have hrects : a.below.map (fun p => (p.1, p.2.shifted dx dy)) =
        a.below.map fun p => (p.1, p.2.moved dx dy) := by
      refine List.map_congr_left fun p hp => ?_
      obtain ⟨-, hx, hy, -⟩ := hbelow p hp
      rw [Rect.shifted_eq_moved dx dy hx hy]
    rw [arrangeWithin_shifted s id r .fixed (by rw [ha]; rintro _ ⟨⟩; exact hbelow), ha,
      Option.map_some]
    simp only [Arranged.shifted, hrect, hrects, List.map_cons]

/-! ## Arranging below a moved element -/

theorem length_arrange (rules : LayoutRules) (s : Scene) (id : ElementId) (r : Rect) :
    (s.arrange rules id r).length = (s.subtree id).length := by
  rw [← List.length_map (·.1), (arrange_perm rules s id r).length_eq]

theorem length_layOutBelow (rules : LayoutRules) (s : Scene) (id : ElementId) :
    (s.layOutBelow rules id).2 = (s.subtree id).length := by
  cases he : s.get? id with
  | none =>
    rw [subtree, subtreeWithin_of_not_contains (Option.not_isSome_iff_eq_none.mpr he)]
    simp only [layOutBelow, he, List.length_nil]
  | some e => rw [layOutBelow_of_get? he, length_arrange]

/-- Moving an element moves nothing but its own rectangle. -/
theorem alike_moved (s : Scene) (id : ElementId) (dx dy : Int) :
    Alike unplaced s (s.modify id (Element.moved dx dy)) := .modify s id

section Moved

variable (h : s.Forest) (rules : LayoutRules) (dx dy : Int)
  (horigin : ∀ e ∈ s.get? id, Word.Fits (e.rect.x + dx) ∧ Word.Fits (e.rect.y + dy))
  (hbelow : ∀ x ∈ s.descendants id, x ≠ id →
    ∀ e ∈ (s.layOutBelow rules id).1.get? x, e.rect.FitsMoved dx dy)

include h horigin hbelow

theorem Forest.layOutBelow_moved_of_get? (he : s.get? id = some e) :
    ((s.modify id (Element.moved dx dy)).layOutBelow rules id).1 =
      (s.modify id (Element.moved dx dy)).withRects
        ((s.arrange rules id e.rect).map fun p => (p.1, p.2.moved dx dy)) := by
  have hperm := arrange_perm rules s id e.rect
  have hnodup := hperm.nodup_iff.mpr (h.subtree_nodup id)
  have hrects : ∀ p ∈ (s.arrange rules id e.rect).tail, p.2.FitsMoved dx dy := by
    intro p hp
    have hm := List.mem_of_mem_tail hp
    have hx : p.1 ∈ s.descendants id := by
      rw [h.descendants_eq]
      exact hperm.mem_iff.mp (List.mem_map_of_mem hm)
    have hne : p.1 ≠ id := by
      intro hid
      rw [arrange] at hp hnodup
      cases ha : s.arrangeWithin rules s.slots.size id e.rect .fixed with
      | none =>
        rw [ha] at hp
        exact List.not_mem_nil hp
      | some a =>
        rw [ha] at hp hnodup
        have hmem : p.1 ∈ a.below.map (·.1) := List.mem_map_of_mem hp
        exact (List.nodup_cons.mp hnodup).1 (hid ▸ hmem)
    obtain ⟨e', he'⟩ := contains_iff.mp (h.mem_descendants.mp hx).1
    have hread : (s.layOutBelow rules id).1.get? p.1 = some { e' with rect := p.2 } := by
      rw [layOutBelow_of_get? he, get?_withRects hnodup hm, he', Option.map_some]
    exact hbelow p.1 hx hne _ hread
  rw [layOutBelow_of_get? (get?_modify_self he), (alike_moved s id dx dy).arrange_eq]
  exact congrArg _ (arrange_moved s id e.rect (horigin e he) hrects)

/-- What lies below a moved element is arranged as far away. -/
theorem Forest.get?_layOutBelow_moved (hup : s.AtOrAbove id x) :
    ((s.modify id (Element.moved dx dy)).layOutBelow rules id).1.get? x =
      ((s.layOutBelow rules id).1.get? x).map (Element.moved dx dy) := by
  have halike := alike_moved s id dx dy
  by_cases hlive : s.contains x
  · obtain ⟨e, he⟩ := contains_iff.mp (h.contains_of_atOrAbove hup hlive)
    have hperm := arrange_perm rules s id e.rect
    have hnodup := hperm.nodup_iff.mpr (h.subtree_nodup id)
    obtain ⟨⟨y, r⟩, hm, rfl⟩ :=
      List.mem_map.mp (hperm.mem_iff.mpr (h.mem_subtree.mpr ⟨hlive, hup⟩))
    let moved := (s.arrange rules id e.rect).map fun p => (p.1, p.2.moved dx dy)
    have hids : moved.map (·.1) = (s.arrange rules id e.rect).map (·.1) := List.map_map
    have hm' : (y, r.moved dx dy) ∈ moved := List.mem_map.mpr ⟨(y, r), hm, rfl⟩
    have hread := (halike.reading fun e => { e with rect := r.moved dx dy }).map_get? y
    rw [layOutBelow_of_get? he, h.layOutBelow_moved_of_get? rules dx dy horigin hbelow he,
      get?_withRects hnodup hm, get?_withRects (hids ▸ hnodup) hm', Option.map_map]
    exact hread
  · have hdead (t : Scene) (ht : Alike unplaced s t) :
        (t.layOutBelow rules id).1.get? x = none := by
      rw [← Option.not_isSome_iff_eq_none, ← contains, (alike_layOutBelow rules t id).contains,
        ht.contains]
      exact hlive
    rw [hdead _ halike, hdead _ (.refl unplaced s), Option.map_none]

end Moved

/-- Arranging below an element commutes with moving it, as long as no place
below it wraps, here or there. Moved first, it and everything below it get
the rectangles that they get without the move, moved as far and of the same
size. Both times one rectangle is written for each element of the subtree. -/
theorem Forest.layOutBelow_moved (h : s.Forest) (rules : LayoutRules) (id : ElementId)
    (dx dy : Int)
    (horigin : ∀ e ∈ s.get? id, Word.Fits (e.rect.x + dx) ∧ Word.Fits (e.rect.y + dy))
    (hbelow : ∀ x ∈ s.descendants id, x ≠ id →
      ∀ e ∈ (s.layOutBelow rules id).1.get? x, e.rect.FitsMoved dx dy) :
    let moved := s.modify id (Element.moved dx dy)
    (∀ x, s.AtOrAbove id x → (moved.layOutBelow rules id).1.get? x =
      ((s.layOutBelow rules id).1.get? x).map fun e => { e with rect := e.rect.moved dx dy }) ∧
    (moved.layOutBelow rules id).2 = (s.descendants id).length ∧
    (s.layOutBelow rules id).2 = (s.descendants id).length := by
  intro moved
  have hsubtree : moved.subtree id = s.subtree id :=
    ((alike_moved s id dx dy).reading Element.core).sameShape.subtree_eq id
  refine ⟨fun x => h.get?_layOutBelow_moved rules dx dy horigin hbelow, ?_, ?_⟩
  · rw [length_layOutBelow, hsubtree, h.descendants_eq]
  · rw [length_layOutBelow, h.descendants_eq]

/-- A container that centers its children, of which one stands aside. -/
def cart : Scene :=
  let plain := empty.after
    [.push (.document 0) (.ofWidget .app), .push (.document 1) (.ofWidget .container),
      .push (.document 2) (.ofWidget .image),
      .push (.document 3) { Header.ofWidget .container with x := 3, y := 2 }, .link ⟨0⟩ ⟨1⟩,
      .link ⟨1⟩ ⟨2⟩, .link ⟨1⟩ ⟨3⟩]
  let put := plain.modify ⟨1⟩ fun e => { e with layout := ⟨4⟩, rect := ⟨2, 3, 20, 10⟩ }
  put.modify ⟨2⟩ fun e =>
    { e with sizing := { e.sizing with width := some 6, height := some 4 } }

theorem forest_cart : cart.Forest := by
  refine ((forest_after _).modify ?_ _).modify ?_ _ <;> constructor <;> intro <;> rfl

/-- Both children go with it. -/
theorem cart_moved :
    let rules : LayoutRules := ⟨.standard, .cells⟩
    let moved := cart.modify ⟨1⟩ (Element.moved 5 (-7))
    let rectAt? (s : Scene) (id : ElementId) := (s.get? id).map (·.rect)
    ([⟨2⟩, ⟨3⟩].map (rectAt? (cart.layOutBelow rules ⟨1⟩).1) =
        [some ⟨9, 6, 6, 4⟩, some ⟨5, 5, 1, 1⟩] ∧
      [⟨2⟩, ⟨3⟩].map (rectAt? (moved.layOutBelow rules ⟨1⟩).1) =
        [some ⟨14, -1, 6, 4⟩, some ⟨10, -2, 1, 1⟩]) ∧
    (∀ e ∈ cart.get? ⟨1⟩, Word.Fits (e.rect.x + 5) ∧ Word.Fits (e.rect.y + -7)) ∧
    (∀ x ∈ cart.descendants ⟨1⟩, x ≠ ⟨1⟩ →
      ∀ e ∈ (cart.layOutBelow rules ⟨1⟩).1.get? x, e.rect.FitsMoved 5 (-7)) ∧
    (∀ x, cart.AtOrAbove ⟨1⟩ x → (moved.layOutBelow rules ⟨1⟩).1.get? x =
      ((cart.layOutBelow rules ⟨1⟩).1.get? x).map fun e =>
        { e with rect := e.rect.moved 5 (-7) }) ∧
    (moved.layOutBelow rules ⟨1⟩).2 = (cart.descendants ⟨1⟩).length ∧
    (cart.layOutBelow rules ⟨1⟩).2 = (cart.descendants ⟨1⟩).length := by
  have horigin : ∀ e ∈ cart.get? ⟨1⟩, Word.Fits (e.rect.x + 5) ∧ Word.Fits (e.rect.y + -7) := by
    decide
  have hbelow : ∀ x ∈ cart.descendants ⟨1⟩, x ≠ ⟨1⟩ →
      ∀ e ∈ (cart.layOutBelow ⟨.standard, .cells⟩ ⟨1⟩).1.get? x, e.rect.FitsMoved 5 (-7) := by
    decide
  exact ⟨by decide, horigin, hbelow, forest_cart.layOutBelow_moved _ _ _ _ horigin hbelow⟩

end Scene

end SceneTree
