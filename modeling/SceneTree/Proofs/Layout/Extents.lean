import SceneTree.Proofs.Forest.Shape
import SceneTree.Proofs.Layout.Lines
import SceneTree.Proofs.Session.Growth

/-!
# A frame lays everything out

An arrangement places its first element and then everything below it, each
element once: its ids are those of the subtree (`arrangeWithin_perm`). A
layout arranges every root, so in a forest it writes one rectangle for each
live element.

Each rectangle that layout writes was settled, and settling ends by raising
both sides to one unit. Patches raise theirs as well, and an arrangement
below a patched element only writes settled ones. So at the end of a frame
everything can be seen, whatever the viewport, the ruler and the adjusters
were.
-/

namespace SceneTree

/-- At least one unit wide and high. -/
def Rect.Visible (r : Rect) : Prop := 1 ≤ r.width ∧ 1 ≤ r.height

theorem Rect.visible_visible (r : Rect) : r.visible.Visible :=
  ⟨Int.le_max_right _ _, Int.le_max_right _ _⟩

theorem Element.settle_visible (unit : Int) (e : Element) (p : Placement) (children : List Rect)
    (r : Rect) : (e.settle unit p children r).Visible := Rect.visible_visible _

namespace Scene

variable {s t : Scene} {e : Element} {id x : ElementId} {rules : LayoutRules}

/-! ## Arranging -/

/-- The rectangles that an arrangement of some depth decides on, its first
element's own included. -/
def rectsWithin (rules : LayoutRules) (s : Scene) (n : Nat) (id : ElementId) (r : Rect)
    (p : Placement) : List (ElementId × Rect) :=
  match s.arrangeWithin rules n id r p with
  | none => []
  | some a => (id, a.rect) :: a.below

theorem arrange_eq (rules : LayoutRules) (s : Scene) (id : ElementId) (r : Rect) :
    s.arrange rules id r = s.rectsWithin rules s.slots.size id r .fixed := rfl

/-- Where the children of an element go, by the rectangles of each. -/
def rectsBelow (rules : LayoutRules) (s : Scene) (n : Nat) (e : Element) (r : Rect) :
    List (ElementId × Rect) :=
  (s.placeChildren e r).flatMap fun (c, place, q) => s.rectsWithin rules n c place q

/-- The rectangles of the children that are there, each before those below
it. -/
theorem flatMap_below (rules : LayoutRules) (s : Scene) (n : Nat) (e : Element) (r : Rect) :
    ((s.placeChildren e r).filterMap fun p =>
        (s.arrangeWithin rules n p.1 p.2.1 p.2.2).map fun a => (p.1, p.2.2, a)).flatMap
      (fun c => (c.1, c.2.2.rect) :: c.2.2.below) = s.rectsBelow rules n e r := by
  rw [List.filterMap_eq_flatMap_toList, List.flatMap_assoc, rectsBelow]
  apply List.flatMap_congr
  intro p _
  dsimp only [rectsWithin]
  cases s.arrangeWithin rules n p.1 p.2.1 p.2.2 with
  | none => rfl
  | some a => exact List.append_nil _

/-- An arrangement is one settled rectangle and the arrangements of the
children. -/
theorem rectsWithin_succ (he : s.get? id = some e) (rules : LayoutRules) (n : Nat) (r : Rect)
    (p : Placement) : ∃ inFlow, s.rectsWithin rules (n + 1) id r p =
      (id, e.settle rules.settings.unit p inFlow r) :: s.rectsBelow rules n e r := by
  simp only [rectsWithin, arrangeWithin, he, Option.map_some]
  exact ⟨_, congrArg (_ :: ·) (flatMap_below rules s n e r)⟩

theorem rectsWithin_of_not_contains (h : ¬ s.contains id) (rules : LayoutRules) (n : Nat)
    (r : Rect) (p : Placement) : s.rectsWithin rules n id r p = [] := by
  cases n with
  | zero => rfl
  | succ n =>
    rw [rectsWithin, arrangeWithin, Option.not_isSome_iff_eq_none.mp h]
    rfl

/-- Each live child is placed once, in the flow or out of it. -/
theorem placeChildren_perm (s : Scene) (e : Element) (r : Rect) :
    ((s.placeChildren e r).map (·.1)).Perm (e.children.filter s.contains) := by
  have hlive : (e.children.filterMap fun id => (s.get? id).map (id, ·)).map (·.1) =
      e.children.filter s.contains := by
    rw [List.map_filterMap, ← List.filterMap_eq_filter]
    refine List.filterMap_congr fun c _ => ?_
    rw [Option.map_map, Option.guard]
    cases hc : s.get? c <;> simp only [contains, hc, Option.map_none, Option.map_some,
      Option.isSome_none, Option.isSome_some, Function.comp, if_true, Bool.false_eq_true, if_false]
  rw [placeChildren, ← hlive]
  generalize (e.children.filterMap fun id => (s.get? id).map (id, ·)) = children
  have hjoin {flow loose : List ElementId}
      (hflow : flow = (children.filter (·.2.inFlow)).map (·.1))
      (hloose : loose = (children.filter (!·.2.inFlow)).map (·.1)) :
      (loose ++ flow).Perm (children.map (·.1)) := by
    rw [hflow, hloose, ← List.map_append]
    refine .map _ (List.perm_append_comm.trans ?_)
    exact List.filter_append_perm (fun c => c.2.inFlow) children
  rw [List.map_append, List.map_map, List.map_map]
  refine hjoin ?_ rfl
  refine Eq.trans (FlowStyle.map_place e.flowStyle _ _) ?_
  rw [List.map_map]
  refine List.map_congr_left fun p _ => ?_
  simp only [Function.comp, Element.flowItem]
  split <;> rfl

/-- A child that is not there has no subtree. -/
theorem flatMap_subtreeWithin_filter (s : Scene) (n : Nat) (ids : List ElementId) :
    (ids.filter s.contains).flatMap (s.subtreeWithin n) = ids.flatMap (s.subtreeWithin n) := by
  induction ids with
  | nil => rfl
  | cons id ids ih =>
    rw [List.filter_cons, List.flatMap_cons, ← ih]
    split
    next => rw [List.flatMap_cons]
    next hid => rw [subtreeWithin_of_not_contains hid, List.nil_append]

/-- An arrangement decides on one rectangle for each element of the
subtree. -/
theorem arrangeWithin_perm (rules : LayoutRules) (s : Scene) (n : Nat) (id : ElementId) (r : Rect)
    (p : Placement) : ((s.rectsWithin rules n id r p).map (·.1)).Perm (s.subtreeWithin n id) := by
  induction n generalizing id r p with
  | zero => exact .nil
  | succ n ih =>
    by_cases hid : s.contains id
    · obtain ⟨e, he⟩ := contains_iff.mp hid
      obtain ⟨inFlow, hrects⟩ := rectsWithin_succ he rules n r p
      rw [hrects, subtreeWithin_succ_of_get? he, List.map_cons, rectsBelow, List.map_flatMap]
      refine .cons id ?_
      have hbelow : ((s.placeChildren e r).flatMap fun (c, place, q) =>
          (s.rectsWithin rules n c place q).map (·.1)).Perm
            (((s.placeChildren e r).map (·.1)).flatMap (s.subtreeWithin n)) := by
        rw [List.flatMap_map]
        exact .flatMap_left _ fun ⟨c, place, q⟩ _ => ih c place q
      refine hbelow.trans (((s.placeChildren_perm e r).flatMap_right _).trans ?_)
      rw [flatMap_subtreeWithin_filter]
    · rw [rectsWithin_of_not_contains hid, subtreeWithin_of_not_contains hid]
      exact .nil

/-- Every rectangle of an arrangement was settled. -/
theorem rectsWithin_visible {n : Nat} {r r' : Rect} {p : Placement}
    (h : (x, r') ∈ s.rectsWithin rules n id r p) : r'.Visible := by
  induction n generalizing id r p with
  | zero => exact absurd h List.not_mem_nil
  | succ n ih =>
    by_cases hid : s.contains id
    · obtain ⟨e, he⟩ := contains_iff.mp hid
      obtain ⟨inFlow, hrects⟩ := rectsWithin_succ he rules n r p
      rw [hrects, rectsBelow, List.mem_cons, List.mem_flatMap] at h
      rcases h with heq | ⟨⟨c, place, q⟩, -, hx⟩
      · rw [(Prod.mk.inj heq).2]
        exact e.settle_visible _ _ _ _
      · exact ih hx
    · rw [rectsWithin_of_not_contains hid] at h
      exact absurd h List.not_mem_nil

/-! ## Writing rectangles -/

/-- The element with an id, if it is there, can be seen. -/
def VisibleAt (s : Scene) (id : ElementId) : Prop := ∀ e, s.get? id = some e → e.rect.Visible

/-- Writing a rectangle that can be seen, to any element, spoils nothing. -/
theorem VisibleAt.modify_rect {r : Rect} (hr : r.Visible) (h : x ≠ id → s.VisibleAt x) :
    (s.modify id fun e => { e with rect := r }).VisibleAt x := by
  intro e he
  rw [get?_modify] at he
  split at he
  next =>
    obtain ⟨e₀, -, rfl⟩ := Option.map_eq_some_iff.mp he
    exact hr
  next hx => exact h hx e he

theorem VisibleAt.withRects {rects : List (ElementId × Rect)}
    (hr : ∀ p ∈ rects, p.2.Visible) (h : x ∉ rects.map (·.1) → s.VisibleAt x) :
    (s.withRects rects).VisibleAt x := by
  induction rects generalizing s with
  | nil => exact h List.not_mem_nil
  | cons p rects ih =>
    refine ih (fun q hq => hr q (List.mem_cons_of_mem _ hq)) fun hx => ?_
    refine .modify_rect (hr p List.mem_cons_self) fun hxp => h fun hm => ?_
    rcases List.mem_cons.mp hm with heq | hm
    · exact hxp heq
    · exact hx hm

/-! ## Laying out -/

/-- The scene whose natural sizes a layout goes by. -/
def measured (rules : LayoutRules) (s : Scene) : Scene :=
  s.withNaturalSizes rules (s.roots.flatMap s.descendants)

/-- The rectangles that a layout writes, one root after another. -/
def layoutRects (rules : LayoutRules) (s : Scene) (viewport : Size) : List (ElementId × Rect) :=
  s.roots.flatMap fun root => (s.measured rules).arrange rules root (.ofSize viewport)

theorem layOut_eq (rules : LayoutRules) (s : Scene) (viewport : Size) :
    s.layOut rules viewport = ((s.measured rules).withRects (s.layoutRects rules viewport),
      (s.layoutRects rules viewport).length) := rfl

/-- A layout writes one rectangle for each live element. -/
theorem Forest.layoutRects_perm (h : s.Forest) (rules : LayoutRules) (viewport : Size) :
    ((s.layoutRects rules viewport).map (·.1)).Perm s.ids := by
  have hshape : s.SameShape (s.measured rules) := (rewrites_withNaturalSizes rules s _).sameShape
  rw [layoutRects, List.map_flatMap]
  refine .trans (.flatMap_left _ fun root _ => ?_) h.subtrees_perm
  rw [arrange_eq, ← hshape.subtree_eq]
  exact arrangeWithin_perm rules (s.measured rules) _ root _ _

theorem layoutRects_visible {viewport : Size} {p : ElementId × Rect}
    (hp : p ∈ s.layoutRects rules viewport) : p.2.Visible := by
  obtain ⟨root, -, hp⟩ := List.mem_flatMap.mp hp
  exact rectsWithin_visible hp

/-- After a layout everything can be seen, whatever was there before. -/
theorem Forest.visibleAt_layOut (h : s.Forest) (rules : LayoutRules) (viewport : Size)
    (x : ElementId) : (s.layOut rules viewport).1.VisibleAt x := by
  rw [layOut_eq]
  refine VisibleAt.withRects (fun p hp => layoutRects_visible hp) fun hx e he => absurd ?_ hx
  have hlive : s.contains x :=
    ((rewrites_withNaturalSizes rules s _).sameShape.contains x).symm.trans (contains_of_get? he)
  exact (h.layoutRects_perm rules viewport).mem_iff.mpr (h.mem_ids.mpr hlive)

/-! ## Adjusting -/

theorem VisibleAt.layOutBelow (h : s.VisibleAt x) (rules : LayoutRules) (id : ElementId) :
    (s.layOutBelow rules id).1.VisibleAt x := by
  unfold Scene.layOutBelow
  split
  next => exact h
  next => exact .withRects (fun p hp => rectsWithin_visible hp) fun _ => h

/-- A patch spoils nothing, whatever rectangles it asks for. -/
theorem VisibleAt.applyTo (h : s.VisibleAt x) (p : Patch) (rules : LayoutRules) :
    (p.applyTo rules s).VisibleAt x := by
  rw [Patch.applyTo]
  refine List.foldlRecOn (motive := fun t : Scene => t.VisibleAt x) p.relayouts _ ?_
    fun t ht id _ => ht.layOutBelow rules id
  refine .withRects (fun q hq => ?_) fun _ => h
  obtain ⟨⟨id, r⟩, -, rfl⟩ := List.mem_map.mp hq
  exact r.visible_visible

theorem VisibleAt.adjust (hx : s.VisibleAt x) (rules : LayoutRules) (d : Document)
    (h : Handlers) : (s.adjust rules d h).scene.VisibleAt x := by
  suffices hrun : ∀ (targets : List (ElementId × String × Adjuster)) (run : AdjustRun),
      run.scene.VisibleAt x → (targets.foldl (adjustOne rules d) run).scene.VisibleAt x from
    hrun _ ⟨s, []⟩ hx
  intro targets
  induction targets with
  | nil => exact fun _ hrun => hrun
  | cons target targets ih => exact fun run hrun => ih _ (hrun.applyTo _ rules)

end Scene

/-- A root and its only child. -/
def Document.pair : Document :=
  { Document.blank with
    records := [{ Record.ofHeader (.ofWidget .app) with childRefs := [22] }, .blank]
    offsets := [0, 22] }

namespace Session

open Scene (Forest)

/-- After a frame every live element is at least one unit wide and high,
and the frame's layout wrote one rectangle for each of them. This is so at
any viewport and with any ruler and adjusters. -/
theorem Reachable.frame_lays_out_all {d : Document} {s : Session} (h : Reachable d s) :
    (∀ id e, s.frame.1.scene.get? id = some e → 1 ≤ e.rect.width ∧ 1 ≤ e.rect.height) ∧
      s.frame.2.laidOut = s.frame.1.scene.size ∧
      ((s.scene.layoutRects s.rules s.viewport).map (·.1)).Perm s.frame.1.scene.ids := by
  have hforest := h.forest
  have hids : s.frame.1.scene.ids = s.scene.ids :=
    s.rewrites_frame.sameShape.ids_eq hforest h.frame.forest
  have hperm := hforest.layoutRects_perm s.rules s.viewport
  refine ⟨fun id e he => ?_, ?_, hids ▸ hperm⟩
  · have hlaid := hforest.visibleAt_layOut s.rules s.viewport id
    exact hlaid.adjust s.rules s.document s.handlers e he
  · rw [← Forest.length_ids, hids, ← hperm.length_eq, List.length_map]
    rfl

/-- A root with one child, at a viewport that leaves no room. -/
theorem pair_lays_out_all : ∃ s notices, load .pair .none .standard = (.ok s, notices) ∧
    (s.resize ⟨0, -3⟩).scene.ids = [⟨0⟩, ⟨1⟩] ∧
      let shown := (s.resize ⟨0, -3⟩).frame
      (∀ id e, shown.1.scene.get? id = some e → 1 ≤ e.rect.width ∧ 1 ≤ e.rect.height) ∧
        shown.2.laidOut = shown.1.scene.size ∧
        (((s.resize ⟨0, -3⟩).scene.layoutRects s.rules ⟨0, -3⟩).map (·.1)).Perm
          shown.1.scene.ids := by
  have hload : load .pair .none .standard = (.ok _, _) := rfl
  exact ⟨_, _, hload, rfl, Reachable.frame_lays_out_all (.resize (.load hload) ⟨0, -3⟩)⟩

end Session

end SceneTree
