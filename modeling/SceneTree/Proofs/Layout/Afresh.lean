import SceneTree.Proofs.Forest.Alike
import SceneTree.Proofs.Layout.Extents

/-!
# Layout starts afresh

What a layout gives does not depend on the layouts before. Measuring reads
no geometry (`naturalSizeWithin_congr`), and it writes the natural size of
every element; an arrangement reads no rectangle but the one it is given
(`arrangeWithin_congr`), and it writes one for every element. So all
geometry that a layout reads it has written itself, and two scenes that
differ in nothing else are laid out alike (`Forest.layOut_congr`).

For a session this means that a frame shows no trace of the frames before
it. Arranging below one element starts from the natural sizes and from that
element's rectangle, and from no other rectangle. Where the rectangle is
one unit wide and high at least it is left as it is, so that the second
time changes nothing.
-/

namespace SceneTree

namespace Element

/-- The element without its rectangle. -/
def unplaced (e : Element) : Element := { e with rect := .zero }

/-- Put where it can be seen, an element stays there. -/
theorem settle_fixed (unit : Int) (e : Element) (children : List Rect) {r : Rect}
    (h : r.Visible) : e.settle unit .fixed children r = r := by
  obtain ⟨hwidth, hheight⟩ := h
  have hthick : e.thicken unit r = r := by
    have hflat : ¬ (r.width ≤ 0 ∧ 0 < r.height) := by omega
    have hthin : ¬ (r.height ≤ 0 ∧ 0 < r.width) := by omega
    rw [thicken, if_neg hflat, if_neg hthin, ite_self]
  have hopen : ¬ (Placement.fixed = .flow ∧ !e.grows) := fun hflow => nomatch hflow.1
  simp only [settle, if_neg hopen, hthick, Rect.visible, Int.max_eq_left hwidth,
    Int.max_eq_left hheight]

end Element

namespace Scene

open Element (still unplaced)

variable {s t : Scene} {e : Element} {id x : ElementId} {rules : LayoutRules} {viewport : Size}

/-! ## What is kept -/

theorem alike_withRects (s : Scene) (rects : List (ElementId × Rect)) :
    Alike unplaced s (s.withRects rects) :=
  Alike.foldl id (fun s (id, _) => .modify s id) s rects

theorem alike_layOut (rules : LayoutRules) (s : Scene) (viewport : Size) :
    Alike still s (s.layOut rules viewport).1 :=
  (Alike.foldl id (fun t id => .modify t id) s (s.roots.flatMap s.descendants)).trans
    ((alike_withRects _ _).reading still)

theorem alike_layOutBelow (rules : LayoutRules) (s : Scene) (id : ElementId) :
    Alike unplaced s (s.layOutBelow rules id).1 := by
  unfold layOutBelow
  split
  next => exact .refl unplaced s
  next => exact alike_withRects s _

theorem unplaced_adjust (rules : LayoutRules) (s : Scene) (d : Document) (h : Handlers) :
    Alike unplaced s (s.adjust rules d h).scene :=
  Alike.foldl AdjustRun.scene
    (fun run (_, _, _) => (alike_withRects run.scene _).trans
      (Alike.foldl id (fun s id => alike_layOutBelow rules s id) _ _))
    ⟨s, []⟩ _

theorem alike_adjust (rules : LayoutRules) (s : Scene) (d : Document) (h : Handlers) :
    Alike still s (s.adjust rules d h).scene :=
  (unplaced_adjust rules s d h).reading still

/-! ## What is read -/

/-- A selection goes by what is read of the items. -/
theorem map_filter_eq {α β γ : Type} {l l' : List α} (u : α → β) (h : l'.map u = l.map u)
    (keep : β → Bool) (f : β → γ) :
    (l'.filter (keep ∘ u)).map (f ∘ u) = (l.filter (keep ∘ u)).map (f ∘ u) := by
  rw [← List.map_map, ← List.filter_map, h, List.filter_map, List.map_map]

namespace Alike

/-- The flow is told by which elements stand in it. -/
theorem flowChildren_eq (h : Alike (·.inFlow) s t) {e e' : Element}
    (he : e'.children = e.children) : t.flowChildren e' = s.flowChildren e := by
  rw [flowChildren, flowChildren, he]
  refine List.filter_congr fun c _ => ?_
  have hany := congrArg (Option.any fun b => b) (h.map_get? c)
  rwa [Option.any_map, Option.any_map] at hany

/-- Measuring reads no geometry. -/
theorem naturalSizeWithin_eq (h : Alike still s t) (rules : LayoutRules) (n : Nat)
    (id : ElementId) : t.naturalSizeWithin rules n id = s.naturalSizeWithin rules n id := by
  induction n generalizing id with
  | zero => rfl
  | succ n ih =>
    rw [naturalSizeWithin, naturalSizeWithin]
    rcases h.cases id with ⟨hs, ht⟩ | ⟨e, e', hs, ht, hstill⟩
    · rw [hs, ht]
    · have hflow : t.flowChildren e' = s.flowChildren e :=
        (h.reading (·.inFlow)).flowChildren_eq (congrArg Element.children hstill :)
      rw [hs, ht]
      dsimp only
      rw [hflow, funext ih]
      exact (congrArg (Element.naturalSize rules · _) hstill :)

theorem placeChildren_eq (h : Alike unplaced s t) {e e' : Element}
    (he : e'.unplaced = e.unplaced) (r : Rect) : t.placeChildren e' r = s.placeChildren e r := by
  have hsame : t.placeChildren e' r = t.placeChildren e r :=
    (congrArg (t.placeChildren · r) he :)
  have hchildren : (e.children.filterMap fun id => (t.get? id).map (id, ·)).map
      (fun c => (c.1, c.2.unplaced)) = (e.children.filterMap fun id =>
        (s.get? id).map (id, ·)).map (fun c => (c.1, c.2.unplaced)) := by
    rw [List.map_filterMap, List.map_filterMap]
    refine List.filterMap_congr fun c _ => ?_
    have hread := congrArg (Option.map (c, ·)) (h.map_get? c)
    rw [Option.map_map, Option.map_map] at hread ⊢
    exact hread
  have hloose := map_filter_eq _ hchildren (!·.2.inFlow) fun c =>
    (c.1, c.2.looseRect (e.contentWithin r), Placement.fixed)
  have hflow := map_filter_eq _ hchildren (·.2.inFlow) fun c =>
    c.2.flowItem e.layout.direction c.1
  rw [hsame]
  exact congrArg₂ (fun loose items => loose ++ (e.flowStyle.place (e.contentWithin r) items).map
    fun c => (c.1, c.2, Placement.flow)) hloose hflow

/-- An arrangement reads no rectangle but the one it is given. -/
theorem arrangeWithin_eq (h : Alike unplaced s t) (rules : LayoutRules) (n : Nat)
    (id : ElementId) (r : Rect) (p : Placement) :
    t.arrangeWithin rules n id r p = s.arrangeWithin rules n id r p := by
  induction n generalizing id r p with
  | zero => rfl
  | succ n ih =>
    rw [arrangeWithin, arrangeWithin]
    rcases h.cases id with ⟨hs, ht⟩ | ⟨e, e', hs, ht, hplace⟩
    · rw [hs, ht, Option.map_none, Option.map_none]
    · have hsettle (inFlow : List Rect) : e'.settle rules.settings.unit p inFlow r =
          e.settle rules.settings.unit p inFlow r :=
        (congrArg (Element.settle rules.settings.unit · p inFlow r) hplace :)
      simp only [hs, ht, Option.map_some, h.placeChildren_eq hplace, ih, hsettle]

theorem arrange_eq (h : Alike unplaced s t) (rules : LayoutRules) (id : ElementId) (r : Rect) :
    t.arrange rules id r = s.arrange rules id r := by
  rw [arrange, arrange, h.size, h.arrangeWithin_eq]

end Alike

/-! ## What is written -/

theorem get?_withRects_of_not_mem {rects : List (ElementId × Rect)}
    (hx : x ∉ rects.map (·.1)) : (s.withRects rects).get? x = s.get? x :=
  get?_foldl_modify_of_not_mem (fun r e => { e with rect := r }) hx

theorem get?_withRects {rects : List (ElementId × Rect)} {r : Rect}
    (hnodup : (rects.map (·.1)).Nodup) (hm : (x, r) ∈ rects) :
    (s.withRects rects).get? x = (s.get? x).map fun e => { e with rect := r } :=
  get?_foldl_modify (fun r e => { e with rect := r }) hnodup hm

/-- What gets a rectangle keeps nothing of the one it had. -/
theorem Alike.get?_withRects_eq (h : Alike unplaced s t) {rects : List (ElementId × Rect)}
    (hnodup : (rects.map (·.1)).Nodup) (hx : x ∈ rects.map (·.1)) :
    (t.withRects rects).get? x = (s.withRects rects).get? x := by
  obtain ⟨⟨y, r⟩, hm, rfl⟩ := List.mem_map.mp hx
  have hread : Alike (fun e : Element => { e with rect := r }) s t :=
    h.reading (fun e => { e with rect := r })
  rw [get?_withRects hnodup hm, get?_withRects hnodup hm, hread.map_get?]

theorem sameShape_measured (rules : LayoutRules) (s : Scene) : s.SameShape (s.measured rules) :=
  (rewrites_withNaturalSizes rules s _).sameShape

/-- Every element gets its natural size. -/
theorem Forest.get?_measured (h : s.Forest) (rules : LayoutRules) (x : ElementId) :
    (s.measured rules).get? x =
      (s.get? x).map fun e => { e with intrinsic := s.naturalSize rules x } := by
  have hids : (s.roots.flatMap s.descendants).Perm s.ids := by
    rw [funext h.descendants_eq]
    exact h.subtrees_perm
  have hedits : s.measured rules = ((s.roots.flatMap s.descendants).map
      fun id => (id, s.naturalSize rules id)).foldl (fun (t : Scene) edit =>
        t.modify edit.1 fun e => { e with intrinsic := edit.2 }) s := by
    rw [List.foldl_map]
    rfl
  by_cases hx : s.contains x
  · rw [hedits]
    refine get?_foldl_modify (fun size e => { e with intrinsic := size }) ?_
      (List.mem_map.mpr ⟨x, hids.mem_iff.mpr (h.mem_ids.mpr hx), rfl⟩)
    rw [List.map_map]
    exact (List.map_id _).symm ▸ hids.nodup_iff.mpr h.ids_nodup
  · have hx' : ¬ (s.measured rules).contains x := by
      rwa [(sameShape_measured rules s).contains]
    rw [Option.not_isSome_iff_eq_none.mp hx, Option.not_isSome_iff_eq_none.mp hx']
    rfl

/-! ## Layouts -/

/-- Measured, scenes that differed in their geometry differ in their
rectangles only. -/
theorem Alike.measured (h : Alike still s t) (hs : s.Forest) (rules : LayoutRules) :
    Alike unplaced (s.measured rules) (t.measured rules) where
  size := by
    rw [(sameShape_measured rules t).size, h.size, (sameShape_measured rules s).size]
  map_get? x := by
    have hsize : t.naturalSize rules x = s.naturalSize rules x := by
      rw [naturalSize, naturalSize, h.size, h.naturalSizeWithin_eq]
    have hread : Alike (fun e : Element => { e.unplaced with intrinsic := s.naturalSize rules x })
        s t := h.reading fun e => { e with intrinsic := s.naturalSize rules x }
    have hmap := hread.map_get? x
    rw [(h.core.forest hs).get?_measured, hs.get?_measured, hsize, Option.map_map, Option.map_map]
    exact hmap

/-- A layout does not depend on the geometry before it. -/
theorem Forest.layOut_congr (hs : s.Forest) (h : Alike still s t) (rules : LayoutRules)
    (viewport : Size) : t.layOut rules viewport = s.layOut rules viewport := by
  have ht := h.core.forest hs
  have hmeasured := h.measured hs rules
  have hrects : t.layoutRects rules viewport = s.layoutRects rules viewport := by
    rw [layoutRects, layoutRects, h.core.sameShape.roots_eq hs ht]
    exact List.flatMap_congr fun root _ => hmeasured.arrange_eq rules root _
  have hperm := hs.layoutRects_perm rules viewport
  rw [layOut_eq, layOut_eq, hrects]
  refine congrArg (·, _) (Alike.eq ⟨?_, fun x => ?_⟩)
  · rw [(alike_withRects _ _).size, hmeasured.size, (alike_withRects _ _).size]
  · rw [Option.map_id_apply, Option.map_id_apply]
    by_cases hx : x ∈ (s.layoutRects rules viewport).map (·.1)
    · exact hmeasured.get?_withRects_eq (hperm.nodup_iff.mpr hs.ids_nodup) hx
    · -- what is not laid out is not there
      have hdead : ¬ s.contains x := fun hlive => hx (hperm.mem_iff.mpr (hs.mem_ids.mpr hlive))
      have hnone : (s.measured rules).get? x = none := by
        rw [hs.get?_measured, Option.not_isSome_iff_eq_none.mp hdead]
        rfl
      rw [get?_withRects_of_not_mem hx, get?_withRects_of_not_mem hx, hnone]
      exact Option.map_eq_none_iff.mp ((hmeasured.map_get? x).trans (by rw [hnone]; rfl))

/-! ## Arranging below one element -/

theorem arrange_perm (rules : LayoutRules) (s : Scene) (id : ElementId) (r : Rect) :
    ((s.arrange rules id r).map (·.1)).Perm (s.subtree id) :=
  arrangeWithin_perm rules s s.slots.size id r .fixed

theorem layOutBelow_of_get? (he : s.get? id = some e) (rules : LayoutRules) :
    s.layOutBelow rules id = (s.withRects (s.arrange rules id e.rect),
      (s.arrange rules id e.rect).length) := by
  simp only [layOutBelow, he]

/-- Below one element an arrangement goes by the natural sizes and by the
rectangle of that element alone. -/
theorem Forest.layOutBelow_congr (hs : s.Forest) (h : Alike unplaced s t)
    (hrect : (t.get? id).map (·.rect) = (s.get? id).map (·.rect)) (rules : LayoutRules) :
    (t.layOutBelow rules id).2 = (s.layOutBelow rules id).2 ∧
      ∀ x, (t.layOutBelow rules id).1.get? x =
        if s.isAtOrAbove id x then (s.layOutBelow rules id).1.get? x else t.get? x := by
  rcases h.cases id with ⟨hsid, htid⟩ | ⟨e, e', hsid, htid, -⟩
  · simp only [layOutBelow, hsid, htid, true_and]
    intro x
    split
    next hup =>
      have hdead : ¬ s.contains x := fun hx => by
        have hid := hs.contains_of_atOrAbove (hs.isAtOrAbove_iff.mp hup) hx
        rw [contains, hsid] at hid
        exact absurd hid Bool.false_ne_true
      have hdead' : ¬ t.contains x := by rwa [h.contains]
      rw [Option.not_isSome_iff_eq_none.mp hdead, Option.not_isSome_iff_eq_none.mp hdead']
    next => rfl
  · rw [hsid, htid, Option.map_some, Option.map_some, Option.some_inj] at hrect
    have hperm := arrange_perm rules s id e.rect
    rw [layOutBelow_of_get? hsid, layOutBelow_of_get? htid, h.arrange_eq, hrect]
    refine ⟨rfl, fun x => ?_⟩
    by_cases hx : x ∈ (s.arrange rules id e.rect).map (·.1)
    · have hup := (hs.mem_subtree.mp (hperm.mem_iff.mp hx)).2
      rw [if_pos (hs.isAtOrAbove_iff.mpr hup)]
      exact h.get?_withRects_eq (hperm.nodup_iff.mpr (hs.subtree_nodup id)) hx
    · rw [get?_withRects_of_not_mem hx, get?_withRects_of_not_mem hx]
      split
      next hup =>
        -- below the element, only what is not there gets no rectangle
        have hdead : ¬ s.contains x := fun hlive =>
          hx (hperm.mem_iff.mpr (hs.mem_subtree.mpr ⟨hlive, hs.isAtOrAbove_iff.mp hup⟩))
        have hdead' : ¬ t.contains x := by rwa [h.contains]
        rw [Option.not_isSome_iff_eq_none.mp hdead, Option.not_isSome_iff_eq_none.mp hdead']
      next => rfl

/-- An arrangement settles the element it starts at. -/
theorem exists_mem_arrange (he : s.get? id = some e) (rules : LayoutRules) (r : Rect) :
    ∃ inFlow, (id, e.settle rules.settings.unit .fixed inFlow r) ∈ s.arrange rules id r := by
  obtain ⟨n, hn⟩ := Nat.exists_eq_succ_of_ne_zero
    (Nat.ne_of_gt (Nat.zero_lt_of_lt (index_lt_of_contains (contains_of_get? he))))
  obtain ⟨inFlow, hrects⟩ := rectsWithin_succ he rules n r .fixed
  refine ⟨inFlow, ?_⟩
  rw [arrange_eq, hn, hrects]
  exact List.mem_cons_self

/-- The element below which is arranged stays where it is, if it can be
seen there. -/
theorem Forest.get?_layOutBelow_self (hs : s.Forest) (he : s.get? id = some e)
    (hvisible : e.rect.Visible) (rules : LayoutRules) :
    (s.layOutBelow rules id).1.get? id = some e := by
  have hnodup := (arrange_perm rules s id e.rect).nodup_iff.mpr (hs.subtree_nodup id)
  obtain ⟨inFlow, hfirst⟩ := exists_mem_arrange he rules e.rect
  rw [layOutBelow_of_get? he, get?_withRects hnodup hfirst, e.settle_fixed _ _ hvisible, he]
  rfl

/-- Where the rectangle of the element can be seen, arranging below it
again changes nothing. -/
theorem Forest.layOutBelow_again (hs : s.Forest) (he : s.get? id = some e)
    (hvisible : e.rect.Visible) (rules : LayoutRules) :
    (s.layOutBelow rules id).1.layOutBelow rules id = s.layOutBelow rules id := by
  have hnodup := (arrange_perm rules s id e.rect).nodup_iff.mpr (hs.subtree_nodup id)
  have hu := alike_withRects s (s.arrange rules id e.rect)
  have he' := hs.get?_layOutBelow_self he hvisible rules
  rw [layOutBelow_of_get? he] at he' ⊢
  rw [layOutBelow_of_get? he', hu.arrange_eq]
  refine congrArg (·, _) (Alike.eq ⟨?_, fun x => ?_⟩)
  · rw [(alike_withRects _ _).size]
  · rw [Option.map_id_apply, Option.map_id_apply]
    by_cases hx : x ∈ (s.arrange rules id e.rect).map (·.1)
    · exact hu.get?_withRects_eq hnodup hx
    · exact get?_withRects_of_not_mem hx

end Scene

/-! ## Frames -/

namespace Session

open Scene (Alike)
open Element (still unplaced)

/-- What a frame gives is told by all of a session but the geometry of its
scene and whether it was dirty. -/
theorem frame_congr {s : Session} (h : s.scene.Forest) {t : Scene} (ht : Alike still s.scene t)
    (dirty : Bool) : ({ s with scene := t, dirty } : Session).frame = s.frame := by
  simp only [frame, rules, h.layOut_congr ht]

/-- A frame writes geometry, and the session is dirty no more. -/
theorem exists_frame_eq (s : Session) : ∃ t, Alike still s.scene t ∧
    s.frame.1 = { s with scene := t, dirty := false } :=
  ⟨_, (Scene.alike_layOut s.rules s.scene s.viewport).trans (Scene.alike_adjust s.rules _ _ _), rfl⟩

/-- Layout starts afresh. Scenes that differ in their geometry only are
laid out alike. So a frame after a frame gives what the first one gave, all
of it, and so does one after the viewport was another for a frame.
Arranging again below one element goes by the natural sizes and the
rectangle of that element, and by no other rectangle, and writes what is at
or below the element; a second time it changes nothing, if that rectangle
is one unit wide and high at least. -/
theorem layout_afresh {scene : Scene} (h : scene.Forest) (rules : LayoutRules) :
    (∀ t viewport, Alike still scene t → t.layOut rules viewport = scene.layOut rules viewport) ∧
    (∀ s : Session, s.scene = scene → s.frame.1.frame = s.frame ∧
      ∀ viewport, ((s.frame.1.resize viewport).frame.1.resize s.viewport).frame = s.frame) ∧
    (∀ t id, Alike unplaced scene t →
      (t.get? id).map (·.rect) = (scene.get? id).map (·.rect) →
      (t.layOutBelow rules id).2 = (scene.layOutBelow rules id).2 ∧
        ∀ x, (t.layOutBelow rules id).1.get? x =
          if scene.isAtOrAbove id x then (scene.layOutBelow rules id).1.get? x else t.get? x) ∧
    ∀ id e, scene.get? id = some e → 1 ≤ e.rect.width ∧ 1 ≤ e.rect.height →
      (scene.layOutBelow rules id).1.layOutBelow rules id = scene.layOutBelow rules id := by
  refine ⟨fun t viewport ht => h.layOut_congr ht rules viewport, ?_,
    fun t id ht hrect => h.layOutBelow_congr ht hrect rules,
    fun id e he hvisible => h.layOutBelow_again he hvisible rules⟩
  rintro s rfl
  obtain ⟨shown, hshown, hframe⟩ := s.exists_frame_eq
  rw [hframe]
  refine ⟨s.frame_congr h hshown false, fun viewport => ?_⟩
  obtain ⟨dirty, haway⟩ := resize_eq { s with scene := shown, dirty := false } viewport
  rw [haway]
  obtain ⟨other, hother, hframe'⟩ :=
    exists_frame_eq { s with scene := shown, viewport, dirty }
  rw [hframe']
  obtain ⟨dirty', hback⟩ :=
    resize_eq { s with scene := other, viewport, dirty := false } s.viewport
  rw [hback]
  exact s.frame_congr h (hshown.trans hother) dirty'

/-- A root with one child, after a frame. -/
theorem pair_afresh : ∃ s notices e, load .pair .none .standard = (.ok s, notices) ∧
    s.frame.1.scene.get? ⟨0⟩ = some e ∧ (1 ≤ e.rect.width ∧ 1 ≤ e.rect.height) ∧
      s.frame.1.frame = s.frame ∧
      ((s.frame.1.resize ⟨0, -3⟩).frame.1.resize s.viewport).frame = s.frame ∧
      (s.frame.1.scene.layOutBelow s.rules ⟨0⟩).1.layOutBelow s.rules ⟨0⟩ =
        s.frame.1.scene.layOutBelow s.rules ⟨0⟩ := by
  obtain ⟨s, notices, hload, hlive⟩ : ∃ s notices, load .pair .none .standard = (.ok s, notices) ∧
      s.scene.contains ⟨0⟩ := ⟨_, _, rfl, rfl⟩
  have hr := Reachable.load hload
  rw [← s.rewrites_frame.sameShape.contains] at hlive
  obtain ⟨e, he⟩ := Scene.contains_iff.mp hlive
  have hvisible := hr.frame_lays_out_all.1 ⟨0⟩ e he
  have hframes := (layout_afresh hr.forest s.rules).2.1 s rfl
  exact ⟨s, notices, e, hload, he, hvisible, hframes.1, hframes.2 _,
    (layout_afresh hr.frame.forest s.rules).2.2.2 ⟨0⟩ e he hvisible⟩

end Session

end SceneTree
