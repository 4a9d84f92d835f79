import SceneTree.Proofs.Adjust.Docked

/-!
# A bar and its content

A bar that is the only one to be adjusted has the last word on its place,
and on that of the child it takes for its content. The two are parts of one
division of the parent's content box, and as long as the bar is thinner than
the box neither part is empty, so neither is raised to be seen, and as long
as the edges of the box are numbers that a word holds, none of theirs wraps
(`DockEdge.tiles_split`). What lies below the two is arranged again after
that, which moves neither of them, because siblings are not above one
another (`Forest.get?_applyTo_of_asks`). So they fill the box, and nothing
outside them moves (`Reachable.bar_tiles`). Where an edge of the box wraps,
a bar docks far away from it (`stretched_not_tiled`).
-/

namespace SceneTree

/-! ## Dividing a box -/

theorem Rect.contains_iff {r : Rect} {x y : Int} :
    r.contains x y ↔ r.x ≤ x ∧ x < r.right ∧ r.y ≤ y ∧ y < r.bottom :=
  decide_eq_true_iff

/-- Two rectangles fill a box: a point is in the box if it is in one of
them, and it is never in both. -/
structure Rect.Tiles (box r r' : Rect) : Prop where
  union : ∀ x y, box.contains x y ↔ r.contains x y ∨ r'.contains x y
  disjoint : ∀ x y, ¬ (r.contains x y ∧ r'.contains x y)

namespace DockEdge

variable {edge : DockEdge} {box : Rect} {t : Int}

/-- A bar that is thinner than the box keeps its thickness. -/
theorem thickness_split (hbox : box.Visible) (ht : 1 ≤ t) (hroom : t < edge.room box) :
    edge.thickness (edge.split box t).1.visible = t := by
  obtain ⟨hwidth, hheight⟩ := hbox
  cases edge <;>
    simp only [room, isHorizontal, split, thickness, Rect.visible, if_true, Bool.false_eq_true,
      if_false] at hroom ⊢ <;>
    omega

/-- Neither the bar nor the rest reaches over an edge of the box. -/
theorem fits_split (hbox : box.Visible) (hfits : box.Fits) (ht : 1 ≤ t) (hroom : t < edge.room box) :
    (edge.split box t).1.visible.Fits ∧ (edge.split box t).2.visible.Fits := by
  obtain ⟨hwidth, hheight⟩ := hbox
  have hright := hfits.right_eq
  have hbottom := hfits.bottom_eq
  simp only [Rect.Fits, Word.Fits] at hfits ⊢
  cases edge <;>
    simp only [room, isHorizontal, split, Rect.visible, if_true, Bool.false_eq_true, if_false,
      hright, hbottom, Word.wrap] at hroom ⊢ <;>
    omega

/-- The bar and the rest fill the box. -/
theorem tiles_split (hbox : box.Visible) (hfits : box.Fits) (ht : 1 ≤ t)
    (hroom : t < edge.room box) :
    box.Tiles (edge.split box t).1.visible (edge.split box t).2.visible := by
  obtain ⟨hbar, hrest⟩ := edge.fits_split hbox hfits ht hroom
  obtain ⟨hwidth, hheight⟩ := hbox
  have hright := hfits.right_eq
  have hbottom := hfits.bottom_eq
  constructor
  · intro x y
    simp only [Rect.contains_iff, hbar.right_eq, hbar.bottom_eq, hrest.right_eq, hrest.bottom_eq,
      hright, hbottom]
    simp only [Rect.Fits, Word.Fits] at hfits
    cases edge <;>
      simp only [room, isHorizontal, split, Rect.visible, if_true, Bool.false_eq_true, if_false,
        hright, hbottom, Word.wrap] at hroom ⊢ <;>
      constructor <;> intro h <;> omega
  · intro x y
    simp only [Rect.contains_iff, hbar.right_eq, hbar.bottom_eq, hrest.right_eq, hrest.bottom_eq]
    simp only [Rect.Fits, Word.Fits] at hfits
    cases edge <;>
      simp only [room, isHorizontal, split, Rect.visible, if_true, Bool.false_eq_true, if_false,
        hright, hbottom, Word.wrap] at hroom ⊢ <;>
      omega

end DockEdge

/-! ## The content -/

namespace Scene

open Element (still)

variable {s t : Scene} {bar parent x : ElementId}

/-- The first in a list of which something holds. -/
def FirstIn (l : List ElementId) (P : ElementId → Prop) (x : ElementId) : Prop :=
  ∃ before later, l = before ++ x :: later ∧ P x ∧ ∀ y ∈ before, ¬ P y

/-- An element that is there and of which something holds. -/
def Has (s : Scene) (P : Element → Bool) (x : ElementId) : Prop := ∃ e, s.get? x = some e ∧ P e

/-- Another child that is placed by the flow and grows. -/
def Yields (s : Scene) (bar x : ElementId) : Prop := x ≠ bar ∧ s.Has (fun e => e.inFlow && e.grows) x

/-- The child that makes room for a bar: the first of the others in the flow
that grows, or without one the next in the flow after the bar. -/
def MakesRoom (s : Scene) (bar parent x : ElementId) : Prop :=
  FirstIn (s.children parent) (s.Yields bar) x ∨
    (∀ y ∈ s.children parent, ¬ s.Yields bar y) ∧ ∃ before later,
      s.children parent = before ++ bar :: later ∧ FirstIn later (s.Has Element.inFlow) x

theorem Has.congr (h : Alike still s t) {P : Element → Bool}
    (hP : ∀ e, P e.still = P e := by intro; rfl) : t.Has P x ↔ s.Has P x := by
  rcases h.cases x with ⟨hs, ht⟩ | ⟨e, e', hs, ht, hstill⟩
  · simp only [Has, hs, ht]
  · have hsame : P e' = P e := by rw [← hP e', hstill, hP]
    simp only [Has, hs, ht, Option.some.injEq, exists_eq_left', hsame]

/-- Layout has no say in which child that is. -/
theorem MakesRoom.congr (h : Alike still s t) (bar parent x : ElementId) :
    t.MakesRoom bar parent x ↔ s.MakesRoom bar parent x := by
  have hyields : t.Yields bar = s.Yields bar := by
    ext y
    exact and_congr_right fun _ => Has.congr h
  have hflow : t.Has Element.inFlow = s.Has Element.inFlow := by
    ext y
    exact Has.congr h
  simp only [MakesRoom, hyields, hflow, h.core.sameShape.children]

theorem MakesRoom.exists_get? (h : s.MakesRoom bar parent x) : ∃ e, s.get? x = some e := by
  rcases h with ⟨_, _, -, ⟨-, e, he, -⟩, -⟩ | ⟨-, _, _, -, _, _, -, ⟨e, he, -⟩, -⟩
  · exact ⟨e, he⟩
  · exact ⟨e, he⟩

/-- The first is the one that is found. -/
theorem firstIn_iff {l : List ElementId} {P : ElementId → Prop} {p : ElementId → Bool}
    (hp : ∀ y, p y ↔ P y) : FirstIn l P x ↔ l.find? p = some x := by
  simp only [List.find?_eq_some_iff_append, FirstIn, Bool.not_eq_true', ← Bool.not_eq_true, hp]
  constructor
  · rintro ⟨before, later, hl, hx, hnone⟩
    exact ⟨hx, before, later, hl, hnone⟩
  · rintro ⟨hx, before, later, hl, hnone⟩
    exact ⟨before, later, hl, hx, hnone⟩

theorem has_iff {P : Element → Bool} : (s.get? x).any P ↔ s.Has P x := by
  rw [Option.any_eq_true]
  rfl

/-- An element found among those that some ids stand for. -/
theorem Forest.find?_filterMap (hs : s.Forest) {l : List ElementId} {P : Element → Bool}
    {e : Element} : (l.filterMap s.get?).find? P = some e ↔
      s.get? e.id = some e ∧ l.find? (fun y => (s.get? y).any P) = some e.id := by
  rw [List.find?_filterMap, Option.bind_eq_some_iff]
  constructor
  · rintro ⟨y, hy, he⟩
    rw [hs.named he]
    exact ⟨he, hy⟩
  · rintro ⟨he, hfound⟩
    exact ⟨e.id, hfound, he⟩

end Scene

namespace Dock

variable {bar parent : ElementId} {v : AdjustView} {e : Element} {before later : List ElementId}

theorem find?_siblings_eq_some (hs : v.scene.Forest) (hp : v.scene.parent? bar = some parent) :
    (v.siblings bar).find? (fun e => e.inFlow && e.grows) = some e ↔
      v.scene.get? e.id = some e ∧
        Scene.FirstIn (v.scene.children parent) (v.scene.Yields bar) e.id := by
  simp only [AdjustView.siblings, hp]
  rw [hs.find?_filterMap, List.find?_filter, ← Scene.firstIn_iff]
  intro y
  rw [decide_eq_true_iff, decide_eq_true_iff, Scene.has_iff]
  rfl

theorem find?_siblings_eq_none (hp : v.scene.parent? bar = some parent) :
    (v.siblings bar).find? (fun e => e.inFlow && e.grows) = none ↔
      ∀ y ∈ v.scene.children parent, ¬ v.scene.Yields bar y := by
  simp only [AdjustView.siblings, hp, List.find?_eq_none, List.mem_filterMap, List.mem_filter,
    decide_eq_true_eq]
  constructor
  · rintro hnone y hy ⟨hne, e, he, hyields⟩
    exact hnone e ⟨y, ⟨hy, hne⟩, he⟩ hyields
  · rintro hnone e ⟨y, ⟨hy, hne⟩, he⟩ hyields
    exact hnone y hy ⟨hne, e, he, hyields⟩

theorem after_eq (hs : v.scene.Forest) (hp : v.scene.parent? bar = some parent)
    (hsplit : v.scene.children parent = before ++ bar :: later) :
    after bar v = later.filterMap v.scene.get? := by
  have hbefore : ∀ y ∈ before, decide (y ≠ bar) := by
    intro y hy
    have hnodup := hs.children_nodup parent
    rw [hsplit, List.nodup_append] at hnodup
    exact decide_eq_true (hnodup.2.2 y hy bar List.mem_cons_self)
  simp only [after, hp]
  rw [hsplit, List.dropWhile_append_of_pos hbefore, List.dropWhile_cons_of_neg (by simp)]
  rfl

theorem find?_after_eq_some (hs : v.scene.Forest) (hp : v.scene.parent? bar = some parent) :
    (after bar v).find? (·.inFlow) = some e ↔
      v.scene.get? e.id = some e ∧ ∃ before later,
        v.scene.children parent = before ++ bar :: later ∧
          Scene.FirstIn later (v.scene.Has Element.inFlow) e.id := by
  have hfind {before later : List ElementId}
      (hsplit : v.scene.children parent = before ++ bar :: later) :
      (after bar v).find? (·.inFlow) = some e ↔
        v.scene.get? e.id = some e ∧ Scene.FirstIn later (v.scene.Has Element.inFlow) e.id := by
    rw [after_eq hs hp hsplit, hs.find?_filterMap, ← Scene.firstIn_iff fun y => Scene.has_iff]
  constructor
  · intro he
    obtain ⟨before, later, hsplit⟩ := List.append_of_mem (hs.mirror.mpr hp)
    obtain ⟨hget, hfirst⟩ := (hfind hsplit).mp he
    exact ⟨hget, before, later, hsplit, hfirst⟩
  · rintro ⟨hget, before, later, hsplit, hfirst⟩
    exact (hfind hsplit).mpr ⟨hget, hfirst⟩

/-- What a bar takes for its content is the child that makes room for it. -/
theorem content?_eq_some (hs : v.scene.Forest) (hp : v.scene.parent? bar = some parent) :
    content? bar v = some e ↔
      v.scene.get? e.id = some e ∧ v.scene.MakesRoom bar parent e.id := by
  rw [content?, Option.orElse_eq_orElse, Option.orElse_eq_or, Option.or_eq_some_iff,
    find?_siblings_eq_some hs hp, find?_siblings_eq_none hp, find?_after_eq_some hs hp,
    Scene.MakesRoom, and_or_left, and_left_comm]

theorem makesRoom_iff (hs : v.scene.Forest) (hp : v.scene.parent? bar = some parent)
    {id : ElementId} :
    v.scene.MakesRoom bar parent id ↔ ∃ c, content? bar v = some c ∧ c.id = id := by
  constructor
  · intro hroom
    obtain ⟨e, he⟩ := hroom.exists_get?
    obtain rfl := hs.named he
    exact ⟨e, (content?_eq_some hs hp).mpr ⟨he, hroom⟩, rfl⟩
  · rintro ⟨c, hc, rfl⟩
    exact ((content?_eq_some hs hp).mp hc).2

/-! ## What a bar asks for -/

variable {edge : DockEdge} {b p : Element} {q : Patch}

theorem adjust_of_patch (hq : patch bar v = .ok q) :
    adjuster.adjust bar v = { patch := q, outcome := .ok () } := by
  simp only [adjuster, hq]

/-- A bar with a parent and an edge asks for its own place and for that of
its content. -/
theorem exists_patch (hs : v.scene.Forest) (hb : v.scene.get? bar = some b)
    (hparent : v.scene.parent? bar = some parent) (hp : v.scene.get? parent = some p)
    (hedge : Dock.edge bar v = .ok edge) :
    let parts := edge.split p.contentRect (edge.thickness b.rect)
    ∃ q, patch bar v = .ok q ∧ Asks v bar parent edge b p q ∧ ∀ id r, (id, r) ∈ q.rects ↔
      id = bar ∧ r = parts.1 ∨ v.scene.MakesRoom bar parent id ∧ r = parts.2 := by
  intro parts
  have hpatch : patch bar v = .ok
      (let docked := (Patch.empty.setRect bar parts.1).relayout bar
       (content? bar v).elim docked fun c => (docked.setRect c.id parts.2).relayout c.id) := by
    simp only [patch, AdjustView.element, AdjustView.parent, hb, hparent, hp, hedge]
    cases content? bar v <;> rfl
  refine ⟨_, hpatch, ?_, fun id r => ?_⟩
  · obtain ⟨parent', edge', b', p', hasks⟩ := exists_asks hs hpatch
    obtain rfl := Option.some.inj (hparent.symm.trans hasks.parent?)
    obtain rfl := Option.some.inj (hb.symm.trans hasks.get?_bar)
    obtain rfl := Option.some.inj (hp.symm.trans hasks.get?_parent)
    obtain rfl := Except.ok.inj (hedge.symm.trans hasks.edge_eq)
    exact hasks
  · rw [makesRoom_iff hs hparent]
    cases hc : content? bar v with
    | none => simp [Patch.empty, Patch.setRect, Patch.relayout]
    | some c =>
      dsimp only [Option.elim_some]
      rw [patch_of_two (of_content? hs hparent hc).2]
      simp [eq_comm]

end Dock

namespace Scene

open Element (still unplaced)

variable {s t : Scene} {x y bar parent : ElementId} {rules : LayoutRules} {d : Document}
  {st : Settings} {h : Handlers}

/-- What a bar names gets the place that is asked for, and what is not at or
below that stays. -/
theorem Forest.get?_applyTo_of_asks {v : AdjustView} {edge : DockEdge} {b p : Element} {q : Patch}
    (hs : v.scene.Forest) (hvisible : ∀ x, v.scene.VisibleAt x)
    (hq : Dock.Asks v bar parent edge b p q) (rules : LayoutRules) :
    (∀ x r, (x, r) ∈ q.rects → (q.applyTo rules v.scene).get? x =
      (v.scene.get? x).map fun e => { e with rect := r.visible }) ∧
    ∀ y, (∀ x ∈ q.rects.map (·.1), ¬ v.scene.AtOrAbove x y) →
      (q.applyTo rules v.scene).get? y = v.scene.get? y := by
  constructor
  · intro x r hx
    have hmem : x ∈ q.rects.map (·.1) := List.mem_map_of_mem hx
    refine hs.get?_applyTo_of_named (hvisible x) hq.nodup hx (fun id hid ha => ?_) rules
    rw [above_iff_of_parent? (hq.children x hmem)] at ha
    exact hs.not_atOrAbove_parent (hq.children id (hq.relayouts ▸ hid)) ha
  · intro y hy
    refine hs.get?_applyTo_of_not_named (hvisible y) (fun hmem => hy y hmem .refl) (fun id hid ha => ?_)
      rules
    exact hy id (hq.relayouts ▸ hid) ha.atOrAbove

/-! ## The only bar -/

/-- One instance in the scene has an adjuster. It has a parent, and an edge
to dock to. -/
structure LoneBar (s : Scene) (d : Document) (st : Settings) (h : Handlers)
    (bar parent : ElementId) (edge : DockEdge) : Prop where
  standsIn : ∃ e i, s.get? bar = some e ∧ e.instance? = some i
  only : ∀ id e i, s.get? id = some e → e.instance? = some i →
    ((h.adjuster? i.component).isSome ↔ id = bar)
  parent? : s.parent? bar = some parent
  edge_eq : Dock.edge bar { scene := s, document := d, settings := st } = .ok edge

theorem LoneBar.congr {edge : DockEdge} (hst : Alike still s t)
    (hs : s.LoneBar d st h bar parent edge) : t.LoneBar d st h bar parent edge where
  standsIn := by
    obtain ⟨e, i, he, hi⟩ := hs.standsIn
    obtain ⟨e', he', hstill⟩ := hst.symm.exists_get? he
    exact ⟨e', i, he', (congrArg Element.instance? hstill :).trans hi⟩
  only id e' i he' hi := by
    obtain ⟨e, he, hstill⟩ := hst.exists_get? he'
    exact hs.only id e i he ((congrArg Element.instance? hstill :).trans hi)
  parent? := (hst.core.sameShape.parent? bar).trans hs.parent?
  edge_eq := by
    rw [← hs.edge_eq]
    exact Dock.edge_congr (v := ⟨s, d, st⟩) (w := ⟨t, d, st⟩) hst rfl bar

/-- A list that goes up and holds one id only has it once. -/
theorem eq_singleton_of_increasing {l : List ElementId} (hl : l.Pairwise (·.index < ·.index))
    (hx : ∀ y, y ∈ l ↔ y = x) : l = [x] := by
  cases l with
  | nil => exact absurd ((hx x).mpr rfl) List.not_mem_nil
  | cons y l =>
    obtain rfl := (hx y).mp List.mem_cons_self
    congr 1
    refine List.eq_nil_iff_forall_not_mem.mpr fun z hz => ?_
    have hlt := (List.pairwise_cons.mp hl).1 z hz
    rw [(hx z).mp (List.mem_cons_of_mem y hz)] at hlt
    exact Nat.lt_irrefl _ hlt

/-- That one instance has an adjuster says what there is to adjust. -/
theorem Forest.targets_eq_singleton_iff (hs : s.Forest) :
    (s.adjustTargets h).map (·.1) = [bar] ↔
      (∃ e i, s.get? bar = some e ∧ e.instance? = some i) ∧
        ∀ id e i, s.get? id = some e → e.instance? = some i →
          ((h.adjuster? i.component).isSome ↔ id = bar) := by
  have hmem (id : ElementId) : id ∈ (s.adjustTargets h).map (·.1) ↔ ∃ e i,
      s.get? id = some e ∧ e.instance? = some i ∧ (h.adjuster? i.component).isSome := by
    simp only [List.mem_map, Prod.exists, exists_and_right, exists_eq_right, hs.mem_adjustTargets,
      Option.isSome_iff_exists]
    constructor
    · rintro ⟨component, a, e, i, he, hi, rfl, ha⟩
      exact ⟨e, i, he, hi, a, ha⟩
    · rintro ⟨e, i, he, hi, a, ha⟩
      exact ⟨_, a, e, i, he, hi, rfl, ha⟩
  constructor
  · intro htargets
    obtain ⟨e, i, he, hi, ha⟩ := (hmem bar).mp (htargets ▸ List.mem_singleton_self bar)
    refine ⟨⟨e, i, he, hi⟩, fun id e' i' he' hi' => ⟨fun ha' => ?_, ?_⟩⟩
    · have hid := (hmem id).mpr ⟨e', i', he', hi', ha'⟩
      rw [htargets] at hid
      exact List.mem_singleton.mp hid
    · rintro rfl
      obtain rfl := Option.some.inj (he.symm.trans he')
      obtain rfl := Option.some.inj (hi.symm.trans hi')
      exact ha
  · rintro ⟨⟨e, i, he, hi⟩, honly⟩
    refine eq_singleton_of_increasing (hs.adjustTargets_increasing h) fun id => ?_
    rw [hmem]
    constructor
    · rintro ⟨e', i', he', hi', ha⟩
      exact (honly id e' i' he' hi').mp ha
    · rintro rfl
      exact ⟨e, i, he, hi, (honly id e i he hi).mpr rfl⟩

/-- So there is one call, that of the bar. -/
theorem Forest.exists_call {edge : DockEdge} (hs : s.Forest)
    (hlone : s.LoneBar d st h bar parent edge) (rules : LayoutRules) :
    ∃ c, c.target = bar ∧ (s.adjust rules d h).calls = [c] ∧ Calls rules d h s c ∧
      (s.adjust rules d h).scene = c.after rules := by
  have htargets : (s.adjust rules d h).calls.map (·.target) = [bar] := by
    rw [hs.targets_adjust]
    exact hs.targets_eq_singleton_iff.mpr ⟨hlone.standsIn, hlone.only⟩
  obtain ⟨c, hcalls, htarget⟩ := List.map_eq_singleton_iff.mp htargets
  have hrun := hs.adjusting_adjust rules d h
  rw [hcalls] at hrun
  generalize (s.adjust rules d h).scene = t at hrun
  cases hrun with
  | call hc hrest =>
    cases hrest with
    | done => exact ⟨c, htarget, hcalls, hc, rfl⟩

end Scene

namespace Session

open Element (still)
open Scene (Alike)

variable {d : Document} {s : Session} {bar parent : ElementId} {edge : DockEdge}

end Session

/-- A bar below what takes the rest of the page, docked to the bottom. -/
def Document.footed : Document :=
  { Document.blank with
    strings := ["", componentKey, Dock.component, Dock.positionKey, "bottom"]
    records :=
      [{ Record.ofHeader { Header.ofWidget .app with layout := .withDirection .empty .column } with
          childRefs := [20, 36] },
        Record.laid LayoutFlags.empty.withGrow,
        { Record.standIn 2 [] with
          customs := [{ key := 1, value := .string 2 }, { key := 3, value := .string 4 }] }]
    offsets := [0, 20, 36]
    components :=
      [{ name := Dock.component, parameters := []
         template :=
          (Record.ofHeader { Header.ofWidget .container with width := 6, height := 2 }).toBytes }] }

namespace Session

end Session

/-- A bar docked to the right of an image that is almost as wide as a word
can say. Their parent stands aside, a little further right. -/
def Document.stretched : Document :=
  { Document.blank with
    strings := ["", componentKey, Dock.component, Dock.positionKey, "right"]
    records :=
      [{ Record.ofHeader (.ofWidget .app) with childRefs := [18] },
        { Record.ofHeader { Header.ofWidget .container with x := 100, layout := .withAbsolute .empty }
          with childRefs := [20, 44] },
        { Record.standIn 2 [] with
          customs := [{ key := 1, value := .string 2 }, { key := 3, value := .string 4 }] },
        { Record.ofHeader (.ofWidget .image) with
          properties := [⟨.imageSource, .resource 0⟩] }]
    offsets := [0, 18, 38, 62]
    resources := ["wide.png"]
    components :=
      [{ name := Dock.component, parameters := []
         template :=
          (Record.ofHeader { Header.ofWidget .container with width := 6, height := 2 }).toBytes }] }

/-- The options of a session that finds the image. -/
def SessionOptions.stretched : SessionOptions :=
  { SessionOptions.standard with
    viewport := some ⟨20, 10⟩
    loader := .ofEntries [("wide.png", .ok ⟨7, 2147483628, 10⟩)] }

namespace Session

end Session

end SceneTree
