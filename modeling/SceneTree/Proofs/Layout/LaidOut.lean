import SceneTree.Proofs.Layout.Afresh

/-!
# What a layout leaves behind

A layout is two recursions with a bound on their depth. What they leave can
be said without either: in a scene that was laid out (`Scene.LaidOut`) the
size that each element asks for comes from those of its children, and its
rectangle is the settled form of the place its parent gave it
(`Scene.Put`), closed around the rectangles of its children. The bound is
never what ends the recursions, because no way up is longer than there are
slots (`Forest.naturalSizeWithin_eq`, `Forest.exists_arrangeWithin`).

So a statement about layouts is one about these equations and a forest,
proved from the leaves up (`Forest.leaves_up`) or from the roots down (by
induction on `Scene.Put`).
-/

namespace SceneTree

namespace Scene

open Element (still unplaced)

variable {s t : Scene} {e : Element} {id x p c : ElementId} {rules : LayoutRules}
  {viewport : Size} {r : Rect} {q : Placement} {starts : List (ElementId × Rect)}

/-! ## Natural sizes -/

theorem mem_flowChildren :
    c ∈ s.flowChildren e ↔ c ∈ e.children ∧ ∃ ec, s.get? c = some ec ∧ ec.inFlow := by
  rw [flowChildren, List.mem_filter]
  apply and_congr_right
  intro _
  cases s.get? c <;> simp

/-- Levels beyond the deepest live one add nothing to a natural size. -/
theorem Forest.naturalSizeWithin_eq (h : s.Forest) {n m : Nat}
    (hn : s.slots.size < n + (s.lineage id).length) (hm : n ≤ m) :
    s.naturalSizeWithin rules m id = s.naturalSizeWithin rules n id := by
  induction n generalizing id m with
  | zero =>
    have hdead : s.get? id = none := by
      apply Option.not_isSome_iff_eq_none.mp
      intro hid
      have hle := h.length_lineage_le hid
      omega
    cases m with
    | zero => rfl
    | succ m => simp only [naturalSizeWithin, hdead]
  | succ n ih =>
    obtain ⟨k, rfl⟩ : ∃ k, m = k + 1 := ⟨m - 1, by omega⟩
    cases he : s.get? id with
    | none => simp only [naturalSizeWithin, he]
    | some e =>
      simp only [naturalSizeWithin, he]
      refine congrArg (e.naturalSize rules) (List.map_congr_left fun c hc => ih ?_ (by omega))
      have hc := (mem_flowChildren.mp hc).1
      rw [← children_of_get? he] at hc
      rw [h.lineage_of_parent? (h.mirror.mp hc), List.length_cons]
      omega

/-- The size that an element asks for comes from those of its children. -/
theorem Forest.naturalSize_of_get? (h : s.Forest) (he : s.get? id = some e) :
    s.naturalSize rules id =
      e.naturalSize rules ((s.flowChildren e).map (s.naturalSize rules)) := by
  have hpos := h.length_lineage_pos id
  rw [naturalSize, ← h.naturalSizeWithin_eq (by omega) (Nat.le_succ _), naturalSizeWithin, he]
  rfl

/-! ## Places -/

/-- Where an arrangement puts elements, and how, before they settle. It
starts from some elements with a rectangle for each. -/
inductive Put (s : Scene) (starts : List (ElementId × Rect)) :
    ElementId → Rect → Placement → Prop
  | start {id : ElementId} {r : Rect} : (id, r) ∈ starts → Put s starts id r .fixed
  | child {p c : ElementId} {e : Element} {r place : Rect} {q q' : Placement} :
    Put s starts p r q → s.get? p = some e → (c, place, q') ∈ s.placeChildren e r →
      Put s starts c place q'

/-- The children in the flow of an element, as items. -/
def flowItems (s : Scene) (e : Element) : List FlowItem :=
  (s.flowChildren e).filterMap fun c => (s.get? c).map (·.flowItem e.layout.direction c)

/-- The rectangles of the children in the flow of an element. -/
def flowRects (s : Scene) (e : Element) : List Rect :=
  (s.flowChildren e).filterMap fun c => (s.get? c).map (·.rect)

/-- The sizes that the children in the flow of an element ask for. -/
def flowSizes (s : Scene) (e : Element) : List Size :=
  (s.flowChildren e).filterMap fun c => (s.get? c).map (·.intrinsic)

theorem Alike.flowSizes_eq (h : Alike unplaced s t) {e' : Element}
    (he : e'.children = e.children) : t.flowSizes e' = s.flowSizes e := by
  have hsizes : Alike (·.intrinsic) s t := h.reading (·.intrinsic)
  have hflow : t.flowChildren e' = s.flowChildren e :=
    (h.reading (·.inFlow)).flowChildren_eq he
  rw [flowSizes, flowSizes, hflow]
  exact List.filterMap_congr fun c _ => hsizes.map_get? c

/-- In a measured scene the sizes fit together. -/
theorem Forest.intrinsic_measured (h : s.Forest) (he : (s.measured rules).get? x = some e) :
    e.intrinsic = e.naturalSize rules ((s.measured rules).flowSizes e) := by
  have hstill : Alike still s (s.measured rules) := Alike.foldl id (fun t id => .modify t id) s _
  have hwritten := h.get?_measured rules x
  rw [he] at hwritten
  obtain ⟨e₀, he₀, rfl⟩ := Option.map_eq_some_iff.mp hwritten.symm
  have hflow : (s.measured rules).flowChildren { e₀ with intrinsic := s.naturalSize rules x } =
      s.flowChildren e₀ := (hstill.reading (·.inFlow)).flowChildren_eq rfl
  have hsizes : (s.measured rules).flowSizes { e₀ with intrinsic := s.naturalSize rules x } =
      (s.flowChildren e₀).map (s.naturalSize rules) := by
    rw [flowSizes, hflow, ← List.filterMap_eq_map]
    apply List.filterMap_congr
    intro c hc
    obtain ⟨-, ec, hec, -⟩ := mem_flowChildren.mp hc
    rw [h.get?_measured, hec]
    rfl
  rw [hsizes]
  exact (h.naturalSize_of_get? he₀ :)

theorem id_flowItem (d : Direction) (id : ElementId) (c : Element) : (c.flowItem d id).id = id := by
  unfold Element.flowItem
  split <;> rfl

theorem map_id_flowItems (s : Scene) (e : Element) :
    (s.flowItems e).map (·.id) = s.flowChildren e := by
  rw [flowItems, List.map_filterMap]
  refine (List.filterMap_congr fun c hc => ?_).trans List.filterMap_some
  obtain ⟨-, ec, hec, -⟩ := mem_flowChildren.mp hc
  simp [hec, id_flowItem]

/-- Children out of the flow are put at their places, those in the flow
where it places them. -/
theorem placeChildren_eq (s : Scene) (e : Element) (r : Rect) :
    s.placeChildren e r =
      ((e.children.filterMap fun id => (s.get? id).map (id, ·)).filter (!·.2.inFlow)).map
          (fun c => (c.1, c.2.looseRect (e.contentWithin r), Placement.fixed)) ++
        (e.flowStyle.place (e.contentWithin r) (s.flowItems e)).map
          fun c => (c.1, c.2, Placement.flow) := by
  have hitems : ((e.children.filterMap fun id => (s.get? id).map (id, ·)).filter
      (·.2.inFlow)).map (fun c => c.2.flowItem e.layout.direction c.1) = s.flowItems e := by
    rw [flowItems, flowChildren, List.filter_filterMap, List.map_filterMap, List.filterMap_filter]
    apply List.filterMap_congr
    intro c _
    cases hc : s.get? c with
    | none => rfl
    | some ec => cases hflow : ec.inFlow <;> simp [hflow]
  rw [← hitems]
  rfl

theorem mem_placeChildren {place : Rect} :
    (c, place, q) ∈ s.placeChildren e r ↔
      (q = .fixed ∧ ∃ ec, c ∈ e.children ∧ s.get? c = some ec ∧ ec.inFlow = false ∧
        place = ec.looseRect (e.contentWithin r)) ∨
      (q = .flow ∧ (c, place) ∈ e.flowStyle.place (e.contentWithin r) (s.flowItems e)) := by
  rw [placeChildren_eq, List.mem_append, List.mem_map, List.mem_map]
  refine or_congr ?_ ?_
  · constructor
    · rintro ⟨⟨c', ec⟩, hm, heq⟩
      obtain ⟨hm, hloose⟩ := List.mem_filter.mp hm
      obtain ⟨id, hid, hget⟩ := List.mem_filterMap.mp hm
      obtain ⟨ec', hec, hpair⟩ := Option.map_eq_some_iff.mp hget
      cases hpair
      cases heq
      exact ⟨rfl, ec, hid, hec, by simpa using hloose, rfl⟩
    · rintro ⟨rfl, ec, hc, hec, hloose, rfl⟩
      refine ⟨(c, ec), List.mem_filter.mpr ⟨?_, by simpa using hloose⟩, rfl⟩
      exact List.mem_filterMap.mpr ⟨c, hc, by rw [hec]; rfl⟩
  · constructor
    · rintro ⟨⟨c', place'⟩, hm, heq⟩
      cases heq
      exact ⟨rfl, hm⟩
    · rintro ⟨rfl, hm⟩
      exact ⟨(c, place), hm, rfl⟩

/-- Whatever a flow places is one of its children in the flow. -/
theorem mem_flowChildren_of_place {content place : Rect}
    (h : (c, place) ∈ e.flowStyle.place content (s.flowItems e)) : c ∈ s.flowChildren e := by
  rw [← map_id_flowItems, ← FlowStyle.map_place e.flowStyle content]
  exact List.mem_map.mpr ⟨_, h, rfl⟩

theorem mem_children_of_placeChildren {place : Rect} (h : (c, place, q) ∈ s.placeChildren e r) :
    c ∈ e.children ∧ s.contains c := by
  rcases mem_placeChildren.mp h with ⟨-, ec, hc, hec, -⟩ | ⟨-, hflow⟩
  · exact ⟨hc, contains_of_get? hec⟩
  · obtain ⟨hc, ec, hec, -⟩ := mem_flowChildren.mp (mem_flowChildren_of_place hflow)
    exact ⟨hc, contains_of_get? hec⟩

/-! ## Settling -/

/-- The rectangles of the children in the flow of an element, as an
arrangement of some depth settles them. -/
def flowRectsWithin (rules : LayoutRules) (s : Scene) (n : Nat) (e : Element) (r : Rect) :
    List Rect :=
  (e.flowStyle.place (e.contentWithin r) (s.flowItems e)).filterMap fun c =>
    (s.arrangeWithin rules n c.1 c.2 .flow).map (·.rect)

/-- One level of an arrangement. -/
theorem arrangeWithin_succ (he : s.get? id = some e) (rules : LayoutRules) (n : Nat) (r : Rect)
    (q : Placement) : s.arrangeWithin rules (n + 1) id r q =
      some { rect := e.settle rules.settings.unit q (s.flowRectsWithin rules n e r) r
             below := s.rectsBelow rules n e r } := by
  -- each child that is there, with how it was placed and what was decided
  let children := (s.placeChildren e r).filterMap fun p =>
    (s.arrangeWithin rules n p.1 p.2.1 p.2.2).map fun a => (p.1, p.2.2, a)
  have hrects : (children.filter (·.2.1 = .flow)).map (·.2.2.rect) =
      s.flowRectsWithin rules n e r := by
    unfold children
    rw [List.filter_filterMap, List.map_filterMap, placeChildren_eq, List.filterMap_append,
      List.filterMap_map, List.filterMap_map, flowRectsWithin]
    refine (congrArg₂ (· ++ ·) (List.filterMap_eq_nil_iff.mpr fun c _ => ?_)
      (List.filterMap_congr fun c _ => ?_)).trans (List.nil_append _)
    · dsimp only [Function.comp]
      cases s.arrangeWithin rules n c.1 _ .fixed <;> rfl
    · dsimp only [Function.comp]
      cases s.arrangeWithin rules n c.1 c.2 .flow <;> rfl
  simp only [arrangeWithin, he, Option.map_some]
  exact congrArg₂ (fun inFlow below =>
    some ({ rect := e.settle rules.settings.unit q inFlow r, below } : Arranged)) hrects
    (flatMap_below rules s n e r)

theorem rectsWithin_of_arrange {n : Nat} {a : Arranged}
    (h : s.arrangeWithin rules n id r q = some a) :
    s.rectsWithin rules n id r q = (id, a.rect) :: a.below := by
  rw [rectsWithin, h]

/-- At a live element there is always a level left. -/
theorem Forest.exists_arrangeWithin (h : s.Forest) (he : s.get? id = some e) {n : Nat}
    (hn : s.slots.size < n + (s.lineage id).length) (rules : LayoutRules) (r : Rect)
    (q : Placement) : ∃ k, n = k + 1 ∧ s.arrangeWithin rules n id r q =
      some { rect := e.settle rules.settings.unit q (s.flowRectsWithin rules k e r) r
             below := s.rectsBelow rules k e r } := by
  have hle := h.length_lineage_le (contains_of_get? he)
  obtain ⟨k, rfl⟩ : ∃ k, n = k + 1 := ⟨n - 1, by omega⟩
  exact ⟨k, rfl, arrangeWithin_succ he rules k r q⟩

/-- All that an arrangement of some start decides on. -/
def rectsFrom (rules : LayoutRules) (s : Scene) (starts : List (ElementId × Rect)) :
    List (ElementId × Rect) := starts.flatMap fun p => s.arrange rules p.1 p.2

/-- Where an element is put, it is arranged with levels enough, and what
that decides on is written. -/
theorem Forest.rectsWithin_of_put (h : s.Forest) (hput : s.Put starts x r q)
    (rules : LayoutRules) : ∃ n, s.slots.size < n + (s.lineage x).length ∧
      s.rectsWithin rules n x r q ⊆ s.rectsFrom rules starts := by
  induction hput with
  | start hm =>
    refine ⟨s.slots.size, ?_, fun p hp => ?_⟩
    · have hpos := h.length_lineage_pos
      exact Nat.lt_add_of_pos_right (hpos _)
    · exact List.mem_flatMap.mpr ⟨_, hm, hp⟩
  | @child p c e r place q q' hput he hm ih =>
    obtain ⟨n, hn, hsub⟩ := ih
    obtain ⟨k, rfl, ha⟩ := h.exists_arrangeWithin he hn rules r q
    obtain ⟨hc, -⟩ := mem_children_of_placeChildren hm
    rw [← children_of_get? he] at hc
    refine ⟨k, ?_, fun p hp => hsub ?_⟩
    · rw [h.lineage_of_parent? (h.mirror.mp hc), List.length_cons]
      omega
    · rw [rectsWithin_of_arrange ha]
      exact List.mem_cons_of_mem _ (List.mem_flatMap.mpr ⟨_, hm, hp⟩)

/-- An element that was put somewhere settles there, around the rectangles
that its children get. -/
theorem Forest.get?_of_put (h : s.Forest)
    (hnodup : ((s.rectsFrom rules starts).map (·.1)).Nodup)
    (ht : t = s.withRects (s.rectsFrom rules starts)) (hput : s.Put starts x r q)
    (he : s.get? x = some e) :
    t.get? x = some { e with rect := e.settle rules.settings.unit q (t.flowRects e) r } := by
  have hwritten {y : ElementId} {ey : Element} {place : Rect} (hy : s.get? y = some ey)
      (hm : (y, place) ∈ s.rectsFrom rules starts) :
      t.get? y = some { ey with rect := place } := by
    rw [ht, get?_withRects hnodup hm, hy]
    rfl
  obtain ⟨n, hn, hsub⟩ := h.rectsWithin_of_put hput rules
  obtain ⟨k, rfl, ha⟩ := h.exists_arrangeWithin he hn rules r q
  have hrects := rectsWithin_of_arrange ha
  have hchildren : s.flowRectsWithin rules k e r = t.flowRects e := by
    have hids : t.flowChildren e =
        (e.flowStyle.place (e.contentWithin r) (s.flowItems e)).map (·.1) := by
      have halike := alike_withRects s (s.rectsFrom rules starts)
      rw [FlowStyle.map_place, map_id_flowItems, ht,
        (halike.reading (·.inFlow)).flowChildren_eq rfl]
    rw [flowRects, hids, List.filterMap_map, flowRectsWithin]
    apply List.filterMap_congr
    rintro ⟨c, place⟩ hm
    obtain ⟨hc, ec, hec, -⟩ := mem_flowChildren.mp (mem_flowChildren_of_place hm)
    rw [← children_of_get? he] at hc
    have hlevel : s.slots.size < k + (s.lineage c).length := by
      rw [h.lineage_of_parent? (h.mirror.mp hc), List.length_cons]
      omega
    obtain ⟨k', rfl, hac⟩ := h.exists_arrangeWithin hec hlevel rules place .flow
    have hbelow : (c, ec.settle rules.settings.unit .flow (s.flowRectsWithin rules k' ec place)
        place) ∈ s.rectsBelow rules (k' + 1) e r := by
      refine List.mem_flatMap.mpr ⟨(c, place, .flow), mem_placeChildren.mpr (.inr ⟨rfl, hm⟩), ?_⟩
      dsimp only
      rw [rectsWithin_of_arrange hac]
      exact List.mem_cons_self
    have hrect := hwritten hec (hsub (hrects ▸ List.mem_cons_of_mem _ hbelow))
    simp only [Function.comp, hac, hrect, Option.map_some]
  rw [← hchildren]
  exact hwritten he (hsub (hrects ▸ List.mem_cons_self))

/-- Rectangles do not matter for that. -/
theorem Alike.intrinsic_eq (h : Alike unplaced s t)
    (hs : ∀ {x : ElementId} {e : Element}, s.get? x = some e →
      e.intrinsic = e.naturalSize rules (s.flowSizes e)) (he : t.get? x = some e) :
    e.intrinsic = e.naturalSize rules (t.flowSizes e) := by
  obtain ⟨e₀, he₀, hsame⟩ := h.exists_get? he
  have hchildren : e.children = e₀.children := (congrArg Element.children hsame.symm :)
  calc e.intrinsic
      = e₀.intrinsic := (congrArg Element.intrinsic hsame.symm :)
    _ = e₀.naturalSize rules (t.flowSizes e) := by rw [hs he₀, h.flowSizes_eq hchildren]
    _ = e.naturalSize rules (t.flowSizes e) :=
        (congrArg (Element.naturalSize rules · (t.flowSizes e)) hsame :)

/-! ## Laid-out scenes -/

/-- Every root gets the viewport. -/
def rootStarts (s : Scene) (viewport : Size) : List (ElementId × Rect) :=
  s.roots.map fun root => (root, .ofSize viewport)

/-- The geometry of a scene is that of a layout at a viewport. -/
structure LaidOut (rules : LayoutRules) (viewport : Size) (t : Scene) : Prop where
  forest : t.Forest
  /-- What an element asks for comes from what its children ask for. -/
  measured : ∀ {x : ElementId} {e : Element}, t.get? x = some e →
    e.intrinsic = e.naturalSize rules (t.flowSizes e)
  /-- Every element was put somewhere. -/
  put : ∀ {x : ElementId}, t.contains x → ∃ r q, t.Put (t.rootStarts viewport) x r q
  /-- There it settled, around the rectangles of its children. -/
  settled : ∀ {x : ElementId} {e : Element} {r : Rect} {q : Placement},
    t.Put (t.rootStarts viewport) x r q → t.get? x = some e →
      e.rect = e.settle rules.settings.unit q (t.flowRects e) r

theorem Alike.put (h : Alike unplaced s t) (hput : s.Put starts x r q) : t.Put starts x r q := by
  induction hput with
  | start hm => exact .start hm
  | @child p c e r place q q' hput he hm ih =>
    have hlive : t.contains p := (h.contains p).trans (contains_of_get? he)
    obtain ⟨e', he'⟩ := contains_iff.mp hlive
    obtain ⟨e₀, he₀, hsame⟩ := h.exists_get? he'
    obtain rfl := Option.some.inj (he.symm.trans he₀)
    exact .child ih he' (h.placeChildren_eq hsame.symm r ▸ hm)

/-- Each child of an element gets a place wherever the element is put. -/
theorem exists_placed (r : Rect) (hc : c ∈ e.children) (hlive : s.contains c) :
    ∃ place q', (c, place, q') ∈ s.placeChildren e r := by
  have hm : c ∈ (s.placeChildren e r).map (·.1) :=
    (s.placeChildren_perm e r).mem_iff.mpr (List.mem_filter.mpr ⟨hc, hlive⟩)
  obtain ⟨⟨c', place, q'⟩, hplaced, rfl⟩ := List.mem_map.mp hm
  exact ⟨place, q', hplaced⟩

/-- From the roots every live element is reached. -/
theorem Forest.exists_put (h : s.Forest) (viewport : Size) (hx : s.contains x) :
    ∃ r q, s.Put (s.rootStarts viewport) x r q := by
  obtain ⟨root, hroot, hup⟩ := h.exists_root_atOrAbove hx
  induction hup using Relation.ReflTransGen.head_induction_on with
  | refl => exact ⟨_, _, .start (List.mem_map.mpr ⟨root, hroot, rfl⟩)⟩
  | @head c p hp hup ih =>
    obtain ⟨r, q, hput⟩ := ih (h.contains_parent hp)
    obtain ⟨e, he⟩ := contains_iff.mp (h.contains_parent hp)
    have hc : c ∈ e.children := children_of_get? he ▸ h.mirror.mpr hp
    obtain ⟨place, q', hplaced⟩ := exists_placed r hc hx
    exact ⟨place, q', .child hput he hplaced⟩

/-- What a layout leaves is laid out. -/
theorem Forest.laidOut (h : s.Forest) (rules : LayoutRules) (viewport : Size) :
    LaidOut rules viewport (s.layOut rules viewport).1 := by
  let t := (s.layOut rules viewport).1
  have hm : (s.measured rules).Forest :=
    (rewrites_withNaturalSizes rules s _).grows.forest h
  have ht : (s.layOut rules viewport).1.Forest :=
    (rewrites_layOut rules s viewport).grows.forest h
  have hrects : s.layoutRects rules viewport =
      (s.measured rules).rectsFrom rules (s.rootStarts viewport) := by
    rw [layoutRects, rectsFrom, rootStarts, List.flatMap_map]
  have hnodup : (((s.measured rules).rectsFrom rules (s.rootStarts viewport)).map (·.1)).Nodup :=
    hrects ▸ (h.layoutRects_perm rules viewport).nodup_iff.mpr h.ids_nodup
  have halike : Alike unplaced (s.measured rules) (s.layOut rules viewport).1 :=
    alike_withRects _ _
  have hstarts : (s.layOut rules viewport).1.rootStarts viewport = s.rootStarts viewport := by
    rw [rootStarts, (rewrites_layOut rules s viewport).sameShape.roots_eq h ht, rootStarts]
  refine ⟨ht, fun he => halike.intrinsic_eq h.intrinsic_measured he,
    fun {x} hx => ht.exists_put viewport hx, fun {x e r q} hput he => ?_⟩
  obtain ⟨e₀, he₀, hsame⟩ := halike.exists_get? he
  rw [hstarts] at hput
  have hsettled := hm.get?_of_put hnodup (t := t) (by rw [← hrects]; rfl)
    (halike.symm.put hput) he₀
  rw [he] at hsettled
  obtain rfl := Option.some.inj hsettled
  rfl

end Scene

end SceneTree
