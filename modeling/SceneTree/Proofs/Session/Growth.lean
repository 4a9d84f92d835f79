import SceneTree.Proofs.Forest.Shape
import SceneTree.Session

/-!
# Sessions only grow their scene

Every stage of a session, from filling the scene to adjusting it, is a
number of steps of the scene (`Scene.Grows`): none writes a parent or a
list of children but by linking, unlinking and removing. So the scene of a
session is a forest whatever the document says, whatever is expanded
again, and whatever adjusters and pointers do in between
(`Session.Reachable.forest`).
-/

namespace SceneTree

theorem KeepsPlace.become (d : Document) (st : Settings) (r : Record) :
    KeepsPlace (·.become d st r) :=
  ⟨fun _ => rfl, fun _ => rfl, fun _ => rfl, fun _ => rfl, fun _ => rfl⟩

theorem KeepsPlace.adoptInstance (inst : Element) (decoration : Decoration) :
    KeepsPlace (Scene.adoptInstance inst decoration) :=
  ⟨fun _ => rfl, fun _ => rfl, fun _ => rfl, fun _ => rfl, fun _ => rfl⟩

namespace Scene

variable {s t : Scene} {d : Document} {st : Settings}

/-! ## One edit -/

/-- An edit that keeps the place. Most only write fields that say nothing
about it, and then there is nothing to prove. -/
theorem grows_modify (s : Scene) (id : ElementId) {f : Element → Element}
    (hf : KeepsPlace f := by constructor <;> intro <;> rfl) : s.Grows (s.modify id f) :=
  .of_step (.edit hf id)

theorem grows_add (s : Scene) (d : Document) (st : Settings) (source : Source) (h : Header)
    (r : Record) : s.Grows (s.add d st source h r) :=
  .trans (.of_step (.push source h)) (.of_step (.edit (.become d st r) _))

theorem grows_settleInstance (s : Scene) (id : ElementId) (usage roots : List ElementId)
    (decoration : Decoration) : s.Grows (s.settleInstance id usage roots decoration) :=
  grows_modify s id

/-! ## Filling and linking -/

theorem grows_addDocument (s : Scene) (d : Document) (st : Settings) :
    s.Grows (s.addDocument d st) :=
  Grows.foldl id (fun s (r, i) => s.grows_add d st (.document i) r.header r) s d.records.zipIdx

theorem grows_take (d : Document) (l : Linking) (ref : ElementId × Nat) :
    l.scene.Grows (l.take d ref).scene := by
  unfold Linking.take
  split
  next => exact .refl _
  next child hchild =>
    split
    next linked hl => exact .of_step (.link hl)
    next => exact .refl _

theorem grows_connect (s : Scene) (d : Document) : s.Grows (s.connect d).scene := by
  unfold connect
  split
  next => exact Grows.foldl Linking.scene (grows_take d) ⟨s, []⟩ d.refs
  next => exact .refl s

/-! ## Expanding -/

theorem grows_foldl_unlink (s : Scene) (ids : List ElementId) : s.Grows (ids.foldl unlink s) :=
  Grows.foldl id (fun _ c => .of_step (.unlink c)) s ids

theorem grows_foldl_remove (s : Scene) (ids : List ElementId) : s.Grows (ids.foldl remove s) :=
  Grows.foldl id (fun _ c => .of_step (.remove c)) s ids

theorem grows_detach? {id : ElementId} {det : Detached} (h : s.detach? id = some (t, det)) :
    s.Grows t := by
  simp only [detach?, Option.bind_eq_bind, Option.bind_eq_some_iff, Option.pure_def,
    Option.some.injEq, Prod.mk.injEq] at h
  obtain ⟨e, -, i, -, rfl, -⟩ := h
  exact .trans (grows_modify s id) (.trans (grows_foldl_unlink _ _)
    (.trans (grows_foldl_remove _ _) (grows_foldl_remove _ _)))

theorem grows_addNode (d : Document) (st : Settings) (inst : Element) (component : ComponentId)
    (decoration : Decoration) (s : Scene) (node : Nat) (r : Record) :
    s.Grows (addNode d st inst component decoration s node r) := by
  have hadd := s.grows_add d st (.template component node) (copyHeader inst node r.header) r
  unfold addNode
  split
  next =>
    exact hadd.trans (.trans (grows_modify _ _) (grows_modify _ _ (.adoptInstance inst decoration)))
  next => exact hadd.trans (grows_modify _ _)

theorem grows_addTemplate (d : Document) (st : Settings) (inst : Element)
    (component : ComponentId) (decoration : Decoration) (t : Template) (s : Scene) :
    s.Grows (addTemplate d st inst component decoration t s).scene :=
  Grows.foldl Splicing.scene
    (fun w (n, i) => grows_addNode d st inst component decoration w.scene i n.record) ⟨s, []⟩
    t.nodes.zipIdx

theorem grows_splicingLink (w : Splicing) (refusal : LinkFault → Notice) (p c : ElementId) :
    w.scene.Grows (w.link refusal p c).scene := by
  unfold Splicing.link
  split
  next linked hl => exact .of_step (.link hl)
  next => exact .refl _

theorem grows_linkCopies (component : String) (copyOf : Nat → ElementId) (t : Template)
    (w : Splicing) : w.scene.Grows (linkCopies component copyOf t w).scene :=
  Grows.foldl Splicing.scene (fun w _ => grows_splicingLink w _ _ _) w t.edges

theorem grows_attachRoots (det : Detached) (roots : List ElementId) (w : Splicing) :
    w.scene.Grows (attachRoots det roots w).scene :=
  Grows.foldl Splicing.scene (fun w root => grows_splicingLink w _ det.id root) w roots

theorem grows_expandNested {nest : Scene → ElementId → Expansion}
    (hnest : ∀ (s : Scene) id, s.Grows (nest s id).scene) (component : String) (w : Splicing)
    (id : ElementId) : w.scene.Grows (expandNested nest component w id).scene := by
  unfold expandNested
  split
  next => exact hnest w.scene id
  next => exact .refl _

theorem grows_placeUsage (det : Detached) (target : Option ElementId) (w : Splicing) :
    w.scene.Grows (placeUsage det target w).scene := by
  unfold placeUsage
  split
  next target =>
    exact Grows.foldl Splicing.scene
      (fun w c => grows_splicingLink w _ target c) w det.usage
  next =>
    split
    next => exact .refl _
    next => exact grows_foldl_remove _ _

theorem grows_splice {nest : Scene → ElementId → Expansion}
    (hnest : ∀ (s : Scene) id, s.Grows (nest s id).scene) (d : Document) (st : Settings)
    (component : ComponentId) (t : Template) (s : Scene) (det : Detached) :
    s.Grows (splice d st nest component t s det).scene := by
  unfold splice
  split
  next => exact .refl s
  next inst _ =>
    have hmade := grows_addTemplate d st inst component det.decoration t s
    have hlinked := hmade.trans (grows_linkCopies det.component s.copyId t _)
    have hrooted := hlinked.trans (grows_attachRoots det (t.roots.map s.copyId) _)
    have hnested := hrooted.trans (Grows.foldl Splicing.scene
      (grows_expandNested hnest det.component) _ ((List.range t.nodes.length).map s.copyId))
    exact hnested.trans (grows_placeUsage det _ _)

theorem grows_expandWith {put : Scene → Detached → Expansion}
    (hput : ∀ (s : Scene) det, s.Grows (put s det).scene) (s : Scene) (id : ElementId) :
    s.Grows (expandWith put s id).scene := by
  unfold expandWith
  split
  next => exact .refl s
  next bare det hdet =>
    have hbare := (grows_detach? hdet).trans (hput bare det)
    dsimp only
    split
    next => exact hbare.trans (grows_settleInstance _ _ _ _ _)
    next =>
      refine hbare.trans (.trans (grows_foldl_remove _ det.usage) ?_)
      exact .trans (grows_modify _ id) (grows_settleInstance _ _ _ _ _)

theorem grows_expandWithin (d : Document) (st : Settings) (levels : Nat)
    (enclosing : List ComponentId) (s : Scene) (id : ElementId) :
    s.Grows (expandWithin d st levels enclosing s id).scene := by
  induction levels generalizing enclosing s id with
  | zero => exact grows_expandWith (fun s det => .refl s) s id
  | succ levels ih =>
    refine grows_expandWith (fun s det => ?_) s id
    split
    next => exact .refl s
    next c _ =>
      split
      next => exact .refl s
      next t _ => exact grows_splice (ih _) d st _ t s det

/-- A turn expands the instance or does nothing. -/
theorem scene_expandPending (d : Document) (st : Settings) (run : ExpansionRun) (id : ElementId) :
    (expandPending d st run id).scene = (run.scene.expand d st id).scene ∨
      (expandPending d st run id).scene = run.scene := by
  unfold expandPending
  split
  next =>
    dsimp only
    split
    next => exact .inl rfl
    next => exact .inl rfl
  next => exact .inr rfl

theorem grows_expandAll (s : Scene) (d : Document) (st : Settings) :
    s.Grows (s.expandAll d st).scene := by
  refine Grows.foldl ExpansionRun.scene (fun run id => ?_) ⟨s, [], 0⟩ _
  rcases scene_expandPending d st run id with hscene | hscene
  · rw [hscene]
    exact grows_expandWithin d st maxDepth [] run.scene id
  · rw [hscene]
    exact .refl _

/-! ## Textures, styles, geometry -/

theorem rewrites_loadTextures (s : Scene) (store : TextureStore) (d : Document)
    (loader : Loader) : s.Rewrites (s.loadTextures store d loader).scene := by
  refine Rewrites.foldl TextureRun.scene (fun run (id, index) => ?_) ⟨s, store, 0, 0, []⟩ _
  unfold TextureRun.take
  dsimp only
  split
  next => exact .modify run.scene id
  next => exact .modify run.scene id

theorem rewrites_inherit (s : Scene) (st : Settings) : s.Rewrites (s.inherit st) :=
  Rewrites.foldl id (fun s (id, _) => .modify s id) s _

theorem rewrites_withNaturalSizes (rules : LayoutRules) (s : Scene) (ids : List ElementId) :
    s.Rewrites (s.withNaturalSizes rules ids) :=
  Rewrites.foldl id (fun t id => .modify t id) s ids

theorem rewrites_withRects (s : Scene) (rects : List (ElementId × Rect)) :
    s.Rewrites (s.withRects rects) :=
  Rewrites.foldl id (fun s (id, _) => .modify s id) s rects

theorem rewrites_layOut (rules : LayoutRules) (s : Scene) (viewport : Size) :
    s.Rewrites (s.layOut rules viewport).1 :=
  (rewrites_withNaturalSizes rules s _).trans (rewrites_withRects _ _)

theorem rewrites_layOutBelow (rules : LayoutRules) (s : Scene) (id : ElementId) :
    s.Rewrites (s.layOutBelow rules id).1 := by
  unfold layOutBelow
  split
  next => exact .refl s
  next => exact rewrites_withRects s _

theorem rewrites_applyTo (p : Patch) (rules : LayoutRules) (s : Scene) :
    s.Rewrites (p.applyTo rules s) :=
  (rewrites_withRects s _).trans
    (Rewrites.foldl id (fun s id => rewrites_layOutBelow rules s id) _ p.relayouts)

theorem rewrites_adjust (rules : LayoutRules) (s : Scene) (d : Document) (h : Handlers) :
    s.Rewrites (s.adjust rules d h).scene :=
  Rewrites.foldl AdjustRun.scene (fun run (_, _, _) => rewrites_applyTo _ rules run.scene)
    ⟨s, []⟩ _

end Scene

/-! ## Sessions -/

namespace Session

open Scene (Grows)

theorem grows_linkedScene (d : Document) (st : Settings) :
    Grows .empty (linkedScene d st).1 :=
  .trans (Scene.grows_addDocument .empty d st) (Scene.grows_connect _ d)

/-- The scene of a document whose instances have been expanded, before it
gets its textures and text styles. -/
def expandedScene (d : Document) : Scene :=
  ((linkedScene d (Settings.ofDocument d)).1.expandAll d (Settings.ofDocument d)).scene

theorem eq_of_load {d : Document} {handlers : Handlers} {options : SessionOptions} {s : Session}
    {notices : List Notice} (h : load d handlers options = (.ok s, notices)) :
    s.document = d ∧
      s.scene = ((expandedScene d).loadTextures .empty d options.loader).scene.inherit
        (Settings.ofDocument d) := by
  simp only [load] at h
  split at h
  next => cases h
  next =>
    cases h
    refine ⟨rfl, ?_⟩
    rw [expandedScene]

/-- Loading ends with bringing textures and text styles up to date. -/
theorem rewrites_load {d : Document} {handlers : Handlers} {options : SessionOptions}
    {s : Session} {notices : List Notice} (h : load d handlers options = (.ok s, notices)) :
    (expandedScene d).Rewrites s.scene := by
  rw [(eq_of_load h).2]
  exact (Scene.rewrites_loadTextures _ .empty d options.loader).trans (Scene.rewrites_inherit _ _)

theorem grows_load {d : Document} {handlers : Handlers} {options : SessionOptions} {s : Session}
    {notices : List Notice} (h : load d handlers options = (.ok s, notices)) :
    Grows .empty s.scene :=
  (grows_linkedScene d (Settings.ofDocument d)).trans
    ((Scene.grows_expandAll _ d (Settings.ofDocument d)).trans (rewrites_load h).grows)

/-- A frame only writes to elements where they stand. -/
theorem rewrites_frame (s : Session) : s.scene.Rewrites s.frame.1.scene :=
  (Scene.rewrites_layOut s.rules s.scene s.viewport).trans (Scene.rewrites_adjust s.rules _ _ _)

/-- After an expansion textures and text styles are brought up to date. -/
theorem rewrites_reexpand (s : Session) (id : ElementId) :
    (s.scene.expand s.document s.settings id).scene.Rewrites (s.reexpand id).1.scene :=
  (Scene.rewrites_loadTextures _ _ _ _).trans (Scene.rewrites_inherit _ _)

theorem grows_reexpand (s : Session) (id : ElementId) :
    s.scene.Grows (s.reexpand id).1.scene :=
  .trans (Scene.grows_expandWithin s.document s.settings maxDepth [] s.scene id)
    (s.rewrites_reexpand id).grows

/-- A resize changes nothing but the viewport, if that. -/
theorem resize_eq (s : Session) (viewport : Size) :
    ∃ dirty, s.resize viewport = { s with viewport, dirty } := by
  unfold resize
  split
  next h => exact ⟨s.dirty, by rw [h]⟩
  next => exact ⟨true, rfl⟩

/-- The sessions on a document that loading and any use after it lead to. -/
inductive Reachable (d : Document) : Session → Prop
  | load {handlers : Handlers} {options : SessionOptions} {s : Session} {notices : List Notice}
      (h : Session.load d handlers options = (.ok s, notices)) : Reachable d s
  | frame {s : Session} (h : Reachable d s) : Reachable d s.frame.1
  | resize {s : Session} (h : Reachable d s) (viewport : Size) : Reachable d (s.resize viewport)
  | reexpand {s : Session} (h : Reachable d s) (id : ElementId) : Reachable d (s.reexpand id).1
  | point {s : Session} (h : Reachable d s) (action : PointerAction) (x y : Int) :
      Reachable d (s.point action x y).1
  | equip {s : Session} (h : Reachable d s) (handlers : Handlers) :
      Reachable d { s with handlers }

theorem Reachable.grows {d : Document} {s : Session} (h : Reachable d s) :
    Grows .empty s.scene := by
  induction h with
  | load h => exact grows_load h
  | frame _ ih => exact ih.trans (rewrites_frame _).grows
  | @resize s _ viewport ih =>
    obtain ⟨dirty, heq⟩ := s.resize_eq viewport
    exact heq ▸ ih
  | reexpand _ id ih => exact ih.trans (grows_reexpand _ id)
  | point _ _ _ _ ih => exact ih
  | equip _ _ ih => exact ih

/-- The scene of a session is a forest at any time. -/
theorem Reachable.forest {d : Document} {s : Session} (h : Reachable d s) : s.scene.Forest :=
  h.grows.forest Scene.forest_empty

end Session

end SceneTree
