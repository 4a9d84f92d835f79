import Mathlib.Data.List.Induction
import SceneTree.Adjust.Script
import SceneTree.Proofs.Layout.Afresh
import SceneTree.Proofs.Session.Usage

/-!
# What adjusters can do

An adjuster asks for rectangles and for arrangements, in any order and for
any ids, and then succeeds or fails. Whatever it asks for, its patch holds
at most one rectangle for an element, the last (`Patch.mem_rects_recorded`).

An arrangement below an element writes nothing but rectangles, only of what
lies below that element, and leaves the element itself where it stands as
long as it can be seen there (`Forest.get?_layOutBelow`). So a patch moves
an element for two reasons only: it names it, or it arranges something
above it (`Forest.get?_applyTo`). A run of the adjusters is a chain of
patches, each applied to what the one before has left (`Adjusting`), and
what holds of a patch holds of the run by induction on that chain.
-/

namespace SceneTree

/-! ## Requests -/

/-- What an adjuster may ask of the patch it is given. -/
inductive PatchRequest where
  | setRect (id : ElementId) (r : Rect)
  | relayout (id : ElementId)
deriving DecidableEq

namespace PatchRequest

variable {requests : List PatchRequest} {id x : ElementId} {r : Rect}

/-- The patch after one more request. -/
def record (p : Patch) : PatchRequest → Patch
  | .setRect id r => p.setRect id r
  | .relayout id => p.relayout id

/-- The rectangle that a request sets for an element, if it is for that
one. -/
def rectFor? (x : ElementId) : PatchRequest → Option Rect
  | .setRect id r => if id = x then some r else none
  | .relayout _ => none

/-- The last rectangle that was set for an element. -/
def lastRect? (requests : List PatchRequest) (x : ElementId) : Option Rect :=
  (requests.filterMap (rectFor? x)).getLast?

theorem lastRect?_setRect (requests : List PatchRequest) (id x : ElementId) (r : Rect) :
    lastRect? (requests ++ [.setRect id r]) x =
      if id = x then some r else lastRect? requests x := by
  rw [lastRect?, List.filterMap_append]
  by_cases hx : id = x
  · rw [if_pos hx]
    simp only [List.filterMap_cons, rectFor?, if_pos hx, List.filterMap_nil, List.getLast?_concat]
  · rw [if_neg hx]
    simp only [List.filterMap_cons, rectFor?, if_neg hx, List.filterMap_nil, List.append_nil,
      lastRect?]

theorem lastRect?_relayout (requests : List PatchRequest) (id x : ElementId) :
    lastRect? (requests ++ [.relayout id]) x = lastRect? requests x := by
  rw [lastRect?, List.filterMap_append]
  simp only [List.filterMap_cons, rectFor?, List.filterMap_nil, List.append_nil, lastRect?]

end PatchRequest

namespace Patch

open PatchRequest (lastRect?)

variable {p : Patch} {requests : List PatchRequest} {id x : ElementId} {r : Rect}

/-- The patch that a sequence of requests has made. -/
def recorded (requests : List PatchRequest) : Patch := requests.foldl PatchRequest.record .empty

theorem recorded_concat (requests : List PatchRequest) (request : PatchRequest) :
    recorded (requests ++ [request]) = request.record (recorded requests) :=
  List.foldl_concat ..

theorem rects_relayout (p : Patch) (id : ElementId) : (p.relayout id).rects = p.rects := by
  unfold relayout
  split <;> rfl

theorem mem_relayouts_relayout : x ∈ (p.relayout id).relayouts ↔ x ∈ p.relayouts ∨ x = id := by
  unfold relayout
  split
  next hid =>
    refine ⟨.inl, ?_⟩
    rintro (hx | rfl)
    · exact hx
    · exact List.contains_iff_mem.mp hid
  next => rw [List.mem_append, List.mem_singleton]

/-- A recorded patch has no two rectangles for one element. -/
theorem rects_recorded_nodup (requests : List PatchRequest) :
    ((recorded requests).rects.map (·.1)).Nodup := by
  induction requests using List.reverseRecOn with
  | nil => exact List.nodup_nil
  | append_singleton requests request ih =>
    rw [recorded_concat]
    cases request with
    | relayout id => rwa [PatchRequest.record, rects_relayout]
    | setRect id r =>
      show (((recorded requests).rects.filter (·.1 ≠ id) ++ [(id, r)]).map (·.1)).Nodup
      rw [List.map_append]
      refine List.nodup_append.mpr ⟨(List.filter_sublist.map _).nodup ih,
        List.nodup_singleton id, fun x hx y hy => ?_⟩
      obtain ⟨⟨x, r'⟩, hmem, rfl⟩ := List.mem_map.mp hx
      rw [List.mem_singleton.mp hy]
      exact of_decide_eq_true (List.mem_filter.mp hmem).2

/-- The rectangles of a recorded patch are the last ones set. -/
theorem mem_rects_recorded (requests : List PatchRequest) (x : ElementId) (r : Rect) :
    (x, r) ∈ (recorded requests).rects ↔ lastRect? requests x = some r := by
  induction requests using List.reverseRecOn with
  | nil => exact iff_of_false List.not_mem_nil nofun
  | append_singleton requests request ih =>
    rw [recorded_concat]
    cases request with
    | relayout id => rw [PatchRequest.record, rects_relayout, ih, PatchRequest.lastRect?_relayout]
    | setRect id r' =>
      rw [PatchRequest.lastRect?_setRect]
      show (x, r) ∈ (recorded requests).rects.filter (·.1 ≠ id) ++ [(id, r')] ↔ _
      rw [List.mem_append, List.mem_filter, ih, List.mem_singleton, Prod.mk.injEq]
      by_cases hx : id = x
      · subst hx
        simp only [ne_eq, not_true_eq_false, decide_false, Bool.false_eq_true, and_false, true_and,
          false_or, if_true, Option.some.injEq]
        exact eq_comm
      · simp only [if_neg hx, Ne.symm hx, ne_eq, not_false_eq_true, decide_true, and_true,
          false_and, or_false]

/-- A recorded patch arranges below what it was asked to. -/
theorem mem_relayouts_recorded (requests : List PatchRequest) (x : ElementId) :
    x ∈ (recorded requests).relayouts ↔ PatchRequest.relayout x ∈ requests := by
  induction requests using List.reverseRecOn with
  | nil => exact iff_of_false List.not_mem_nil List.not_mem_nil
  | append_singleton requests request ih =>
    rw [recorded_concat, List.mem_append, List.mem_singleton, ← ih]
    cases request with
    | relayout id =>
      rw [PatchRequest.record, mem_relayouts_relayout, PatchRequest.relayout.injEq]
    | setRect id r => exact (or_iff_left nofun).symm

end Patch

namespace Scene

open Element (still unplaced)

variable {s t u : Scene} {e : Element} {id x : ElementId} {rules : LayoutRules}

/-! ## One patch -/

/-- Arranging below an element leaves everything else where it is. -/
theorem Forest.get?_layOutBelow (hs : s.Forest) (hx : ¬ s.Above id x) (hvisible : s.VisibleAt x)
    (rules : LayoutRules) : (s.layOutBelow rules id).1.get? x = s.get? x := by
  cases he : s.get? id with
  | none => simp only [layOutBelow, he]
  | some e =>
    by_cases hid : x = id
    · subst hid
      rw [hs.get?_layOutBelow_self he (hvisible e he), he]
    · rw [layOutBelow_of_get? he]
      refine get?_withRects_of_not_mem fun hm => hx ?_
      have hbelow := (hs.mem_subtree.mp ((arrange_perm rules s id e.rect).mem_iff.mp hm)).2
      exact hs.above_iff_ne.mpr ⟨hbelow, Ne.symm hid⟩

/-- So do several arrangements, one after another. -/
theorem Forest.get?_foldl_layOutBelow (hs : s.Forest) (hvisible : s.VisibleAt x)
    {ids : List ElementId} (hx : ∀ id ∈ ids, ¬ s.Above id x) (rules : LayoutRules) :
    (ids.foldl (fun t id => (t.layOutBelow rules id).1) s).get? x = s.get? x := by
  induction ids generalizing s with
  | nil => rfl
  | cons id ids ih =>
    rw [List.forall_mem_cons] at hx
    have hstill : Alike still s (s.layOutBelow rules id).1 :=
      (alike_layOutBelow rules s id).reading still
    rw [List.foldl_cons, ih (hstill.core.forest hs) (hvisible.layOutBelow rules id) fun c hc ha =>
      hx.2 c hc (hstill.core.sameShape.above_iff.mp ha)]
    exact hs.get?_layOutBelow hx.1 hvisible rules

theorem alike_applyTo (rules : LayoutRules) (p : Patch) (s : Scene) :
    Alike unplaced s (p.applyTo rules s) :=
  (alike_withRects s _).trans (Alike.foldl id (fun t id => alike_layOutBelow rules t id) _ _)

/-- What a patch writes first: its rectangles, each large enough to be
seen. -/
def placed (p : Patch) (s : Scene) : Scene :=
  s.withRects ((p.landing s).map fun (id, r) => (id, r.visible))

theorem map_landing (p : Patch) (s : Scene) :
    (((p.landing s).map fun (id, r) => (id, r.visible)).map (·.1)).Sublist (p.rects.map (·.1)) := by
  rw [List.map_map]
  exact List.filter_sublist.map _

theorem VisibleAt.placed (h : s.VisibleAt x) (p : Patch) : (s.placed p).VisibleAt x := by
  refine .withRects (fun q hq => ?_) fun _ => h
  obtain ⟨⟨id, r⟩, -, rfl⟩ := List.mem_map.mp hq
  exact r.visible_visible

/-- An element below nothing that a patch arranges has afterwards what the
patch wrote into it first. -/
theorem Forest.get?_applyTo (hs : s.Forest) (hvisible : s.VisibleAt x) {p : Patch}
    (hx : ∀ id ∈ p.relayouts, ¬ s.Above id x) (rules : LayoutRules) :
    (p.applyTo rules s).get? x = (s.placed p).get? x := by
  have hplaced : Alike still s (s.placed p) := (alike_withRects s _).reading still
  exact (hplaced.core.forest hs).get?_foldl_layOutBelow (hvisible.placed p)
    (fun id hid ha => hx id hid (hplaced.core.sameShape.above_iff.mp ha)) rules

/-- A patch leaves what it neither names nor arranges. -/
theorem Forest.get?_applyTo_of_not_named (hs : s.Forest) (hvisible : s.VisibleAt x) {p : Patch}
    (hnamed : x ∉ p.rects.map (·.1)) (hx : ∀ id ∈ p.relayouts, ¬ s.Above id x)
    (rules : LayoutRules) : (p.applyTo rules s).get? x = s.get? x := by
  rw [hs.get?_applyTo hvisible hx]
  exact get?_withRects_of_not_mem fun hm => hnamed ((map_landing p s).subset hm)

/-- What a patch names and does not arrange stands where the patch puts it,
raised to one unit on each side. -/
theorem Forest.get?_applyTo_of_named (hs : s.Forest) (hvisible : s.VisibleAt x) {p : Patch}
    (hnodup : (p.rects.map (·.1)).Nodup) {r : Rect} (hnamed : (x, r) ∈ p.rects)
    (hx : ∀ id ∈ p.relayouts, ¬ s.Above id x) (rules : LayoutRules) :
    (p.applyTo rules s).get? x = (s.get? x).map fun e => { e with rect := r.visible } := by
  rw [hs.get?_applyTo hvisible hx]
  by_cases hlive : s.contains x
  · exact get?_withRects ((map_landing p s).nodup hnodup)
      (List.mem_map.mpr ⟨(x, r), List.mem_filter.mpr ⟨hnamed, hlive⟩, rfl⟩)
  · -- a rectangle for what is not there is dropped
    have hdead := (alike_withRects s ((p.landing s).map fun (id, r) => (id, r.visible))).contains x
    rw [Option.not_isSome_iff_eq_none.mp hlive]
    exact Option.not_isSome_iff_eq_none.mp fun h => hlive (hdead ▸ h)

end Scene

/-! ## Calls one after another -/

/-- The scene that a call leaves. -/
def AdjustCall.after (rules : LayoutRules) (c : AdjustCall) : Scene :=
  c.answer.patch.applyTo rules c.view.scene

namespace Scene

open Element (still unplaced)

variable {s t u : Scene} {e : Element} {id x : ElementId} {rules : LayoutRules} {d : Document}
  {h : Handlers} {c : AdjustCall} {calls : List AdjustCall}

/-- The call is made for an instance in the scene, by the adjuster of its
component, which sees that scene. -/
structure Calls (rules : LayoutRules) (d : Document) (h : Handlers) (s : Scene)
    (c : AdjustCall) : Prop where
  target : ∃ e i, s.get? c.target = some e ∧ e.instance? = some i ∧ i.component = c.component
  view : c.view = { scene := s, document := d, settings := rules.settings }
  answer : ∃ a, h.adjuster? c.component = some a ∧ c.answer = a.adjust c.target c.view

/-- The calls lead from one scene to another: each is made on what those
before it have left. -/
inductive Adjusting (rules : LayoutRules) (d : Document) (h : Handlers) :
    Scene → List AdjustCall → Scene → Prop where
  | done (s : Scene) : Adjusting rules d h s [] s
  | call {s t : Scene} {c : AdjustCall} {calls : List AdjustCall} :
    Calls rules d h s c → Adjusting rules d h (c.after rules) calls t →
      Adjusting rules d h s (c :: calls) t

theorem Calls.scene_eq (hc : Calls rules d h s c) : c.view.scene = s :=
  congrArg AdjustView.scene hc.view

theorem Calls.alike (hc : Calls rules d h s c) : Alike unplaced s (c.after rules) := by
  rw [AdjustCall.after, hc.scene_eq]
  exact alike_applyTo rules c.answer.patch s

theorem Calls.visibleAt (hc : Calls rules d h s c) (hx : s.VisibleAt x) :
    (c.after rules).VisibleAt x := by
  rw [AdjustCall.after, hc.scene_eq]
  exact hx.applyTo _ rules

namespace Adjusting

theorem append {calls' : List AdjustCall} (hst : Adjusting rules d h s calls t)
    (htu : Adjusting rules d h t calls' u) : Adjusting rules d h s (calls ++ calls') u := by
  induction hst with
  | done => exact htu
  | call hc _ ih => exact .call hc (ih htu)

/-- No call changes more than rectangles. -/
theorem alike (hst : Adjusting rules d h s calls t) : Alike unplaced s t := by
  induction hst with
  | done s => exact .refl unplaced s
  | call hc _ ih => exact hc.alike.trans ih

theorem visibleAt (hst : Adjusting rules d h s calls t) (hx : s.VisibleAt x) :
    t.VisibleAt x := by
  induction hst with
  | done => exact hx
  | call hc _ ih => exact ih (hc.visibleAt hx)

/-- At each call, the calls before it have led to what it saw, and those
after it start from what it leaves. -/
theorem split {before later : List AdjustCall}
    (hst : Adjusting rules d h s (before ++ c :: later) t) :
    Adjusting rules d h s before c.view.scene ∧ Calls rules d h c.view.scene c ∧
      Adjusting rules d h (c.after rules) later t := by
  induction before generalizing s with
  | nil =>
    cases hst with
    | call hc hlater =>
      rw [hc.scene_eq]
      exact ⟨.done s, hc, hlater⟩
  | cons c' before ih =>
    cases hst with
    | call hc' hrest =>
      obtain ⟨hbefore, hc, hlater⟩ := ih hrest
      exact ⟨.call hc' hbefore, hc, hlater⟩

/-- What a call sees differs from the start in rectangles only. -/
theorem alike_view (hst : Adjusting rules d h s calls t) (hc : c ∈ calls) :
    Alike unplaced s c.view.scene := by
  obtain ⟨before, later, rfl⟩ := List.append_of_mem hc
  exact hst.split.1.alike

/-- What no call names or arranges stays as it is. -/
theorem get?_eq (hst : Adjusting rules d h s calls t) (hs : s.Forest) (hvisible : s.VisibleAt x)
    (hnamed : ∀ c ∈ calls, x ∉ c.answer.patch.rects.map (·.1))
    (hx : ∀ c ∈ calls, ∀ id ∈ c.answer.patch.relayouts, ¬ s.Above id x) :
    t.get? x = s.get? x := by
  induction hst with
  | done => rfl
  | @call s t c calls hc _ ih =>
    rw [List.forall_mem_cons] at hnamed hx
    have hstill : Alike still s (c.after rules) := hc.alike.reading still
    rw [ih (hstill.core.forest hs) (hc.visibleAt hvisible) hnamed.2 fun c' hc' id hid ha =>
      hx.2 c' hc' id hid (hstill.core.sameShape.above_iff.mp ha)]
    rw [AdjustCall.after, hc.scene_eq]
    exact hs.get?_applyTo_of_not_named hvisible hnamed.1 hx.1 rules

end Adjusting

/-! ## The run -/

/-- Adjusted are the instances whose component has an adjuster. -/
theorem Forest.mem_adjustTargets (hs : s.Forest) {component : String} {a : Adjuster} :
    (id, component, a) ∈ s.adjustTargets h ↔ ∃ e i, s.get? id = some e ∧
      e.instance? = some i ∧ i.component = component ∧ h.adjuster? component = some a := by
  simp only [adjustTargets, List.mem_filterMap, Option.bind_eq_some_iff, Option.map_eq_some_iff,
    Prod.mk.injEq]
  constructor
  · rintro ⟨e, he, i, hi, a', ha, rfl, rfl, rfl⟩
    exact ⟨e, i, hs.mem_elements.mp he, hi, rfl, ha⟩
  · rintro ⟨e, i, he, hi, rfl, ha⟩
    exact ⟨e, mem_elements_of_get? he, i, hi, a, ha, hs.named he, rfl, rfl⟩

/-- They are adjusted by id, none of them twice. -/
theorem Forest.adjustTargets_increasing (hs : s.Forest) (h : Handlers) :
    ((s.adjustTargets h).map (·.1)).Pairwise (·.index < ·.index) := by
  have hincreasing := hs.ids_increasing
  rw [ids, List.pairwise_map] at hincreasing
  rw [List.pairwise_map, adjustTargets, List.pairwise_filterMap]
  refine hincreasing.imp fun {e e'} hlt target htarget target' htarget' => ?_
  obtain ⟨i, -, hi⟩ := Option.bind_eq_some_iff.mp htarget
  obtain ⟨i', -, hi'⟩ := Option.bind_eq_some_iff.mp htarget'
  obtain ⟨a, -, rfl⟩ := Option.map_eq_some_iff.mp hi
  obtain ⟨a', -, rfl⟩ := Option.map_eq_some_iff.mp hi'
  exact hlt

/-- The run is such a chain of calls, one for each instance to adjust.
Which those are was settled in the scene `s`, and the calls before leave the
instances as they were there. -/
theorem Forest.adjusting_foldl (hs : s.Forest) (rules : LayoutRules) (d : Document)
    {targets : List (ElementId × String × Adjuster)}
    (htargets : ∀ target ∈ targets, target ∈ s.adjustTargets h) (run : AdjustRun)
    (hrun : Adjusting rules d h s run.calls run.scene) :
    let done := targets.foldl (adjustOne rules d) run
    Adjusting rules d h s done.calls done.scene ∧
      done.calls.map (·.target) = run.calls.map (·.target) ++ targets.map (·.1) := by
  induction targets generalizing run with
  | nil => exact ⟨hrun, (List.append_nil _).symm⟩
  | cons target targets ih =>
    obtain ⟨id, component, a⟩ := target
    rw [List.forall_mem_cons] at htargets
    obtain ⟨e, i, he, hi, hcomponent, ha⟩ := hs.mem_adjustTargets.mp htargets.1
    obtain ⟨e', he', hplace⟩ := hrun.alike.symm.exists_get? he
    have hi' : e'.instance? = some i := (congrArg Element.instance? hplace :).trans hi
    have hcall : Adjusting rules d h run.scene
        [{ target := id, component, view := ⟨run.scene, d, rules.settings⟩,
           answer := a.adjust id ⟨run.scene, d, rules.settings⟩ }]
        (adjustOne rules d run (id, component, a)).scene :=
      .call ⟨⟨e', i, he', hi', hcomponent⟩, rfl, ⟨a, ha, rfl⟩⟩ (.done _)
    obtain ⟨hdone, hids⟩ := ih htargets.2 (adjustOne rules d run (id, component, a))
      (hrun.append hcall)
    refine ⟨hdone, hids.trans ?_⟩
    show (run.calls ++ [_]).map _ ++ _ = _
    rw [List.map_append, List.append_assoc]
    rfl

theorem Forest.adjusting_adjust (hs : s.Forest) (rules : LayoutRules) (d : Document)
    (h : Handlers) : Adjusting rules d h s (s.adjust rules d h).calls (s.adjust rules d h).scene :=
  (hs.adjusting_foldl rules d (fun _ ht => ht) ⟨s, []⟩ (.done s)).1

theorem Forest.targets_adjust (hs : s.Forest) (rules : LayoutRules) (d : Document)
    (h : Handlers) :
    (s.adjust rules d h).calls.map (·.target) = (s.adjustTargets h).map (·.1) :=
  (hs.adjusting_foldl rules d (fun _ ht => ht) ⟨s, []⟩ (.done s)).2

theorem Forest.targets_increasing (hs : s.Forest) (rules : LayoutRules) (d : Document)
    (h : Handlers) : ((s.adjust rules d h).calls.map (·.target)).Pairwise (·.index < ·.index) := by
  rw [hs.targets_adjust]
  exact hs.adjustTargets_increasing h

theorem failures_eq (run : AdjustRun) :
    run.failures = (run.calls.filter fun c => !c.answer.outcome.isOk).length := by
  rw [AdjustRun.failures, List.countP_eq_length_filter]
  refine congrArg List.length (List.filter_congr fun c _ => ?_)
  rw [AdjustCall.failed]
  cases c.answer.outcome <;> rfl

/-- What the adjusters do to a scene that was laid out, whatever they ask
for and whether or not they fail. Each instance with an adjuster is
adjusted once, by id, on what the calls before have left, and failures are
counted. Only rectangles change. What no patch names, and what lies below
nothing that a patch arranges, keeps its place. And in each patch, whatever
comes of the call, what is named and lies below nothing arranged by it gets
the last rectangle that was set for it, raised to one unit on each side. -/
theorem Forest.adjust_moves_what_it_names (hs : s.Forest) (rules : LayoutRules)
    (viewport : Size) (d : Document) (h : Handlers) :
    let laid := (s.layOut rules viewport).1
    let run := laid.adjust rules d h
    laid.Adjusting rules d h run.calls run.scene ∧
      (run.calls.map (·.target)).Pairwise (·.index < ·.index) ∧
      (∀ id, id ∈ run.calls.map (·.target) ↔ ∃ e i, laid.get? id = some e ∧
        e.instance? = some i ∧ (h.adjuster? i.component).isSome) ∧
      run.failures = (run.calls.filter fun c => !c.answer.outcome.isOk).length ∧
      Alike unplaced laid run.scene ∧
      (∀ x, (∀ c ∈ run.calls, x ∉ c.answer.patch.rects.map (·.1) ∧
          ∀ id ∈ c.answer.patch.relayouts, ¬ laid.Above id x) →
        run.scene.get? x = laid.get? x) ∧
      ∀ c ∈ run.calls, ∀ requests, c.answer.patch = .recorded requests →
        ∀ x e r, c.view.scene.get? x = some e → PatchRequest.lastRect? requests x = some r →
          (∀ id, PatchRequest.relayout id ∈ requests → ¬ laid.Above id x) →
            (c.after rules).get? x =
              some { e with rect := ⟨r.x, r.y, max r.width 1, max r.height 1⟩ } := by
  intro laid run
  have hlaid : laid.Forest := (alike_layOut rules s viewport).core.forest hs
  have hvisible (x : ElementId) : laid.VisibleAt x := hs.visibleAt_layOut rules viewport x
  have hrun : laid.Adjusting rules d h run.calls run.scene := hlaid.adjusting_adjust rules d h
  have htargets : run.calls.map (·.target) = (laid.adjustTargets h).map (·.1) :=
    hlaid.targets_adjust rules d h
  refine ⟨hrun, hlaid.targets_increasing rules d h, fun id => ?_, failures_eq run, hrun.alike,
    fun x hx => ?_, ?_⟩
  · simp only [htargets, List.mem_map, Prod.exists, exists_and_right, exists_eq_right,
      hlaid.mem_adjustTargets, Option.isSome_iff_exists]
    constructor
    · rintro ⟨_, a, e, i, he, hi, rfl, ha⟩
      exact ⟨e, i, he, hi, a, ha⟩
    · rintro ⟨e, i, he, hi, a, ha⟩
      exact ⟨_, a, e, i, he, hi, rfl, ha⟩
  · exact hrun.get?_eq hlaid (hvisible x) (fun c hc => (hx c hc).1) fun c hc => (hx c hc).2
  · intro c hc requests hpatch x e r he hlast hx
    obtain ⟨before, later, hsplit⟩ := List.append_of_mem hc
    obtain ⟨hbefore, -, -⟩ := (hsplit ▸ hrun).split
    have hstill : Alike still laid c.view.scene := hbefore.alike.reading still
    have hnamed := (Patch.mem_rects_recorded requests x r).mpr hlast
    have hbelow : ∀ id ∈ c.answer.patch.relayouts, ¬ c.view.scene.Above id x := by
      intro id hid ha
      rw [hpatch, Patch.mem_relayouts_recorded] at hid
      exact hx id hid (hstill.core.sameShape.above_iff.mp ha)
    rw [← hpatch] at hnamed
    have hnodup := hpatch ▸ Patch.rects_recorded_nodup requests
    have hafter := (hstill.core.forest hlaid).get?_applyTo_of_named
      (hbefore.visibleAt (hvisible x)) hnodup hnamed hbelow rules
    rw [he, Option.map_some] at hafter
    exact hafter

end Scene

/-- A script that moves its instance twice, arranges what lies below an
element, and fails. -/
def Script.restless : Script :=
  ⟨[.setRect .target ⟨1, 2, 0, 3⟩, .relayout (.given ⟨3⟩), .setRect .target ⟨2, 2, 0, 3⟩,
    .fail (.other "")]⟩

namespace Session

/-- The patch of a call that failed is applied as well. -/
theorem nested_moved : ∃ s notices,
    load .nested (Handlers.none.withAdjuster "Outer" Script.restless.adjuster) .standard =
      (.ok s, notices) ∧
    let laid := (s.scene.layOut s.rules s.viewport).1
    let run := laid.adjust s.rules s.document s.handlers
    run.calls.map (·.target) = [⟨1⟩] ∧ run.failures = 1 ∧
      run.scene.get? ⟨0⟩ = laid.get? ⟨0⟩ ∧
      ∃ c ∈ run.calls, ((c.after s.rules).get? ⟨1⟩).map (·.rect) = some ⟨2, 2, 1, 3⟩ := by
  obtain ⟨s, notices, hload, c, hcalls, htarget, hfailed, hpatch, ⟨e, he⟩, hroot, hinstance⟩ :
      ∃ s notices, load .nested (Handlers.none.withAdjuster "Outer" Script.restless.adjuster)
          .standard = (.ok s, notices) ∧
        let laid := (s.scene.layOut s.rules s.viewport).1
        ∃ c, (laid.adjust s.rules s.document s.handlers).calls = [c] ∧ c.target = ⟨1⟩ ∧
          c.answer.outcome.isOk = false ∧
          c.answer.patch = .recorded [.setRect ⟨1⟩ ⟨1, 2, 0, 3⟩, .relayout ⟨3⟩,
            .setRect ⟨1⟩ ⟨2, 2, 0, 3⟩] ∧
          (∃ e, c.view.scene.get? ⟨1⟩ = some e) ∧ laid.isAtOrAbove ⟨3⟩ ⟨0⟩ = false ∧
            laid.isAtOrAbove ⟨3⟩ ⟨1⟩ = false :=
    ⟨_, _, rfl, _, rfl, rfl, rfl, rfl, ⟨_, rfl⟩, rfl, rfl⟩
  have hforest := (Reachable.load hload).forest
  have hlaid := (Scene.alike_layOut s.rules s.scene s.viewport).core.forest hforest
  have hnot {x : ElementId}
      (hx : (s.scene.layOut s.rules s.viewport).1.isAtOrAbove ⟨3⟩ x = false) :
      ¬ (s.scene.layOut s.rules s.viewport).1.Above ⟨3⟩ x := fun ha =>
    Bool.false_ne_true (hx.symm.trans (hlaid.isAtOrAbove_iff.mpr ha.atOrAbove))
  obtain ⟨-, -, -, hfailures, -, hframe, hnamed⟩ :=
    hforest.adjust_moves_what_it_names s.rules s.viewport s.document s.handlers
  refine ⟨s, notices, hload, ?_, ?_, hframe ⟨0⟩ ?_, c, hcalls ▸ List.mem_singleton_self c, ?_⟩
  · rw [hcalls, List.map_singleton, htarget]
  · rw [hfailures, hcalls, List.filter_singleton, hfailed]
    rfl
  · rw [hcalls, List.forall_mem_singleton, hpatch]
    exact ⟨by decide, List.forall_mem_singleton.mpr (hnot hroot)⟩
  · rw [hnamed c (hcalls ▸ List.mem_singleton_self c) _ hpatch ⟨1⟩ e _ he rfl]
    · rfl
    · intro id hid
      obtain rfl : id = ⟨3⟩ := by simpa using hid
      exact hnot hinstance

end Session

end SceneTree
