import SceneTree.Proofs.Adjust.Effects

/-!
# Docked bars

A bar names itself and at most one more child of its parent, and arranges
what lies below these two (`Dock.of_patch`). So its own call leaves it along
its edge of the parent's content box (`Forest.docked_applyTo`).

It need not stay there. Bars are adjusted by id, and one that comes later
may have an earlier one below it: in its own copy, or in the child that it
takes for its content. What a bar arranges goes where the flow puts it,
docked or not. A call that names nothing at or above a bar leaves the bar
and its parent alone, so the last call that does is the one to look at
(`Reachable.docked_iff`).
-/

namespace SceneTree

/-! ## Along an edge -/

namespace DockEdge

/-- A rectangle that touches the edge of a box and has its full length. -/
def Along (edge : DockEdge) (box r : Rect) : Prop :=
  match edge with
  | .top => r.x = box.x ∧ r.y = box.y ∧ r.width = box.width
  | .bottom => r.x = box.x ∧ r.width = box.width ∧ r.bottom = box.bottom
  | .left => r.x = box.x ∧ r.y = box.y ∧ r.height = box.height
  | .right => r.y = box.y ∧ r.height = box.height ∧ r.right = box.right

/-- How thick a bar is that docks to the edge. -/
def thickness (edge : DockEdge) (r : Rect) : Int :=
  if edge.isHorizontal then r.height else r.width

/-- What is divided off a box for a bar lies along the edge, if both can be
seen. -/
theorem along_split (edge : DockEdge) {box r : Rect} (hbox : box.Visible) (hr : r.Visible) :
    edge.Along box (edge.split box (edge.thickness r)).1.visible := by
  obtain ⟨hwidth, hheight⟩ := hbox
  obtain ⟨hw, hh⟩ := hr
  cases edge <;> refine ⟨?_, ?_, ?_⟩ <;>
    simp only [split, thickness, room, isHorizontal, Rect.visible, Rect.bottom, Rect.right,
      Word.wrap, if_true, Bool.false_eq_true, if_false] <;> omega

end DockEdge

namespace Scene

/-- The bar lies along the edge of what its parent has room for. -/
def Docked (s : Scene) (edge : DockEdge) (bar parent : ElementId) : Prop :=
  ∃ b p, s.get? bar = some b ∧ s.get? parent = some p ∧ edge.Along p.contentRect b.rect

theorem Docked.congr {s t : Scene} {edge : DockEdge} {bar parent : ElementId}
    (hbar : t.get? bar = s.get? bar) (hparent : t.get? parent = s.get? parent) :
    t.Docked edge bar parent ↔ s.Docked edge bar parent := by
  rw [Docked, Docked, hbar, hparent]

end Scene

/-! ## What a bar asks for -/

namespace Dock

open Scene (Forest Alike)

variable {bar : ElementId} {v w : AdjustView} {q : Patch} {e : Element}

/-- The edge is told by the arguments of the instance. -/
theorem edge_congr (h : Alike Element.still v.scene w.scene) (hdocument : w.document = v.document)
    (bar : ElementId) : edge bar w = edge bar v := by
  have hinstance : (w.scene.get? bar).bind (·.instance?) = (v.scene.get? bar).bind (·.instance?) := by
    rcases h.cases bar with ⟨hv, hw⟩ | ⟨e, e', hv, hw, hstill⟩
    · rw [hv, hw]
    · rw [hv, hw]
      exact (congrArg Element.instance? hstill :)
  have htext : w.argumentText? bar positionKey = v.argumentText? bar positionKey := by
    rw [AdjustView.argumentText?, AdjustView.argumentText?, AdjustView.argument?,
      AdjustView.argument?, hinstance, hdocument]
  rw [edge, edge, htext]

/-- The content is another child of the bar's parent. -/
theorem of_content? (hs : v.scene.Forest) {parent : ElementId}
    (hp : v.scene.parent? bar = some parent) (he : content? bar v = some e) :
    v.scene.parent? e.id = some parent ∧ e.id ≠ bar := by
  have hchild {c : ElementId} (hc : c ∈ v.scene.children parent) (hne : c ≠ bar)
      (hget : v.scene.get? c = some e) : v.scene.parent? e.id = some parent ∧ e.id ≠ bar := by
    rw [hs.named hget]
    exact ⟨hs.mirror.mp hc, hne⟩
  rw [content?, Option.orElse_eq_orElse, Option.orElse_eq_or, Option.or_eq_some_iff] at he
  rcases he with he | ⟨-, he⟩
  · have hmem := List.mem_of_find?_eq_some he
    simp only [AdjustView.siblings, hp, List.mem_filterMap, List.mem_filter, decide_eq_true_eq]
      at hmem
    obtain ⟨c, ⟨hc, hne⟩, hget⟩ := hmem
    exact hchild hc hne hget
  · have hmem := List.mem_of_find?_eq_some he
    simp only [after, hp, List.mem_filterMap] at hmem
    obtain ⟨c, hc, hget⟩ := hmem
    have hsub := List.dropWhile_sublist (l := v.scene.children parent) fun c => decide (c ≠ bar)
    have hhead := List.head?_dropWhile_not (fun c => decide (c ≠ bar)) (v.scene.children parent)
    cases hrest : (v.scene.children parent).dropWhile fun c => decide (c ≠ bar) with
    | nil =>
      rw [hrest] at hc
      exact absurd hc List.not_mem_nil
    | cons first rest =>
      -- what is left begins with the bar, which is no child twice
      rw [hrest] at hc hsub hhead
      obtain rfl : first = bar := by simpa using hhead
      refine hchild (hsub.subset (List.mem_cons_of_mem first hc)) ?_ hget
      rintro rfl
      exact (List.nodup_cons.mp (hsub.nodup (hs.children_nodup parent))).1 hc

/-- What a bar that does not fail goes by, and what it asks for. All that it
names are children of its parent, and it arranges below each of them. -/
structure Asks (v : AdjustView) (bar parent : ElementId) (edge : DockEdge) (b p : Element)
    (q : Patch) : Prop where
  get?_bar : v.scene.get? bar = some b
  get?_parent : v.scene.get? parent = some p
  parent? : v.scene.parent? bar = some parent
  edge_eq : Dock.edge bar v = .ok edge
  rect : (bar, (edge.split p.contentRect (edge.thickness b.rect)).1) ∈ q.rects
  nodup : (q.rects.map (·.1)).Nodup
  children : ∀ id ∈ q.rects.map (·.1), v.scene.parent? id = some parent
  relayouts : q.relayouts = q.rects.map (·.1)

/-- The patch of a bar with a content. -/
theorem patch_of_two {id : ElementId} (hne : id ≠ bar) (r r' : Rect) :
    (((Patch.empty.setRect bar r).relayout bar).setRect id r').relayout id =
      { rects := [(bar, r), (id, r')], relayouts := [bar, id] } := by
  simp [Patch.empty, Patch.setRect, Patch.relayout, hne, Ne.symm hne]

theorem element_eq_ok (h : v.element bar = .ok e) : v.scene.get? bar = some e := by
  rw [AdjustView.element] at h
  split at h
  next he => rw [he, Except.ok.inj h]
  next => cases h

theorem parent_eq_ok (h : v.parent bar = .ok e) :
    ∃ parent, v.scene.parent? bar = some parent ∧ v.scene.get? parent = some e := by
  rw [AdjustView.parent] at h
  split at h
  next parent hp => exact ⟨parent, hp, element_eq_ok h⟩
  next => cases h

theorem exists_asks (hs : v.scene.Forest) (h : patch bar v = .ok q) :
    ∃ parent edge b p, Asks v bar parent edge b p q := by
  cases hb : v.element bar with
  | error cause => simp only [patch, hb, bind, Except.bind, reduceCtorEq] at h
  | ok b =>
    cases hp : v.parent bar with
    | error cause => simp only [patch, hb, hp, bind, Except.bind, reduceCtorEq] at h
    | ok p =>
      cases hedge : Dock.edge bar v with
      | error cause => simp only [patch, hb, hp, hedge, bind, Except.bind, reduceCtorEq] at h
      | ok edge =>
        simp only [patch, hb, hp, hedge, bind, Except.bind, pure, Except.pure] at h
        obtain ⟨parent, hparent, hget⟩ := parent_eq_ok hp
        refine ⟨parent, edge, b, p, ?_⟩
        cases hc : content? bar v with
        | none =>
          rw [hc] at h
          cases h
          exact {
            get?_bar := element_eq_ok hb, get?_parent := hget, parent? := hparent
            edge_eq := hedge, rect := List.mem_singleton_self _
            nodup := List.nodup_singleton bar
            children := List.forall_mem_singleton.mpr hparent
            relayouts := rfl }
        | some c =>
          rw [hc] at h
          cases h
          obtain ⟨hchild, hne⟩ := of_content? hs hparent hc
          dsimp only
          rw [patch_of_two hne]
          exact {
            get?_bar := element_eq_ok hb, get?_parent := hget, parent? := hparent
            edge_eq := hedge, rect := List.mem_cons_self
            nodup := List.nodup_cons.mpr
              ⟨fun hm => hne (List.mem_singleton.mp hm).symm, List.nodup_singleton c.id⟩
            children := List.forall_mem_cons.mpr ⟨hparent, List.forall_mem_singleton.mpr hchild⟩
            relayouts := rfl }

end Dock

/-- The call names the element, or something above it. -/
def AdjustCall.Moves (c : AdjustCall) (x : ElementId) : Prop :=
  ∃ id ∈ c.answer.patch.rects.map (·.1), c.view.scene.AtOrAbove id x

namespace Scene

open Element (still unplaced)

variable {s t : Scene} {x y : ElementId} {rules : LayoutRules} {d : Document} {h : Handlers}
  {c : AdjustCall} {calls : List AdjustCall}

/-! ## A bar's own call -/

/-- Its own call docks a bar, if its parent has room for it, and leaves the
parent as it is. -/
theorem Forest.docked_applyTo {v : AdjustView} {bar parent : ElementId} {edge : DockEdge}
    {b p : Element} {q : Patch} (hs : v.scene.Forest) (hvisible : ∀ x, v.scene.VisibleAt x)
    (hq : Dock.Asks v bar parent edge b p q) (rules : LayoutRules) :
    (q.applyTo rules v.scene).get? parent = some p ∧
      (p.contentRect.Visible → (q.applyTo rules v.scene).Docked edge bar parent) := by
  have hbelow {id : ElementId} (hid : id ∈ q.rects.map (·.1)) : ¬ v.scene.AtOrAbove id parent :=
    hs.not_atOrAbove_parent (hq.children id hid)
  have hparent : (q.applyTo rules v.scene).get? parent = some p := by
    rw [hs.get?_applyTo_of_not_named (hvisible parent) (fun hid => hbelow hid .refl) fun id hid ha =>
      hbelow (hq.relayouts ▸ hid) ha.atOrAbove]
    exact hq.get?_parent
  refine ⟨hparent, fun hroom => ?_⟩
  have hbar := hs.get?_applyTo_of_named (hvisible bar) hq.nodup hq.rect (fun id hid ha =>
    hbelow (hq.relayouts ▸ hid) ((above_iff_of_parent? hq.parent?).mp ha)) rules
  rw [hq.get?_bar, Option.map_some] at hbar
  exact ⟨_, p, hbar, hparent, edge.along_split hroom (hvisible bar b hq.get?_bar)⟩

/-! ## The calls of bars only -/

theorem adjuster?_standard (hbars : h.adjusters = Handlers.standard.adjusters)
    {component : String} {a : Adjuster} (ha : h.adjuster? component = some a) :
    a = Dock.adjuster := by
  have hstandard : Handlers.standard.adjusters = [(Dock.component, Dock.adjuster)] := rfl
  rw [Handlers.adjuster?, hbars, hstandard, List.lookup_cons] at ha
  split at ha
  next => exact (Option.some.inj ha).symm
  next => cases ha

theorem Calls.answer_eq (hc : Calls rules d h s c)
    (hbars : h.adjusters = Handlers.standard.adjusters) :
    c.answer = Dock.adjuster.adjust c.target c.view := by
  obtain ⟨a, ha, hanswer⟩ := hc.answer
  rw [hanswer, adjuster?_standard hbars ha]

/-- A bar has asked for something or has failed. -/
theorem Calls.asks_or_failed (hc : Calls rules d h s c) (hs : s.Forest)
    (hbars : h.adjusters = Handlers.standard.adjusters) :
    (∃ parent edge b p, Dock.Asks c.view c.target parent edge b p c.answer.patch) ∨
      (c.answer.patch = .empty ∧ c.answer.outcome.isOk = false) := by
  have hanswer := hc.answer_eq hbars
  cases hpatch : Dock.patch c.target c.view with
  | ok q =>
    simp only [Dock.adjuster, hpatch] at hanswer
    rw [hanswer]
    exact .inl (Dock.exists_asks (hc.scene_eq ▸ hs) hpatch)
  | error cause =>
    simp only [Dock.adjuster, hpatch] at hanswer
    rw [hanswer]
    exact .inr ⟨rfl, rfl⟩

/-- A bar arranges below what it names, if it names anything. -/
theorem Calls.relayouts_eq (hc : Calls rules d h s c) (hs : s.Forest)
    (hbars : h.adjusters = Handlers.standard.adjusters) :
    c.answer.patch.relayouts = c.answer.patch.rects.map (·.1) := by
  rcases hc.asks_or_failed hs hbars with ⟨_, _, _, _, hasks⟩ | ⟨hempty, -⟩
  · exact hasks.relayouts
  · rw [hempty]
    rfl

/-- Calls that do not move an element leave alone all that is at or above
it. -/
theorem Adjusting.get?_of_not_moves (hst : Adjusting rules d h s calls t) (hs : s.Forest)
    (hbars : h.adjusters = Handlers.standard.adjusters) (hvisible : s.VisibleAt y)
    (hup : s.AtOrAbove y x) (hmoves : ∀ c ∈ calls, ¬ c.Moves x) : t.get? y = s.get? y := by
  induction hst with
  | done => rfl
  | @call s t c calls hc _ ih =>
    rw [List.forall_mem_cons] at hmoves
    have hstill : Alike still s (c.after rules) := hc.alike.reading still
    rw [ih (hstill.core.forest hs) (hc.visibleAt hvisible)
      (hstill.core.sameShape.atOrAbove_iff.mpr hup) hmoves.2]
    have hnot {id : ElementId} (hid : id ∈ c.answer.patch.rects.map (·.1)) :
        ¬ s.AtOrAbove id y := fun ha =>
      hmoves.1 ⟨id, hid, hc.scene_eq.symm ▸ hup.trans ha⟩
    rw [AdjustCall.after, hc.scene_eq]
    exact hs.get?_applyTo_of_not_named hvisible (fun hid => hnot hid .refl)
      (fun id hid ha => hnot (hc.relayouts_eq hs hbars ▸ hid) ha.atOrAbove) rules

/-- If some call of a list is of a kind, one is the last of it. -/
theorem exists_last {P : AdjustCall → Prop} (hP : ∃ c ∈ calls, P c) :
    ∃ before last later, calls = before ++ last :: later ∧ P last ∧ ∀ c ∈ later, ¬ P c := by
  induction calls with
  | nil =>
    obtain ⟨c, hc, -⟩ := hP
    exact absurd hc List.not_mem_nil
  | cons c calls ih =>
    by_cases hlater : ∃ c ∈ calls, P c
    · obtain ⟨before, last, later, rfl, hlast, hnone⟩ := ih hlater
      exact ⟨c :: before, last, later, rfl, hlast, hnone⟩
    · obtain ⟨last, hlast, hPlast⟩ := hP
      obtain rfl : last = c :=
        (List.mem_cons.mp hlast).resolve_right fun hm => hlater ⟨last, hm, hPlast⟩
      exact ⟨[], last, calls, rfl, hPlast, fun c hc hPc => hlater ⟨c, hc, hPc⟩⟩

end Scene

/-- A root with a bar and nothing else. -/
def Document.barred : Document :=
  { Document.blank with
    strings := ["", componentKey, Dock.component]
    records := [{ Record.ofHeader (.ofWidget .app) with childRefs := [18] }, .standIn 2 []]
    offsets := [0, 18]
    components := [{ name := Dock.component, parameters := [], template := Record.blank.toBytes }] }

/-- The record of a container with a layout byte. -/
def Record.laid (layout : LayoutFlags) : Record :=
  .ofHeader { Header.ofWidget .container with layout }

/-- A page with a bar above a slot, used with a bar that docks to the bottom
of what the slot leaves room for. The bar of the page has the later id, and
takes the slot for its content. -/
def Document.paged : Document :=
  let column := LayoutFlags.empty.withDirection .column
  let roomy := LayoutFlags.empty.withGrow
  { Document.blank with
    strings := ["", componentKey, Dock.component, slotKey, "Page", Dock.positionKey, "bottom"]
    records :=
      [{ Record.ofHeader { Header.ofWidget .app with layout := column } with childRefs := [18] },
        { Record.standIn 4 [22] with header := (Record.laid roomy).header },
        { Record.standIn 2 [] with
          customs := [{ key := 1, value := .string 2 }, { key := 5, value := .string 6 }] }]
    offsets := [0, 18, 40]
    components :=
      [{ name := Dock.component, parameters := []
         template :=
          (Record.ofHeader { Header.ofWidget .container with width := 6, height := 2 }).toBytes },
        { name := "Page", parameters := []
          template :=
            ({ Record.laid column.withGrow with childRefs := [20, 40] } : Record).toBytes ++
              (Record.standIn 2 []).toBytes ++
              ({ Record.laid roomy with customs := [{ key := 3, value := .byte 1 }] } :
                Record).toBytes }] }

namespace Session

open Element (still unplaced)
open Scene (Alike)

variable {d : Document} {s : Session}

/-- With no adjusters but that of the bars, a bar whose call succeeded is
docked at the end of a frame exactly if it is docked after the last call
that moved it, the last to name the bar or something above it. If that is
the bar's own call, and the parent has room for it, then it is docked. -/
theorem Reachable.docked_iff (h : Reachable d s)
    (hbars : s.handlers.adjusters = Handlers.standard.adjusters) :
    let shown := s.frame.1.scene
    let run := s.frame.2.adjusting
    ∀ c ∈ run.calls, c.answer.outcome.isOk → ∃ edge parent before last later,
      Dock.edge c.target { scene := shown, document := d, settings := s.settings } = .ok edge ∧
        shown.parent? c.target = some parent ∧ run.calls = before ++ last :: later ∧
        last.Moves c.target ∧ (∀ c' ∈ later, ¬ c'.Moves c.target) ∧
        (shown.Docked edge c.target parent ↔
          (last.after s.rules).Docked edge c.target parent) ∧
        (last.target = c.target → ∀ p, shown.get? parent = some p →
          1 ≤ p.contentRect.width ∧ 1 ≤ p.contentRect.height →
            shown.Docked edge c.target parent) := by
  intro shown run c hc hok
  have hs := h.forest
  have hlaid : (s.scene.layOut s.rules s.viewport).1.Forest :=
    (Scene.alike_layOut s.rules s.scene s.viewport).core.forest hs
  have hvisible := hs.visibleAt_layOut s.rules s.viewport
  have hrun := hlaid.adjusting_adjust s.rules s.document s.handlers
  have hforest {c' : AdjustCall} (hc' : c' ∈ run.calls) : c'.view.scene.Forest :=
    ((hrun.alike_view hc').reading still).core.forest hlaid
  -- what the bar's own call goes by
  obtain ⟨before₀, later₀, hsplit₀⟩ := List.append_of_mem hc
  obtain ⟨hbefore₀, hcall₀, hlater₀⟩ := (hsplit₀ ▸ hrun).split
  obtain ⟨parent, edge, b, p, hasks⟩ := (hcall₀.asks_or_failed (hforest hc) hbars).resolve_right
    fun hfailed => Bool.false_ne_true (hfailed.2.symm.trans hok)
  have hshown : Alike still c.view.scene shown :=
    ((hcall₀.alike.trans hlater₀.alike).reading still)
  have hparent : shown.parent? c.target = some parent :=
    (hshown.core.sameShape.parent? c.target).trans hasks.parent?
  -- the last call that moves it
  have hmoves : c.Moves c.target := ⟨c.target, List.mem_map.mpr ⟨_, hasks.rect, rfl⟩, .refl⟩
  obtain ⟨before, last, later, hsplit, hlast, hnone⟩ :=
    Scene.exists_last (P := (·.Moves c.target)) ⟨c, hc, hmoves⟩
  obtain ⟨hbefore, hcall, hlater⟩ := (hsplit ▸ hrun).split
  have hlastIn : last ∈ run.calls := hsplit ▸ List.mem_append_right before List.mem_cons_self
  have hafter : (last.after s.rules).Forest :=
    (hcall.alike.reading still).core.forest (hforest hlastIn)
  have hrest : Alike still (last.after s.rules) shown := hlater.alike.reading still
  have hkept {y : ElementId} (hy : (last.after s.rules).AtOrAbove y c.target) :
      shown.get? y = (last.after s.rules).get? y :=
    hlater.get?_of_not_moves hafter hbars (hcall.visibleAt (hbefore.visibleAt (hvisible y))) hy hnone
  have hup : (last.after s.rules).AtOrAbove parent c.target :=
    .single ((hrest.core.sameShape.parent? c.target).symm.trans hparent)
  have hsame : shown.Docked edge c.target parent ↔
      (last.after s.rules).Docked edge c.target parent :=
    Scene.Docked.congr (hkept .refl) (hkept hup)
  refine ⟨edge, parent, before, last, later, ?_, hparent, hsplit, hlast, hnone, hsame, ?_⟩
  · rw [Dock.edge_congr hshown (hcall₀.view ▸ h.document_eq.symm)]
    exact hasks.edge_eq
  · intro htarget p' hp' hroom
    have hnodup : (run.calls.map (·.target)).Nodup :=
      Scene.Forest.nodup_of_increasing (hlaid.targets_increasing s.rules s.document s.handlers)
    obtain rfl : last = c := List.inj_on_of_nodup_map hnodup hlastIn hc htarget
    obtain ⟨hget, hdocked⟩ :=
      (hforest hc).docked_applyTo (fun x => hbefore.visibleAt (hvisible x)) hasks s.rules
    rw [hkept hup] at hp'
    obtain rfl : p' = p := Option.some.inj (hp'.symm.trans hget)
    exact hsame.mpr (hdocked hroom)

/-- A bar that no other call moves. -/
theorem barred_docked : ∃ s notices, load .barred .standard .standard = (.ok s, notices) ∧
    s.frame.1.scene.Docked .top ⟨1⟩ ⟨0⟩ := by
  obtain ⟨s, notices, hload, hbars, c, hcalls, htarget, hok, hedge, hparent, hroom⟩ :
      ∃ s notices, load .barred .standard .standard = (.ok s, notices) ∧
        s.handlers.adjusters = Handlers.standard.adjusters ∧
        ∃ c, s.frame.2.adjusting.calls = [c] ∧ c.target = ⟨1⟩ ∧ c.answer.outcome.isOk ∧
          Dock.edge ⟨1⟩ { scene := s.frame.1.scene, document := .barred, settings := s.settings } =
            .ok .top ∧
          s.frame.1.scene.parent? ⟨1⟩ = some ⟨0⟩ ∧
          (s.frame.1.scene.get? ⟨0⟩).map (·.contentRect) = some ⟨0, 0, 800, 600⟩ :=
    ⟨_, _, rfl, rfl, _, rfl, rfl, rfl, by decide +kernel, by decide +kernel, by decide +kernel⟩
  obtain ⟨edge, parent, before, last, later, hedge', hparent', hsplit, -, -, -, hown⟩ :=
    (Reachable.load hload).docked_iff hbars c (hcalls ▸ List.mem_singleton_self c) hok
  rw [htarget] at hedge' hparent' hown
  obtain rfl := Except.ok.inj (hedge.symm.trans hedge')
  obtain rfl := Option.some.inj (hparent.symm.trans hparent')
  obtain ⟨p, hp, hbox⟩ := Option.map_eq_some_iff.mp hroom
  have hlast : last ∈ [c] := hcalls ▸ hsplit ▸ List.mem_append_right before List.mem_cons_self
  refine ⟨s, notices, hload, hown ?_ p hp ?_⟩
  · rw [List.mem_singleton.mp hlast, htarget]
  · rw [hbox]
    decide

/-- The bar that the page moves with its slot is not docked, although its
own call succeeded and the slot has room for it. -/
theorem paged_not_docked : ∃ s notices,
    load .paged .standard { SessionOptions.standard with viewport := some ⟨20, 10⟩ } =
      (.ok s, notices) ∧
    let shown := s.frame.1.scene
    (∃ c ∈ s.frame.2.adjusting.calls, c.target = ⟨2⟩ ∧ c.answer.outcome.isOk) ∧
      Dock.edge ⟨2⟩ { scene := shown, document := .paged, settings := s.settings } =
        .ok .bottom ∧
      shown.parent? ⟨2⟩ = some ⟨5⟩ ∧
      (∃ p, shown.get? ⟨5⟩ = some p ∧ 1 ≤ p.contentRect.width ∧ 1 ≤ p.contentRect.height) ∧
      ¬ shown.Docked .bottom ⟨2⟩ ⟨5⟩ := by
  obtain ⟨s, notices, hload, hcalls, hedge, hparent, hbar, hbox⟩ : ∃ s notices,
      load .paged .standard { SessionOptions.standard with viewport := some ⟨20, 10⟩ } =
        (.ok s, notices) ∧
      (s.frame.2.adjusting.calls.map fun c => (c.target, c.answer.outcome.isOk)) =
        [(⟨2⟩, true), (⟨4⟩, true)] ∧
      Dock.edge ⟨2⟩ { scene := s.frame.1.scene, document := .paged, settings := s.settings } =
        .ok .bottom ∧
      s.frame.1.scene.parent? ⟨2⟩ = some ⟨5⟩ ∧
      (s.frame.1.scene.get? ⟨2⟩).map (·.rect) = some ⟨0, 2, 6, 2⟩ ∧
      (s.frame.1.scene.get? ⟨5⟩).map (·.contentRect) = some ⟨0, 2, 20, 8⟩ :=
    ⟨_, _, rfl, by decide +kernel, by decide +kernel, by decide +kernel, by decide +kernel,
      by decide +kernel⟩
  obtain ⟨b, hb, hrect⟩ := Option.map_eq_some_iff.mp hbar
  obtain ⟨p, hp, hroom⟩ := Option.map_eq_some_iff.mp hbox
  obtain ⟨c, hc, hfirst⟩ : ∃ c ∈ s.frame.2.adjusting.calls,
      (c.target, c.answer.outcome.isOk) = ((⟨2⟩ : ElementId), true) :=
    List.mem_map.mp (hcalls ▸ List.mem_cons_self)
  refine ⟨s, notices, hload, ⟨c, hc, Prod.mk.inj hfirst⟩, hedge, hparent, ⟨p, hp, ?_⟩, ?_⟩
  · rw [hroom]
    decide
  · rintro ⟨b', p', hb', hp', -, hwidth, -⟩
    obtain rfl := Option.some.inj (hb.symm.trans hb')
    obtain rfl := Option.some.inj (hp.symm.trans hp')
    rw [hrect, hroom] at hwidth
    exact absurd hwidth (by decide)

end Session

end SceneTree
