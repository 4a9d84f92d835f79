import Mathlib.Data.List.Induction
import SceneTree.Handlers
import SceneTree.Pointer
import SceneTree.Proofs.Forest.Runs

/-!
# What a pointer raises over its whole life

A pointer remembers two ids and nothing else. From the first event on,
whatever becomes of the scene between two events, the one is what the
last event hit, and the other what the last press hit if no release came
after it (`Pointer.follow_eq`). So an event is answered by what was hit in
the past: a click is raised where the last press hit the same element
(`Pointer.dispatch_by_history`).

An event raised on an element goes up from it to the first that is bound
to it. In a forest that is the nearest one at or above
(`Forest.boundTo?_eq_some_iff`).
-/

namespace SceneTree

/-! ## The nearest bound element -/

namespace Scene

variable {s : Scene} {event : Event} {id upper x : ElementId} {name : String}

/-- The callback an element has for an event. -/
def bound? (s : Scene) (event : Event) (id : ElementId) : Option String :=
  (s.get? id).bind (·.callback? event)

/-- An event on `id` is for `upper`: it is bound there, and nowhere nearer
to `id`. -/
structure Answers (s : Scene) (event : Event) (id upper : ElementId) (name : String) : Prop where
  above : s.AtOrAbove upper id
  bound : s.bound? event upper = some name
  nearest : ∀ y, s.AtOrAbove y id → s.Above upper y → s.bound? event y = none

namespace Forest

/-- The way up from an element passes what lies between before it comes to
`upper`. -/
theorem lineage_eq_append (h : s.Forest) (ha : s.AtOrAbove upper id) :
    ∃ between, s.lineage id = between ++ s.lineage upper ∧
      ∀ y ∈ between, s.AtOrAbove y id ∧ s.Above upper y := by
  induction ha using Relation.ReflTransGen.head_induction_on with
  | refl => exact ⟨[], rfl, fun y hy => absurd hy List.not_mem_nil⟩
  | @head y p hp hup ih =>
    obtain ⟨between, hlineage, hbetween⟩ := ih
    refine ⟨y :: between, ?_, fun y hy => ?_⟩
    · rw [h.lineage_of_parent? hp, hlineage, List.cons_append]
    · rcases List.mem_cons.mp hy with rfl | hy
      · exact ⟨.refl, (above_iff_of_parent? hp).mpr hup⟩
      · exact ⟨.head hp (hbetween y hy).1, (hbetween y hy).2⟩

theorem exists_lineage_eq_cons (h : s.Forest) (id : ElementId) :
    ∃ rest, s.lineage id = id :: rest := by
  cases hp : s.parent? id with
  | none => exact ⟨[], lineage_of_root hp⟩
  | some p => exact ⟨_, h.lineage_of_parent? hp⟩

/-- What is found on the way up is found before an element, or at it, or
above. -/
theorem boundTo?_eq_or (h : s.Forest) (event : Event) (hx : s.AtOrAbove x id) :
    ∃ between rest : List ElementId, (∀ y ∈ between, s.AtOrAbove y id ∧ s.Above x y) ∧
      s.boundTo? id event = (between.findSome? fun y => (s.bound? event y).map (y, ·)).or
        (((s.bound? event x).map (x, ·)).or
          (rest.findSome? fun y => (s.bound? event y).map (y, ·))) := by
  obtain ⟨between, hlineage, hbetween⟩ := h.lineage_eq_append hx
  obtain ⟨rest, hrest⟩ := h.exists_lineage_eq_cons x
  refine ⟨between, rest, hbetween, ?_⟩
  have hwalk : s.boundTo? id event =
      (s.lineage id).findSome? fun y => (s.bound? event y).map (y, ·) := rfl
  rw [hwalk, hlineage, List.findSome?_append, hrest, List.findSome?_cons]
  cases (s.bound? event x).map (x, ·) <;> rfl

/-- The walk up finds the nearest bound element. -/
theorem boundTo?_eq_some_iff (h : s.Forest) :
    s.boundTo? id event = some (upper, name) ↔ s.Answers event id upper name := by
  have hfound {y : ElementId} (hy : (s.bound? event y).map (y, ·) = some (upper, name)) :
      y = upper ∧ s.bound? event upper = some name := by
    obtain ⟨n, hn, heq⟩ := Option.map_eq_some_iff.mp hy
    obtain ⟨rfl, rfl⟩ := Prod.mk.inj heq
    exact ⟨rfl, hn⟩
  constructor
  · intro hb
    obtain ⟨y, hy, hyb⟩ := List.exists_of_findSome?_eq_some hb
    obtain ⟨rfl, hbound⟩ := hfound hyb
    refine ⟨h.mem_lineage_iff.mp hy, hbound, fun x hx hup => ?_⟩
    -- had `x` a callback, the walk would have stopped there or before
    by_contra hne
    obtain ⟨other, hother⟩ := Option.ne_none_iff_exists'.mp hne
    obtain ⟨between, rest, hbetween, heq⟩ := h.boundTo?_eq_or event hx
    rw [hb, hother, Option.map_some, Option.some_or] at heq
    cases hfirst : between.findSome? fun z => (s.bound? event z).map (z, ·) with
    | none =>
      rw [hfirst, Option.none_or, Option.some.injEq, Prod.mk.injEq] at heq
      exact h.acyclic x (heq.1 ▸ hup)
    | some found =>
      rw [hfirst, Option.some_or, Option.some.injEq] at heq
      subst heq
      obtain ⟨z, hz, hzb⟩ := List.exists_of_findSome?_eq_some hfirst
      obtain ⟨rfl, -⟩ := hfound hzb
      exact h.acyclic z ((hbetween z hz).2.trans hup)
  · rintro ⟨ha, hbound, hnearest⟩
    obtain ⟨between, rest, hbetween, heq⟩ := h.boundTo?_eq_or event ha
    have hnone : (between.findSome? fun y => (s.bound? event y).map (y, ·)) = none := by
      refine List.findSome?_eq_none_iff.mpr fun y hy => ?_
      rw [hnearest y (hbetween y hy).1 (hbetween y hy).2, Option.map_none]
    rw [heq, hnone, hbound, Option.none_or, Option.map_some, Option.some_or]

end Forest

end Scene

/-! ## One event -/

/-- A pointer event at its moment: how the scene and the handlers stand
then, what the pointer does, and where. -/
structure PointerEvent where
  scene : Scene
  handlers : Handlers
  action : PointerAction
  x : Int
  y : Int

namespace PointerEvent

/-- The element it hits. -/
def hit? (ev : PointerEvent) : Option ElementId := ev.scene.elementAt? ev.x ev.y

/-- The callback that runs when `event` is raised on `id`, if one does. -/
def ran? (ev : PointerEvent) (event : Event) (id : ElementId) : Option String :=
  ((ev.scene.boundTo? id event).map (·.2)).filter ev.handlers.hasCallback

theorem ran?_eq_some_iff {ev : PointerEvent} (h : ev.scene.Forest) {event : Event} {id : ElementId}
    {name : String} : ev.ran? event id = some name ↔
      (∃ upper, ev.scene.Answers event id upper name) ∧ ev.handlers.hasCallback name := by
  rw [ran?, Option.filter_eq_some_iff, Option.map_eq_some_iff]
  refine and_congr_left fun _ => ⟨fun ⟨⟨upper, n⟩, hb, hn⟩ => ?_, fun ⟨upper, ha⟩ => ?_⟩
  · obtain rfl : n = name := hn
    exact ⟨upper, h.boundTo?_eq_some_iff.mp hb⟩
  · exact ⟨(upper, name), h.boundTo?_eq_some_iff.mpr ha, rfl⟩

end PointerEvent

/-- An event that was raised on an element, and the callback it ran. -/
structure Raised where
  event : Event
  target : ElementId
  ran : Option String
deriving DecidableEq

/-- What one pointer event leaves behind: the pointer, what was raised, in
order, and whether any callback ran. -/
structure Dispatched where
  pointer : Pointer
  raised : List Raised
  handled : Bool
deriving DecidableEq

/-- Raises an event on an element, if there is one. -/
def Dispatched.fire (r : Dispatched) (ev : PointerEvent) (event : Event) :
    Option ElementId → Dispatched
  | none => r
  | some id =>
    let ran := ev.ran? event id
    { r with
      raised := r.raised ++ [{ event, target := id, ran }]
      handled := r.handled || ran.isSome }

namespace Pointer

/-- One pointer event in the order in which things happen: the element it
is over is noted first, then what the button does. -/
def dispatch (p : Pointer) (ev : PointerEvent) : Dispatched :=
  let target := ev.hit?
  let start : Dispatched := { pointer := p, raised := [], handled := false }
  let entered :=
    if p.hovered = target then start
    else { start with pointer := { p with hovered := target } : Dispatched }.fire ev .hover target
  match ev.action with
  | .down =>
    { entered with
      pointer := { entered.pointer with pressed := target } : Dispatched }.fire ev .press target
  | .up =>
    let released :=
      { entered with
        pointer := { entered.pointer with pressed := none } : Dispatched }.fire ev .release target
    if entered.pointer.pressed = target then released.fire ev .click target else released
  | .move => entered

/-- What is raised is what a step raises, each with the callback it runs,
and the event is handled if one of them ran any. -/
theorem dispatch_eq (p : Pointer) (ev : PointerEvent) :
    let raised := (p.raised ev.action ev.hit?).map fun (event, target) =>
      ({ event, target, ran := ev.ran? event target } : Raised)
    p.dispatch ev =
      { pointer := (p.step ev.scene ev.action ev.x ev.y).1, raised
        handled := raised.any (·.ran.isSome) } := by
  obtain ⟨hovered, pressed⟩ := p
  have hhit : ev.scene.elementAt? ev.x ev.y = ev.hit? := rfl
  simp only [dispatch, Pointer.raised, step, after, hhit]
  cases ev.hit? with
  | none =>
    by_cases hover : hovered = none <;> cases ev.action <;> simp [Dispatched.fire, hover]
  | some id =>
    by_cases hover : hovered = some id <;> by_cases press : pressed = some id <;>
      cases ev.action <;> simp [Dispatched.fire, hover, press, Bool.or_assoc]

/-- The callbacks that ran are those of the step that are registered. -/
theorem ran_dispatch (p : Pointer) (ev : PointerEvent) :
    (p.dispatch ev).raised.filterMap (·.ran) =
      ev.handlers.called (p.step ev.scene ev.action ev.x ev.y).2 := by
  rw [dispatch_eq, List.filterMap_map, Handlers.called, step, List.filter_filterMap]
  rfl

/-! ## A whole life -/

/-- The pointer after a history, from the start. -/
def follow (history : List PointerEvent) : Pointer :=
  history.foldl (fun p ev => (p.dispatch ev).pointer) .idle

end Pointer

namespace PointerEvent

/-- What the last event of a history hit. -/
def lastHit? (history : List PointerEvent) : Option ElementId :=
  history.getLast?.bind (·.hit?)

/-- What a history holds pressed: what its last press hit, unless a release
came after it. -/
def pressedBy? (history : List PointerEvent) : Option ElementId :=
  (history.reverse.find? (·.action ≠ .move)).bind fun ev =>
    if ev.action = .down then ev.hit? else none

theorem lastHit?_snoc (history : List PointerEvent) (ev : PointerEvent) :
    lastHit? (history ++ [ev]) = ev.hit? := by
  simp [lastHit?]

theorem pressedBy?_snoc (history : List PointerEvent) (ev : PointerEvent) :
    pressedBy? (history ++ [ev]) = match ev.action with
      | .down => ev.hit?
      | .up => none
      | .move => pressedBy? history := by
  rw [pressedBy?, List.reverse_append, List.reverse_singleton, List.singleton_append,
    List.find?_cons]
  cases hact : ev.action <;> simp [hact, pressedBy?]

/-- An element is held if a press hit it and the pointer only moved
since. -/
theorem pressedBy?_eq_some_iff {history : List PointerEvent} {id : ElementId} :
    pressedBy? history = some id ↔ ∃ earlier press later, history = earlier ++ press :: later ∧
      press.action = .down ∧ press.hit? = some id ∧ ∀ ev ∈ later, ev.action = .move := by
  rw [pressedBy?, Option.bind_eq_some_iff]
  constructor
  · rintro ⟨press, hfind, hhit⟩
    obtain ⟨-, later, earlier, hsplit, hlater⟩ := List.find?_eq_some_iff_append.mp hfind
    have hdown : press.action = .down := by
      by_contra hne
      rw [if_neg hne] at hhit
      exact absurd hhit (by simp only [reduceCtorEq, not_false_eq_true])
    rw [if_pos hdown] at hhit
    refine ⟨earlier.reverse, press, later.reverse, ?_, hdown, hhit, fun ev hev => ?_⟩
    · rw [← List.reverse_reverse history, hsplit]
      simp
    · simpa using hlater ev (List.mem_reverse.mp hev)
  · rintro ⟨earlier, press, later, rfl, hdown, hhit, hlater⟩
    refine ⟨press, ?_, by rw [if_pos hdown, hhit]⟩
    refine List.find?_eq_some_iff_append.mpr
      ⟨by simp [hdown], later.reverse, earlier.reverse, ?_, ?_⟩
    · simp
    · intro ev hev
      simpa using hlater ev (List.mem_reverse.mp hev)

end PointerEvent

namespace Pointer

open PointerEvent

theorem follow_snoc (before : List PointerEvent) (ev : PointerEvent) :
    follow (before ++ [ev]) = ((follow before).dispatch ev).pointer := by
  rw [follow, List.foldl_append]
  rfl

/-- The two ids of a pointer, whatever happened to the scene. -/
theorem follow_eq (history : List PointerEvent) :
    follow history = { hovered := lastHit? history, pressed := pressedBy? history } := by
  induction history using List.reverseRecOn with
  | nil => rfl
  | append_singleton before ev ih =>
    rw [follow_snoc, ih, dispatch_eq, lastHit?_snoc, pressedBy?_snoc]
    rfl

/-- Every event is answered by its hit and the hits before it, whatever
became of the scene in between. The pointer is over what the event hit and
holds what the last press hit unless a release came after it. It raises,
in this order and nothing else: entering, where the hit is not that of the
event before; pressing and releasing; and a click with a release that hits
what is held. Each of these runs one callback at most: that of the nearest
bound element, if it is registered. The event is handled if one ran. -/
theorem dispatch_by_history (before : List PointerEvent) (ev : PointerEvent)
    (h : ev.scene.Forest) :
    let r := (follow before).dispatch ev
    (r.pointer = follow (before ++ [ev]) ∧ r.pointer.hovered = ev.hit? ∧
      r.pointer.pressed = pressedBy? (before ++ [ev])) ∧
    r.raised.map (fun raised => (raised.event, raised.target)) =
      (match ev.hit? with
        | none => []
        | some id =>
          (if lastHit? before = some id then [] else [(.hover, id)]) ++
            match ev.action with
            | .down => [(.press, id)]
            | .up => (.release, id) :: if pressedBy? before = some id then [(.click, id)] else []
            | .move => []) ∧
    (∀ id, pressedBy? before = some id ↔
      ∃ earlier press later, before = earlier ++ press :: later ∧ press.action = .down ∧
        press.hit? = some id ∧ ∀ ev ∈ later, ev.action = .move) ∧
    (∀ raised ∈ r.raised, ∀ name, raised.ran = some name ↔
      (∃ upper, ev.scene.Answers raised.event raised.target upper name) ∧
        ev.handlers.hasCallback name) ∧
    (r.handled ↔ ∃ raised ∈ r.raised, raised.ran.isSome) ∧
    r.raised.filterMap (·.ran) =
      ev.handlers.called ((follow before).step ev.scene ev.action ev.x ev.y).2 := by
  intro r
  have hpointer : r.pointer = follow (before ++ [ev]) := (follow_snoc before ev).symm
  have hraised : r.raised = ((follow before).raised ev.action ev.hit?).map
      fun (event, target) => ({ event, target, ran := ev.ran? event target } : Raised) := by
    rw [show r = _ from dispatch_eq (follow before) ev]
  refine ⟨⟨hpointer, ?_, ?_⟩, ?_, fun id => pressedBy?_eq_some_iff, fun raised hmem name => ?_, ?_,
    ran_dispatch _ _⟩
  · rw [hpointer, follow_eq, lastHit?_snoc]
  · rw [hpointer, follow_eq]
  · rw [hraised, List.map_map, follow_eq]
    exact List.map_id _
  · rw [hraised] at hmem
    obtain ⟨⟨event, target⟩, -, rfl⟩ := List.mem_map.mp hmem
    exact ran?_eq_some_iff h
  · rw [hraised, show r = _ from dispatch_eq (follow before) ev, List.any_eq_true]

/-- A button under a root, both at one place, with a click bound on the
root. -/
def pressable : Scene :=
  let bare := Scene.empty.after
    [.push (.document 0) (.ofWidget .app), .push (.document 1) (.ofWidget .button),
      .link ⟨0⟩ ⟨1⟩]
  (bare.modify ⟨0⟩ fun e =>
    { e with rect := ⟨0, 0, 9, 9⟩, bindings := [⟨.click, "go"⟩] }).modify ⟨1⟩ fun e =>
      { e with rect := ⟨0, 0, 9, 9⟩ }

theorem forest_pressable : pressable.Forest := by
  refine ((Scene.forest_after _).modify ?_ _).modify ?_ _ <;> constructor <;> intro <;> rfl

/-- The button is pressed in one scene and released in another, in which
it has another size. The click it gets runs what the root is bound to. -/
theorem pressable_clicks :
    let moved := pressable.modify ⟨1⟩ fun e => { e with rect := ⟨2, 2, 5, 5⟩ }
    let handlers := Handlers.none.withCallback "go"
    let press : PointerEvent := ⟨pressable, handlers, .down, 3, 3⟩
    let release : PointerEvent := ⟨moved, handlers, .up, 4, 4⟩
    let r := (follow [press]).dispatch release
    moved.Forest ∧ r.pointer = { hovered := some ⟨1⟩, pressed := none } ∧
      r.raised.map (fun raised => (raised.event, raised.target)) =
        [(.release, ⟨1⟩), (.click, ⟨1⟩)] ∧
      r.raised.filterMap (·.ran) = ["go"] ∧ r.handled := by
  intro moved handlers press release r
  have hmoved : moved.Forest := by
    refine forest_pressable.modify ?_ _
    constructor <;> intro <;> rfl
  obtain ⟨⟨-, hhovered, hpressed⟩, hraised, -, -, hhandled, hran⟩ :=
    dispatch_by_history [press] release hmoved
  have hgo := hran.trans (show _ = ["go"] by decide +kernel)
  refine ⟨hmoved, ?_, hraised.trans (by decide +kernel), hgo, hhandled.mpr ?_⟩
  · calc r.pointer = ⟨r.pointer.hovered, r.pointer.pressed⟩ := rfl
      _ = ⟨release.hit?, pressedBy? [press, release]⟩ := by rw [hhovered, hpressed]; rfl
      _ = _ := by decide +kernel
  · obtain ⟨raised, hmem, hname⟩ := List.mem_filterMap.mp (hgo ▸ List.mem_singleton_self "go")
    exact ⟨raised, hmem, Option.isSome_of_mem hname⟩

end Pointer

end SceneTree
