import SceneTree.Proofs.Expand.Elsewhere
import SceneTree.Proofs.Expand.Stack

/-!
# Two expansions

An expansion is decided by what the instance hands down: its component,
arguments and attributes (`Element.pattern`) and its decoration. Two
instances that hand down the same get the same copy, wherever they are
and whatever was expanded before (`twins_expand_apart`). So does one
instance each time it is expanded (`twins_expand`). With the same usage
under them, every element of the one copy is that of the other but for
the names.

What an instance hands down survives its expansion. The decoration moves
from its look to what it keeps, and is taken from there the next time
(`Begun.self_of_ok`). After a failure it is put back on, less what does
not show (`Begun.self_of_error`).
-/

namespace SceneTree

/-- How an instance looks after an expansion. -/
def Element.lookAfter {ε α : Type} (e : Element) : Except ε α → Look
  | .ok _ => e.look.undecorated
  | .error _ => e.ownDecoration.applyTo e.look.undecorated

/-- The decoration an instance keeps after an expansion. -/
def Element.decorationAfter {ε α : Type} (e : Element) : Except ε α → Decoration
  | .ok _ => e.ownDecoration
  | .error _ => .none

/-- The component an instance asks for and its template, or why there is
none to be had. -/
def Instance.called (d : Document) (i : Instance) :
    Except ExpandFault (ComponentId × Template) :=
  match i.definition.bind fun id => (d.component? id).map (id, ·) with
  | none => .error (.unknownComponent i.component)
  | some (id, c) =>
    match Template.read c.template with
    | .error cause => .error (.badTemplate i.component cause)
    | .ok tmpl => .ok (id, tmpl)

theorem Look.undecorated_undecorated (l : Look) : l.undecorated.undecorated = l.undecorated := rfl

theorem Look.decoration_undecorated (l : Look) : l.undecorated.decoration = .none := rfl

/-- Dressing a bare look, taking the decoration off and putting it on again
changes nothing. -/
theorem Look.dress_again (d : Decoration) (l : Look) :
    let dressed := d.applyTo l.undecorated
    dressed.decoration.applyTo dressed.undecorated = dressed := by
  cases hb : d.background.isClear <;> cases hz : d.border.isZero <;> cases hp : d.padding.isZero <;>
    cases hc : d.borderColor <;>
    simp [Decoration.applyTo, Look.decoration, Look.undecorated, hb, hz, hp, hc]

/-- An instance with a copy keeps the decoration it had. -/
theorem Element.decorationAfter_eq (e : Element) {x : Expansion} (h : x.roots ≠ []) :
    e.decorationAfter x.outcome = e.ownDecoration := by
  cases hout : x.outcome with
  | ok roots => rfl
  | error cause =>
    rw [Expansion.roots, hout] at h
    exact absurd rfl h

/-- An instance that was expanded and is expanded again, with the same
success, looks as it did and keeps what it kept. -/
theorem Element.after_again {ε ε' α α' : Type} {e e' : Element} {i' : Instance}
    {outcome : Except ε α} {outcome' : Except ε' α'} (hlook : e'.look = e.lookAfter outcome)
    (hi' : e'.instance? = some i') (hdecoration : i'.decoration = e.decorationAfter outcome)
    (hsame : outcome'.toOption.isSome = outcome.toOption.isSome) :
    e'.lookAfter outcome' = e'.look ∧ e'.decorationAfter outcome' = i'.decoration := by
  have hown : e'.ownDecoration =
      if i'.decoration = .none then e'.look.decoration else i'.decoration := by
    rw [ownDecoration, hi']
  cases outcome with
  | ok a =>
    cases outcome' with
    | error cause => cases hsame
    | ok a' =>
      rw [lookAfter] at hlook
      rw [lookAfter, decorationAfter, hown, hlook, Look.undecorated_undecorated,
        Look.decoration_undecorated]
      refine ⟨rfl, ?_⟩
      split
      next hnone => exact hnone.symm
      next => rfl
  | error cause =>
    cases outcome' with
    | ok a' => cases hsame
    | error cause' =>
      rw [decorationAfter] at hdecoration
      rw [lookAfter, decorationAfter, hown, if_pos hdecoration, hlook, lookAfter, hdecoration]
      exact ⟨Look.dress_again _ _, rfl⟩

namespace Scene

open Relocation

variable {d : Document} {st : Settings} {s t bare bare' : Scene} {p q id y u : ElementId}
  {e e' inst inst' : Element} {i i' : Instance} {x x' : Expansion} {det : Detached}
  {component : ComponentId} {tmpl : Template} {cause : ExpandFault}

/-! ## An expansion that was begun -/

/-- An instance was taken apart to be expanded: it is `inst` now, without
its decoration, its copy and its usage. -/
structure Begun (s : Scene) (id : ElementId) (e : Element) (i : Instance) (bare : Scene)
    (inst : Element) : Prop where
  before : s.Forest
  there : s.get? id = some e
  instance? : e.instance? = some i
  ready : Ready s id e i
  detach? : s.detach? id = some (bare, taken id e i)
  parted : Parted s id e bare
  self : bare.get? id = some inst
  look : inst.look = e.look.undecorated
  pattern : inst.pattern = e.pattern

theorem look_of_alone? (h : t.alone? y = s.alone? y) (he' : t.get? y = some e')
    (he : s.get? y = some e) : e'.look = e.look := by
  rw [alone?, he', alone?, he, Option.map_some, Option.map_some] at h
  have hlook := congrArg Element.look (Option.some.inj h)
  exact hlook

/-- Taking an instance apart changes no look once the decoration is off. -/
theorem look_strip {usage roots : List ElementId}
    (hinst : (s.strip id usage roots).get? id = some inst) (he : s.get? id = some e) :
    inst.look = e.look := by
  have halone := alone?_foldl_remove (contains_of_get? hinst)
  rw [alone?_foldl_remove ((contains_of_alone? halone).symm.trans (contains_of_get? hinst)),
    alone?_foldl_unlink] at halone
  exact look_of_alone? halone hinst he

theorem exists_begun (hs : s.Forest) (he : s.get? id = some e) (hi : e.instance? = some i)
    (hr : Ready s id e i) : ∃ bare inst, Begun s id e i bare inst := by
  have hparted := hr.parted hs he hi
  obtain ⟨look, hself⟩ := hparted.self
  exact ⟨_, _, hs, he, hi, hr, detach?_of_instance he hi, hparted, hself,
    look_strip hself (get?_modify_self he), rfl⟩

/-! ## What is put into an instance -/

theorem expandWith_of_error {put : Scene → Detached → Expansion}
    (h : s.detach? id = some (bare, det))
    (hput : put bare det = { scene := t, notices := [], outcome := .error cause }) :
    expandWith put s id =
      { scene := ((det.usage.foldl remove t).modify id fun e =>
          { e with look := det.decoration.applyTo e.look }).settleInstance id [] [] .none
        notices := [], outcome := .error cause } := by
  simp only [expandWith, h, hput]

theorem expandWith_congr {put put' : Scene → Detached → Expansion}
    (h : s.detach? id = some (bare, det)) (hput : put bare det = put' bare det) :
    expandWith put s id = expandWith put' s id := by
  simp only [expandWith, h, hput]

/-- Settling what was put into an instance adds no element. -/
theorem size_expandWith {put : Scene → Detached → Expansion}
    (h : s.detach? id = some (bare, det)) :
    (expandWith put s id).scene.slots.size = (put bare det).scene.slots.size := by
  simp only [expandWith, h]
  split
  next => exact size_modify _ _ _
  next => rw [settleInstance, size_modify, size_modify, size_foldl_remove]

/-- How the instances in a copy are expanded, when nothing lies around what
it is the copy for. -/
def expandInside (d : Document) (st : Settings) (component : ComponentId) :
    Scene → ElementId → Expansion :=
  expandWithin d st (maxDepth - 1) [component]

theorem expands_expandInside (d : Document) (st : Settings) (component : ComponentId) :
    Expands d (expandInside d st component) :=
  expands_expandWithin d st (maxDepth - 1) [component]

/-- What expanding an instance by itself puts into it. Nothing lies around
it, so only its own component can be the reason why it fails. -/
def putCalled (d : Document) (st : Settings) (i : Instance) (s : Scene) (det : Detached) :
    Expansion :=
  match i.called d with
  | .error cause => { scene := s, notices := [], outcome := .error cause }
  | .ok (component, tmpl) => splice d st (expandInside d st component) component tmpl s det

theorem putCalled_of_error (h : i.called d = .error cause) :
    putCalled d st i s det = { scene := s, notices := [], outcome := .error cause } := by
  rw [putCalled, h]

theorem putCalled_of_ok (h : i.called d = .ok (component, tmpl)) :
    putCalled d st i s det = splice d st (expandInside d st component) component tmpl s det := by
  rw [putCalled, h]

theorem sound_of_called (h : i.called d = .ok (component, tmpl)) : tmpl.Sound := by
  rw [Instance.called] at h
  split at h
  next => cases h
  next =>
    split at h
    next => cases h
    next hread =>
      cases h
      exact Template.read_sound hread

/-- Neither making a copy nor placing the usage changes how the instance
looks. -/
theorem Placed.look {roots : List ElementId} {target : ElementId}
    (h : Placed d s id e i roots target bare t x.scene) (hinst : bare.get? id = some inst)
    (hself : x.scene.get? id = some e') : e'.look = inst.look := by
  have hfilled := h.filled.self
  rw [hinst, Option.map_some] at hfilled
  have hlook := look_of_alone? (h.hung.alone? id) hself hfilled
  exact hlook

/-- A copy with the usage in its place is the filled copy, with the usage
among the children of one element. -/
theorem Placed.get?_fresh {roots : List ElementId} {target : ElementId} {t' : Scene}
    (h : Placed d s id e i roots target bare t t') (hy : s.slots.size ≤ y.index) :
    t'.get? y = (t.get? y).map fun e₀ =>
      { e₀ with
        children :=
          if y = target then e₀.children ++ e.usage.filter s.contains else e₀.children } := by
  cases he₀ : t.get? y with
  | none =>
    have hlive : ¬ t'.contains y := by
      rw [h.hung.contains, contains, he₀]
      exact Bool.false_ne_true
    rw [Option.not_isSome_iff_eq_none.mp hlive, Option.map_none]
  | some e₀ =>
    rw [get?_of_alone? (h.hung.alone? y) he₀, h.hung.parent?, if_neg (h.not_mem_usage (.inr hy)),
      h.hung.children, parent?_of_get? he₀, children_of_get? he₀, Option.map_some]
    congr 2
    split
    next hyt => rw [← hyt, children_of_get? he₀]
    next => rfl

/-! ## The stages of an expansion -/

namespace Begun

theorem expand_eq (h : Begun s id e i bare inst) (d : Document) (st : Settings) :
    s.expand d st id = expandWith (putCalled d st i) s id := by
  rw [expand, show maxDepth = maxDepth - 1 + 1 from rfl, expandWithin]
  refine expandWith_congr h.detach? ?_
  rw [taken, putCalled, Instance.called, findComponent]
  cases i.definition.bind fun id => (d.component? id).map (id, ·) with
  | none => rfl
  | some found =>
    dsimp only
    rw [if_neg (by simp only [List.contains_nil, Bool.false_eq_true, not_false_eq_true])]
    dsimp only
    cases Template.read found.2.template <;> rfl

theorem size_expand (h : Begun s id e i bare inst) (d : Document) (st : Settings) :
    (s.expand d st id).scene.slots.size =
      (putCalled d st i bare (taken id e i)).scene.slots.size := by
  rw [h.expand_eq, size_expandWith h.detach?]

/-- What is left of the instance when its usage is removed. -/
theorem get?_drop (h : Begun s id e i bare inst) :
    (e.usage.foldl remove bare).get? id = some { e with look := inst.look, children := [] } := by
  obtain ⟨look, hself⟩ := (h.parted.drop h.before h.ready h.there).self
  rw [hself, ← look_of_alone? (alone?_foldl_remove (contains_of_get? hself)) hself h.self]

/-- Taking the instance apart leaves it its place and takes the rest. -/
theorem inst_eq (h : Begun s id e i bare inst) :
    inst = { e with look := e.look.undecorated, children := [] } := by
  obtain ⟨look, hself⟩ := h.parted.self
  cases h.self.symm.trans hself
  exact congrArg (fun look => { e with look, children := [] }) h.look

/-- The ids of the copies are the next ones. -/
theorem copyId_eq (h : Begun s id e i bare inst) : bare.copyId = s.copyId := by
  funext k
  rw [copyId, copyId, nextId, nextId, h.parted.size]

/-- A refusal makes nothing. -/
theorem size_of_refusal (h : Begun s id e i bare inst) {put : Scene → Detached → Expansion}
    (hput : put bare (taken id e i) = { scene := bare, notices := [], outcome := .error cause }) :
    (expandWith put s id).scene.slots.size = s.slots.size := by
  rw [size_expandWith h.detach?, hput]
  exact h.parted.size

/-- Neither does a template without a node. -/
theorem size_of_nodeless (h : Begun s id e i bare inst) (d : Document) (st : Settings)
    (nest : Scene → ElementId → Expansion) (component : ComponentId) (hsound : tmpl.Sound)
    (hnodes : tmpl.nodes = []) :
    (expandWith (splice d st nest component tmpl) s id).scene.slots.size = s.slots.size := by
  rw [size_expandWith h.detach?, (splice_of_nil hsound hnodes h.self).1, size_foldl_remove]
  exact h.parted.size

/-! ### Failures -/

theorem size_of_error (h : Begun s id e i bare inst) (st : Settings)
    (hcalled : i.called d = .error cause) :
    (s.expand d st id).scene.slots.size = s.slots.size := by
  rw [h.size_expand, putCalled_of_error hcalled]
  exact h.parted.size

/-- An expansion that is refused puts the decoration back on. -/
theorem self_of_refusal (h : Begun s id e i bare inst) {put : Scene → Detached → Expansion}
    (hput : put bare (taken id e i) = { scene := bare, notices := [], outcome := .error cause }) :
    (expandWith put s id).scene.get? id = some
      { e with
        look := e.ownDecoration.applyTo e.look.undecorated
        role := .standIn
          { i with expanded := true, usage := [], roots := [], decoration := .none }
        children := [] } := by
  rw [expandWith_of_error h.detach? hput, taken,
    get?_settleInstance (get?_modify_self h.get?_drop) h.instance?, h.look]

theorem self_of_error (h : Begun s id e i bare inst) (st : Settings)
    (hcalled : i.called d = .error cause) :
    (s.expand d st id).outcome = .error cause ∧ (s.expand d st id).scene.get? id = some
      { e with
        look := e.ownDecoration.applyTo e.look.undecorated
        role := .standIn
          { i with expanded := true, usage := [], roots := [], decoration := .none }
        children := [] } := by
  rw [h.expand_eq]
  refine ⟨?_, h.self_of_refusal (putCalled_of_error hcalled)⟩
  rw [expandWith_of_error h.detach? (putCalled_of_error hcalled)]

/-! ### Templates without a node -/

theorem put_of_nil (h : Begun s id e i bare inst) (st : Settings)
    (hcalled : i.called d = .ok (component, tmpl)) (hnodes : tmpl.nodes = []) :
    (putCalled d st i bare (taken id e i)).scene = e.usage.foldl remove bare ∧
      (putCalled d st i bare (taken id e i)).outcome = .ok [] := by
  rw [putCalled_of_ok hcalled]
  exact splice_of_nil (sound_of_called hcalled) hnodes h.self

theorem size_of_nil (h : Begun s id e i bare inst) (st : Settings)
    (hcalled : i.called d = .ok (component, tmpl)) (hnodes : tmpl.nodes = []) :
    (s.expand d st id).scene.slots.size = s.slots.size := by
  rw [h.size_expand, (h.put_of_nil st hcalled hnodes).1, size_foldl_remove]
  exact h.parted.size

/-! ### Copies -/

/-- The copy is made and filled, and the usage gets its place in it. -/
theorem put_of_copy (h : Begun s id e i bare inst) (st : Settings)
    (hcalled : i.called d = .ok (component, tmpl)) (hnodes : tmpl.nodes ≠ []) :
    let filled := (fill d st (expandInside d st component) component tmpl bare (taken id e i)
      inst).scene
    let roots := tmpl.roots.map bare.copyId
    (putCalled d st i bare (taken id e i)).outcome = .ok roots ∧ ∃ target,
      filled.usageTarget? ((List.range tmpl.nodes.length).map bare.copyId) roots = some target ∧
        Placed d s id e i roots target bare filled
          (putCalled d st i bare (taken id e i)).scene := by
  rw [putCalled_of_ok hcalled]
  obtain ⟨hout, -, hplaced⟩ := placed_splice st h.before h.there h.ready h.parted
    (expands_expandInside d st component) (sound_of_called hcalled) hnodes component
    (show (taken id e i).id = id from rfl) rfl h.self
  exact ⟨hout, hplaced⟩

/-- What was put into the instance has left its look alone. -/
theorem put_of_ok (h : Begun s id e i bare inst) (st : Settings)
    (hcalled : i.called d = .ok (component, tmpl)) :
    let x := putCalled d st i bare (taken id e i)
    x.outcome = .ok (tmpl.roots.map s.copyId) ∧ ∃ e₁, x.scene.get? id = some e₁ ∧
      e₁.look = e.look.undecorated ∧ e₁.instance? = some i := by
  by_cases hnodes : tmpl.nodes = []
  · obtain ⟨hscene, hout⟩ := h.put_of_nil st hcalled hnodes
    dsimp only
    rw [hscene, h.get?_drop, hout, Template.roots, hnodes]
    exact ⟨rfl, _, rfl, h.look, h.instance?⟩
  · obtain ⟨hout, target, -, hplaced⟩ := h.put_of_copy st hcalled hnodes
    obtain ⟨look, hself⟩ := hplaced.self
    exact ⟨h.copyId_eq ▸ hout, _, hself, (hplaced.look h.self hself).trans h.look, h.instance?⟩

/-- An expansion that does not fail leaves the instance bare and remembers
the decoration. -/
theorem self_of_ok (h : Begun s id e i bare inst) (st : Settings)
    (hcalled : i.called d = .ok (component, tmpl)) :
    let x := s.expand d st id
    x.outcome = .ok (tmpl.roots.map s.copyId) ∧ x.scene.get? id = some
      { e with
        look := e.look.undecorated
        role := .standIn
          { i with
            expanded := true, usage := x.rescued s e, roots := x.roots
            decoration := e.ownDecoration }
        children := x.roots } := by
  obtain ⟨look, decoration, hself⟩ :=
    (expands_expand d st h.before h.there h.instance? h.ready).self
  obtain ⟨hout, e₁, he₁, hlook₁, hi₁⟩ := h.put_of_ok st hcalled
  have hx := expandWith_of_ok h.detach? hout
  rw [← h.expand_eq] at hx
  refine ⟨by rw [hx, hout], ?_⟩
  -- the look and the decoration are those with which it was settled
  have hsettled := get?_settleInstance he₁ hi₁
    (e.usage.filter (putCalled d st i bare (taken id e i)).scene.contains)
    (tmpl.roots.map s.copyId) e.ownDecoration
  have hscene := congrArg Expansion.scene hx
  dsimp only [taken] at hscene hsettled
  rw [← hscene] at hsettled
  have heq := Option.some.inj (hself.symm.trans hsettled)
  have hlooks : look = e₁.look := congrArg Element.look heq
  have hrole := Role.standIn.inj (congrArg Element.role heq)
  have hdecoration : decoration = e.ownDecoration := congrArg Instance.decoration hrole
  rw [hself, hlooks, hlook₁, hdecoration]

/-- Of what is new, only the place of the usage is not as the copy was
filled. -/
theorem filled (h : Begun s id e i bare inst) (st : Settings)
    (hcalled : i.called d = .ok (component, tmpl)) (hnodes : tmpl.nodes ≠ []) :
    let filled := (fill d st (expandInside d st component) component tmpl bare (taken id e i)
      inst).scene
    let roots := tmpl.roots.map bare.copyId
    (s.expand d st id).outcome = .ok roots ∧
      (s.expand d st id).scene.slots.size = filled.slots.size ∧
        ∃ target, filled.usageTarget? ((List.range tmpl.nodes.length).map bare.copyId) roots =
            some target ∧ s.slots.size ≤ target.index ∧
          ∀ y, s.slots.size ≤ y.index →
            (s.expand d st id).scene.get? y = (filled.get? y).map fun e₀ =>
              { e₀ with
                children :=
                  if y = target then e₀.children ++ e.usage.filter s.contains
                  else e₀.children } := by
  obtain ⟨hout, target, htarget, hplaced⟩ := h.put_of_copy st hcalled hnodes
  rw [h.expand_eq, expandWith_of_ok h.detach? hout]
  refine ⟨hout, ?_, target, htarget, hplaced.fresh, fun y hy => ?_⟩
  · rw [settleInstance, size_modify, hplaced.hung.size]
  · have hne : y ≠ id := by
      rintro rfl
      exact Nat.not_lt.mpr hy (index_lt_of_contains (contains_of_get? h.there))
    rw [settleInstance, get?_modify_of_ne hne, hplaced.get?_fresh hy]

end Begun

/-- How an expansion leaves an instance. -/
theorem self_expand (st : Settings) (hs : s.Forest) (he : s.get? id = some e)
    (hi : e.instance? = some i) (hr : Ready s id e i) :
    let x := s.expand d st id
    x.scene.get? id = some
      { e with
        look := e.lookAfter x.outcome
        role := .standIn
          { i with
            expanded := true, usage := x.rescued s e, roots := x.roots
            decoration := e.decorationAfter x.outcome }
        children := x.roots } := by
  obtain ⟨bare, inst, h⟩ := exists_begun hs he hi hr
  cases hcalled : i.called d with
  | error cause =>
    obtain ⟨hout, hself⟩ := h.self_of_error st hcalled
    have hroots : (s.expand d st id).roots = [] := by rw [Expansion.roots, hout]
    have hrescued : (s.expand d st id).rescued s e = [] := if_pos hroots
    dsimp only
    rw [hself, hrescued, hroots, hout]
    rfl
  | ok called =>
    obtain ⟨hout, hself⟩ := h.self_of_ok st hcalled
    dsimp only at hself ⊢
    rw [hself, hout]
    rfl

/-! ## Two expansions -/

/-- Two expansions that made the same copy, but for the names. -/
structure Twins (r : Relocation) (x x' : Expansion) : Prop where
  outcome : x'.outcome.toOption = x.outcome.toOption.map (List.map r.move)
  size : x.scene.slots.size + r.base' = x'.scene.slots.size + r.base
  get?_move : ∀ y, r.Fresh y → x'.scene.get? (r.move y) = (x.scene.get? y).map (·.rename r.move)
  raw : ∀ y e, r.Fresh y → x.scene.get? y = some e → r.Raw e

section

variable {r : Relocation}

/-- From the bases on there is nothing. -/
theorem get?_move_of_size (hsize : s.slots.size = r.base) (hsize' : t.slots.size = r.base')
    (hy : r.Fresh y) : s.get? y = none ∧ t.get? (r.move y) = none :=
  ⟨get?_eq_none_of_le (hsize ▸ hy), get?_eq_none_of_le (hsize' ▸ base_le_move hy)⟩

/-- Expansions that made no copy. -/
theorem Twins.of_size (hout : x'.outcome.toOption = x.outcome.toOption.map (List.map r.move))
    (hsize : x.scene.slots.size = r.base) (hsize' : x'.scene.slots.size = r.base') :
    Twins r x x' where
  outcome := hout
  size := by rw [hsize, hsize', Nat.add_comm]
  get?_move y hy := by
    obtain ⟨hnone, hnone'⟩ := get?_move_of_size hsize hsize' hy
    rw [hnone, hnone', Option.map_none]
  raw y e hy he := by
    rw [(get?_move_of_size hsize hsize' hy).1] at he
    cases he

/-- Before there is a copy, there is nothing to tell the places apart. -/
theorem Relocated.of_bare (hs : s.Forest) (ht : t.Forest) (hsize : s.slots.size = r.base)
    (hsize' : t.slots.size = r.base') (hhost : s.contains r.host)
    (hhost' : t.contains r.host') : Relocated r s t where
  forest := hs
  forest' := ht
  size := by rw [hsize, hsize', Nat.add_comm]
  size_le := Nat.le_of_eq hsize.symm
  host := hhost
  host' := hhost'
  host_lt := hsize ▸ index_lt_of_contains hhost
  host_lt' := hsize' ▸ index_lt_of_contains hhost'
  get?_move y hy := by
    obtain ⟨hnone, hnone'⟩ := get?_move_of_size hsize hsize' hy
    rw [hnone, hnone', Option.map_none]
  parent_fresh y z hy hp := by
    rw [parent?, (get?_move_of_size hsize hsize' hy).1] at hp
    cases hp
  parent_old y z _ hp := hsize ▸ index_lt_of_contains (hs.contains_parent hp)
  parent_old' y z _ hp := hsize' ▸ index_lt_of_contains (ht.contains_parent hp)
  raw y e hy he := by
    rw [(get?_move_of_size hsize hsize' hy).1] at he
    cases he

end

/-- The two places at which two instances are expanded: their copies begin
at the next id of either scene. -/
def placesFor (s : Scene) (p : ElementId) (t : Scene) (q : ElementId) : Relocation :=
  { base := s.slots.size, host := p, base' := t.slots.size, host' := q }

/-- The two places at which one instance is expanded: its copies begin at
the next id of either scene. -/
def placesOf (s t : Scene) (p : ElementId) : Relocation :=
  { base := s.slots.size, host := p, base' := t.slots.size, host' := p }

theorem move_placesOf_of_lt (hy : y.index < s.slots.size) : (placesOf s t p).move y = y := by
  have hold : ¬ (placesOf s t p).base ≤ y.index := Nat.not_le.mpr hy
  rw [move, if_neg hold]
  split
  next heq => exact heq.symm
  next => rfl

/-- Instances that hand down the same ask for the same component. -/
theorem called_eq_of_pattern (hi : e.instance? = some i) (hi' : e'.instance? = some i')
    (h : e'.pattern = e.pattern) : i'.component = i.component ∧ i'.called d = i.called d := by
  obtain ⟨hcomponent, hdefinition⟩ : i'.component = i.component ∧
      i'.definition = i.definition := by
    have hasked := congrArg Pattern.component h
    simpa only [Element.pattern, hi, hi', Option.map_some, Option.some.injEq,
      Prod.mk.injEq] using hasked
  refine ⟨hcomponent, ?_⟩
  rw [Instance.called, Instance.called, hcomponent, hdefinition]

/-- Instances that hand down the same get the same copy. -/
theorem Begun.twins_of_copy (h : Begun s p e i bare inst) (h' : Begun t q e' i' bare' inst')
    (st : Settings) (hcalled : i.called d = .ok (component, tmpl))
    (hcalled' : i'.called d = .ok (component, tmpl)) (hnodes : tmpl.nodes ≠ [])
    (hcomponent : i'.component = i.component) (hpattern : e'.pattern = e.pattern)
    (hdecoration : e'.ownDecoration = e.ownDecoration)
    (husage : e'.usage.filter t.contains =
      (e.usage.filter s.contains).map (placesFor s p t q).move) :
    Twins (placesFor s p t q) (s.expand d st p) (t.expand d st q) := by
  obtain ⟨hcopied, hsize, target, htarget, hfresh, hget⟩ := h.filled st hcalled hnodes
  obtain ⟨hcopied', hsize', target', htarget', -, hget'⟩ := h'.filled st hcalled' hnodes
  have hbare : Relocated (placesFor s p t q) bare bare' :=
    .of_bare h.parted.forest h'.parted.forest h.parted.size h'.parted.size
      (contains_of_get? h.self) (contains_of_get? h'.self)
  have hid : (taken q e' i').id = (placesFor s p t q).move (taken p e i).id :=
    (Relocation.move_host (r := placesFor s p t q)
      (index_lt_of_contains (contains_of_get? h.there))).symm
  have hdecoration : (taken q e' i').decoration = (taken p e i).decoration := hdecoration
  have huniform : Uniform (placesFor s p t q) (expandInside d st component) :=
    Relocated.uniform_expandWithin d st (maxDepth - 1) [component]
  have hfill := hbare.fill huniform d st component tmpl (.inr rfl) hid hcomponent hdecoration
    (h'.pattern.trans (hpattern.trans h.pattern.symm))
  have hmoved : (placesFor s p t q).move target = target' := by
    have hmove := hfill.usageTarget?_move
      (fun c hc => hbare.fresh_of_mem_copies (l := List.range tmpl.nodes.length) c hc)
      (tmpl.roots.map bare.copyId)
    rw [htarget, ← hbare.map_copyId, ← hbare.map_copyId, htarget', Option.map_some] at hmove
    exact (Option.some.inj hmove).symm
  refine ⟨?_, ?_, fun y hy => ?_, fun y ey hy hey => ?_⟩
  · rw [hcopied, hcopied', hbare.map_copyId]
    rfl
  · rw [hsize, hsize', hfill.size]
  · rw [hget' _ (base_le_move hy), hget y hy, hfill.get?_move y hy, Option.map_map,
      Option.map_map]
    refine congrArg (Option.map · _) (funext fun e₀ => ?_)
    simp only [Function.comp_apply, Element.rename, ← hmoved, move_inj hy hfresh, husage]
    congr 1
    split
    next => rw [List.map_append]
    next => rfl
  · rw [hget y hy] at hey
    obtain ⟨e₀, he₀, rfl⟩ := Option.map_eq_some_iff.mp hey
    exact (hfill.raw y e₀ hy he₀).congr rfl

/-- Two instances that hand down the same are expanded into the same. -/
theorem twins_expand_apart (st : Settings) (hs : s.Forest) (he : s.get? p = some e)
    (hi : e.instance? = some i) (hr : Ready s p e i) (ht : t.Forest) (he' : t.get? q = some e')
    (hi' : e'.instance? = some i') (hr' : Ready t q e' i') (hpattern : e'.pattern = e.pattern)
    (hdecoration : (s.expand d st p).roots ≠ [] → (t.expand d st q).roots ≠ [] →
      e'.ownDecoration = e.ownDecoration)
    (husage : (s.expand d st p).roots ≠ [] → (t.expand d st q).roots ≠ [] →
      e'.usage.filter t.contains = (e.usage.filter s.contains).map (placesFor s p t q).move) :
    Twins (placesFor s p t q) (s.expand d st p) (t.expand d st q) := by
  obtain ⟨bare, inst, h⟩ := exists_begun hs he hi hr
  obtain ⟨bare', inst', h'⟩ := exists_begun ht he' hi' hr'
  obtain ⟨hcomponent, hasks⟩ := called_eq_of_pattern (d := d) hi hi' hpattern
  cases hcalled : i.called d with
  | error cause =>
    have hcalled' := hasks.trans hcalled
    refine .of_size ?_ (h.size_of_error st hcalled) (h'.size_of_error st hcalled')
    rw [(h.self_of_error st hcalled).1, (h'.self_of_error st hcalled').1]
    rfl
  | ok called =>
    obtain ⟨component, tmpl⟩ := called
    have hcalled' := hasks.trans hcalled
    have hout := (h.self_of_ok st hcalled).1
    have hout' := (h'.self_of_ok st hcalled').1
    by_cases hnodes : tmpl.nodes = []
    · refine .of_size ?_ (h.size_of_nil st hcalled hnodes) (h'.size_of_nil st hcalled' hnodes)
      rw [hout, hout', Template.roots, hnodes]
      rfl
    · have hroots : (s.expand d st p).roots ≠ [] := by
        rw [Expansion.roots, hout]
        exact roots_ne_nil (sound_of_called hcalled) hnodes
      have hroots' : (t.expand d st q).roots ≠ [] := by
        rw [Expansion.roots, hout']
        exact roots_ne_nil (sound_of_called hcalled) hnodes
      exact h.twins_of_copy h' st hcalled hcalled' hnodes hcomponent hpattern
        (hdecoration hroots hroots') (husage hroots hroots')

/-- An instance that hands down the same is expanded into the same. -/
theorem twins_expand (st : Settings) (hs : s.Forest) (he : s.get? p = some e)
    (hi : e.instance? = some i) (hr : Ready s p e i) (ht : t.Forest) (he' : t.get? p = some e')
    (hi' : e'.instance? = some i') (hr' : Ready t p e' i') (hpattern : e'.pattern = e.pattern)
    (hdecoration : (s.expand d st p).roots ≠ [] → e'.ownDecoration = e.ownDecoration)
    (husage : (s.expand d st p).roots ≠ [] →
      e'.usage.filter t.contains = e.usage.filter s.contains) :
    Twins (placesOf s t p) (s.expand d st p) (t.expand d st p) := by
  refine twins_expand_apart st hs he hi hr ht he' hi' hr' hpattern (fun hroots _ =>
    hdecoration hroots) fun hroots _ => ?_
  -- usage was there before either copy
  have hfix : (e.usage.filter s.contains).map (placesOf s t p).move =
      e.usage.filter s.contains := by
    refine (List.map_congr_left fun u hu => ?_).trans (List.map_id _)
    exact move_placesOf_of_lt (hr.usage_made u (List.mem_filter.mp hu).1)
  exact (husage hroots).trans hfix.symm

/-- What is new after an expansion is as a copy leaves it. -/
theorem raw_expand (st : Settings) (hs : s.Forest) (he : s.get? p = some e)
    (hi : e.instance? = some i) (hr : Ready s p e i) (hy : s.slots.size ≤ y.index)
    (hey : (s.expand d st p).scene.get? y = some e') : (placesOf s s p).Raw e' :=
  (twins_expand st hs he hi hr hs he hi hr rfl (fun _ => rfl) fun _ => rfl).raw y e' hy hey

end Scene

end SceneTree
