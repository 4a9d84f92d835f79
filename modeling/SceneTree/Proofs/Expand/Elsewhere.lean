import SceneTree.Proofs.Expand.Correct
import SceneTree.Proofs.Expand.Relocate

/-!
# Expansion is the same at every place

What an instance is expanded into does not depend on what else there is in
the scene, nor on which ids are free. Done in two scenes that agree on the
copy so far, every stage of an expansion leaves two scenes that do
(`Relocated.expandWithin`), and the roots it answers are the same but for
their names. For the host itself only the copy before the usage moves in
is compared (`Relocated.fill`): the usage was there before and is no part
of the copy.

The induction is on the levels. It is about instances inside the copy,
whose usage is part of it too, and so all they are taken apart into, and
put together from, is new.
-/

namespace SceneTree

/-! ## What a copy depends on -/

/-- What an instance hands to its copy, beside the decoration. -/
structure Pattern where
  component : Option (String × Option ComponentId)
  arguments : List (String × Value)
  styleId : UInt8
  name : Option String
  width : Option Int
  height : Option Int
  grows : Bool

def Element.pattern (e : Element) : Pattern :=
  { component := e.instance?.map fun i => (i.component, i.definition)
    arguments := (e.instance?.map (·.arguments)).getD []
    styleId := e.header.styleId
    name := e.name
    width := e.sizing.width
    height := e.sizing.height
    grows := e.grows }

theorem Element.pattern_rename (f : ElementId → ElementId) (e : Element) :
    (e.rename f).pattern = e.pattern := by
  simp only [pattern, instance?_rename, Option.map_map]
  rfl

/-- What is taken from an instance, with other names for all ids. -/
def Detached.rename (f : ElementId → ElementId) (det : Detached) : Detached :=
  { det with id := f det.id, usage := det.usage.map f }

theorem Element.usage_rename (f : ElementId → ElementId) (e : Element) :
    (e.rename f).usage = e.usage.map f := by
  rw [usage, usage, instance?_rename]
  cases e.instance? with
  | none => rfl
  | some i => exact (apply_ite (List.map f) (i.expanded = true) i.usage e.children).symm

theorem Element.oldRoots_rename (f : ElementId → ElementId) (e : Element) :
    (e.rename f).oldRoots = e.oldRoots.map f := by
  rw [oldRoots, oldRoots, instance?_rename]
  cases e.instance? with
  | none => rfl
  | some i => exact (apply_ite (List.map f) (i.expanded = true) i.roots []).symm

namespace Scene

open Relocation

theorem taken_rename (f : ElementId → ElementId) (id : ElementId) (e : Element) (i : Instance) :
    taken (f id) (e.rename f) (i.rename f) = (taken id e i).rename f := by
  have hdecoration : (e.rename f).ownDecoration = e.ownDecoration := by
    rw [Element.ownDecoration, Element.ownDecoration, Element.instance?_rename]
    cases e.instance? <;> rfl
  rw [taken, taken, hdecoration, Element.usage_rename]
  rfl

variable {d : Document} {st : Settings} {s t : Scene} {inst inst' : Element}
  {component : ComponentId} {decoration : Decoration} {r : Relocation} {x y c : ElementId}

/-- The element a node of a template is made into. -/
def copyElement (d : Document) (st : Settings) (inst : Element) (component : ComponentId)
    (decoration : Decoration) (id : ElementId) (node : Nat) (rec : Record) : Element :=
  let resolved := (Element.fresh id (.template component node)
    (copyHeader inst node rec.header)).become d st rec
  let filled := { resolved with text := resolved.text.map (fillText d inst.pattern.arguments) }
  if node = 0 then adoptInstance inst decoration filled else filled

theorem get?_addNode (s : Scene) (node : Nat) (rec : Record) (y : ElementId) :
    (addNode d st inst component decoration s node rec).get? y =
      if y = s.nextId then some (copyElement d st inst component decoration s.nextId node rec)
      else s.get? y := by
  split
  next hy =>
    subst hy
    have hadd (h : Header) : (s.add d st (.template component node) h rec).get? s.nextId =
        some ((Element.fresh s.nextId (.template component node) h).become d st rec) :=
      get?_modify_self (get?_push_nextId s _ _)
    unfold addNode copyElement
    split
    next => rw [get?_modify_self (get?_modify_self (hadd _))]; rfl
    next => rw [get?_modify_self (hadd _)]; rfl
  next hy => exact get?_addNode_of_ne s node rec hy

/-- A copy stands alone, keeps nothing and has no texture. -/
theorem copyElement_bare (r : Relocation) (id : ElementId) (node : Nat) (rec : Record) :
    let e := copyElement d st inst component decoration id node rec
    e.parent = none ∧ r.Raw e := by
  have hrole : ∀ i, (Role.ofRecord d rec).instance? = some i → r.Kept i := by
    intro i hi
    obtain ⟨-, husage, hroots, -⟩ := Role.bare_of_ofRecord hi
    rw [Kept, husage, hroots]
    exact ⟨fun _ hu => absurd hu List.not_mem_nil, fun _ hc => absurd hc List.not_mem_nil⟩
  unfold copyElement
  dsimp only
  split
  next => exact ⟨rfl, rfl, rfl, hrole⟩
  next => exact ⟨rfl, rfl, rfl, hrole⟩

/-- What is made of a node depends on the instance by its pattern only, and
on nothing by the id but the id. -/
theorem rename_copyElement (h : inst'.pattern = inst.pattern) (f : ElementId → ElementId)
    (id : ElementId) (node : Nat) (rec : Record) :
    (copyElement d st inst component decoration id node rec).rename f =
      copyElement d st inst' component decoration (f id) node rec := by
  have hheader : copyHeader inst node rec.header = copyHeader inst' node rec.header := by
    rw [copyHeader, copyHeader,
      show inst'.header.styleId = inst.header.styleId from congrArg Pattern.styleId h]
  have hadopt : adoptInstance inst decoration = adoptInstance inst' decoration := by
    have hname : inst'.name = inst.name := congrArg Pattern.name h
    have hwidth : inst'.sizing.width = inst.sizing.width := congrArg Pattern.width h
    have hheight : inst'.sizing.height = inst.sizing.height := congrArg Pattern.height h
    have hgrows : inst'.grows = inst.grows := congrArg Pattern.grows h
    funext e
    rw [adoptInstance, adoptInstance, hname, hwidth, hheight, hgrows]
  have hrole : (Role.ofRecord d rec).rename f = Role.ofRecord d rec := by
    unfold Role.ofRecord
    split <;> rfl
  rw [copyElement, copyElement, hheader, hadopt,
    show inst'.pattern.arguments = inst.pattern.arguments from congrArg Pattern.arguments h]
  split
  · simp only [Element.rename, adoptInstance, Element.become, hrole]
    rfl
  · simp only [Element.rename, Element.become, hrole]
    rfl

namespace Relocated

/-! ## Making, linking and hanging the copy -/

/-- The next node is made. -/
theorem addNode (h : Relocated r s t) (hp : inst'.pattern = inst.pattern) (d : Document)
    (st : Settings) (component : ComponentId) (decoration : Decoration) (node : Nat)
    (rec : Record) :
    Relocated r (addNode d st inst component decoration s node rec)
      (Scene.addNode d st inst' component decoration t node rec) := by
  have hnext : r.move s.nextId = t.nextId := h.move_copyId 0
  have hfresh : r.Fresh s.nextId := h.size_le
  have hparent {s : Scene} {inst : Element} (y : ElementId) :
      (Scene.addNode d st inst component decoration s node rec).parent? y = s.parent? y := by
    rw [Scene.parent?, get?_addNode]
    split
    next hy =>
      rw [hy, Scene.parent?, get?_nextId, Option.bind_some, (copyElement_bare r _ _ _).1,
        Option.bind_none]
    next => rfl
  have hlive {s : Scene} {inst : Element} {y : ElementId} (hy : s.contains y) :
      (Scene.addNode d st inst component decoration s node rec).contains y := by
    rw [contains, get?_addNode]
    split
    next => rfl
    next => exact hy
  refine ⟨(grows_addNode d st inst component decoration s node rec).forest h.forest,
    (grows_addNode d st inst' component decoration t node rec).forest h.forest', ?_, ?_,
    hlive h.host, hlive h.host', h.host_lt, h.host_lt', fun y hy => ?_, fun y z hy hz => ?_,
    fun y z hy hz => ?_, fun y z hy hz => ?_, fun y e hy he => ?_⟩
  · rw [size_addNode, size_addNode, Nat.add_right_comm, h.size, Nat.add_right_comm]
  · rw [size_addNode]
    exact Nat.le_succ_of_le h.size_le
  · rw [get?_addNode, get?_addNode, ← hnext]
    simp only [move_inj hy hfresh]
    split
    · rw [Option.map_some, rename_copyElement hp]
    · exact h.get?_move y hy
  · exact h.parent_fresh y z hy (hparent y ▸ hz)
  · exact h.parent_old y z hy (hparent y ▸ hz)
  · exact h.parent_old' y z hy (hparent y ▸ hz)
  · rw [get?_addNode] at he
    split at he
    next =>
      cases he
      exact (copyElement_bare r _ _ _).2
    next => exact h.raw y e hy he

theorem addTemplate (h : Relocated r s t) (hp : inst'.pattern = inst.pattern) (d : Document)
    (st : Settings) (component : ComponentId) (decoration : Decoration) (tmpl : Template) :
    Relocated r (addTemplate d st inst component decoration tmpl s).scene
      (Scene.addTemplate d st inst' component decoration tmpl t).scene := by
  unfold Scene.addTemplate
  exact foldl_same Splicing.scene Splicing.scene tmpl.nodes.zipIdx h
    fun w w' n _ hw => hw.addNode hp d st component decoration n.2 n.1.record

/-- The edges of a template are taken over. `copyOf` is where the copies
are in the one scene. -/
theorem linkCopies {w w' : Splicing} (h : Relocated r w.scene w'.scene) {copyOf : Nat → ElementId}
    (hcopy : ∀ k, r.Fresh (copyOf k)) (name : String) (tmpl : Template) :
    Relocated r (linkCopies name copyOf tmpl w).scene
      (Scene.linkCopies name (r.move ∘ copyOf) tmpl w').scene := by
  unfold Scene.linkCopies
  exact foldl_same Splicing.scene Splicing.scene tmpl.edges h
    fun w w' e _ hw => hw.splicingLink (hcopy e.child) (.inl (hcopy e.parent)) _ _

theorem attachRoots {w w' : Splicing} (h : Relocated r w.scene w'.scene) {det det' : Detached}
    (hid : r.Fresh det.id ∨ det.id = r.host) (hid' : det'.id = r.move det.id)
    {roots : List ElementId} (hroots : ∀ c ∈ roots, r.Fresh c) :
    Relocated r (attachRoots det roots w).scene
      (Scene.attachRoots det' (roots.map r.move) w').scene := by
  unfold Scene.attachRoots
  rw [hid']
  exact foldl Splicing.scene Splicing.scene r.move roots h
    fun w w' c hc hw => hw.splicingLink (hroots c hc) hid _ _

end Relocated

/-! ## Expanding inside the copy -/

/-- Two expansions that came to the same, but for the names. -/
structure Agree (r : Relocation) (x x' : Expansion) : Prop where
  scene : Relocated r x.scene x'.scene
  outcome : x'.outcome.toOption = x.outcome.toOption.map (List.map r.move)
  fresh : ∀ roots, x.outcome = .ok roots → ∀ c ∈ roots, r.Fresh c

/-- Both have failed, or both have made a copy. -/
theorem Agree.failed_or_ok {x x' : Expansion} (h : Agree r x x') :
    (∃ cause cause', x.outcome = .error cause ∧ x'.outcome = .error cause') ∨
      ∃ roots, x.outcome = .ok roots ∧ x'.outcome = .ok (roots.map r.move) := by
  have houtcome := h.outcome
  cases hout : x.outcome with
  | error cause =>
    rw [hout] at houtcome
    cases hout' : x'.outcome with
    | error cause' => exact .inl ⟨cause, cause', rfl, rfl⟩
    | ok roots' =>
      rw [hout'] at houtcome
      cases houtcome
  | ok roots =>
    rw [hout] at houtcome
    cases hout' : x'.outcome with
    | error cause' =>
      rw [hout'] at houtcome
      cases houtcome
    | ok roots' =>
      rw [hout'] at houtcome
      cases houtcome
      exact .inr ⟨roots, rfl, rfl⟩

/-- `nest` does the same to an instance of the copy at both places. -/
def Uniform (r : Relocation) (nest : Scene → ElementId → Expansion) : Prop :=
  ∀ {s t c}, Relocated r s t → r.Fresh c → Agree r (nest s c) (nest t (r.move c))

theorem mem_of_usageTarget? {copies roots : List ElementId} (h : c ∈ s.usageTarget? copies roots) :
    c ∈ copies ∨ c ∈ roots := by
  rw [usageTarget?] at h
  cases hfind : copies.find? fun id => (s.get? id).any (·.slot) with
  | some found =>
    rw [hfind] at h
    cases h
    exact .inl (List.mem_of_find?_eq_some hfind)
  | none =>
    rw [hfind] at h
    exact .inr (List.mem_of_head? h)

namespace Relocated

theorem expandNested {w w' : Splicing} (h : Relocated r w.scene w'.scene) (hc : r.Fresh c)
    {nest : Scene → ElementId → Expansion} (hnest : Uniform r nest) (name : String) :
    Relocated r (expandNested nest name w c).scene
      (Scene.expandNested nest name w' (r.move c)).scene := by
  have hinst : (w'.scene.get? (r.move c)).any (·.isInstance) =
      (w.scene.get? c).any (·.isInstance) := by
    rw [h.get?_move c hc, Option.any_map]
    exact congrArg (Option.any · _) (funext fun e => e.isInstance_rename r.move)
  unfold Scene.expandNested
  rw [hinst]
  split
  next => exact (hnest h hc).scene
  next => exact h

/-- The copy that goes under an instance, or under the host. -/
theorem fill (h : Relocated r s t) {nest : Scene → ElementId → Expansion} (hnest : Uniform r nest)
    (d : Document) (st : Settings) (component : ComponentId) (tmpl : Template)
    {det det' : Detached} (hid : r.Fresh det.id ∨ det.id = r.host)
    (hid' : det'.id = r.move det.id) (hcomponent : det'.component = det.component)
    (hdecoration : det'.decoration = det.decoration) (hp : inst'.pattern = inst.pattern) :
    Relocated r (fill d st nest component tmpl s det inst).scene
      (Scene.fill d st nest component tmpl t det' inst').scene := by
  have hcopyOf : t.copyId = r.move ∘ s.copyId := funext fun k => (h.move_copyId k).symm
  unfold Scene.fill
  rw [hcomponent, hdecoration, h.map_copyId, h.map_copyId, hcopyOf]
  refine foldl Splicing.scene Splicing.scene r.move _ ?_
    fun w w' c hc hw => hw.expandNested (h.fresh_of_mem_copies c hc) hnest det.component
  refine Relocated.attachRoots ?_ hid hid' h.fresh_of_mem_copies
  exact (h.addTemplate hp d st component det.decoration tmpl).linkCopies h.fresh_copyId _ tmpl

/-! ## Placing the usage -/

theorem usageTarget?_move (h : Relocated r s t) {copies : List ElementId}
    (hcopies : ∀ c ∈ copies, r.Fresh c) (roots : List ElementId) :
    t.usageTarget? (copies.map r.move) (roots.map r.move) =
      (s.usageTarget? copies roots).map r.move := by
  have hslot : ∀ c ∈ copies, (t.get? (r.move c)).any (·.slot) = (s.get? c).any (·.slot) :=
    fun c hc => by
      rw [h.get?_move c (hcopies c hc), Option.any_map]
      rfl
  have hfind : (copies.map r.move).find? (fun id => (t.get? id).any (·.slot)) =
      (copies.find? fun id => (s.get? id).any (·.slot)).map r.move := by
    rw [List.find?_map]
    refine congrArg (Option.map r.move) ?_
    induction copies with
    | nil => rfl
    | cons c copies ih =>
      have := hslot c List.mem_cons_self
      have ih := ih (fun c hc => hcopies c (List.mem_cons_of_mem _ hc)) fun c hc =>
        hslot c (List.mem_cons_of_mem _ hc)
      simp only [List.find?_cons, Function.comp_apply] at ih ⊢
      rw [this, ih]
  rw [usageTarget?, usageTarget?, hfind, List.head?_map]
  cases copies.find? fun id => (s.get? id).any (·.slot) <;> rfl

/-- Usage that is part of the copy goes to the same place. -/
theorem placeUsage {w w' : Splicing} (h : Relocated r w.scene w'.scene) {det : Detached}
    (husage : ∀ u ∈ det.usage, r.Fresh u) {target : Option ElementId}
    (htarget : ∀ c ∈ target, r.Fresh c) :
    Relocated r (placeUsage det target w).scene
      (Scene.placeUsage (det.rename r.move) (target.map r.move) w').scene := by
  cases target with
  | some target =>
    exact foldl Splicing.scene Splicing.scene r.move det.usage h
      fun w w' c hc hw => hw.splicingLink (husage c hc) (.inl (htarget target rfl)) _ _
  | none =>
    rw [scene_placeUsage_none, Option.map_none, scene_placeUsage_none]
    exact h.foldl_remove husage

/-! ## Expanding an instance of the copy -/

/-- What an instance of the copy keeps is of the copy. -/
theorem fresh_of_kept (h : Relocated r s t) (hx : r.Fresh x) {e : Element}
    (he : s.get? x = some e) : (∀ u ∈ e.usage, r.Fresh u) ∧ ∀ c ∈ e.oldRoots, r.Fresh c := by
  have hchild : ∀ c ∈ e.children, r.Fresh c := fun c hc =>
    h.child_fresh hx (by rwa [children_of_get? he])
  rw [Element.usage, Element.oldRoots]
  cases hi : e.instance? with
  | none => exact ⟨hchild, fun _ hc => absurd hc List.not_mem_nil⟩
  | some i =>
    have hkept : r.Kept i := (h.raw x e hx he).kept i hi
    dsimp only
    split
    next => exact hkept
    next => exact ⟨hchild, fun _ hc => absurd hc List.not_mem_nil⟩

theorem undress (h : Relocated r s t) (hx : r.Fresh x) :
    Relocated r (s.undress x) (t.undress (r.move x)) :=
  h.modify hx (by constructor <;> intro <;> rfl) (by constructor <;> intro <;> rfl)
    (fun _ => rfl) fun _ hraw => ⟨hraw.1, hraw.2, hraw.3⟩

theorem strip (h : Relocated r s t) (hx : r.Fresh x) {usage roots : List ElementId}
    (husage : ∀ u ∈ usage, r.Fresh u) (hroots : ∀ c ∈ roots, r.Fresh c) :
    Relocated r (s.strip x usage roots)
      (t.strip (r.move x) (usage.map r.move) (roots.map r.move)) := by
  have hfreed := (h.foldl_unlink husage).foldl_remove hroots
  have hemptied := hfreed.foldl_remove fun c hc => hfreed.child_fresh hx hc
  rwa [← hfreed.children_move hx] at hemptied

/-- An instance of the copy is taken apart in the same way. -/
theorem detach? (h : Relocated r s t) (hx : r.Fresh x) :
    (s.detach? x = none → t.detach? (r.move x) = none) ∧
      ∀ bare det, s.detach? x = some (bare, det) → det.id = x ∧ (∀ u ∈ det.usage, r.Fresh u) ∧
        ∃ bare', t.detach? (r.move x) = some (bare', det.rename r.move) ∧
          Relocated r bare bare' := by
  have hget := h.get?_move x hx
  by_cases hinst : ∃ e i, s.get? x = some e ∧ e.instance? = some i
  · obtain ⟨e, i, he, hi⟩ := hinst
    obtain ⟨husage, hroots⟩ := h.fresh_of_kept hx he
    have hi' : (e.rename r.move).instance? = some (i.rename r.move) := by
      rw [Element.instance?_rename, hi, Option.map_some]
    rw [he, Option.map_some] at hget
    rw [detach?_of_instance he hi, detach?_of_instance hget hi']
    refine ⟨fun hnone => absurd hnone (Option.some_ne_none _), ?_⟩
    rintro _ _ ⟨⟩
    refine ⟨rfl, husage, _, ?_, (h.undress hx).strip hx husage hroots⟩
    rw [taken_rename, Element.usage_rename, Element.oldRoots_rename]
  · have hinst' : ¬ ∃ e i, t.get? (r.move x) = some e ∧ e.instance? = some i := by
      rintro ⟨e', i', he', hi'⟩
      rw [he'] at hget
      obtain ⟨e, he, rfl⟩ := Option.map_eq_some_iff.mp hget.symm
      rw [Element.instance?_rename] at hi'
      obtain ⟨i, hi, -⟩ := Option.map_eq_some_iff.mp hi'
      exact hinst ⟨e, i, he, hi⟩
    rw [detach?_of_not_instance hinst, detach?_of_not_instance hinst']
    exact ⟨fun _ => rfl, fun _ _ hsome => by cases hsome⟩

theorem settleInstance (h : Relocated r s t) (hx : r.Fresh x) {usage roots : List ElementId}
    (husage : ∀ u ∈ usage, r.Fresh u) (hroots : ∀ c ∈ roots, r.Fresh c)
    (decoration : Decoration) :
    Relocated r (s.settleInstance x usage roots decoration)
      (t.settleInstance (r.move x) (usage.map r.move) (roots.map r.move) decoration) := by
  refine h.modify hx (by constructor <;> intro <;> rfl) (by constructor <;> intro <;> rfl)
    (fun e => ?_) fun e hraw => ⟨hraw.1, hraw.2, fun i hi => ?_⟩
  · cases e with
    | mk id source role =>
      cases role <;> rfl
  · rw [Element.instance?] at hi
    cases hrole : e.role with
    | plain widget =>
      rw [hrole] at hi
      cases hi
    | standIn i₀ =>
      rw [hrole] at hi
      cases hi
      exact ⟨husage, hroots⟩

theorem refused (h : Relocated r s t) (cause cause' : ExpandFault) :
    Agree r { scene := s, notices := [], outcome := .error cause }
      { scene := t, notices := [], outcome := .error cause' } :=
  ⟨h, rfl, fun _ hok => by cases hok⟩

theorem splice (h : Relocated r s t) {nest : Scene → ElementId → Expansion}
    (hnest : Uniform r nest) (d : Document) (st : Settings) (component : ComponentId)
    (tmpl : Template) {det : Detached} (hid : r.Fresh det.id)
    (husage : ∀ u ∈ det.usage, r.Fresh u) :
    Agree r (splice d st nest component tmpl s det)
      (Scene.splice d st nest component tmpl t (det.rename r.move)) := by
  have hget : t.get? (det.rename r.move).id = _ := h.get?_move det.id hid
  cases he : s.get? det.id with
  | none =>
    rw [he, Option.map_none] at hget
    simp only [Scene.splice, he, hget]
    exact h.refused _ _
  | some inst =>
    rw [he, Option.map_some] at hget
    have hfill : Relocated r (Scene.fill d st nest component tmpl s det inst).scene
        (Scene.fill d st nest component tmpl t (det.rename r.move) (inst.rename r.move)).scene :=
      h.fill hnest d st component tmpl (.inl hid) rfl rfl rfl (inst.pattern_rename r.move)
    rw [splice_eq_fill he, splice_eq_fill hget]
    dsimp only
    rw [h.map_copyId, h.map_copyId, hfill.usageTarget?_move h.fresh_of_mem_copies]
    refine ⟨hfill.placeUsage husage fun c hc => ?_, rfl, fun roots hok => ?_⟩
    · rcases mem_of_usageTarget? hc with hc | hc
      · exact h.fresh_of_mem_copies c hc
      · exact h.fresh_of_mem_copies c hc
    · cases hok
      exact h.fresh_of_mem_copies

/-- Whatever is put into the instance, it is settled in the same way. -/
theorem expandWith (h : Relocated r s t) (hx : r.Fresh x) {put : Scene → Detached → Expansion}
    (hput : ∀ {s t det}, Relocated r s t → r.Fresh det.id → (∀ u ∈ det.usage, r.Fresh u) →
      Agree r (put s det) (put t (det.rename r.move))) :
    Agree r (expandWith put s x) (Scene.expandWith put t (r.move x)) := by
  obtain ⟨hnone, hsome⟩ := h.detach? hx
  cases hdet : s.detach? x with
  | none =>
    simp only [Scene.expandWith, hdet, hnone hdet]
    exact h.refused _ _
  | some found =>
    obtain ⟨rfl, husage, bare', hdet', hbare⟩ := hsome found.1 found.2 hdet
    have hagree := hput hbare hx husage
    simp only [Scene.expandWith, hdet, hdet']
    rcases hagree.failed_or_ok with ⟨cause, cause', hout, hout'⟩ | ⟨roots, hout, hout'⟩
    · rw [hout, hout']
      have hcleared := hagree.scene.foldl_remove husage
      have hdressed := hcleared.modify hx
        (f := fun e => { e with look := found.2.decoration.applyTo e.look })
        (g := fun e => { e with look := found.2.decoration.applyTo e.look })
        (by constructor <;> intro <;> rfl) (by constructor <;> intro <;> rfl) (fun _ => rfl)
        fun _ hraw => ⟨hraw.1, hraw.2, hraw.3⟩
      exact ⟨hdressed.settleInstance hx (fun _ hu => absurd hu List.not_mem_nil)
        (fun _ hc => absurd hc List.not_mem_nil) .none, rfl, fun _ hok => by cases hok⟩
    · have hkept : (found.2.usage.map r.move).filter
          (put bare' (found.2.rename r.move)).scene.contains =
            (found.2.usage.filter (put found.1 found.2).scene.contains).map r.move := by
        rw [List.filter_map]
        exact congrArg (List.map r.move) (List.filter_congr fun u hu =>
          hagree.scene.contains_move (husage u hu))
      rw [hout, hout']
      refine ⟨?_, rfl, fun _ hok => ?_⟩
      · dsimp only
        rw [show (found.2.rename r.move).usage = found.2.usage.map r.move from rfl, hkept]
        exact hagree.scene.settleInstance hx (fun u hu => husage u (List.mem_filter.mp hu).1)
          (hagree.fresh roots hout) found.2.decoration
      · cases hok
        exact hagree.fresh roots hout

/-- Every instance of the copy is expanded into the same. -/
theorem uniform_expandWithin (d : Document) (st : Settings) (levels : Nat)
    (enclosing : List ComponentId) : Uniform r (expandWithin d st levels enclosing) := by
  induction levels generalizing enclosing with
  | zero => exact fun h hx => h.expandWith hx fun hbare _ _ => hbare.refused _ _
  | succ levels ih =>
    intro s t x h hx
    refine h.expandWith hx fun {s t det} hbare hid husage => ?_
    have hfind : findComponent d enclosing (det.rename r.move) = findComponent d enclosing det :=
      rfl
    rw [hfind]
    cases findComponent d enclosing det with
    | error cause => exact hbare.refused _ _
    | ok found =>
      dsimp only
      cases Template.read found.2.template with
      | error cause => exact hbare.refused _ _
      | ok tmpl => exact hbare.splice (ih _) d st found.1 tmpl hid husage

end Relocated

end Scene

end SceneTree
