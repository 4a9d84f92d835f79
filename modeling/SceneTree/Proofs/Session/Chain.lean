import SceneTree.Proofs.Expand.Stack
import SceneTree.Proofs.Session.Rest

/-!
# Components within components

An element made by expansion comes from the template of a component. If
the instance it was made for was made by expansion too, that one comes
from a component as well, and so on: this is the chain of the element
(`chain`). It is read off a log of all copies that were made since the
document was loaded (`Session.Recorded`).

Within one expansion the chain is the stack, and so no component is on it
twice. But each call of `reexpand` begins with an empty stack. When an
instance inside a copy is expanded again, what was around it is not looked
at: the chain then is the stack followed by the chain of that instance
(`Recorded.chain_eq`), and a component that was refused before can be put
into itself.
-/

namespace SceneTree

/-- The copies that work makes when it begins with an empty stack. -/
def Work.log {α : Type} (w : Work α) : List Copying :=
  match w [] with
  | some (_, _, trace) => StackEvent.copyings trace
  | none => []

/-! ## Chains -/

/-- The copying in which an element was made. -/
def maker? (log : List Copying) (id : ElementId) : Option Copying := log.find? (·.Made id)

/-- The chain of an element, as far as it goes in `steps` steps. -/
def chainWithin (log : List Copying) : Nat → ElementId → List ComponentId
  | 0, _ => []
  | steps + 1, id =>
    match maker? log id with
    | some c => c.component :: chainWithin log steps c.id
    | none => []

/-- The component an element comes from, the component the instance it was
made for comes from, and so on. Ids go down along the chain. -/
def chain (log : List Copying) (id : ElementId) : List ComponentId :=
  chainWithin log (id.index + 1) id

namespace Scene

variable {s t : Scene} {Root : Copying → Prop} {log : List Copying} {c : Copying}
  {id : ElementId}

theorem Tells.logged {α : Type} {least fuel : Nat} {w : Nat → Work α} {a : α}
    (h : Tells least w [] a s Root t) (hfuel : least ≤ fuel) :
    Logged s Root t (w fuel).log ∧
      ∀ c ∈ (w fuel).log, c.stack.Nodup ∧ c.stack.length ≤ maxDepth := by
  obtain ⟨trace, hends, hlogged⟩ := h
  have hlog : (w fuel).log = StackEvent.copyings trace := by
    simp only [Work.log, hends.runs fuel hfuel]
  rw [hlog]
  refine ⟨hlogged, fun c hc => ?_⟩
  obtain ⟨ev, hev, hcopying⟩ := List.mem_filterMap.mp hc
  cases ev with
  | entered c' =>
    cases hcopying
    have hsound := hends.sound _ hev
    exact ⟨hsound.nodup, hsound.length_le⟩
  | called outer inner => cases hcopying
  | left stack => cases hcopying

namespace Logged

/-- No element was made twice. -/
theorem maker?_eq (h : Logged s Root t log) (hc : c ∈ log) (hm : c.Made id) :
    maker? log id = some c := by
  have hapart := h.apart
  clear h
  rw [maker?]
  induction log with
  | nil => exact absurd hc List.not_mem_nil
  | cons a log ih =>
    rw [List.pairwise_cons] at hapart
    rcases List.mem_cons.mp hc with rfl | hc
    · exact List.find?_cons_of_pos (decide_eq_true hm)
    · have hne : ¬ a.Made id := fun ha => by
        have := hapart.1 c hc
        have := ha.2
        have := hm.1
        omega
      rw [List.find?_cons_of_neg (by simpa using hne)]
      exact ih hc hapart.2

theorem of_maker?_eq (h : maker? log id = some c) : c ∈ log ∧ c.Made id :=
  ⟨List.mem_of_find?_eq_some h, by simpa using List.find?_some h⟩

/-- The chain ends before the steps do. -/
theorem chainWithin_eq (h : Logged s Root t log) {steps : Nat} (hsteps : id.index < steps) :
    chainWithin log steps id = chain log id := by
  suffices hle : ∀ (n steps : Nat) (id : ElementId), id.index < n → n ≤ steps →
      chainWithin log steps id = chainWithin log n id from
    hle (id.index + 1) steps id (Nat.lt_succ_self _) hsteps
  intro n
  induction n with
  | zero => exact fun _ _ hlt => absurd hlt (Nat.not_lt_zero _)
  | succ n ih =>
    intro steps id hlt hle
    obtain ⟨k, rfl⟩ : ∃ k, steps = k + 1 := ⟨steps - 1, by omega⟩
    simp only [chainWithin]
    cases hmade : maker? log id with
    | none => rfl
    | some c =>
      obtain ⟨hc, hm⟩ := of_maker?_eq hmade
      have := h.before c hc
      have := hm.1
      exact congrArg (c.component :: ·) (ih k c.id (by omega) (by omega))

theorem chain_of_made (h : Logged s Root t log) (hc : c ∈ log) (hm : c.Made id) :
    chain log id = c.component :: chain log c.id := by
  have hlt : c.id.index < id.index := Nat.lt_of_lt_of_le (h.before c hc) hm.1
  rw [chain, chainWithin, h.maker?_eq hc hm]
  exact congrArg (c.component :: ·) (h.chainWithin_eq hlt)

/-- What was there before the first copy has no chain. -/
theorem chain_of_lt (h : Logged s Root t log) (hid : id.index < s.slots.size) :
    chain log id = [] := by
  have hnone : maker? log id = none := List.find?_eq_none.mpr fun c hc hm => by
    have := (h.within c hc).1
    have := (of_decide_eq_true hm : c.Made id).1
    omega
  rw [chain, chainWithin, hnone]

/-- A chain is the stack with which the copy was made, and then the chain of
the instance where that expansion began. -/
theorem exists_stack_append (h : Logged s (fun c => c.around = []) t log) (hc : c ∈ log)
    (hm : c.Made id) :
    ∃ start ∈ log, start.around = [] ∧ chain log id = c.stack ++ chain log start.id := by
  induction hn : id.index using Nat.strongRecOn generalizing id c with
  | _ n ih =>
    subst hn
    rw [h.chain_of_made hc hm]
    by_cases hroot : c.around = []
    · refine ⟨c, hc, hroot, ?_⟩
      rw [Copying.stack, hroot, List.singleton_append]
    · obtain ⟨c', hc', hm', haround⟩ := (h.nested c hc).resolve_left hroot
      have hlt : c.id.index < id.index := Nat.lt_of_lt_of_le (h.before c hc) hm.1
      obtain ⟨start, hstart, hnone, hchain⟩ := ih c.id.index hlt hc' hm' rfl
      refine ⟨start, hstart, hnone, ?_⟩
      rw [hchain, ← haround]
      rfl

end Logged

end Scene

/-! ## Sessions -/

namespace Session

open Scene (Logged)

/-- Sessions and the copies that were made in them, in order. What begins a
new log is loading; what adds to it is expanding an instance again. -/
inductive Recorded (d : Document) : Session → List Copying → Prop
  | load {handlers : Handlers} {options : SessionOptions} {s : Session} {notices : List Notice}
      (h : Session.load d handlers options = (.ok s, notices)) :
      Recorded d s (Scene.expandAllOn d (Settings.ofDocument d) (maxDepth + 1)
        (linkedScene d (Settings.ofDocument d)).1).log
  | frame {s : Session} {log : List Copying} (h : Recorded d s log) : Recorded d s.frame.1 log
  | resize {s : Session} {log : List Copying} (h : Recorded d s log) (viewport : Size) :
      Recorded d (s.resize viewport) log
  | reexpand {s : Session} {log : List Copying} (h : Recorded d s log) (id : ElementId) :
      Recorded d (s.reexpand id).1
        (log ++ (Scene.expandOn s.document s.settings (maxDepth + 1) s.scene id).log)
  | point {s : Session} {log : List Copying} (h : Recorded d s log) (action : PointerAction)
      (x y : Int) : Recorded d (s.point action x y).1 log
  | equip {s : Session} {log : List Copying} (h : Recorded d s log) (handlers : Handlers) :
      Recorded d { s with handlers } log

variable {d : Document} {s : Session} {log : List Copying} {id : ElementId} {e : Element}

theorem Recorded.reachable (h : Recorded d s log) : Reachable d s := by
  induction h with
  | load h => exact .load h
  | frame _ ih => exact .frame ih
  | resize _ viewport ih => exact .resize ih viewport
  | reexpand _ id ih => exact .reexpand ih id
  | point _ action x y ih => exact .point ih action x y
  | equip _ handlers ih => exact .equip ih handlers

/-- Whatever is done to a session, there is a log of it. -/
theorem Reachable.exists_recorded (h : Reachable d s) : ∃ log, Recorded d s log := by
  induction h with
  | load h => exact ⟨_, .load h⟩
  | frame _ ih =>
    obtain ⟨log, ih⟩ := ih
    exact ⟨log, .frame ih⟩
  | resize _ viewport ih =>
    obtain ⟨log, ih⟩ := ih
    exact ⟨log, .resize ih viewport⟩
  | reexpand _ id ih =>
    obtain ⟨log, ih⟩ := ih
    exact ⟨_, .reexpand ih id⟩
  | point _ action x y ih =>
    obtain ⟨log, ih⟩ := ih
    exact ⟨log, .point ih action x y⟩
  | equip _ handlers ih =>
    obtain ⟨log, ih⟩ := ih
    exact ⟨log, .equip ih handlers⟩

/-- The log tells how the scene came of the linked document, and every copy
in it was made with a stack in order. -/
theorem Recorded.logged (h : Recorded d s log) :
    Logged (linkedScene d (Settings.ofDocument d)).1 (fun c => c.around = []) s.scene log ∧
      ∀ c ∈ log, c.stack.Nodup ∧ c.stack.length ≤ maxDepth := by
  induction h with
  | load h =>
    obtain ⟨hlogged, hstack⟩ := (Scene.tells_expandAllOn d (Settings.ofDocument d)
      (linkedScene d (Settings.ofDocument d)).1).logged (Nat.le_refl _)
    exact ⟨hlogged.settle (rewrites_load h).grows (rewrites_load h).sameShape.size, hstack⟩
  | frame _ ih =>
    exact ⟨ih.1.settle (rewrites_frame _).grows (rewrites_frame _).sameShape.size, ih.2⟩
  | @resize s _ _ viewport ih =>
    obtain ⟨dirty, heq⟩ := s.resize_eq viewport
    exact heq ▸ ih
  | @reexpand s log h id ih =>
    obtain ⟨hlogged, hstack⟩ := (Scene.tells_expandOn s.document s.settings .nil
      (Nat.zero_add maxDepth) s.scene id).logged (Nat.le_refl _)
    have hrewrites := s.rewrites_reexpand id
    refine ⟨.trans ih.1 (hlogged.settle hrewrites.grows hrewrites.sameShape.size)
      fun c hc => .inl hc.2, fun c hc => ?_⟩
    exact (List.mem_append.mp hc).elim (ih.2 c) (hstack c)
  | point _ _ _ _ ih => exact ih
  | equip _ _ ih => exact ih

/-- The chain of an element made by expansion begins with the stack with
which its copy was made, on which no component is twice, and goes on with
the chain of the instance where that expansion began. So the chain is in
order as long as only instances of the document are expanded again. -/
theorem Recorded.chain_eq (h : Recorded d s log) {component : ComponentId} {node : Nat}
    (he : s.scene.get? id = some e) (hsource : e.source = .template component node) :
    ∃ c ∈ log, c.Made id ∧ c.component = component ∧ c.node id = node ∧
      c.stack.Nodup ∧ c.stack.length ≤ maxDepth ∧
      (∃ start ∈ log, start.around = [] ∧ chain log id = c.stack ++ chain log start.id) ∧
      ((∀ start ∈ log, start.around = [] → start.id.index < d.records.length) →
        (chain log id).Nodup ∧ (chain log id).length ≤ maxDepth) := by
  obtain ⟨hlogged, hstack⟩ := h.logged
  have hsize := (Scene.linkedScene_alone? d (Settings.ofDocument d)).1
  have hfits := h.reachable.standing.fits id e he
  rw [hsource] at hfits
  obtain ⟨c, hc, hm, hmade⟩ := hlogged.made id e (hsize ▸ hfits) he
  obtain ⟨hcomponent, hnode⟩ : component = c.component ∧ node = c.node id := by
    rw [hsource] at hmade
    exact ⟨(Source.template.inj hmade).1, (Source.template.inj hmade).2⟩
  obtain ⟨start, hstart, hroot, hchain⟩ := hlogged.exists_stack_append hc hm
  obtain ⟨hnodup, hlen⟩ := hstack c hc
  refine ⟨c, hc, hm, hcomponent.symm, hnode.symm, hnodup, hlen, ⟨start, hstart, hroot, hchain⟩,
    fun hdocument => ?_⟩
  rw [hchain, hlogged.chain_of_lt (hsize ▸ hdocument start hstart hroot), List.append_nil]
  exact ⟨hnodup, hlen⟩

/-- In a component that is nothing but another component, the element of
the inner one has both on its chain. -/
theorem nested_chain : ∃ s notices log e, load .nested .none .standard = (.ok s, notices) ∧
    Recorded .nested s log ∧ s.scene.get? ⟨4⟩ = some e ∧ e.source = .template ⟨0⟩ 0 ∧
    chain log ⟨4⟩ = [⟨0⟩, ⟨1⟩] ∧
    ∃ c ∈ log, c.Made ⟨4⟩ ∧ c.component = ⟨0⟩ ∧ c.node ⟨4⟩ = 0 ∧
      c.stack.Nodup ∧ c.stack.length ≤ maxDepth ∧
      (∃ start ∈ log, start.around = [] ∧ chain log ⟨4⟩ = c.stack ++ chain log start.id) ∧
      ((∀ start ∈ log, start.around = [] → start.id.index < Document.nested.records.length) →
        (chain log ⟨4⟩).Nodup ∧ (chain log ⟨4⟩).length ≤ maxDepth) := by
  have hload : load .nested .none .standard = (.ok _, _) := rfl
  exact ⟨_, _, _, _, hload, .load hload, rfl, rfl, rfl, Recorded.chain_eq (.load hload) rfl rfl⟩

/-- The instance in a copy of its own component was refused when the
document was loaded. Expanded again, it gets the copy, and the component is
in itself. -/
theorem loop_in_itself : ∃ s notices log e, load .loop .none .standard = (.ok s, notices) ∧
    Recorded .loop (s.reexpand ⟨2⟩).1 log ∧ (s.reexpand ⟨2⟩).2.1 = .ok [⟨3⟩] ∧
    (s.reexpand ⟨2⟩).1.scene.get? ⟨3⟩ = some e ∧ e.source = .template ⟨0⟩ 0 ∧
    ¬ (chain log ⟨3⟩).Nodup := by
  have hload : load .loop .none .standard = (.ok _, _) := rfl
  exact ⟨_, _, _, _, hload, .reexpand (.load hload) ⟨2⟩, rfl, rfl, rfl, by decide⟩

end Session

end SceneTree
