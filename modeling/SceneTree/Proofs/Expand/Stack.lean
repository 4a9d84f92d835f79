import SceneTree.Proofs.Expand.Trace
import SceneTree.Proofs.Session.Usage

/-!
# Expansion ends

With more fuel than there are levels left, expansion on a stack ends,
gives what `expandWithin` gives, and leaves the stack as it found it,
whether or not it failed (`Ends`). The trace is sound: a stack never holds
a component twice, never grows longer than `maxDepth`, and a call from
within a call always has fewer levels left. So components may instantiate
one another in any pattern.

The induction is on the levels. What is carried along with it is that the
copies in a trace tell where the new elements came from (`Logged`): each
was made by one of them, and each copy was put under an instance that
was there when the expansion began, or under an element of another copy,
whose stack it began with.
-/

namespace SceneTree

/-- A stack is never in disorder, and a call has fewer levels left than the
one it is made from. -/
structure StackEvent.Sound (ev : StackEvent) : Prop where
  nodup : ev.stack.Nodup
  length_le : ev.stack.length ≤ maxDepth
  fewer : ∀ outer inner, ev = .called outer inner →
    maxDepth - inner.length < maxDepth - outer.length

namespace Scene

variable {d : Document} {st : Settings} {s t u : Scene} {Root Root' : Copying → Prop}
  {log log' : List Copying} {stack : List ComponentId} {levels : Nat}

/-! ## Where new elements come from -/

/-- While `s` became `t` the copies of `log` were made, in this order, and
nothing else was. Those that were not put under an element of an earlier
copy of the log are as `Root` says. -/
structure Logged (s : Scene) (Root : Copying → Prop) (t : Scene) (log : List Copying) : Prop where
  grows : s.Grows t
  /-- What is new is the copy of the node of its place. -/
  made : ∀ y e, s.slots.size ≤ y.index → t.get? y = some e →
    ∃ c ∈ log, c.Made y ∧ e.source = .template c.component (c.node y)
  within : ∀ c ∈ log, s.slots.size ≤ c.first.index ∧ c.first.index + c.count ≤ t.slots.size
  apart : log.Pairwise fun c c' => c.first.index + c.count ≤ c'.first.index
  before : ∀ c ∈ log, c.id.index < c.first.index
  nested : ∀ c ∈ log, Root c ∨ ∃ c' ∈ log, c'.Made c.id ∧ c.around = c'.stack

namespace Logged

/-- Without a new slot there is nothing to tell. -/
theorem still (hg : s.Grows t) (hsize : t.slots.size = s.slots.size) : Logged s Root t [] where
  grows := hg
  made y e hy he := by
    have := index_lt_of_contains (contains_of_get? he)
    omega
  within _ hc := absurd hc List.not_mem_nil
  apart := .nil
  before _ hc := absurd hc List.not_mem_nil
  nested _ hc := absurd hc List.not_mem_nil

/-- One after the other. The later copies may have been put under elements
of the earlier ones. -/
theorem trans (h : Logged s Root t log) (h' : Logged t Root' u log')
    (hroot : ∀ c, Root' c → Root c ∨ ∃ c' ∈ log, c'.Made c.id ∧ c.around = c'.stack) :
    Logged s Root u (log ++ log') where
  grows := h.grows.trans h'.grows
  made y e hy he := by
    by_cases hlt : y.index < t.slots.size
    · obtain ⟨e₀, he₀, hsource⟩ := h'.grows.source_of_lt hlt he
      obtain ⟨c, hc, hmade⟩ := h.made y e₀ hy he₀
      exact ⟨c, List.mem_append_left _ hc, hsource ▸ hmade⟩
    · obtain ⟨c, hc, hmade⟩ := h'.made y e (Nat.not_lt.mp hlt) he
      exact ⟨c, List.mem_append_right _ hc, hmade⟩
  within c hc := by
    have hst := h.grows.size_le
    have htu := h'.grows.size_le
    rcases List.mem_append.mp hc with hc | hc
    · have := h.within c hc
      omega
    · have := h'.within c hc
      omega
  apart := by
    refine List.pairwise_append.mpr ⟨h.apart, h'.apart, fun c hc c' hc' => ?_⟩
    have := (h.within c hc).2
    have := (h'.within c' hc').1
    omega
  before c hc := (List.mem_append.mp hc).elim (h.before c) (h'.before c)
  nested c hc := by
    have hleft : (∃ c' ∈ log, c'.Made c.id ∧ c.around = c'.stack) →
        ∃ c' ∈ log ++ log', c'.Made c.id ∧ c.around = c'.stack :=
      fun ⟨c', hc', hmade⟩ => ⟨c', List.mem_append_left _ hc', hmade⟩
    rcases List.mem_append.mp hc with hc | hc
    · exact (h.nested c hc).imp_right hleft
    · rcases h'.nested c hc with hr | ⟨c', hc', hmade⟩
      · exact (hroot c hr).imp_right hleft
      · exact .inr ⟨c', List.mem_append_right _ hc', hmade⟩

/-- Followed by what adds no slot. -/
theorem settle (h : Logged s Root t log) (hg : t.Grows u)
    (hsize : u.slots.size = t.slots.size) : Logged s Root u log := by
  have := h.trans (.still hg hsize : Logged t Root u []) fun _ hr => .inl hr
  rwa [List.append_nil] at this

/-- Preceded by what adds no slot. -/
theorem after (h : Logged t Root u log) (hg : s.Grows t)
    (hsize : t.slots.size = s.slots.size) : Logged s Root u log :=
  (still hg hsize).trans h fun _ hr => .inl hr

theorem weaken (h : Logged s Root t log) (hroot : ∀ c, Root c → Root' c) :
    Logged s Root' t log where
  grows := h.grows
  made := h.made
  within := h.within
  apart := h.apart
  before := h.before
  nested c hc := (h.nested c hc).imp_left (hroot c)

end Logged

/-! ## Stages that add no slot -/

theorem size_foldl {σ α : Type} (scene : σ → Scene) {f : σ → α → σ}
    (hf : ∀ w a, (scene (f w a)).slots.size = (scene w).slots.size) (w : σ) (l : List α) :
    (scene (l.foldl f w)).slots.size = (scene w).slots.size :=
  List.foldlRecOn (motive := fun w' => (scene w').slots.size = (scene w).slots.size) l f rfl
    fun w' hw' a _ => (hf w' a).trans hw'

theorem size_splicingLink (w : Splicing) (refusal : LinkFault → Notice) (p c : ElementId) :
    (w.link refusal p c).scene.slots.size = w.scene.slots.size := by
  unfold Splicing.link
  split
  next hl => exact size_link hl
  next => rfl

theorem size_placeUsage (det : Detached) (target : Option ElementId) (w : Splicing) :
    (placeUsage det target w).scene.slots.size = w.scene.slots.size := by
  unfold placeUsage
  split
  next target => exact size_foldl Splicing.scene (fun w _ => size_splicingLink w _ _ _) w det.usage
  next =>
    split
    next => rfl
    next => exact size_foldl_remove _ _

theorem size_detach? {id : ElementId} {det : Detached} (h : s.detach? id = some (t, det)) :
    t.slots.size = s.slots.size := by
  obtain ⟨e, i, -, -, rfl, -⟩ := eq_of_detach? h
  rw [strip, size_foldl_remove, size_foldl_remove, size_foldl_unlink, undress, size_modify]

/-- A copy that was made, linked and hung is all that is new. -/
theorem logged_attachRoots (d : Document) (st : Settings) (inst : Element)
    (component : ComponentId) (stack : List ComponentId) {det : Detached} (tmpl : Template)
    (hid : s.contains det.id) :
    Logged s (fun c => c.id = det.id ∧ c.around = stack)
      (attachRoots det (tmpl.roots.map s.copyId) (linkCopies det.component s.copyId tmpl
        (addTemplate d st inst component det.decoration tmpl s))).scene
      [{ id := det.id, component, around := stack, first := s.nextId,
          count := tmpl.nodes.length }] := by
  have hmade : s.Appended (addTemplate d st inst component det.decoration tmpl s).scene component 0
      tmpl.nodes.length := appended_addTemplate s tmpl
  refine Logged.settle (t := (addTemplate d st inst component det.decoration tmpl s).scene) ?_
    ((grows_linkCopies _ _ _ _).trans (grows_attachRoots det _ _)) ?_
  · refine ⟨grows_addTemplate d st inst component det.decoration tmpl s, fun y e hy he => ?_,
      fun c hc => ?_, List.pairwise_singleton _ _, fun c hc => ?_, fun c hc => ?_⟩
    · have hlt := index_lt_of_contains (contains_of_get? he)
      rw [hmade.size] at hlt
      obtain ⟨k, hk⟩ := Nat.exists_eq_add_of_le hy
      obtain ⟨ek, hek, hcopy, -⟩ := hmade.made k (by omega)
      have hyk : y = s.copyId k := by rw [copyId, nextId, ← hk]
      subst hyk
      cases he.symm.trans hek
      refine ⟨_, List.mem_singleton_self _, ⟨Nat.le_add_right _ _, hlt⟩, ?_⟩
      rw [hcopy.source, Copying.node, Nat.zero_add, copyId, Nat.add_sub_cancel_left]
    · rw [List.mem_singleton.mp hc, hmade.size]
      exact ⟨Nat.le_refl _, Nat.le_refl _⟩
    · rw [List.mem_singleton.mp hc]
      exact index_lt_of_contains hid
    · rw [List.mem_singleton.mp hc]
      exact .inl ⟨rfl, rfl⟩
  · refine (size_foldl Splicing.scene (fun w _ => size_splicingLink w _ _ _) _ _).trans ?_
    exact size_foldl Splicing.scene (fun w _ => size_splicingLink w _ _ _) _ _

/-! ## Work that ends -/

section

variable {α β σ : Type}

/-- With `least` fuel or more the work ends with `a` and leaves the stack as
it was. -/
structure Ends (least : Nat) (w : Nat → Work α) (stack : List ComponentId) (a : α)
    (trace : List StackEvent) : Prop where
  runs : ∀ fuel, least ≤ fuel → w fuel stack = some (a, stack, trace)
  sound : ∀ ev ∈ trace, ev.Sound

/-- The work ends with `a`, and its trace tells how `s` became `t`. -/
def Tells (least : Nat) (w : Nat → Work α) (stack : List ComponentId) (a : α) (s : Scene)
    (Root : Copying → Prop) (t : Scene) : Prop :=
  ∃ trace, Ends least w stack a trace ∧ Logged s Root t (StackEvent.copyings trace)

variable {least : Nat} {w : Nat → Work α} {next : Nat → α → Work β} {a : α} {b : β}
  {trace later : List StackEvent}

/-- Work that takes one more unit of fuel. -/
theorem Tells.succ {w' : Nat → Work α} (h : Tells least w stack a s Root t)
    (hw : ∀ fuel, w' (fuel + 1) = w fuel) : Tells (least + 1) w' stack a s Root t := by
  obtain ⟨trace, hends, hlogged⟩ := h
  refine ⟨trace, ⟨fun fuel hfuel => ?_, hends.sound⟩, hlogged⟩
  obtain ⟨fuel, rfl⟩ := Nat.exists_eq_add_of_lt (Nat.lt_of_lt_of_le (Nat.succ_pos _) hfuel)
  rw [Nat.zero_add, hw]
  exact hends.runs fuel (Nat.le_of_succ_le_succ (Nat.zero_add fuel ▸ hfuel))

/-- Work that begins with a look at the stack. -/
theorem Tells.onStack {w : Nat → List ComponentId → Work α}
    (h : Tells least (fun fuel => w fuel stack) stack a s Root t) :
    Tells least (fun fuel => Work.stack >>= w fuel) stack a s Root t := by
  obtain ⟨trace, hends, hlogged⟩ := h
  have hlook : Work.stack stack = some (stack, stack, []) := rfl
  exact ⟨trace, ⟨fun fuel hfuel => Work.bind_of_eq hlook (hends.runs fuel hfuel), hends.sound⟩,
    hlogged⟩

theorem Ends.pure (least : Nat) (stack : List ComponentId) (a : α) :
    Ends least (fun _ => Pure.pure a) stack a [] where
  runs _ _ := rfl
  sound _ hev := absurd hev List.not_mem_nil

theorem Ends.bind (hw : Ends least w stack a trace)
    (hnext : Ends least (fun fuel => next fuel a) stack b later) :
    Ends least (fun fuel => w fuel >>= next fuel) stack b (trace ++ later) where
  runs fuel hfuel := Work.bind_of_eq (hw.runs fuel hfuel) (hnext.runs fuel hfuel)
  sound ev hev := (List.mem_append.mp hev).elim (hw.sound ev) (hnext.sound ev)

theorem Ends.map (hw : Ends least w stack a trace) (f : α → β) :
    Ends least (fun fuel => do return f (← w fuel)) stack (f a) trace := by
  have hpure : Ends least (fun _ => (Pure.pure ∘ f) a) stack (f a) [] := .pure least stack (f a)
  have := hw.bind hpure
  rwa [List.append_nil] at this

/-- Work with a component on the stack, which is taken off afterwards. -/
theorem Ends.inside {component : ComponentId} {w : Nat → List ComponentId → Work α}
    (hw : Ends least (fun fuel => w fuel stack) (component :: stack) a trace)
    (hnodup : (component :: stack).Nodup) (hlen : (component :: stack).length ≤ maxDepth)
    (id first : ElementId) (count : Nat) (f : α → β) :
    Ends least (fun fuel => do
        let outer ← Work.stack
        Work.enter id component first count
        let a ← w fuel outer
        Work.leave
        return f a) stack (f a)
      (.entered { id, component, around := stack, first, count } ::
        (trace ++ [.left stack])) where
  runs fuel hfuel := by
    have hstack : Work.stack stack = some (stack, stack, []) := rfl
    have henter : Work.enter id component first count stack = some ((), component :: stack,
        [.entered { id, component, around := stack, first, count }]) := rfl
    have hleave : Work.leave (component :: stack) = some ((), stack, [.left stack]) := rfl
    exact Work.bind_of_eq hstack (Work.bind_of_eq henter (Work.bind_of_eq (hw.runs fuel hfuel)
      (Work.bind_of_eq hleave rfl)))
  sound ev hev := by
    rw [List.mem_cons, List.mem_append, List.mem_singleton] at hev
    rcases hev with rfl | hev | rfl
    · exact ⟨hnodup, hlen, fun _ _ h => by cases h⟩
    · exact hw.sound ev hev
    · exact ⟨hnodup.of_cons, Nat.le_of_succ_le hlen, fun _ _ h => by cases h⟩

theorem copyings_inside (c : Copying) (trace : List StackEvent) (stack : List ComponentId) :
    StackEvent.copyings (.entered c :: (trace ++ [.left stack])) =
      [c] ++ StackEvent.copyings trace := by
  change c :: StackEvent.copyings (trace ++ [.left stack]) = _
  rw [StackEvent.copyings_append, show StackEvent.copyings [.left stack] = [] from rfl,
    List.append_nil, List.singleton_append]

/-- Work on one scene after another, once for every member of a list. -/
theorem tells_foldlM (scene : σ → Scene) {f : Nat → σ → α → Work σ} {g : σ → α → σ} (l : List α)
    (hf : ∀ w, ∀ a ∈ l, Tells least (fun fuel => f fuel w a) stack (g w a) (scene w) Root
      (scene (g w a))) (w : σ) :
    Tells least (fun fuel => l.foldlM (f fuel) w) stack (l.foldl g w) (scene w) Root
      (scene (l.foldl g w)) := by
  induction l generalizing w with
  | nil => exact ⟨[], .pure least stack w, .still (.refl _) rfl⟩
  | cons a l ih =>
    obtain ⟨trace, hends, hlogged⟩ := hf w a List.mem_cons_self
    obtain ⟨later, hends', hlogged'⟩ :=
      ih (fun w a ha => hf w a (List.mem_cons_of_mem _ ha)) (g w a)
    refine ⟨trace ++ later, hends.bind hends', ?_⟩
    rw [StackEvent.copyings_append]
    exact hlogged.trans hlogged' fun _ hr => .inl hr

end

/-! ## One level -/

/-- An expansion below another: a call with fewer levels left. -/
theorem tells_expandNestedOn {nest : Nat → Scene → ElementId → Work Expansion}
    {nest' : Scene → ElementId → Expansion} {outer : List ComponentId}
    (hlt : outer.length < stack.length) (hnodup : stack.Nodup) (hlen : stack.length ≤ maxDepth)
    (hnest : ∀ s id, Tells levels (fun fuel => nest fuel s id) stack (nest' s id) s
      (fun c => c.id = id ∧ c.around = stack) (nest' s id).scene)
    (component : String) (w : Splicing) (id : ElementId) :
    Tells levels (fun fuel => expandNestedOn (nest fuel) outer component w id) stack
      (expandNested nest' component w id) w.scene (fun c => c.id = id ∧ c.around = stack)
      (expandNested nest' component w id).scene := by
  by_cases hinst : (w.scene.get? id).any (·.isInstance)
  · obtain ⟨trace, hends, hlogged⟩ := hnest w.scene id
    have hcall : Ends levels (fun _ => Work.call outer) stack () [.called outer stack] := by
      refine ⟨fun _ _ => rfl, fun ev hev => ?_⟩
      rw [List.mem_singleton.mp hev]
      refine ⟨hnodup, hlen, ?_⟩
      rintro _ _ ⟨⟩
      omega
    refine ⟨[.called outer stack] ++ trace, ?_, ?_⟩
    · simp only [expandNestedOn, expandNested, if_pos hinst]
      exact hcall.bind (hends.map _)
    · simp only [expandNested, if_pos hinst]
      exact hlogged
  · refine ⟨[], ?_, ?_⟩
    · simp only [expandNestedOn, expandNested, if_neg hinst]
      exact .pure levels stack w
    · simp only [expandNested, if_neg hinst]
      exact .still (.refl _) rfl

/-- A copy is made with its component on the stack, and the stack is as it
was after. -/
theorem tells_spliceOn {nest : Nat → Scene → ElementId → Work Expansion}
    {nest' : Scene → ElementId → Expansion} {component : ComponentId}
    (hnodup : (component :: stack).Nodup) (hlen : (component :: stack).length ≤ maxDepth)
    (hnest : ∀ s id, Tells levels (fun fuel => nest fuel s id) (component :: stack) (nest' s id) s
      (fun c => c.id = id ∧ c.around = component :: stack) (nest' s id).scene)
    (d : Document) (st : Settings) (tmpl : Template) (s : Scene) (det : Detached) :
    Tells levels (fun fuel => spliceOn d st (nest fuel) component tmpl s det) stack
      (splice d st nest' component tmpl s det) s (fun c => c.id = det.id ∧ c.around = stack)
      (splice d st nest' component tmpl s det).scene := by
  cases hinst : s.get? det.id with
  | none =>
    simp only [spliceOn, splice, hinst]
    exact ⟨[], .pure levels stack _, .still (.refl s) rfl⟩
  | some inst =>
    have hcopy := logged_attachRoots d st inst component stack tmpl (contains_of_get? hinst)
    let c : Copying :=
      { id := det.id, component, around := stack, first := s.nextId, count := tmpl.nodes.length }
    let copies := (List.range tmpl.nodes.length).map s.copyId
    let rooted := attachRoots det (tmpl.roots.map s.copyId) (linkCopies det.component s.copyId tmpl
      (addTemplate d st inst component det.decoration tmpl s))
    have hinside : ∀ id ∈ copies, c.Made id := fun id hid => by
      obtain ⟨k, hk, rfl⟩ := List.mem_map.mp hid
      exact ⟨Nat.le_add_right _ _, Nat.add_lt_add_left (List.mem_range.mp hk) _⟩
    have hturn (w : Splicing) (id : ElementId) (hid : id ∈ copies) :
        Tells levels (fun fuel => expandNestedOn (nest fuel) stack det.component w id)
          (component :: stack) (expandNested nest' det.component w id) w.scene
          (fun c' => c.Made c'.id ∧ c'.around = component :: stack)
          (expandNested nest' det.component w id).scene := by
      obtain ⟨trace, hends, hlogged⟩ := tells_expandNestedOn (Nat.lt_succ_self stack.length)
        hnodup hlen hnest det.component w id
      exact ⟨trace, hends, hlogged.weaken fun c' hc' => ⟨hc'.1 ▸ hinside id hid, hc'.2⟩⟩
    obtain ⟨trace, hends, hlogged⟩ := tells_foldlM Splicing.scene copies hturn rooted
    refine ⟨.entered c :: (trace ++ [.left stack]), ?_, ?_⟩
    · simp only [spliceOn, splice, hinst]
      exact hends.inside hnodup hlen det.id s.nextId tmpl.nodes.length _
    · have hnested := hcopy.trans hlogged fun c' hc' =>
        .inr ⟨c, List.mem_singleton_self c, hc'.1, hc'.2⟩
      rw [copyings_inside]
      simp only [splice, hinst]
      exact hnested.settle (grows_placeUsage det _ _) (size_placeUsage det _ _)

/-- Taking an instance apart and settling it has no part in the trace. -/
theorem tells_expandWithOn {put : Nat → Scene → Detached → Work Expansion}
    {put' : Scene → Detached → Expansion}
    (hput : ∀ s det, Tells levels (fun fuel => put fuel s det) stack (put' s det) s
      (fun c => c.id = det.id ∧ c.around = stack) (put' s det).scene)
    (s : Scene) (id : ElementId) :
    Tells levels (fun fuel => expandWithOn (put fuel) s id) stack (expandWith put' s id) s
      (fun c => c.id = id ∧ c.around = stack) (expandWith put' s id).scene := by
  cases hdet : s.detach? id with
  | none =>
    simp only [expandWithOn, expandWith, hdet]
    exact ⟨[], .pure levels stack _, .still (.refl s) rfl⟩
  | some found =>
    obtain ⟨bare, det⟩ := found
    obtain ⟨trace, hends, hlogged⟩ := hput bare det
    refine ⟨trace, ?_, ?_⟩
    · simp only [expandWithOn, hdet]
      have := hends.map fun x => expandWith (fun _ _ => x) s id
      simpa only [expandWith, hdet] using this
    · have hid : det.id = id := by
        obtain ⟨e, i, -, -, -, rfl⟩ := eq_of_detach? hdet
        rfl
      have hbare := (hid ▸ hlogged).after (grows_detach? hdet) (size_detach? hdet)
      simp only [expandWith, hdet]
      split
      next => exact hbare.settle (grows_settleInstance _ _ _ _ _) (size_modify _ _ _)
      next =>
        refine hbare.settle (.trans (grows_foldl_remove _ det.usage)
          (.trans (grows_modify _ id) (grows_settleInstance _ _ _ _ _))) ?_
        rw [settleInstance, size_modify, size_modify, size_foldl_remove]

/-! ## All levels -/

theorem not_mem_of_findComponent {enclosing : List ComponentId} {det : Detached}
    {found : ComponentId × Component} (h : findComponent d enclosing det = .ok found) :
    found.1 ∉ enclosing := by
  rw [findComponent] at h
  split at h
  next => cases h
  next =>
    split at h
    next => cases h
    next hnot =>
      cases h
      simpa using hnot

/-- A refusal: nothing is done and nothing written down. -/
theorem tells_refusal (levels : Nat) (stack : List ComponentId) (s : Scene) (cause : ExpandFault)
    (Root : Copying → Prop) :
    Tells levels (fun _ => pure { scene := s, notices := [], outcome := .error cause }) stack
      ({ scene := s, notices := [], outcome := .error cause } : Expansion) s Root s :=
  ⟨[], .pure levels stack _, .still (.refl s) rfl⟩

/-- Expansion on a stack ends with what `expandWithin` gives, whatever the
components are. -/
theorem tells_expandOn (d : Document) (st : Settings) (hnodup : stack.Nodup)
    (hlevels : stack.length + levels = maxDepth) (s : Scene) (id : ElementId) :
    Tells (levels + 1) (fun fuel => expandOn d st fuel s id) stack
      (expandWithin d st levels stack s id) s (fun c => c.id = id ∧ c.around = stack)
      (expandWithin d st levels stack s id).scene := by
  induction levels generalizing stack s id with
  | zero =>
    rw [expandWithin]
    refine (tells_expandWithOn (fun s det => Tells.onStack ?_) s id).succ fun fuel => by
      rw [expandOn]
    cases hfind : findComponent d stack det with
    | error cause => exact tells_refusal 0 stack s cause _
    | ok found =>
      simp only [if_pos (Nat.le_of_eq hlevels.symm : maxDepth ≤ stack.length)]
      exact tells_refusal 0 stack s (.tooDeep maxDepth) _
  | succ levels ih =>
    rw [expandWithin]
    refine (tells_expandWithOn (fun s det => Tells.onStack ?_) s id).succ fun fuel => by
      rw [expandOn]
    cases hfind : findComponent d stack det with
    | error cause => exact tells_refusal (levels + 1) stack s cause _
    | ok found =>
      have hlt : ¬ maxDepth ≤ stack.length := by omega
      simp only [if_neg hlt]
      cases hread : Template.read found.2.template with
      | error cause => exact tells_refusal (levels + 1) stack s (.badTemplate det.component cause) _
      | ok tmpl =>
        have hnodup' : (found.1 :: stack).Nodup :=
          List.nodup_cons.mpr ⟨not_mem_of_findComponent hfind, hnodup⟩
        refine tells_spliceOn hnodup' ?_ (ih hnodup' ?_) d st tmpl s det
        · rw [List.length_cons]
          omega
        · rw [List.length_cons]
          omega

/-- A turn of expanding everything. -/
theorem tells_expandPendingOn (d : Document) (st : Settings) (run : ExpansionRun)
    (id : ElementId) :
    Tells (maxDepth + 1) (fun fuel => expandPendingOn d st fuel run id) []
      (expandPending d st run id) run.scene (fun c => c.around = [])
      (expandPending d st run id).scene := by
  by_cases hpend : (run.scene.get? id).any (·.isPending)
  · obtain ⟨trace, hends, hlogged⟩ :=
      tells_expandOn d st .nil (Nat.zero_add maxDepth) run.scene id
    refine ⟨trace, ⟨fun fuel hfuel => ?_, hends.sound⟩, ?_⟩
    · have hrun := hends.runs fuel hfuel
      simp only [expandPendingOn, expandPending, if_pos hpend]
      rw [← List.append_nil trace]
      refine Work.bind_of_eq hrun ?_
      cases hout : (expandWithin d st maxDepth [] run.scene id).outcome with
      | ok roots => simp only [expand, hout]; rfl
      | error cause => simp only [expand, hout]; rfl
    · have hscene : (expandPending d st run id).scene = (run.scene.expand d st id).scene := by
        simp only [expandPending, if_pos hpend]
        split <;> rfl
      rw [hscene]
      exact hlogged.weaken fun c hc => hc.2
  · refine ⟨[], ?_, ?_⟩
    · simp only [expandPendingOn, expandPending, if_neg hpend]
      exact .pure _ _ _
    · simp only [expandPending, if_neg hpend]
      exact .still (.refl _) rfl

theorem tells_expandAllOn (d : Document) (st : Settings) (s : Scene) :
    Tells (maxDepth + 1) (fun fuel => expandAllOn d st fuel s) [] (s.expandAll d st) s
      (fun c => c.around = []) (s.expandAll d st).scene :=
  tells_foldlM ExpansionRun.scene _ (fun run id _ => tells_expandPendingOn d st run id) _

/-- Whatever the components of a document are, expanding all of it ends,
and so does expanding any element of any scene inside components that are
on the stack. Both give the stack back, and neither ever has a component on
it twice, or more than `maxDepth`, or makes a call with no fewer levels
left. -/
theorem expansion_ends (d : Document) (st : Settings) :
    (∃ trace, Ends (maxDepth + 1) (fun fuel => expandAllOn d st fuel (Session.linkedScene d st).1) []
      ((Session.linkedScene d st).1.expandAll d st) trace) ∧
    ∀ (s : Scene) (id : ElementId) (stack : List ComponentId), stack.Nodup →
      stack.length ≤ maxDepth → ∃ trace, Ends (maxDepth - stack.length + 1)
        (fun fuel => expandOn d st fuel s id) stack
        (expandWithin d st (maxDepth - stack.length) stack s id) trace := by
  refine ⟨?_, fun s id stack hnodup hlen => ?_⟩
  · obtain ⟨trace, hends, -⟩ := tells_expandAllOn d st (Session.linkedScene d st).1
    exact ⟨trace, hends⟩
  · obtain ⟨trace, hends, -⟩ := tells_expandOn d st hnodup (Nat.add_sub_cancel' hlen) s id
    exact ⟨trace, hends⟩

end Scene

/-- A component that is nothing but itself. -/
def Document.loop : Document :=
  { Document.blank with
    strings := ["", componentKey, "Loop"]
    records := [{ Record.ofHeader (.ofWidget .app) with childRefs := [18] }, .standIn 2 []]
    offsets := [0, 18]
    components := [{ name := "Loop", parameters := [], template := (Record.standIn 2 []).toBytes }] }

namespace Scene

/-- Inside itself the component is refused, and the stack is given back. -/
theorem loop_expansion_ends :
    let st := Settings.ofDocument .loop
    let s := (Session.linkedScene .loop st).1
    (expandWithin .loop st 31 [⟨0⟩] s ⟨1⟩).outcome = .error (.recursive "Loop") ∧
      ∃ trace, Ends 32 (fun fuel => expandOn .loop st fuel s ⟨1⟩) [⟨0⟩]
        (expandWithin .loop st 31 [⟨0⟩] s ⟨1⟩) trace :=
  ⟨rfl, (expansion_ends .loop _).2 _ ⟨1⟩ [⟨0⟩] (by decide) (by decide)⟩

end Scene

end SceneTree
