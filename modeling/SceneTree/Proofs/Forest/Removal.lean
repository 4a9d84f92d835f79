import SceneTree.Proofs.Forest.Folds
import SceneTree.Proofs.Forest.Runs

/-!
# Removal

What is below an element is found in two ways. The walk down keeps a list
of pending ids, takes the first and puts its children in its place; the
walk up from an element asks whether the other is met. In a forest both
give the same elements (`Forest.mem_descendants_iff`), and the walk down
gives them in the order of the recursion on children. `ListsSubtrees` is
that recursion, without a bound on its depth. In a forest it has one
solution only, for what it says of an element follows from what it says of
the children (`Forest.listsSubtrees_iff`).

A removal frees the slots of these elements. The one edge that led into
them is cut before, at its upper end by taking the element from among the
children of its parent (`Forest.removes_what_is_below`).
-/

namespace SceneTree

namespace Scene

variable {s : Scene} {id x p : ElementId} {f g : ElementId → List ElementId}

/-- `f` lists subtrees by recursion: nothing for an id that is not live,
and for a live one the id itself and then what it lists for the children
in their order. -/
structure ListsSubtrees (s : Scene) (f : ElementId → List ElementId) : Prop where
  dead : ∀ {id : ElementId}, ¬ s.contains id → f id = []
  live : ∀ {id : ElementId} {e : Element}, s.get? id = some e → f id = id :: e.children.flatMap f

/-- `t` is `s` without `id` and what is below it. -/
structure Without (s t : Scene) (id : ElementId) : Prop where
  size : t.slots.size = s.slots.size
  freed : ∀ x ∈ s.descendants id, t.get? x = none
  kept : ∀ x ∉ s.descendants id, s.parent? id ≠ some x → t.get? x = s.get? x
  parent : ∀ p, s.parent? id = some p → ∃ e before after, s.get? p = some e ∧
    e.children = before ++ id :: after ∧ t.get? p = some { e with children := before ++ after }

namespace Forest

/-! ## The recursion and the walks -/

theorem listsSubtrees_descendants (h : s.Forest) : s.ListsSubtrees s.descendants where
  dead {id} hid := by
    rw [h.descendants_eq]
    exact subtreeWithin_of_not_contains hid _
  live {id e} he := by
    rw [h.descendants_eq, h.subtree_of_get? he]
    exact congrArg (id :: ·) (List.flatMap_congr fun c _ => (h.descendants_eq c).symm)

/-- The recursion has no two solutions. -/
theorem listsSubtrees_unique (h : s.Forest) (hf : s.ListsSubtrees f) (hg : s.ListsSubtrees g) :
    f = g := by
  funext id
  by_cases hid : s.contains id
  · refine h.leaves_up (P := fun x => f x = g x) (fun x e he ih => ?_) hid
    rw [hf.live he, hg.live he, List.flatMap_congr ih]
  · rw [hf.dead hid, hg.dead hid]

theorem listsSubtrees_iff (h : s.Forest) : s.ListsSubtrees f ↔ f = s.descendants := by
  refine ⟨fun hf => h.listsSubtrees_unique hf h.listsSubtrees_descendants, ?_⟩
  rintro rfl
  exact h.listsSubtrees_descendants

theorem mem_descendants_iff (h : s.Forest) :
    x ∈ s.descendants id ↔ s.contains x ∧ s.isAtOrAbove id x := by
  rw [h.mem_descendants, h.isAtOrAbove_iff]

/-! ## What a removal leaves -/

/-- The parent loses the element from among its children and keeps the
others as they are. -/
theorem get?_remove_parent (h : s.Forest) (hp : s.parent? id = some p) :
    ∃ e before after, s.get? p = some e ∧ e.children = before ++ id :: after ∧
      (s.remove id).get? p = some { e with children := before ++ after } := by
  obtain ⟨e, he⟩ := contains_iff.mp (h.contains_parent hp)
  have hnodup := h.children_nodup p
  have hmem := h.mirror.mpr hp
  rw [children_of_get? he] at hnodup hmem
  obtain ⟨before, after, hchildren⟩ := List.append_of_mem hmem
  have hrest : e.children.filter (· ≠ id) = before ++ after := by
    rw [hchildren, List.nodup_middle, List.nodup_cons] at hnodup
    rw [hchildren, List.filter_append, List.filter_cons_of_neg (by simp), ← List.filter_append]
    exact filter_ne_eq_self hnodup.1
  refine ⟨e, before, after, he, hchildren, ?_⟩
  rw [h.get?_remove_of_not_atOrAbove (h.not_atOrAbove_parent hp), he, Option.map_some, hrest]

theorem without_remove (h : s.Forest) (id : ElementId) : s.Without (s.remove id) id where
  size := size_remove s id
  freed _ hx := h.get?_remove_of_atOrAbove (h.mem_descendants.mp hx).2
  kept x hx hp := by
    by_cases ha : s.AtOrAbove id x
    · -- below the element, and not among what is freed: it was not live
      have hdead : ¬ s.contains x := fun hlive => hx (h.mem_descendants.mpr ⟨hlive, ha⟩)
      rw [h.get?_remove_of_atOrAbove ha, Option.not_isSome_iff_eq_none.mp hdead]
    · exact h.get?_remove ha hp
  parent _ hp := h.get?_remove_parent hp

/-- The walk down is the recursion on children, ends by itself, and meets
each live element once from which the walk up comes to the first. These
are the elements that a removal frees and counts, and of what stays only
the parent of the first is different: it has one child less, the others
being in the order they were in. -/
theorem removes_what_is_below (h : s.Forest) (id : ElementId) :
    ((∀ f, s.ListsSubtrees f ↔ f = s.descendants) ∧
      ∀ steps, s.slots.size ≤ steps →
        (s.visitWithin (fun _ => true) steps [id]).map (·.id) = s.descendants id) ∧
    (s.descendants id).Nodup ∧
    (∀ x, (x ∈ s.descendants id ↔ s.contains x ∧ s.isAtOrAbove id x) ∧
      (s.isAtOrAbove id x ↔ s.AtOrAbove id x)) ∧
    s.removedCount id = (s.descendants id).length ∧
    s.Without (s.remove id) id := by
  refine ⟨⟨fun f => h.listsSubtrees_iff, fun steps hsteps => ?_⟩, ?_,
    fun x => ⟨h.mem_descendants_iff, h.isAtOrAbove_iff⟩, ?_, h.without_remove id⟩
  · rw [h.map_visitWithin_singleton hsteps, h.descendants_eq]
  · rw [h.descendants_eq]
    exact h.subtree_nodup id
  · rw [h.removedCount_eq, h.descendants_eq]

end Forest

/-- A root with three children, of which the second has two of its own,
and the first of these one. -/
def branching : Scene := empty.after
  [.push (.document 0) (.ofWidget .app), .push (.document 1) (.ofWidget .container),
    .push (.document 2) (.ofWidget .container), .push (.document 3) (.ofWidget .container),
    .push (.document 4) (.ofWidget .container), .push (.document 5) (.ofWidget .container),
    .push (.document 6) (.ofWidget .container), .link ⟨0⟩ ⟨1⟩, .link ⟨0⟩ ⟨6⟩, .link ⟨0⟩ ⟨2⟩,
    .link ⟨6⟩ ⟨5⟩, .link ⟨6⟩ ⟨3⟩, .link ⟨5⟩ ⟨4⟩]

/-- With the second child four elements go, and the other two children
stay in their order. -/
theorem branching_removed :
    branching.Forest ∧ branching.descendants ⟨6⟩ = [⟨6⟩, ⟨5⟩, ⟨4⟩, ⟨3⟩] ∧
    branching.removedCount ⟨6⟩ = 4 ∧
    (∀ x ∈ branching.descendants ⟨6⟩, (branching.remove ⟨6⟩).get? x = none) ∧
    (branching.remove ⟨6⟩).get? ⟨1⟩ = branching.get? ⟨1⟩ ∧
    (branching.remove ⟨6⟩).children ⟨0⟩ = [⟨1⟩, ⟨2⟩] := by
  have hforest : branching.Forest := forest_after _
  obtain ⟨-, -, -, hcount, hwithout⟩ := hforest.removes_what_is_below ⟨6⟩
  have hbelow : branching.descendants ⟨6⟩ = [⟨6⟩, ⟨5⟩, ⟨4⟩, ⟨3⟩] := by decide +kernel
  have hkept := hwithout.kept ⟨1⟩ (by rw [hbelow]; decide) (by decide +kernel)
  refine ⟨hforest, hbelow, by rw [hcount, hbelow]; rfl, hwithout.freed, hkept, ?_⟩
  decide +kernel

end Scene

end SceneTree
