import Mathlib.Data.List.Perm.Basic
import SceneTree.Proofs.Forest.Basic

/-!
# Subtrees

The subtree of an element by recursion on its children: the element, then
the subtrees of its children in their order. In a forest this is what the
walk down with a list of pending ids visits (`Forest.descendants_eq`), it
holds exactly the live elements at or below the first, each once, and the
subtrees of the roots part the live elements among them
(`Forest.subtrees_perm`).

The recursion counts levels, not visits. A level needs a live element on
it, so there are never more levels than slots, and `subtree` starts with
enough of them. By the same count what passes from the children of an
element to the element holds everywhere (`Forest.leaves_up`).
-/

namespace SceneTree

namespace Scene

variable {s : Scene} {e : Element} {id x p c : ElementId}

/-- An element and what lies up to `levels - 1` levels below it, parents
before children. -/
def subtreeWithin (s : Scene) : (levels : Nat) → ElementId → List ElementId
  | 0, _ => []
  | levels + 1, id =>
    match s.get? id with
    | none => []
    | some e => id :: e.children.flatMap (s.subtreeWithin levels)

/-- An element and all below it, parents before children. -/
def subtree (s : Scene) (id : ElementId) : List ElementId := s.subtreeWithin s.slots.size id

theorem subtreeWithin_succ_of_get? (h : s.get? id = some e) (n : Nat) :
    s.subtreeWithin (n + 1) id = id :: e.children.flatMap (s.subtreeWithin n) := by
  simp only [subtreeWithin, h]

theorem subtreeWithin_of_not_contains (h : ¬ s.contains id) (n : Nat) :
    s.subtreeWithin n id = [] := by
  cases n with
  | zero => rfl
  | succ n => simp only [subtreeWithin, Option.not_isSome_iff_eq_none.mp h]

namespace Forest

/-! ## Levels -/

/-- Levels beyond the deepest live one add nothing. An element with a
lineage of length `k` needs no more than `slots - k + 1` of them. -/
theorem subtreeWithin_eq (h : s.Forest) {n m : Nat} (hn : s.slots.size < n + (s.lineage id).length)
    (hm : n ≤ m) : s.subtreeWithin m id = s.subtreeWithin n id := by
  induction n generalizing id m with
  | zero =>
    have hdead : ¬ s.contains id := fun hid => by
      have := h.length_lineage_le hid
      omega
    rw [subtreeWithin_of_not_contains hdead, subtreeWithin_of_not_contains hdead]
  | succ n ih =>
    obtain ⟨k, rfl⟩ : ∃ k, m = k + 1 := ⟨m - 1, by omega⟩
    cases he : s.get? id with
    | none => simp only [subtreeWithin, he]
    | some e =>
      rw [subtreeWithin_succ_of_get? he, subtreeWithin_succ_of_get? he]
      congr 1
      refine List.flatMap_congr fun c hc => ih ?_ (by omega)
      rw [← children_of_get? he] at hc
      rw [h.lineage_of_parent? (h.mirror.mp hc), List.length_cons]
      omega

theorem length_lineage_pos (h : s.Forest) (id : ElementId) : 0 < (s.lineage id).length :=
  List.length_pos_of_mem (h.mem_lineage_iff.mpr .refl)

theorem subtreeWithin_eq_subtree (h : s.Forest) {m : Nat} (hm : s.slots.size ≤ m)
    (id : ElementId) : s.subtreeWithin m id = s.subtree id :=
  h.subtreeWithin_eq (by have := h.length_lineage_pos id; omega) hm

theorem subtree_of_get? (h : s.Forest) (he : s.get? id = some e) :
    s.subtree id = id :: e.children.flatMap s.subtree := by
  rw [← h.subtreeWithin_eq_subtree (Nat.le_succ _) id, subtreeWithin_succ_of_get? he]
  rfl

/-! ## From the leaves up -/

/-- What holds of an element if it holds of its children, holds of every
live element. -/
theorem leaves_up (h : s.Forest) {P : ElementId → Prop}
    (step : ∀ x e, s.get? x = some e → (∀ c ∈ e.children, P c) → P x) (hx : s.contains x) :
    P x := by
  have hdeep (n : Nat) : ∀ x, s.contains x → s.slots.size < n + (s.lineage x).length → P x := by
    induction n with
    | zero =>
      intro x hx hn
      have hle := h.length_lineage_le hx
      omega
    | succ n ih =>
      intro x hx hn
      obtain ⟨e, he⟩ := contains_iff.mp hx
      apply step x e he
      intro c hc
      rw [← children_of_get? he] at hc
      refine ih c (h.contains_child hc) ?_
      rw [h.lineage_of_parent? (h.mirror.mp hc), List.length_cons]
      omega
  have hpos := h.length_lineage_pos x
  exact hdeep s.slots.size x hx (by omega)

/-! ## Members -/

theorem atOrAbove_of_mem_subtreeWithin (h : s.Forest) {n : Nat}
    (hx : x ∈ s.subtreeWithin n id) : s.contains x ∧ s.AtOrAbove id x := by
  induction n generalizing id with
  | zero => exact absurd hx List.not_mem_nil
  | succ n ih =>
    cases he : s.get? id with
    | none =>
      rw [subtreeWithin_of_not_contains (by simp [contains, he])] at hx
      exact absurd hx List.not_mem_nil
    | some e =>
      rw [subtreeWithin_succ_of_get? he, List.mem_cons, List.mem_flatMap] at hx
      rcases hx with rfl | ⟨c, hc, hx⟩
      · exact ⟨contains_of_get? he, .refl⟩
      · obtain ⟨hlive, hup⟩ := ih hx
        rw [← children_of_get? he] at hc
        exact ⟨hlive, .tail hup (h.mirror.mp hc)⟩

theorem mem_subtree (h : s.Forest) :
    x ∈ s.subtree id ↔ s.contains x ∧ s.AtOrAbove id x := by
  refine ⟨h.atOrAbove_of_mem_subtreeWithin, ?_⟩
  rintro ⟨hx, ha⟩
  induction ha with
  | refl =>
    obtain ⟨e, he⟩ := contains_iff.mp hx
    rw [h.subtree_of_get? he]
    exact List.mem_cons_self
  | tail _ hp ih =>
    obtain ⟨e, he⟩ := contains_iff.mp (h.contains_parent hp)
    have hc := h.mirror.mpr hp
    rw [children_of_get? he] at hc
    rw [h.subtree_of_get? he]
    exact List.mem_cons_of_mem _ (List.mem_flatMap.mpr ⟨_, hc, ih⟩)

/-- No element lies below two children of one parent. -/
theorem child_unique {d : ElementId} (h : s.Forest) (hc : s.parent? c = some p)
    (hd : s.parent? d = some p) (hcx : s.AtOrAbove c x) (hdx : s.AtOrAbove d x) : c = d := by
  rcases hcx.total hdx with ha | ha
  · rcases atOrAbove_iff.mp ha with rfl | ha
    · rfl
    · exact absurd ((above_iff_of_parent? hc).mp ha) (h.not_atOrAbove_parent hd)
  · rcases atOrAbove_iff.mp ha with rfl | ha
    · rfl
    · exact absurd ((above_iff_of_parent? hd).mp ha) (h.not_atOrAbove_parent hc)

theorem subtreeWithin_nodup (h : s.Forest) (n : Nat) (id : ElementId) :
    (s.subtreeWithin n id).Nodup := by
  induction n generalizing id with
  | zero => exact List.nodup_nil
  | succ n ih =>
    cases he : s.get? id with
    | none =>
      rw [subtreeWithin, he]
      exact List.nodup_nil
    | some e =>
      have hchild {c : ElementId} (hc : c ∈ e.children) : s.parent? c = some id :=
        h.mirror.mp (children_of_get? he ▸ hc)
      rw [subtreeWithin_succ_of_get? he, List.nodup_cons]
      refine ⟨fun hm => ?_, List.nodup_flatMap.mpr ⟨fun c _ => ih c, ?_⟩⟩
      · obtain ⟨c, hc, hid⟩ := List.mem_flatMap.mp hm
        exact h.not_atOrAbove_parent (hchild hc) (h.atOrAbove_of_mem_subtreeWithin hid).2
      · have hnd : e.children.Nodup := children_of_get? he ▸ h.children_nodup id
        refine hnd.imp_of_mem fun {c d} hc hd hne x hxc hxd => hne ?_
        exact h.child_unique (hchild hc) (hchild hd) (h.atOrAbove_of_mem_subtreeWithin hxc).2
          (h.atOrAbove_of_mem_subtreeWithin hxd).2

theorem subtree_nodup (h : s.Forest) (id : ElementId) : (s.subtree id).Nodup :=
  h.subtreeWithin_nodup _ id

/-! ## The walk down -/

/-- Given as many steps as there are elements to meet, the walk down from
live ids visits their subtrees one after another. -/
theorem map_visitWithin (h : s.Forest) {n : Nat} {pending : List ElementId}
    (hlive : ∀ x ∈ pending, s.contains x) (hn : (pending.flatMap s.subtree).length ≤ n) :
    (s.visitWithin (fun _ => true) n pending).map (·.id) = pending.flatMap s.subtree := by
  induction n generalizing pending with
  | zero =>
    rw [Nat.le_zero, List.length_eq_zero_iff] at hn
    rw [hn]
    cases pending <;> rfl
  | succ n ih =>
    cases pending with
    | nil => rfl
    | cons id rest =>
      obtain ⟨e, he⟩ := contains_iff.mp (hlive id List.mem_cons_self)
      have hsub := h.subtree_of_get? he
      have hnext : ∀ x ∈ e.children ++ rest, s.contains x := by
        intro x hx
        rcases List.mem_append.mp hx with hc | hr
        · exact h.contains_child (children_of_get? he ▸ hc)
        · exact hlive x (List.mem_cons_of_mem _ hr)
      simp only [List.flatMap_cons, hsub, List.cons_append, List.length_cons] at hn
      rw [← List.flatMap_append] at hn
      simp only [visitWithin, he, if_true, List.map_cons, h.named he, ih hnext (by omega),
        List.flatMap_cons, hsub, List.cons_append, List.flatMap_append]

theorem length_subtree_le (h : s.Forest) (id : ElementId) :
    (s.subtree id).length ≤ s.slots.size :=
  h.length_le_of_live (h.subtree_nodup id) fun _ hx => (h.mem_subtree.mp hx).1

/-- The bound on a walk down is never what ends it: given that many steps
or more, the walk from an element visits its subtree. -/
theorem map_visitWithin_singleton (h : s.Forest) {n : Nat} (hn : s.slots.size ≤ n)
    (id : ElementId) : (s.visitWithin (fun _ => true) n [id]).map (·.id) = s.subtree id := by
  by_cases hid : s.contains id
  · have hlen : ([id].flatMap s.subtree).length ≤ n := by
      rw [List.flatMap_singleton]
      exact Nat.le_trans (h.length_subtree_le id) hn
    rw [h.map_visitWithin (by simpa using hid) hlen, List.flatMap_singleton]
  · have hget := Option.not_isSome_iff_eq_none.mp hid
    rw [subtree, subtreeWithin_of_not_contains hid]
    cases n with
    | zero => rfl
    | succ n => cases n <;> simp only [visitWithin, hget, List.map_nil]

theorem descendants_eq (h : s.Forest) (id : ElementId) : s.descendants id = s.subtree id :=
  h.map_visitWithin_singleton (Nat.le_refl _) id

theorem mem_descendants (h : s.Forest) :
    x ∈ s.descendants id ↔ s.contains x ∧ s.AtOrAbove id x := by
  rw [h.descendants_eq]
  exact h.mem_subtree

/-! ## All of it -/

/-- The subtrees of the roots part the live elements among them. -/
theorem subtrees_perm (h : s.Forest) : (s.roots.flatMap s.subtree).Perm s.ids := by
  refine (List.perm_ext_iff_of_nodup (List.nodup_flatMap.mpr ⟨fun r _ => h.subtree_nodup r, ?_⟩)
    h.ids_nodup).mpr fun x => ?_
  · have hnd : s.roots.Nodup := (List.filter_sublist.map _).nodup h.ids_nodup
    refine hnd.imp_of_mem fun {p q} hp hq hne x hxp hxq => hne ?_
    exact h.root_unique hp hq (h.mem_subtree.mp hxp).2 (h.mem_subtree.mp hxq).2
  · rw [List.mem_flatMap, h.mem_ids]
    refine ⟨fun ⟨r, _, hx⟩ => (h.mem_subtree.mp hx).1, fun hx => ?_⟩
    obtain ⟨r, hr, ha⟩ := h.exists_root_atOrAbove hx
    exact ⟨r, hr, h.mem_subtree.mpr ⟨hx, ha⟩⟩

end Forest

end Scene

end SceneTree
