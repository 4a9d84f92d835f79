import Mathlib.Data.List.Nodup
import Mathlib.Data.List.Perm.Subperm
import Mathlib.Logic.Relation
import SceneTree.Scene.Basic

/-!
# Forests

A scene writes every edge down twice: in the child, as its parent, and in
the parent, among its children. `Forest` says that the two agree, that no
child is listed twice, and that going up from an element never comes back
to it. It is the invariant under every operation of a scene.

Walks in a scene are bounded by the number of its slots. What is proved
here is that in a forest the bound is never what ends a walk up: every
element on the way is live and none is met twice, so there are no more of
them than slots (`Forest.lineageWithin_eq`). With that the test by which
links are refused means what it says (`Forest.isAtOrAbove_iff`), and what
passes from parents to their children holds everywhere
(`Forest.roots_down`).
-/

namespace SceneTree

namespace Scene

variable {s : Scene} {e : Element} {id x p q c upper : ElementId}

/-! ## Looking up -/

theorem contains_iff : s.contains id ↔ ∃ e, s.get? id = some e :=
  Option.isSome_iff_exists

theorem contains_of_get? (h : s.get? id = some e) : s.contains id :=
  contains_iff.mpr ⟨e, h⟩

theorem index_lt_of_contains (h : s.contains id) : id.index < s.slots.size := by
  obtain ⟨e, he⟩ := contains_iff.mp h
  by_contra hle
  have hnone : s.slots[id.index]? = none := Array.getElem?_eq_none (Nat.not_lt.mp hle)
  simp only [get?, hnone, Option.join_none, reduceCtorEq] at he

/-- The slot that comes next holds nothing yet. -/
theorem get?_eq_none_of_le (h : s.slots.size ≤ id.index) : s.get? id = none := by
  simp only [get?, Array.getElem?_eq_none h, Option.join_none]

theorem parent?_of_get? (h : s.get? id = some e) : s.parent? id = e.parent := by
  simp only [parent?, h, Option.bind_some]

theorem parent?_of_not_contains (h : ¬ s.contains id) : s.parent? id = none := by
  rw [parent?, Option.not_isSome_iff_eq_none.mp h, Option.bind_none]

theorem contains_of_parent? (h : s.parent? c = some p) : s.contains c := by
  by_contra hc
  rw [parent?_of_not_contains hc] at h
  exact absurd h (by simp only [reduceCtorEq, not_false_eq_true])

theorem children_of_get? (h : s.get? id = some e) : s.children id = e.children := by
  simp only [children, h, Option.map_some, Option.getD_some]

theorem children_of_not_contains (h : ¬ s.contains id) : s.children id = [] := by
  rw [children, Option.not_isSome_iff_eq_none.mp h]
  rfl

theorem contains_of_mem_children (h : c ∈ s.children p) : s.contains p := by
  by_contra hp
  rw [children_of_not_contains hp] at h
  exact absurd h List.not_mem_nil

/-- Two scenes with as many slots are the same if all look-ups are. -/
theorem ext_get? {t : Scene} (hsize : t.slots.size = s.slots.size)
    (hget : ∀ x, t.get? x = s.get? x) : t = s := by
  have hslots : t.slots = s.slots := by
    refine Array.ext hsize fun i ht hs => ?_
    simpa only [get?, Array.getElem?_eq_getElem ht, Array.getElem?_eq_getElem hs,
      Option.join_some] using hget ⟨i⟩
  exact congrArg Scene.mk hslots

/-- The live elements are those found slot by slot. -/
theorem elements_eq (s : Scene) :
    s.elements = (List.range s.slots.size).filterMap fun i => s.get? ⟨i⟩ := by
  have hslots : s.slots.toList = (List.range s.slots.size).map fun i => s.get? ⟨i⟩ := by
    apply List.ext_getElem?
    intro i
    by_cases hi : i < s.slots.size
    · simp only [get?, Array.getElem?_toList, List.getElem?_map, List.getElem?_range hi,
        Option.map_some, Array.getElem?_eq_getElem hi, Option.join_some]
    · rw [List.getElem?_eq_none (by simpa using hi), List.getElem?_eq_none (by simpa using hi)]
  rw [elements, hslots, List.filterMap_map]
  rfl

theorem mem_elements_of_get? (h : s.get? id = some e) : e ∈ s.elements := by
  rw [elements_eq]
  have hi := index_lt_of_contains (contains_of_get? h)
  exact List.mem_filterMap.mpr ⟨id.index, List.mem_range.mpr hi, h⟩

/-! ## Above and below -/

/-- One step up. -/
def Rises (s : Scene) (child parent : ElementId) : Prop := s.parent? child = some parent

/-- `upper` is `id` or lies above it. -/
def AtOrAbove (s : Scene) (upper id : ElementId) : Prop := Relation.ReflTransGen s.Rises id upper

/-- `upper` lies above `id`. -/
def Above (s : Scene) (upper id : ElementId) : Prop := Relation.TransGen s.Rises id upper

theorem rises_unique : Relator.RightUnique s.Rises := fun _ _ _ hp hq =>
  Option.some.inj (hp.symm.trans hq)

theorem Above.atOrAbove (h : s.Above upper id) : s.AtOrAbove upper id :=
  Relation.TransGen.to_reflTransGen h

theorem Above.contains (h : s.Above upper id) : s.contains id := by
  obtain ⟨p, hp, -⟩ := Relation.TransGen.head'_iff.mp h
  exact contains_of_parent? hp

/-- Above an element is what is at or above its parent. -/
theorem above_iff_of_parent? (h : s.parent? id = some p) :
    s.Above upper id ↔ s.AtOrAbove upper p := by
  refine ⟨fun ha => ?_, fun ha => Relation.TransGen.head' h ha⟩
  obtain ⟨q, hq, hup⟩ := Relation.TransGen.head'_iff.mp ha
  rwa [rises_unique hq h] at hup

theorem atOrAbove_iff : s.AtOrAbove upper id ↔ id = upper ∨ s.Above upper id := by
  rw [AtOrAbove, Relation.reflTransGen_iff_eq_or_transGen]
  exact or_congr_left eq_comm

/-- Of two elements at or above a third, one is at or above the other. -/
theorem AtOrAbove.total (hp : s.AtOrAbove p id) (hq : s.AtOrAbove q id) :
    s.AtOrAbove q p ∨ s.AtOrAbove p q :=
  Relation.ReflTransGen.total_of_right_unique rises_unique hp hq

/-! ## Walks up -/

theorem atOrAbove_of_mem_lineageWithin {n : Nat} (hm : upper ∈ s.lineageWithin n id) :
    s.AtOrAbove upper id := by
  induction n generalizing id with
  | zero =>
    rw [lineageWithin, List.mem_singleton] at hm
    exact hm ▸ .refl
  | succ n ih =>
    rw [lineageWithin, List.mem_cons] at hm
    rcases hm with rfl | hm
    · exact .refl
    · cases hp : s.parent? id with
      | none => simp only [hp, List.not_mem_nil] at hm
      | some p =>
        simp only [hp] at hm
        exact .head hp (ih hm)

/-- A walk that is long enough meets everything above. -/
theorem exists_mem_lineageWithin (ha : s.AtOrAbove upper id) :
    ∃ n, ∀ m, n ≤ m → upper ∈ s.lineageWithin m id := by
  induction ha using Relation.ReflTransGen.head_induction_on with
  | refl =>
    refine ⟨0, fun m _ => ?_⟩
    cases m with
    | zero => exact List.mem_singleton_self _
    | succ m => exact List.mem_cons_self
  | head hp _ ih =>
    obtain ⟨n, hn⟩ := ih
    refine ⟨n + 1, fun m hm => ?_⟩
    obtain ⟨k, rfl⟩ : ∃ k, m = k + 1 := ⟨m - 1, by omega⟩
    rw [lineageWithin, show s.parent? _ = some _ from hp]
    exact List.mem_cons_of_mem _ (hn k (by omega))

/-- A walk takes all the steps it is given, or more steps add nothing. -/
theorem length_lineageWithin_or (s : Scene) (n : Nat) (id : ElementId) :
    (s.lineageWithin n id).length = n + 1 ∨
      ∀ m, n ≤ m → s.lineageWithin m id = s.lineageWithin n id := by
  induction n generalizing id with
  | zero => exact .inl rfl
  | succ n ih =>
    cases hp : s.parent? id with
    | none =>
      refine .inr fun m hm => ?_
      obtain ⟨k, rfl⟩ : ∃ k, m = k + 1 := ⟨m - 1, by omega⟩
      simp only [lineageWithin, hp]
    | some p =>
      rcases ih p with hlen | hsame
      · refine .inl ?_
        simp only [lineageWithin, hp, List.length_cons, hlen]
      · refine .inr fun m hm => ?_
        obtain ⟨k, rfl⟩ : ∃ k, m = k + 1 := ⟨m - 1, by omega⟩
        simp only [lineageWithin, hp, hsame k (by omega)]

theorem lineage_of_root (h : s.parent? id = none) : s.lineage id = [id] := by
  rw [lineage]
  cases s.slots.size with
  | zero => rfl
  | succ n => rw [lineageWithin, h]

/-- Nothing is above a root. -/
theorem eq_of_atOrAbove_root (hp : s.parent? p = none) (ha : s.AtOrAbove x p) : x = p := by
  rcases Relation.ReflTransGen.cases_head ha with rfl | ⟨q, hq, -⟩
  · rfl
  · exact absurd (hp.symm.trans hq) (by simp only [reduceCtorEq, not_false_eq_true])

/-! ## The invariant -/

/-- Every live slot holds the element of its number, the two records of
each edge agree, and the edges close no circle. -/
structure Forest (s : Scene) : Prop where
  named : ∀ {id : ElementId} {e : Element}, s.get? id = some e → e.id = id
  mirror : ∀ {p c : ElementId}, c ∈ s.children p ↔ s.parent? c = some p
  children_nodup : ∀ p : ElementId, (s.children p).Nodup
  acyclic : ∀ id : ElementId, ¬ s.Above id id

namespace Forest

theorem contains_parent (h : s.Forest) (hp : s.parent? c = some p) : s.contains p :=
  contains_of_mem_children (h.mirror.mpr hp)

theorem contains_child (h : s.Forest) (hc : c ∈ s.children p) : s.contains c :=
  contains_of_parent? (h.mirror.mp hc)

theorem contains_of_atOrAbove (h : s.Forest) (ha : s.AtOrAbove upper id)
    (hid : s.contains id) : s.contains upper := by
  induction ha with
  | refl => exact hid
  | tail _ hp _ => exact h.contains_parent hp

/-- What is above a child is at or above its parent, and nothing below
the child is above the parent. -/
theorem not_atOrAbove_parent (h : s.Forest) (hp : s.parent? c = some p) :
    ¬ s.AtOrAbove c p := fun ha =>
  h.acyclic c ((above_iff_of_parent? hp).mpr ha)

theorem above_iff_ne (h : s.Forest) : s.Above upper id ↔ s.AtOrAbove upper id ∧ upper ≠ id := by
  refine ⟨fun ha => ⟨ha.atOrAbove, fun heq => h.acyclic id (heq ▸ ha)⟩, fun ⟨ha, hne⟩ => ?_⟩
  rcases atOrAbove_iff.mp ha with heq | ha
  · exact absurd heq.symm hne
  · exact ha

/-- A way up that ends at an element ends through one of its children. -/
theorem above_iff_exists_child (h : s.Forest) :
    s.Above p id ↔ ∃ c ∈ s.children p, s.AtOrAbove c id := by
  rw [Above, Relation.TransGen.tail'_iff]
  exact exists_congr fun c => and_comm.trans (and_congr_left fun _ => h.mirror.symm)

/-! ### Ids -/

/-- The ids of the live elements, in order. -/
theorem ids_eq (h : s.Forest) :
    s.ids = ((List.range s.slots.size).map ElementId.mk).filter s.contains := by
  have hid (i : Nat) : (s.get? ⟨i⟩).map (·.id) =
      if s.contains ⟨i⟩ then some ⟨i⟩ else none := by
    cases hi : s.get? ⟨i⟩ with
    | none => simp only [contains, hi, Option.map_none, Option.isSome_none, Bool.false_eq_true,
        if_false]
    | some e => simp only [contains, hi, Option.map_some, Option.isSome_some, if_true, h.named hi]
  rw [ids, elements_eq, List.map_filterMap, ← List.filterMap_eq_filter, List.filterMap_map]
  exact List.filterMap_congr fun i _ => hid i

/-- Ids that go up are distinct. -/
theorem nodup_of_increasing {l : List ElementId} (h : l.Pairwise (·.index < ·.index)) :
    l.Nodup := by
  apply h.imp
  intro a b hlt heq
  exact Nat.ne_of_lt hlt (congrArg ElementId.index heq)

theorem ids_increasing (h : s.Forest) : s.ids.Pairwise (·.index < ·.index) := by
  rw [h.ids_eq]
  refine List.Pairwise.filter _ ?_
  rw [List.pairwise_map]
  exact List.pairwise_lt_range

theorem mem_ids (h : s.Forest) : id ∈ s.ids ↔ s.contains id := by
  rw [h.ids_eq, List.mem_filter]
  refine ⟨fun hm => hm.2, fun hm => ⟨List.mem_map.mpr ⟨id.index, ?_, rfl⟩, hm⟩⟩
  exact List.mem_range.mpr (index_lt_of_contains hm)

theorem ids_nodup (h : s.Forest) : s.ids.Nodup := by
  rw [h.ids_eq]
  refine (List.Nodup.map ?_ List.nodup_range).filter _
  intro i j hij
  exact ElementId.mk.inj hij

/-- The live elements are those found under their own ids. -/
theorem mem_elements (h : s.Forest) : e ∈ s.elements ↔ s.get? e.id = some e := by
  refine ⟨fun he => ?_, mem_elements_of_get?⟩
  rw [elements_eq, List.mem_filterMap] at he
  obtain ⟨i, -, hi⟩ := he
  rwa [h.named hi]

theorem length_ids (s : Scene) : s.ids.length = s.size := by
  rw [ids, List.length_map, size]

/-- There are no more live elements than slots. -/
theorem length_le_of_live (h : s.Forest) {l : List ElementId} (hnd : l.Nodup)
    (hl : ∀ x ∈ l, s.contains x) : l.length ≤ s.slots.size := by
  have hsub : l ⊆ s.ids := fun x hx => h.mem_ids.mpr (hl x hx)
  calc l.length ≤ s.ids.length := (hnd.subperm hsub).length_le
    _ ≤ ((List.range s.slots.size).map ElementId.mk).length := by
        rw [h.ids_eq]; exact List.length_filter_le _ _
    _ = s.slots.size := by rw [List.length_map, List.length_range]

/-! ### Walks up -/

theorem lineageWithin_nodup (h : s.Forest) (n : Nat) (id : ElementId) :
    (s.lineageWithin n id).Nodup := by
  induction n generalizing id with
  | zero => exact List.nodup_singleton id
  | succ n ih =>
    rw [lineageWithin]
    cases hp : s.parent? id with
    | none => exact List.nodup_singleton id
    | some p =>
      refine List.nodup_cons.mpr ⟨fun hm => ?_, ih p⟩
      exact h.not_atOrAbove_parent hp (atOrAbove_of_mem_lineageWithin hm)

/-- The bound on a walk up is never what ends it: any more steps find
nothing more. -/
theorem lineageWithin_eq (h : s.Forest) {m : Nat} (hm : s.slots.size ≤ m) (id : ElementId) :
    s.lineageWithin m id = s.lineage id := by
  by_cases hid : s.contains id
  · have hlive : ∀ x ∈ s.lineageWithin s.slots.size id, s.contains x := fun x hx =>
      h.contains_of_atOrAbove (atOrAbove_of_mem_lineageWithin hx) hid
    have hle := h.length_le_of_live (h.lineageWithin_nodup s.slots.size id) hlive
    rcases s.length_lineageWithin_or s.slots.size id with hlen | hsame
    · omega
    · exact hsame m hm
  · have hp := parent?_of_not_contains hid
    have hwalk (n : Nat) : s.lineageWithin n id = [id] := by
      cases n with
      | zero => rfl
      | succ n => simp only [lineageWithin, hp]
    rw [lineage, hwalk, hwalk]

theorem mem_lineage_iff (h : s.Forest) : upper ∈ s.lineage id ↔ s.AtOrAbove upper id := by
  refine ⟨atOrAbove_of_mem_lineageWithin, fun ha => ?_⟩
  obtain ⟨n, hn⟩ := exists_mem_lineageWithin ha
  rw [← h.lineageWithin_eq (Nat.le_max_left s.slots.size n) id]
  exact hn _ (Nat.le_max_right _ _)

theorem isAtOrAbove_iff (h : s.Forest) : s.isAtOrAbove upper id ↔ s.AtOrAbove upper id := by
  rw [isAtOrAbove, List.contains_iff_mem]
  exact h.mem_lineage_iff

theorem lineage_of_parent? (h : s.Forest) (hp : s.parent? id = some p) :
    s.lineage id = id :: s.lineage p := by
  rw [← h.lineageWithin_eq (Nat.le_succ _) id, lineageWithin, hp]
  rfl

/-- What holds of an element if it holds of its parent, holds of all. -/
theorem roots_down (h : s.Forest) {P : ElementId → Prop}
    (step : ∀ x, (∀ p, s.parent? x = some p → P p) → P x) (x : ElementId) : P x := by
  induction hlen : (s.lineage x).length using Nat.strongRecOn generalizing x with
  | ind k ih =>
    refine step x fun p hp => ih _ ?_ p rfl
    rw [← hlen, h.lineage_of_parent? hp, List.length_cons]
    exact Nat.lt_succ_self _

theorem length_lineage_le (h : s.Forest) (hid : s.contains id) :
    (s.lineage id).length ≤ s.slots.size :=
  h.length_le_of_live (h.lineageWithin_nodup _ id) fun _ hx =>
    h.contains_of_atOrAbove (atOrAbove_of_mem_lineageWithin hx) hid

/-! ### Roots -/

theorem mem_roots (h : s.Forest) : id ∈ s.roots ↔ s.contains id ∧ s.parent? id = none := by
  simp only [roots, List.mem_map, List.mem_filter, Option.isNone_iff_eq_none]
  constructor
  · rintro ⟨e, ⟨he, hp⟩, rfl⟩
    have hget := h.mem_elements.mp he
    exact ⟨contains_of_get? hget, (parent?_of_get? hget).trans hp⟩
  · rintro ⟨hc, hp⟩
    obtain ⟨e, he⟩ := contains_iff.mp hc
    exact ⟨e, ⟨mem_elements_of_get? he, (parent?_of_get? he).symm.trans hp⟩, h.named he⟩

/-- The roots, in the order of their ids. -/
theorem roots_eq (h : s.Forest) : s.roots =
    ((List.range s.slots.size).map ElementId.mk).filter
      fun x => s.contains x && (s.parent? x).isNone := by
  have hid (i : Nat) : (((s.get? ⟨i⟩).filter (·.parent.isNone)).map (·.id)) =
      if s.contains ⟨i⟩ && (s.parent? ⟨i⟩).isNone then some ⟨i⟩ else none := by
    cases hi : s.get? ⟨i⟩ with
    | none => simp only [contains, hi, Option.filter_none, Option.map_none, Option.isSome_none,
        Bool.false_and, Bool.false_eq_true, if_false]
    | some e =>
      simp only [contains, hi, Option.isSome_some, Bool.true_and, parent?_of_get? hi,
        Option.filter_some]
      split
      next => rw [Option.map_some, h.named hi]
      next => rfl
  rw [roots, elements_eq, List.filter_filterMap, List.map_filterMap, ← List.filterMap_eq_filter,
    List.filterMap_map]
  exact List.filterMap_congr fun i _ => hid i

theorem roots_increasing (h : s.Forest) : s.roots.Pairwise (·.index < ·.index) :=
  h.ids_increasing.sublist (List.filter_sublist.map _)

/-- Going up from a live element ends at a root. -/
theorem exists_root_atOrAbove (h : s.Forest) (hid : s.contains id) :
    ∃ r ∈ s.roots, s.AtOrAbove r id := by
  refine h.roots_down (P := fun x => s.contains x → ∃ r ∈ s.roots, s.AtOrAbove r x)
    (fun x ih hx => ?_) id hid
  cases hp : s.parent? x with
  | none => exact ⟨x, h.mem_roots.mpr ⟨hx, hp⟩, .refl⟩
  | some p =>
    obtain ⟨r, hr, ha⟩ := ih p hp (h.contains_parent hp)
    exact ⟨r, hr, .head hp ha⟩

/-- Each live element lies below one root only. -/
theorem root_unique (h : s.Forest) (hp : p ∈ s.roots) (hq : q ∈ s.roots)
    (hap : s.AtOrAbove p id) (haq : s.AtOrAbove q id) : p = q := by
  have hpn := (h.mem_roots.mp hp).2
  have hqn := (h.mem_roots.mp hq).2
  rcases hap.total haq with ha | ha
  · exact (eq_of_atOrAbove_root hpn ha).symm
  · exact eq_of_atOrAbove_root hqn ha

end Forest

end Scene

end SceneTree
