import SceneTree.Proofs.Expand.Copy

/-!
# Expanding inside a copy

The instances inside a copy are expanded one after another, before the
usage moves in. An instance of the copy is settled or still waits for its
turn (`Filled`): expanding one settles it, along with the copy it gets,
and unsettles none. All of this happens below the instance whose copy it
is, so nothing else is touched.
-/

namespace SceneTree

namespace Scene

variable {d : Document} {s t : Scene} {id x y z p c : ElementId} {e ec : Element}
  {ic : Instance} {roots todo : List ElementId}

/-- `expand` keeps the contract for every instance that is ready. -/
def Expands (d : Document) (expand : Scene → ElementId → Expansion) : Prop :=
  ∀ {s id e i}, s.Forest → s.get? id = some e → e.instance? = some i → Ready s id e i →
    Expanded d s id e i (expand s id)

/-- A turn expands the instance that is there, and notes what was noted of
it and perhaps that it failed. Anything else is passed over. -/
theorem expandNested_cases (nest : Scene → ElementId → Expansion) (component : String)
    (w : Splicing) (c : ElementId) :
    (∃ ec ic failure, w.scene.get? c = some ec ∧ ec.instance? = some ic ∧
      (∀ n ∈ failure, ∃ cause, n = .nestedExpansionFailed component c cause) ∧
      expandNested nest component w c =
        { scene := (nest w.scene c).scene
          notices := w.notices ++ (nest w.scene c).notices ++ failure }) ∨
    (∀ ec, w.scene.get? c = some ec → ec.instance? = none) ∧
      expandNested nest component w c = w := by
  unfold expandNested
  split
  next hinst =>
    obtain ⟨ec, hec, hic⟩ := (Option.any_eq_true ..).mp hinst
    obtain ⟨ic, hic⟩ := Option.isSome_iff_exists.mp hic
    refine .inl ⟨ec, ic, _, hec, hic, fun n hn => ?_, rfl⟩
    split at hn
    next => exact absurd hn List.not_mem_nil
    next cause _ => exact ⟨cause, List.mem_singleton.mp hn⟩
  next hinst =>
    refine .inr ⟨fun ec hec => Option.not_isSome_iff_eq_none.mp fun hic => ?_, rfl⟩
    exact hinst ((Option.any_eq_true ..).mpr ⟨ec, hec, hic⟩)

/-- `t` is `s` with a copy under `id` in which the instances of `todo` may
still be pending. -/
structure Filled (d : Document) (s : Scene) (id : ElementId) (roots todo : List ElementId)
    (t : Scene) : Prop where
  forest : t.Forest
  size_le : s.slots.size ≤ t.slots.size
  same : ∀ y, y.index < s.slots.size → y ≠ id → t.get? y = s.get? y
  self : t.get? id = (s.get? id).map fun e => { e with children := roots }
  below : ∀ y, s.slots.size ≤ y.index → t.contains y → t.Above id y
  made : ∀ y ey, s.slots.size ≤ y.index → t.get? y = some ey → ¬ ey.source.isDocument
  settled : ∀ y ey iy, s.slots.size ≤ y.index → t.get? y = some ey → ey.instance? = some iy →
    Settled d t y ey iy ∨ ¬ iy.expanded ∧ y ∈ todo

/-- All that is new are the copies. -/
theorem Copied.exists_copyId {component : ComponentId} {tmpl : Template}
    (h : s.Copied id component tmpl t) (hy : s.slots.size ≤ y.index) (ht : t.contains y) :
    ∃ k < tmpl.nodes.length, y = s.copyId k := by
  have hlt := index_lt_of_contains ht
  rw [h.size] at hlt
  refine ⟨y.index - s.slots.size, by omega, ?_⟩
  rw [copyId, nextId, Nat.add_sub_cancel' hy]

theorem Copied.filled {component : ComponentId} {tmpl : Template}
    (h : s.Copied id component tmpl t) :
    Filled d s id (tmpl.roots.map s.copyId) ((List.range tmpl.nodes.length).map s.copyId) t := by
  refine ⟨h.forest, ?_, h.same, h.self, fun y hy ht => ?_, fun y ey hy hey => ?_,
    fun y ey iy hy hey hiy => ?_⟩
  · rw [h.size]
    exact Nat.le_add_right _ _
  · obtain ⟨k, hk, rfl⟩ := h.exists_copyId hy ht
    exact h.below k hk
  · obtain ⟨k, hk, rfl⟩ := h.exists_copyId hy (contains_of_get? hey)
    obtain ⟨ek, hek, hmade⟩ := h.made k hk
    rw [Option.some.inj (hey.symm.trans hek), hmade.source]
    exact Bool.false_ne_true
  · obtain ⟨k, hk, rfl⟩ := h.exists_copyId hy (contains_of_get? hey)
    obtain ⟨ek, hek, hmade⟩ := h.made k hk
    cases hey.symm.trans hek
    exact .inr ⟨hmade.pending iy hiy, List.mem_map.mpr ⟨k, List.mem_range.mpr hk, rfl⟩⟩

namespace Filled

/-- What was there before keeps its parent. -/
theorem old_parent? (h : Filled d s id roots todo t) (hy : y.index < s.slots.size) :
    t.parent? y = s.parent? y := by
  by_cases hne : y = id
  · rw [hne, parent?, h.self, parent?]
    cases s.get? id <;> rfl
  · rw [parent?, h.same y hy hne, ← parent?]

theorem contains_old (h : Filled d s id roots todo t) (hy : y.index < s.slots.size) :
    t.contains y = s.contains y := by
  by_cases hne : y = id
  · rw [hne, contains, h.self, Option.isSome_map, ← contains]
  · rw [contains, h.same y hy hne, ← contains]

/-- Nothing new is above what was there before. -/
theorem old_of_atOrAbove (h : Filled d s id roots todo t) (hs : s.Forest) (hy : s.contains y)
    (ha : t.AtOrAbove z y) : s.contains z :=
  hs.contains_of_atOrAbove ((hs.atOrAbove_of_old (fun _ => h.old_parent?) hy).mp ha) hy

theorem not_above_old (h : Filled d s id roots todo t) (hs : s.Forest)
    (hc : s.slots.size ≤ c.index) (hy : s.contains y) : ¬ t.AtOrAbove c y := fun ha =>
  Nat.not_lt.mpr hc (index_lt_of_contains (h.old_of_atOrAbove hs hy ha))

/-- New elements hang under new elements or under the instance. -/
theorem fresh_parent? (h : Filled d s id roots todo t) (hs : s.Forest)
    (hy : s.slots.size ≤ y.index) (hp : t.parent? y = some p) :
    s.slots.size ≤ p.index ∨ p = id := by
  by_contra hold
  obtain ⟨hlt, hne⟩ := not_or.mp hold
  have hm := h.forest.mirror.mpr hp
  rw [children, h.same p (Nat.not_le.mp hlt) hne, ← children] at hm
  exact Nat.not_lt.mpr hy (index_lt_of_contains (hs.contains_child hm))

/-- Under a new element hang only new elements. -/
theorem le_index_of_mem_children (h : Filled d s id roots todo t) (hs : s.Forest)
    (hp : s.slots.size ≤ p.index) (hc : c ∈ t.children p) : s.slots.size ≤ c.index := by
  by_contra hlt
  have hup := h.forest.mirror.mp hc
  rw [h.old_parent? (Nat.not_le.mp hlt)] at hup
  exact Nat.not_lt.mpr hp (index_lt_of_contains (hs.contains_parent hup))

/-- What was there before and is above a new element is at or above the
instance. -/
theorem atOrAbove_of_fresh (h : Filled d s id roots todo t) (hs : s.Forest)
    (hy : s.slots.size ≤ y.index) (hz : z.index < s.slots.size) (ha : t.AtOrAbove z y) :
    t.AtOrAbove z id :=
  Scene.atOrAbove_of_fresh (h.fresh_parent? hs) hy hz ha

/-- What was there before is left alone by an expansion inside the copy. -/
theorem get?_old (h : Filled d s id roots todo t) (hs : s.Forest) {x : Expansion}
    (hc : s.slots.size ≤ c.index) (hx : Expanded d t c ec ic x) (hy : y.index < s.slots.size) :
    x.scene.get? y = t.get? y := by
  have hyt := Nat.lt_of_lt_of_le hy h.size_le
  have hb : ¬ t.Above c y := fun ha => by
    have hty := ha.contains
    rw [h.contains_old hy] at hty
    exact h.not_above_old hs hc hty ha.atOrAbove
  by_cases hty : x.scene.contains y
  · refine hx.same y hyt ?_ (fun hm => hb (hx.rescued_below hm)) hty
    rintro rfl
    exact Nat.not_lt.mpr hc hy
  · have hnone : ¬ t.contains y := fun hold => hty (hx.contains_of_not_below hold hb)
    rw [Option.not_isSome_iff_eq_none.mp hty, Option.not_isSome_iff_eq_none.mp hnone]

/-- Expanding an instance of the copy settles it. -/
theorem expand (h : Filled d s id roots (c :: todo) t) (hs : s.Forest) (hid : s.contains id)
    (hc : s.slots.size ≤ c.index) {x : Expansion} (hx : Expanded d t c ec ic x) :
    Filled d s id roots todo x.scene := by
  have hidlt := index_lt_of_contains hid
  have hidt : t.contains id := (h.contains_old hidlt).trans hid
  have hidx : x.scene.contains id := by
    rwa [contains, h.get?_old hs hc hx hidlt, ← contains]
  have hup {y : ElementId} (hy : y.index < t.slots.size) (hty : x.scene.contains y) :
      x.scene.Above id y ↔ t.Above id y :=
    hx.above_iff hy hty (Nat.lt_of_lt_of_le hidlt h.size_le) hidx
  refine ⟨hx.forest, Nat.le_trans h.size_le hx.size_le, fun y hy hne => ?_, ?_,
    fun y hy hty => ?_, fun y ey hy hey => ?_, fun y ey iy hy hey hiy => ?_⟩
  · rw [h.get?_old hs hc hx hy, h.same y hy hne]
  · rw [h.get?_old hs hc hx hidlt, h.self]
  · by_cases hlt : y.index < t.slots.size
    · exact (hup hlt hty).mpr (h.below y hy (hx.contains_old hlt hty))
    · have hcx := hx.fresh_below y (Nat.not_lt.mp hlt) hty
      have hclive := hx.forest.contains_of_atOrAbove hcx.atOrAbove hty
      have hidc := (hup (index_lt_of_contains hx.contains_id) hclive).mpr
        (h.below c hc hx.contains_id)
      exact hcx.trans hidc
  · by_cases hlt : y.index < t.slots.size
    · obtain ⟨e₀, he₀, hsource⟩ := hx.old_source hlt hey
      exact hsource ▸ h.made y e₀ hy he₀
    · exact hx.fresh_made y ey (Nat.not_lt.mp hlt) hey
  · refine (hx.settled_or_pending hey hiy fun e₀ he₀ => h.settled y e₀ iy hy he₀).imp_right ?_
    rintro ⟨hpend, hm, hne⟩
    exact ⟨hpend, (List.mem_cons.mp hm).resolve_left hne⟩

/-- An instance of the copy can be expanded, pending or not. -/
theorem ready (h : Filled d s id roots todo t) (hc : s.slots.size ≤ c.index)
    (hec : t.get? c = some ec) (hic : ec.instance? = some ic) : Ready t c ec ic := by
  rcases h.settled c ec ic hc hec hic with hset | ⟨hpend, -⟩
  · exact hset.toReady
  · exact h.forest.ready hec hic hpend

/-- One turn: an instance that is there is expanded, anything else passed
over. -/
theorem expandNested (h : Filled d s id roots (c :: todo) t) (hs : s.Forest)
    (hid : s.contains id) (hc : s.slots.size ≤ c.index)
    {nest : Scene → ElementId → Expansion} (hnest : Expands d nest) (component : String)
    {w : Splicing} (hw : w.scene = t) :
    Filled d s id roots todo (Scene.expandNested nest component w c).scene := by
  subst hw
  rcases expandNested_cases nest component w c with
    ⟨ec, ic, _, hec, hic, -, hturn⟩ | ⟨hplain, hturn⟩
  · rw [hturn]
    exact h.expand hs hid hc (hnest h.forest hec hic (h.ready hc hec hic))
  · rw [hturn]
    refine { h with settled := fun y ey iy hy hey hiy => ?_ }
    refine (h.settled y ey iy hy hey hiy).imp_right ?_
    rintro ⟨hpend, hm⟩
    refine ⟨hpend, (List.mem_cons.mp hm).resolve_left ?_⟩
    rintro rfl
    cases hiy.symm.trans (hplain ey hey)

/-- After all turns every instance of the copy is settled. -/
theorem foldl_expandNested {w : Splicing} (h : Filled d s id roots todo w.scene) (hs : s.Forest)
    (hid : s.contains id) (htodo : ∀ c ∈ todo, s.slots.size ≤ c.index)
    {nest : Scene → ElementId → Expansion} (hnest : Expands d nest) (component : String) :
    Filled d s id roots [] (todo.foldl (Scene.expandNested nest component) w).scene := by
  induction todo generalizing w with
  | nil => exact h
  | cons c todo ih =>
    rw [List.forall_mem_cons] at htodo
    exact ih (h.expandNested hs hid htodo.1 hnest component rfl) htodo.2

end Filled

end Scene

end SceneTree
