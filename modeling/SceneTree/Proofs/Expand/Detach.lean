import SceneTree.Proofs.Expand.Contract

/-!
# Taking an instance apart

What is left when an instance is taken apart: the instance without a
child, its usage as roots of their own, and everything that was not below
it, untouched. All else below it is gone. An expansion that fails, and one
that finds no place for the usage, removes that too.
-/

namespace SceneTree

namespace Element

/-- The roots of the copy an instance has. -/
def oldRoots (e : Element) : List ElementId :=
  match e.instance? with
  | some i => if i.expanded then i.roots else []
  | none => []

/-- The decoration an instance hands to its copy. -/
def ownDecoration (e : Element) : Decoration :=
  match e.instance? with
  | some i => if i.decoration = .none then e.look.decoration else i.decoration
  | none => .none

end Element

namespace Scene

variable {s t : Scene} {id x y z p c u : ElementId} {e : Element} {i : Instance}

/-- `t` is `s` with the instance `id` taken apart. -/
structure Parted (s : Scene) (id : ElementId) (e : Element) (t : Scene) : Prop where
  forest : t.Forest
  size : t.slots.size = s.slots.size
  outlives_iff : ∀ y, t.contains y ↔
    s.contains y ∧ (s.Above id y → ∃ u ∈ e.usage, s.AtOrAbove u y)
  self : ∃ look, t.get? id = some { e with look, children := [] }
  same : ∀ y, y ≠ id → y ∉ e.usage → t.contains y → t.get? y = s.get? y
  parted : ∀ u ∈ e.usage, s.contains u →
    t.get? u = (s.get? u).map fun eu => { eu with parent := none }

/-- The steps that take an instance apart, once its look is changed: the
usage is unlinked, then whatever is still below is removed. -/
def strip (s : Scene) (id : ElementId) (usage roots : List ElementId) : Scene :=
  let freed := roots.foldl remove (usage.foldl unlink s)
  (freed.children id).foldl remove freed

/-- The scene with the decoration of an instance taken off. -/
def undress (s : Scene) (id : ElementId) : Scene :=
  s.modify id fun e => { e with look := e.look.undecorated }

/-- What is taken from an instance. -/
def taken (id : ElementId) (e : Element) (i : Instance) : Detached :=
  { id, component := i.component, definition := i.definition, usage := e.usage,
    decoration := e.ownDecoration }

theorem detach?_of_instance (he : s.get? id = some e) (hi : e.instance? = some i) :
    s.detach? id = some ((s.undress id).strip id e.usage e.oldRoots, taken id e i) := by
  simp only [Scene.detach?, he, hi, Option.bind_eq_bind, Option.bind_some, Option.pure_def, taken,
    Element.usage, Element.oldRoots, Element.ownDecoration]
  rfl

/-- Nothing else is taken apart. -/
theorem detach?_of_not_instance (h : ¬ ∃ e i, s.get? id = some e ∧ e.instance? = some i) :
    s.detach? id = none := by
  rw [Scene.detach?]
  cases he : s.get? id with
  | none => rfl
  | some e =>
    cases hi : e.instance? with
    | none => simp only [hi, Option.bind_eq_bind, Option.bind_some, Option.bind_none]
    | some i => exact absurd ⟨e, i, he, hi⟩ h

theorem eq_of_detach? {det : Detached} (h : s.detach? id = some (t, det)) :
    ∃ e i, s.get? id = some e ∧ e.instance? = some i ∧
      t = (s.undress id).strip id e.usage e.oldRoots ∧ det = taken id e i := by
  by_cases hinst : ∃ e i, s.get? id = some e ∧ e.instance? = some i
  · obtain ⟨e, i, he, hi⟩ := hinst
    cases h.symm.trans (detach?_of_instance he hi)
    exact ⟨e, i, he, hi, rfl, rfl⟩
  · cases h.symm.trans (detach?_of_not_instance hinst)

/-- The scene with the usage unlinked and some elements removed after. -/
def cut (s : Scene) (usage doomed : List ElementId) : Scene :=
  doomed.foldl remove (usage.foldl unlink s)

section

variable {roots doomed : List ElementId}

/-- What `strip` removes are the children that are left to the instance
after its usage was unlinked. -/
theorem strip_eq (h : s.Forest) {usage : List ElementId}
    (hroots : ∀ r ∈ roots, s.parent? r = some id ∧ r ∉ usage) : ∃ doomed : List ElementId,
    s.strip id usage roots = s.cut usage doomed ∧
      ∀ c, c ∈ doomed ↔ c ∈ s.children id ∧ c ∉ usage := by
  have hcut := h.foldl_unlink usage
  have hchild (c : ElementId) : (usage.foldl unlink s).parent? c = some id ↔
      s.parent? c = some id ∧ c ∉ usage := by
    rw [parent?_foldl_unlink]
    split
    next hc => simp only [reduceCtorEq, hc, not_true_eq_false, and_false]
    next hc => simp only [hc, not_false_eq_true, and_true]
  have hsafe : ∀ r ∈ roots, ¬ (usage.foldl unlink s).AtOrAbove r id := fun r hr ha =>
    hcut.not_atOrAbove_parent ((hchild r).mpr (hroots r hr)) ha
  refine ⟨roots ++ (roots.foldl remove (usage.foldl unlink s)).children id, ?_, fun c => ?_⟩
  · rw [cut, List.foldl_append]
    rfl
  · obtain ⟨-, -, hchildren⟩ := hcut.readings_foldl_remove hsafe
    rw [hchildren, List.mem_append, List.mem_filter, hcut.mirror, hchild, decide_eq_true_eq,
      h.mirror]
    constructor
    · rintro (hc | ⟨hc, -⟩)
      · exact hroots c hc
      · exact hc
    · intro hc
      by_cases hm : c ∈ roots
      · exact .inl hm
      · exact .inr ⟨hc, hm⟩

/-- Below the instance stays, once its usage is unlinked, what is below no
usage. -/
theorem Ready.above_foldl_unlink (hr : Ready s id e i) (h : s.Forest) :
    (e.usage.foldl unlink s).Above id y ↔ s.Above id y ∧ ∀ u ∈ e.usage, ¬ s.AtOrAbove u y := by
  rw [(h.foldl_unlink e.usage).above_iff_ne, h.atOrAbove_foldl_unlink, h.above_iff_ne]
  constructor
  · rintro ⟨⟨ha, hcut⟩, hne⟩
    refine ⟨⟨ha, hne⟩, fun u hu huy => hcut u hu ⟨?_, huy⟩⟩
    have hy := (h.above_iff_ne.mpr ⟨ha, hne⟩).contains
    exact hr.usage_below u hu (h.contains_of_atOrAbove huy hy)
  · rintro ⟨⟨ha, hne⟩, hcut⟩
    exact ⟨⟨ha, fun u hu huy => hcut u hu huy.2⟩, hne⟩

theorem Ready.not_mem_usage (hr : Ready s id e i) (h : s.Forest) (hid : s.contains id) :
    id ∉ e.usage := fun hm => h.acyclic id (hr.usage_below id hm hid)

/-- What is not removed is what was not below the instance, or is below
its usage. -/
theorem Ready.safe_iff (hr : Ready s id e i) (h : s.Forest)
    (hdoomed : ∀ c, c ∈ doomed ↔ c ∈ s.children id ∧ c ∉ e.usage) :
    (∀ c ∈ doomed, ¬ (e.usage.foldl unlink s).AtOrAbove c y) ↔
      (s.Above id y → ∃ u ∈ e.usage, s.AtOrAbove u y) := by
  have hchild (c : ElementId) : c ∈ doomed ↔ c ∈ (e.usage.foldl unlink s).children id := by
    rw [hdoomed, h.children_foldl_unlink, List.mem_filter, decide_eq_true_eq]
  have hsafe : (∀ c ∈ doomed, ¬ (e.usage.foldl unlink s).AtOrAbove c y) ↔
      ¬ (e.usage.foldl unlink s).Above id y := by
    rw [(h.foldl_unlink e.usage).above_iff_exists_child]
    simp only [hchild, not_exists, not_and]
  rw [hsafe, hr.above_foldl_unlink h]
  simp only [not_and, not_forall, not_not, exists_prop]

/-- The readings of what is not removed. -/
theorem Forest.readings_cut (h : s.Forest) {usage : List ElementId}
    (hy : ∀ c ∈ doomed, ¬ (usage.foldl Scene.unlink s).AtOrAbove c y) :
    (s.cut usage doomed).alone? y = s.alone? y ∧
      (s.cut usage doomed).parent? y = (if y ∈ usage then none else s.parent? y) ∧
      (s.cut usage doomed).children y =
        ((s.children y).filter (· ∉ usage)).filter (· ∉ doomed) := by
  obtain ⟨halone, hparent, hkeep⟩ := (h.foldl_unlink usage).readings_foldl_remove hy
  refine ⟨halone.trans (alone?_foldl_unlink s _ y), ?_, ?_⟩
  · exact hparent.trans (parent?_foldl_unlink s _ y)
  · exact hkeep.trans (by rw [h.children_foldl_unlink])

/-- What outlives the instance has lost no child: neither usage nor what
is removed hung under it. -/
theorem Ready.filter_children (hr : Ready s id e i) (h : s.Forest)
    (hdoomed : ∀ c, c ∈ doomed ↔ c ∈ s.children id ∧ c ∉ e.usage) (hne : y ≠ id)
    (hy : s.Above id y → ∃ u ∈ e.usage, s.AtOrAbove u y) :
    ((s.children y).filter (· ∉ e.usage)).filter (· ∉ doomed) = s.children y := by
  rw [List.filter_filter]
  refine List.filter_eq_self.mpr fun c hc => ?_
  have hp := h.mirror.mp hc
  have hcu : c ∉ e.usage := fun hcu => by
    have hidc := hr.usage_below c hcu (h.contains_child hc)
    have hidy := h.above_iff_ne.mpr ⟨(above_iff_of_parent? hp).mp hidc, hne.symm⟩
    obtain ⟨v, hv, hvy⟩ := hy hidy
    exact hr.usage_apart v hv c hcu ((above_iff_of_parent? hp).mpr hvy)
  have hcd : c ∉ doomed := fun hcd => by
    have hpid := h.mirror.mp ((hdoomed c).mp hcd).1
    exact hne (Option.some.inj (hp.symm.trans hpid))
  simp only [hcu, hcd, not_false_eq_true, decide_true, Bool.and_self]

/-- Stripping an instance that is ready takes it apart. -/
theorem Ready.strip (hr : Ready s id e i) (h : s.Forest) (he : s.get? id = some e)
    (hroots : ∀ r ∈ roots, s.parent? r = some id ∧ r ∉ e.usage) :
    Parted s id e (s.strip id e.usage roots) := by
  obtain ⟨doomed, hstrip, hdoomed⟩ := strip_eq h hroots
  have hidu := hr.not_mem_usage h (contains_of_get? he)
  have houtlives (y : ElementId) : (s.cut e.usage doomed).contains y ↔
      s.contains y ∧ (s.Above id y → ∃ u ∈ e.usage, s.AtOrAbove u y) := by
    rw [cut, (h.foldl_unlink e.usage).contains_foldl_remove, hr.safe_iff h hdoomed,
      contains_of_alone? (alone?_foldl_unlink s _ y)]
  rw [hstrip]
  refine ⟨(h.foldl_unlink e.usage).foldl_remove doomed, ?_, houtlives, ?_, fun y hy hm ht => ?_,
    fun u hu hs => ?_⟩
  · rw [cut, size_foldl_remove, size_foldl_unlink]
  · obtain ⟨halone, hparent, hkeep⟩ := h.readings_cut
      ((hr.safe_iff h hdoomed).mpr fun ha => absurd ha (h.acyclic id))
    have hnone : ((s.children id).filter (· ∉ e.usage)).filter (· ∉ doomed) = [] := by
      refine List.filter_eq_nil_iff.mpr fun c hc => ?_
      rw [List.mem_filter, decide_eq_true_eq] at hc
      rw [decide_eq_true_eq, not_not, hdoomed]
      exact hc
    refine ⟨e.look, ?_⟩
    rw [get?_of_alone? halone he, hparent, hkeep, if_neg hidu, hnone, parent?_of_get? he]
  · have hsafe := ((houtlives y).mp ht).2
    obtain ⟨halone, hparent, hkeep⟩ := h.readings_cut ((hr.safe_iff h hdoomed).mpr hsafe)
    refine get?_eq_of_alone? halone ?_ (hkeep.trans (hr.filter_children h hdoomed hy hsafe))
    rw [hparent, if_neg hm]
  · have hsafe : s.Above id u → ∃ v ∈ e.usage, s.AtOrAbove v u := fun _ => ⟨u, hu, .refl⟩
    have hne : u ≠ id := fun hid => hidu (hid ▸ hu)
    obtain ⟨halone, hparent, hkeep⟩ := h.readings_cut ((hr.safe_iff h hdoomed).mpr hsafe)
    obtain ⟨eu, heu⟩ := contains_iff.mp hs
    rw [get?_of_alone? halone heu, hparent, if_pos hu, hkeep,
      hr.filter_children h hdoomed hne hsafe, children_of_get? heu, heu, Option.map_some]

end

/-- Taking an instance apart, when it is ready. -/
theorem Ready.parted (hr : Ready s id e i) (h : s.Forest) (he : s.get? id = some e)
    (hi : e.instance? = some i) :
    Parted s id e ((s.undress id).strip id e.usage e.oldRoots) := by
  have hshape : s.SameShape (s.undress id) := .modify s id
  have hbare : (s.undress id).get? id = some { e with look := e.look.undecorated } :=
    get?_modify_self he
  have hother {y : ElementId} (hy : y ≠ id) : (s.undress id).get? y = s.get? y :=
    get?_modify_of_ne hy
  have hidu := hr.not_mem_usage h (contains_of_get? he)
  have hforest : (s.undress id).Forest := h.modify (by constructor <;> intro <;> rfl) id
  have hready : Ready (s.undress id) id { e with look := e.look.undecorated } i :=
    hr.congr hforest hshape (contains_of_get? hbare) rfl rfl
  have hroots : ∀ r ∈ e.oldRoots, (s.undress id).parent? r = some id ∧ r ∉ e.usage := by
    intro r hm
    rw [Element.oldRoots, hi] at hm
    dsimp only at hm
    split at hm
    next hx =>
      have hchild : r ∈ s.children id := by
        rw [children_of_get? he]
        exact (hr.roots_lead hx).subset hm
      refine ⟨(hshape.parent? r).trans (h.mirror.mp hchild), ?_⟩
      rw [Element.usage_of_expanded hi hx]
      exact hr.roots_own hx r hm
    next => exact absurd hm List.not_mem_nil
  have hparted := hready.strip hforest hbare hroots
  refine ⟨hparted.forest, hparted.size.trans hshape.size, fun y => ?_, hparted.self,
    fun y hy hm ht => (hparted.same y hy hm ht).trans (hother hy), fun u hu hs => ?_⟩
  · have houtlives := hparted.outlives_iff y
    simp only [hshape.contains, hshape.above_iff, hshape.atOrAbove_iff] at houtlives
    exact houtlives
  · rw [← hother fun hid => hidu (hid ▸ hu)]
    exact hparted.parted u hu ((hshape.contains u).trans hs)

/-- Anything else is left alone. -/
theorem expandWithin_of_not_instance {d : Document} {st : Settings}
    (h : ¬ ∃ e i, s.get? id = some e ∧ e.instance? = some i) (levels : Nat)
    (enclosing : List ComponentId) : expandWithin d st levels enclosing s id =
      { scene := s, notices := [], outcome := .error (.notAnInstance id) } := by
  cases levels <;> rw [expandWithin, expandWith, detach?_of_not_instance h]

theorem scene_expand_of_not_instance {d : Document} {st : Settings}
    (h : ¬ ∃ e i, s.get? id = some e ∧ e.instance? = some i) : (s.expand d st id).scene = s := by
  rw [expand, expandWithin_of_not_instance h]

/-! ## Dropping the usage -/

/-- `t` is `s` without anything below the instance `id`. -/
structure Emptied (s : Scene) (id : ElementId) (e : Element) (t : Scene) : Prop where
  forest : t.Forest
  size : t.slots.size = s.slots.size
  outlives_iff : ∀ y, t.contains y ↔ s.contains y ∧ ¬ s.Above id y
  self : ∃ look, t.get? id = some { e with look, children := [] }
  same : ∀ y, y ≠ id → t.contains y → t.get? y = s.get? y

namespace Parted

theorem parent?_of_not_mem (h : Parted s id e t) (he : s.get? id = some e) (hm : y ∉ e.usage)
    (ht : t.contains y) : t.parent? y = s.parent? y := by
  by_cases hy : y = id
  · obtain ⟨look, hself⟩ := h.self
    rw [hy, parent?_of_get? hself, parent?_of_get? he]
  · rw [parent?, parent?, h.same y hy hm ht]

theorem parent?_of_mem (h : Parted s id e t) (hm : u ∈ e.usage) : t.parent? u = none := by
  cases hs : s.get? u with
  | none =>
    refine parent?_of_not_contains fun ht => ?_
    have := ((h.outlives_iff u).mp ht).1
    rw [contains, hs] at this
    exact absurd this (by decide)
  | some eu =>
    have hget := h.parted u hm (contains_of_get? hs)
    rw [hs, Option.map_some] at hget
    rw [parent?_of_get? hget]

/-- Every edge that is left was there. -/
theorem parent?_sub (h : Parted s id e t) (he : s.get? id = some e) (hp : t.parent? y = some p) :
    s.parent? y = some p := by
  by_cases hm : y ∈ e.usage
  · rw [h.parent?_of_mem hm] at hp
    cases hp
  · rw [← h.parent?_of_not_mem he hm (contains_of_parent? hp), hp]

/-- Below a piece of usage everything is as it was. -/
theorem atOrAbove_usage (h : Parted s id e t) (hr : Ready s id e i) (he : s.get? id = some e)
    (hu : u ∈ e.usage) (hy : s.contains y) : t.AtOrAbove u y ↔ s.AtOrAbove u y := by
  refine ⟨AtOrAbove.mono fun _ _ hp => h.parent?_sub he hp, fun ha => ?_⟩
  induction ha using Relation.ReflTransGen.head_induction_on with
  | refl => exact .refl
  | @head y p hp hup ih =>
    have huy : s.Above u y := Relation.TransGen.head' hp hup
    have hm : y ∉ e.usage := fun hm => hr.usage_apart u hu y hm huy
    have ht := (h.outlives_iff y).mpr ⟨hy, fun _ => ⟨u, hu, huy.atOrAbove⟩⟩
    have hp' := (h.parent?_of_not_mem he hm ht).trans hp
    exact .head hp' (ih (((h.outlives_iff p).mp (h.forest.contains_parent hp')).1))

/-- With the usage gone too, nothing below the instance is left. -/
theorem drop (h : Parted s id e t) (hs : s.Forest) (hr : Ready s id e i)
    (he : s.get? id = some e) : Emptied s id e (e.usage.foldl remove t) := by
  have hbelow {y : ElementId} (hy : s.contains y) (ha : ¬ s.Above id y) :
      ∀ u ∈ e.usage, ¬ t.AtOrAbove u y := fun u hu huy => by
    have huy' := (h.atOrAbove_usage hr he hu hy).mp huy
    have hidu := hr.usage_below u hu (hs.contains_of_atOrAbove huy' hy)
    exact ha (hidu.trans_right huy')
  have houtlives (y : ElementId) : (e.usage.foldl remove t).contains y ↔
      s.contains y ∧ ¬ s.Above id y := by
    rw [h.forest.contains_foldl_remove, h.outlives_iff]
    constructor
    · rintro ⟨⟨hy, hlost⟩, hcut⟩
      refine ⟨hy, fun ha => ?_⟩
      obtain ⟨u, hu, huy⟩ := hlost ha
      exact hcut u hu ((h.atOrAbove_usage hr he hu hy).mpr huy)
    · rintro ⟨hy, ha⟩
      exact ⟨⟨hy, fun hup => absurd hup ha⟩, hbelow hy ha⟩
  have hget {y : ElementId} (hy : s.contains y) (ha : ¬ s.Above id y) :
      (e.usage.foldl remove t).get? y = t.get? y := by
    obtain ⟨halone, hparent, hchildren⟩ := h.forest.readings_foldl_remove (hbelow hy ha)
    refine get?_eq_of_alone? halone hparent (hchildren.trans (List.filter_eq_self.mpr ?_))
    intro c hc
    refine decide_eq_true fun hm => ?_
    have hp := h.forest.mirror.mp hc
    rw [h.parent?_of_mem hm] at hp
    cases hp
  have hid : s.contains id := contains_of_get? he
  refine ⟨h.forest.foldl_remove _, ?_, houtlives, ?_, fun y hy ht => ?_⟩
  · rw [size_foldl_remove, h.size]
  · rw [hget hid (hs.acyclic id)]
    exact h.self
  · obtain ⟨hsy, ha⟩ := (houtlives y).mp ht
    have hm : y ∉ e.usage := fun hm => ha (hr.usage_below y hm hsy)
    rw [hget hsy ha]
    exact h.same y hy hm ((h.outlives_iff y).mpr ⟨hsy, fun hup => absurd hup ha⟩)

end Parted

end Scene

end SceneTree
