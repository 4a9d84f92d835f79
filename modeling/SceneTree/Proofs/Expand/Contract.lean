import SceneTree.Proofs.Document.Template
import SceneTree.Proofs.Forest.Shape
import SceneTree.Scene.Expand

/-!
# What an expansion comes to

`Expanded` says what expanding an instance does to a scene, told from
outside: which of the elements that were there are still there, that they
are as they were but for the parent of those that moved into the copy, and
that whatever is new lies below the instance. How the copy is made does
not show.

An instance must be `Ready` for that: its usage lies below it, no piece of
it below another, and the copy it has, if any, are its first children. An
instance that was never expanded is ready in any forest. An expansion
leaves every instance it made `Settled`, which is to be expanded and ready
to be expanded again, and unsettles no other (`Expanded.settled`).

The main step is that an expansion neither makes nor breaks a way up
between elements that outlive it (`Expanded.atOrAbove_iff`): usage moves
from one place below the instance to another.
-/

namespace SceneTree

namespace Element

/-- The children an element has of its own: for an expanded instance those
that went into its copy. -/
def usage (e : Element) : List ElementId :=
  match e.instance? with
  | some i => if i.expanded then i.usage else e.children
  | none => e.children

theorem role_of_instance? {e : Element} {i : Instance} (hi : e.instance? = some i) :
    e.role = .standIn i := by
  rw [instance?] at hi
  cases hr : e.role with
  | plain _ =>
    rw [hr] at hi
    cases hi
  | standIn j =>
    rw [hr] at hi
    cases hi
    rfl

theorem usage_of_expanded {e : Element} {i : Instance} (hi : e.instance? = some i)
    (hx : i.expanded) : e.usage = i.usage := by
  rw [usage, hi]
  exact if_pos hx

theorem instance?_congr {e e' : Element} (h : e.place = e'.place) : e.instance? = e'.instance? :=
  congrArg (fun p => p.2.1.instance?) h

theorem usage_congr {e e' : Element} (h : e.place = e'.place) : e.usage = e'.usage := by
  rw [usage, usage, instance?_congr h, show e.children = e'.children from congrArg (·.2.2.2) h]

end Element

/-- The template of an instance's component, if it can be read. -/
def Instance.template? (d : Document) (i : Instance) : Option Template :=
  (i.definition.bind d.component?).bind fun c => (Template.read c.template).toOption

/-- Whether an element was made from a record of the document. -/
def Source.isDocument : Source → Bool
  | .document _ => true
  | .template _ _ => false

namespace Expansion

/-- The roots of the copy, if there is one. -/
def roots (x : Expansion) : List ElementId :=
  match x.outcome with
  | .ok roots => roots
  | .error _ => []

/-- The usage that goes into the copy. Without a root there is no place
for it. -/
def rescued (x : Expansion) (s : Scene) (e : Element) : List ElementId :=
  if x.roots = [] then [] else e.usage.filter s.contains

end Expansion

namespace Scene

variable {d : Document} {s t : Scene} {id x y z p c u : ElementId} {e : Element} {i : Instance}

/-! ## Instances -/

/-- An instance that can be taken apart with nothing outside of it being
touched. -/
structure Ready (s : Scene) (id : ElementId) (e : Element) (i : Instance) : Prop where
  usage_nodup : e.usage.Nodup
  usage_made : ∀ u ∈ e.usage, u.index < s.slots.size
  usage_below : ∀ u ∈ e.usage, s.contains u → s.Above id u
  usage_apart : ∀ u ∈ e.usage, ∀ v ∈ e.usage, ¬ s.Above u v
  roots_lead : i.expanded → i.roots <+: e.children
  roots_own : i.expanded → ∀ r ∈ i.roots, r ∉ i.usage

/-- An instance that was expanded and can be expanded again. No element of
the document stands between it and its usage, and it has usage only if its
template has a root to put it under. -/
structure Settled (d : Document) (s : Scene) (id : ElementId) (e : Element) (i : Instance) : Prop
    extends Ready s id e i where
  expanded : i.expanded
  usage_near : ∀ u ∈ e.usage, ∀ z ez, s.get? z = some ez → ez.source.isDocument →
    s.Above id z → ¬ s.Above z u
  usage_placed : e.usage ≠ [] → ∃ t, i.template? d = some t ∧ t.roots ≠ []

/-- An instance stays ready as long as none of its usage comes back and
the ways up between it and its usage are those there were. -/
theorem Ready.transfer {e' : Element} (h : Ready s id e i) (ht : t.Forest) (hid : t.contains id)
    (hsize : s.slots.size ≤ t.slots.size) (husage : e'.usage = e.usage)
    (hlead : e.children <+: e'.children)
    (hlive : ∀ u ∈ e.usage, t.contains u → s.contains u)
    (hways : ∀ u ∈ e.usage, t.contains u → ∀ z ∈ id :: e.usage, t.contains z →
      (t.Above z u ↔ s.Above z u)) : Ready t id e' i where
  usage_nodup := husage ▸ h.usage_nodup
  usage_made u hu := Nat.lt_of_lt_of_le (h.usage_made u (husage ▸ hu)) hsize
  usage_below u hu htu := by
    rw [husage] at hu
    exact (hways u hu htu id List.mem_cons_self hid).mpr (h.usage_below u hu (hlive u hu htu))
  usage_apart u hu v hv ha := by
    rw [husage] at hu hv
    have htv := ha.contains
    have htu := ht.contains_of_atOrAbove ha.atOrAbove htv
    exact h.usage_apart u hu v hv ((hways v hv htv u (List.mem_cons_of_mem id hu) htu).mp ha)
  roots_lead hx := (h.roots_lead hx).trans hlead
  roots_own := h.roots_own

/-- Being ready is a matter of the shape of the scene. -/
theorem Ready.congr {e' : Element} (h : Ready s id e i) (ht : t.Forest) (hst : s.SameShape t)
    (hid : t.contains id) (husage : e'.usage = e.usage) (hchildren : e'.children = e.children) :
    Ready t id e' i :=
  h.transfer ht hid (Nat.le_of_eq hst.size.symm) husage (hchildren ▸ List.prefix_rfl)
    (fun u _ hu => hst.contains u ▸ hu) fun _ _ _ _ _ _ => hst.above_iff

theorem Settled.congr {e' : Element} (h : Settled d s id e i) (ht : t.Forest)
    (hst : s.SameShape t) (he' : t.get? id = some e') (hplace : e.place = e'.place) :
    Settled d t id e' i := by
  have husage := Element.usage_congr hplace
  have hchildren : e'.children = e.children := congrArg (·.2.2.2) hplace.symm
  refine ⟨h.toReady.congr ht hst (contains_of_get? he') husage.symm hchildren, h.expanded,
    fun u hu z ez hz hd hyz hzu => ?_, fun hne => h.usage_placed (husage ▸ hne)⟩
  obtain ⟨e₀, he₀, hplace₀⟩ := hst.exists_get? hz
  have hsource : e₀.source = ez.source := congrArg (·.1) hplace₀
  exact h.usage_near u (husage ▸ hu) z e₀ he₀ (hsource ▸ hd) (hst.above_iff.mp hyz)
    (hst.above_iff.mp hzu)

/-- An edit of another element unsettles no instance. -/
theorem Settled.modify {f : Element → Element} (h : Settled d s y e i) (hs : s.Forest)
    (he : s.get? y = some e) (hf : KeepsPlace f) (id : ElementId) :
    Settled d (s.modify id f) y e i := by
  have hup {x z : ElementId} : (s.modify id f).Above z x ↔ s.Above z x := above_modify hf.parent
  have hlive (x : ElementId) : (s.modify id f).contains x = s.contains x := contains_modify s id f x
  refine ⟨?_, h.expanded, fun u hu z ez hz hd hyz hzu => ?_, h.usage_placed⟩
  · exact h.toReady.transfer (hs.modify hf id) (by rw [hlive]; exact contains_of_get? he)
      (Nat.le_of_eq (size_modify s id f).symm) rfl List.prefix_rfl
      (fun u _ hu => hlive u ▸ hu) fun _ _ _ _ _ _ => hup
  · have hsource := map_get?_modify hf.source s id z
    rw [hz, Option.map_some] at hsource
    obtain ⟨e₀, he₀, heq⟩ := Option.map_eq_some_iff.mp hsource.symm
    exact h.usage_near u hu z e₀ he₀ (heq ▸ hd) (hup.mp hyz) (hup.mp hzu)

/-- In a forest, an instance that was never expanded is ready: its usage
are its children. -/
theorem Forest.ready (h : s.Forest) (he : s.get? id = some e) (hi : e.instance? = some i)
    (hp : ¬ i.expanded) : Ready s id e i := by
  have husage : e.usage = s.children id := by
    rw [Element.usage, hi, children_of_get? he]
    exact if_neg hp
  refine ⟨?_, fun u hu => ?_, fun u hu _ => ?_, fun u hu v hv ha => ?_, fun hx => absurd hx hp,
    fun hx => absurd hx hp⟩
  · rw [husage]
    exact h.children_nodup id
  · exact index_lt_of_contains (h.contains_child (husage ▸ hu))
  · exact .single (h.mirror.mp (husage ▸ hu))
  · have hup := h.mirror.mp (husage ▸ hu)
    have hvp := h.mirror.mp (husage ▸ hv)
    exact h.not_atOrAbove_parent hup ((above_iff_of_parent? hvp).mp ha)

/-! ## The contract -/

/-- What expanding the instance `id` of `s` comes to, when it is ready. -/
structure Expanded (d : Document) (s : Scene) (id : ElementId) (e : Element) (i : Instance)
    (x : Expansion) : Prop where
  before : s.Forest
  there : s.get? id = some e
  ready : Ready s id e i
  forest : x.scene.Forest
  size_le : s.slots.size ≤ x.scene.slots.size
  /-- Below the instance only the usage that is rescued outlives it. -/
  outlives_iff : ∀ y, y.index < s.slots.size →
    (x.scene.contains y ↔ s.contains y ∧ (s.Above id y → ∃ u ∈ x.rescued s e, s.AtOrAbove u y))
  same : ∀ y, y.index < s.slots.size → y ≠ id → y ∉ x.rescued s e → x.scene.contains y →
    x.scene.get? y = s.get? y
  /-- Usage keeps everything but its parent, which is now one of the copies. -/
  moved : ∀ u ∈ x.rescued s e, ∃ target, s.slots.size ≤ target.index ∧
    x.scene.get? u = (s.get? u).map fun eu => { eu with parent := some target }
  self : ∃ look decoration, x.scene.get? id = some
    { e with
      look
      role := .standIn
        { i with expanded := true, usage := x.rescued s e, roots := x.roots, decoration }
      children := x.roots }
  fresh_below : ∀ y, s.slots.size ≤ y.index → x.scene.contains y → x.scene.Above id y
  fresh_made : ∀ y ey, s.slots.size ≤ y.index → x.scene.get? y = some ey → ¬ ey.source.isDocument
  fresh_settled : ∀ y ey iy, s.slots.size ≤ y.index → x.scene.get? y = some ey →
    ey.instance? = some iy → Settled d x.scene y ey iy
  /-- The roots are the copies of the template's. -/
  roots_of_template : ∀ roots, x.outcome = .ok roots →
    (∀ r ∈ roots, s.slots.size ≤ r.index) ∧
      ∃ t, i.template? d = some t ∧ roots.length = t.roots.length

namespace Expanded

variable {x : Expansion}

theorem mem_rescued (hu : u ∈ x.rescued s e) : u ∈ e.usage ∧ s.contains u := by
  rw [Expansion.rescued] at hu
  split at hu
  next => exact absurd hu List.not_mem_nil
  next => exact List.mem_filter.mp hu

theorem rescued_below (h : Expanded d s id e i x) (hu : u ∈ x.rescued s e) : s.Above id u :=
  h.ready.usage_below u (mem_rescued hu).1 (mem_rescued hu).2

theorem contains_id (h : Expanded d s id e i x) : s.contains id := contains_of_get? h.there

/-- Nothing happens to what is not below the instance. -/
theorem contains_of_not_below (h : Expanded d s id e i x) (hy : s.contains y)
    (hb : ¬ s.Above id y) : x.scene.contains y :=
  (h.outlives_iff y (index_lt_of_contains hy)).mpr ⟨hy, fun ha => absurd ha hb⟩

/-! ### Single elements -/

/-- What outlives the expansion is what it was but for its parent, unless
it is the instance. -/
theorem old_get? (h : Expanded d s id e i x) (hy : y.index < s.slots.size) (hne : y ≠ id)
    {ey : Element} (ht : x.scene.get? y = some ey) :
    ∃ parent, s.get? y = some { ey with parent } := by
  by_cases hm : y ∈ x.rescued s e
  · obtain ⟨target, -, hget⟩ := h.moved y hm
    rw [ht] at hget
    obtain ⟨e₀, he₀, heq⟩ := Option.map_eq_some_iff.mp hget.symm
    refine ⟨e₀.parent, ?_⟩
    rw [he₀, ← heq]
  · refine ⟨ey.parent, ?_⟩
    rw [← h.same y hy hne hm (contains_of_get? ht), ht]

theorem old_source (h : Expanded d s id e i x) (hy : y.index < s.slots.size) {ey : Element}
    (ht : x.scene.get? y = some ey) : ∃ e₀, s.get? y = some e₀ ∧ e₀.source = ey.source := by
  by_cases hne : y = id
  · obtain ⟨look, decoration, hself⟩ := h.self
    rw [hne, hself] at ht
    cases ht
    exact ⟨e, hne ▸ h.there, rfl⟩
  · obtain ⟨parent, hold⟩ := h.old_get? hy hne ht
    exact ⟨_, hold, rfl⟩

/-- Of the elements that were there only usage gets another parent. -/
theorem old_parent? (h : Expanded d s id e i x) (hy : y.index < s.slots.size)
    (hm : y ∉ x.rescued s e) (ht : x.scene.contains y) :
    x.scene.parent? y = s.parent? y := by
  by_cases hne : y = id
  · obtain ⟨look, decoration, hself⟩ := h.self
    rw [hne, parent?_of_get? hself, parent?_of_get? h.there]
  · rw [parent?, parent?, h.same y hy hne hm ht]

theorem rescued_parent? (h : Expanded d s id e i x) (hu : u ∈ x.rescued s e) :
    ∃ target, s.slots.size ≤ target.index ∧ x.scene.parent? u = some target := by
  obtain ⟨target, hfresh, hget⟩ := h.moved u hu
  obtain ⟨eu, heu⟩ := contains_iff.mp (mem_rescued hu).2
  rw [heu, Option.map_some] at hget
  exact ⟨target, hfresh, parent?_of_get? hget⟩

/-- New elements hang under new elements or under the instance. -/
theorem fresh_parent? (h : Expanded d s id e i x) (hy : s.slots.size ≤ y.index)
    (hp : x.scene.parent? y = some p) : s.slots.size ≤ p.index ∨ p = id := by
  by_contra hold
  obtain ⟨hlt, hne⟩ := not_or.mp hold
  obtain ⟨ep, hep⟩ := contains_iff.mp (h.forest.contains_parent hp)
  obtain ⟨parent, hsp⟩ := h.old_get? (Nat.not_le.mp hlt) hne hep
  have hmem := h.forest.mirror.mpr hp
  rw [children_of_get? hep] at hmem
  have hmem' : y ∈ s.children p := by rwa [children_of_get? hsp]
  have := index_lt_of_contains (h.before.contains_child hmem')
  omega

/-! ### Ways up -/

/-- From what is not below the instance the ways up are as before. -/
theorem atOrAbove_outside (h : Expanded d s id e i x) (hy : s.contains y)
    (hb : ¬ s.Above id y) : x.scene.AtOrAbove z y ↔ s.AtOrAbove z y := by
  refine atOrAbove_congr (P := fun y => s.contains y ∧ ¬ s.Above id y) ?_ ?_ ⟨hy, hb⟩
  · rintro a b ⟨-, ha⟩ hp
    exact ⟨h.before.contains_parent hp, fun hup => ha (.head hp hup)⟩
  · rintro a ⟨ha, hab⟩
    exact h.old_parent? (index_lt_of_contains ha) (fun hm => hab (h.rescued_below hm))
      (h.contains_of_not_below ha hab)

theorem atOrAbove_id (h : Expanded d s id e i x) :
    x.scene.AtOrAbove z id ↔ s.AtOrAbove z id :=
  h.atOrAbove_outside h.contains_id (h.before.acyclic id)

/-- What was there before and is above a new element is at or above the
instance. -/
theorem atOrAbove_of_fresh (h : Expanded d s id e i x) (hy : s.slots.size ≤ y.index)
    (hz : z.index < s.slots.size) (ha : x.scene.AtOrAbove z y) : x.scene.AtOrAbove z id :=
  Scene.atOrAbove_of_fresh h.fresh_parent? hy hz ha

/-- An expansion neither makes nor breaks a way up between elements that
outlive it. -/
theorem atOrAbove_iff (h : Expanded d s id e i x) (hy : y.index < s.slots.size)
    (hty : x.scene.contains y) (hz : z.index < s.slots.size) (htz : x.scene.contains z) :
    x.scene.AtOrAbove z y ↔ s.AtOrAbove z y := by
  constructor
  · intro ha
    induction ha using Relation.ReflTransGen.head_induction_on with
    | refl => exact .refl
    | @head y p hp hup ih =>
      by_cases hm : y ∈ x.rescued s e
      · -- the way leads through the copy and on from the instance
        obtain ⟨target, hfresh, htarget⟩ := h.rescued_parent? hm
        have hpt : p = target := Option.some.inj (Eq.trans (Eq.symm hp) htarget)
        have hup' := h.atOrAbove_id.mp (h.atOrAbove_of_fresh (hpt ▸ hfresh) hz hup)
        exact (h.rescued_below hm).atOrAbove.trans hup'
      · have hp' : s.parent? y = some p := (h.old_parent? hy hm hty).symm.trans hp
        have hps := index_lt_of_contains (h.before.contains_parent hp')
        exact .head hp' (ih hps (h.forest.contains_parent hp))
  · intro ha
    induction ha using Relation.ReflTransGen.head_induction_on with
    | refl => exact .refl
    | @head y p hp hup ih =>
      by_cases hm : y ∈ x.rescued s e
      · obtain ⟨target, hfresh, htarget⟩ := h.rescued_parent? hm
        have htop := h.fresh_below target hfresh (h.forest.contains_parent htarget)
        have hzid : s.AtOrAbove z id := by
          rcases (h.rescued_below hm).atOrAbove.total (.head hp hup) with hzid | hidz
          · exact hzid
          · rcases Relation.reflTransGen_iff_eq_or_transGen.mp hidz with rfl | hidz
            · exact .refl
            · -- then other usage lies at or above `z` and so above `y`
              obtain ⟨v, hv, hvz⟩ := ((h.outlives_iff z hz).mp htz).2 hidz
              have hvy : s.Above v y := Relation.TransGen.head' hp (hup.trans hvz)
              exact absurd hvy (h.ready.usage_apart v (mem_rescued hv).1 y (mem_rescued hm).1)
        exact .head htarget (htop.atOrAbove.trans (h.atOrAbove_id.mpr hzid))
      · have hp' : x.scene.parent? y = some p := (h.old_parent? hy hm hty).trans hp
        have hps := index_lt_of_contains (h.before.contains_parent hp)
        exact .head hp' (ih hps (h.forest.contains_parent hp'))

theorem above_iff (h : Expanded d s id e i x) (hy : y.index < s.slots.size)
    (hty : x.scene.contains y) (hz : z.index < s.slots.size) (htz : x.scene.contains z) :
    x.scene.Above z y ↔ s.Above z y := by
  rw [h.forest.above_iff_ne, h.before.above_iff_ne, h.atOrAbove_iff hy hty hz htz]

/-! ### Instances -/

theorem contains_old (h : Expanded d s id e i x) (hy : y.index < s.slots.size)
    (ht : x.scene.contains y) : s.contains y :=
  ((h.outlives_iff y hy).mp ht).1

/-- An element of the document was there before. -/
theorem index_lt_of_isDocument (h : Expanded d s id e i x) {ez : Element}
    (hz : x.scene.get? z = some ez) (hd : ez.source.isDocument) : z.index < s.slots.size := by
  by_contra hle
  exact h.fresh_made z ez (Nat.not_lt.mp hle) hz hd

/-- No other instance is unsettled. -/
theorem settled (h : Expanded d s id e i x) (hy : y.index < s.slots.size) (hne : y ≠ id)
    {ey : Element} {iy : Instance} (ht : x.scene.get? y = some ey)
    (hset : ∀ e₀, s.get? y = some e₀ → Settled d s y e₀ iy) : Settled d x.scene y ey iy := by
  obtain ⟨parent, hold⟩ := h.old_get? hy hne ht
  have hset := hset _ hold
  have hty := contains_of_get? ht
  have hmade : ∀ u ∈ ey.usage, u.index < s.slots.size := hset.usage_made
  have hlive (u : ElementId) (hu : u ∈ ey.usage) (htu : x.scene.contains u) : s.contains u :=
    h.contains_old (hmade u hu) htu
  have hready : Ready x.scene y ey iy := by
    refine hset.toReady.transfer h.forest hty h.size_le rfl List.prefix_rfl hlive
      fun u hu htu z hz htz => ?_
    refine h.above_iff (hmade u hu) htu ?_ htz
    rcases List.mem_cons.mp hz with rfl | hz
    · exact hy
    · exact hmade z hz
  refine ⟨hready, hset.expanded, fun u hu z ez hz hd hyz hzu => ?_, hset.usage_placed⟩
  have hzlt := h.index_lt_of_isDocument hz hd
  obtain ⟨e₀, he₀, hsource⟩ := h.old_source hzlt hz
  have htu := hzu.contains
  have htz := contains_of_get? hz
  refine hset.usage_near u hu z e₀ he₀ (hsource ▸ hd) ?_ ?_
  · exact (h.above_iff hzlt htz hy hty).mp hyz
  · exact (h.above_iff (hmade u hu) htu hzlt htz).mp hzu

/-- Usage is rescued only by a copy with roots. -/
theorem outcome_of_rescued (hne : x.rescued s e ≠ []) :
    ∃ roots, x.outcome = .ok roots ∧ roots ≠ [] := by
  have hroots : x.roots ≠ [] := fun hnil => hne (by rw [Expansion.rescued, if_pos hnil])
  rw [Expansion.roots] at hroots
  cases hout : x.outcome with
  | error cause =>
    rw [hout] at hroots
    exact absurd rfl hroots
  | ok roots =>
    rw [hout] at hroots
    exact ⟨roots, rfl, hroots⟩

/-- The instance itself is settled then. -/
theorem self_settled (h : Expanded d s id e i x) : ∃ e' i', x.scene.get? id = some e' ∧
    e'.instance? = some i' ∧ e'.source = e.source ∧ e'.usage = x.rescued s e ∧
      Settled d x.scene id e' i' := by
  obtain ⟨look, decoration, hself⟩ := h.self
  have hid := contains_of_get? hself
  have hidlt := index_lt_of_contains h.contains_id
  have hlt : ∀ u ∈ x.rescued s e, u.index < s.slots.size := fun u hu =>
    index_lt_of_contains (mem_rescued hu).2
  have hlive : ∀ u ∈ x.rescued s e, x.scene.contains u := fun u hu => by
    obtain ⟨target, -, hp⟩ := h.rescued_parent? hu
    exact contains_of_parent? hp
  have hnodup : (x.rescued s e).Nodup := by
    rw [Expansion.rescued]
    split
    next => exact .nil
    next => exact h.ready.usage_nodup.filter _
  refine ⟨_, _, hself, rfl, rfl, rfl, ⟨hnodup, fun u hu => ?_, fun u hu _ => ?_,
    fun u hu v hv ha => ?_, fun _ => List.prefix_rfl, fun _ r hr hm => ?_⟩, rfl,
    fun u hu z ez hz hd hup hzu => ?_, fun hne => ?_⟩
  · exact Nat.lt_of_lt_of_le (hlt u hu) h.size_le
  · exact (h.above_iff (hlt u hu) (hlive u hu) hidlt hid).mpr (h.rescued_below hu)
  · have ha' := (h.above_iff (hlt v hv) (hlive v hv) (hlt u hu) (hlive u hu)).mp ha
    exact h.ready.usage_apart u (mem_rescued hu).1 v (mem_rescued hv).1 ha'
  · -- usage was there before, the roots were not
    obtain ⟨roots, hout, -⟩ := outcome_of_rescued (List.ne_nil_of_mem hm)
    have hr' : r ∈ roots := by
      have : x.roots = roots := by rw [Expansion.roots, hout]
      exact this ▸ hr
    exact absurd (hlt r hm) (Nat.not_lt.mpr ((h.roots_of_template roots hout).1 r hr'))
  · -- between the instance and its usage there is only the copy
    obtain ⟨target, hfresh, hp⟩ := h.rescued_parent? hu
    have hzlt := h.index_lt_of_isDocument hz hd
    have hzid := h.atOrAbove_of_fresh hfresh hzlt ((above_iff_of_parent? hp).mp hzu)
    exact h.forest.acyclic z (hup.trans_left hzid)
  · obtain ⟨roots, hout, hroots⟩ := outcome_of_rescued hne
    obtain ⟨-, t, ht, hlen⟩ := h.roots_of_template roots hout
    exact ⟨t, ht, fun hnil => hroots (List.length_eq_zero_iff.mp (by rw [hlen, hnil]; rfl))⟩

/-- Of the instances that are there afterwards none but those that were
pending before are unsettled, and the one that was expanded is not. -/
theorem settled_or_pending (h : Expanded d s id e i x) {todo : List ElementId} {ey : Element}
    {iy : Instance} (hey : x.scene.get? y = some ey) (hiy : ey.instance? = some iy)
    (hold : ∀ e₀, s.get? y = some e₀ → e₀.instance? = some iy →
      Settled d s y e₀ iy ∨ ¬ iy.expanded ∧ y ∈ todo) :
    Settled d x.scene y ey iy ∨ ¬ iy.expanded ∧ y ∈ todo ∧ y ≠ id := by
  by_cases hlt : y.index < s.slots.size
  · by_cases hne : y = id
    · obtain ⟨e', i', he', hi', -, -, hset⟩ := h.self_settled
      rw [hne, he'] at hey
      cases hey
      rw [hi'] at hiy
      cases hiy
      exact .inl (hne ▸ hset)
    · obtain ⟨parent, hget⟩ := h.old_get? hlt hne hey
      refine (hold _ hget hiy).imp (fun hset => ?_) fun ⟨hpend, hm⟩ => ⟨hpend, hm, hne⟩
      refine h.settled hlt hne hey fun e₀ he₀ => ?_
      rw [← Option.some.inj (hget.symm.trans he₀)]
      exact hset
  · exact .inl (h.fresh_settled y ey iy (Nat.not_lt.mp hlt) hey hiy)

/-- When there is a copy, all usage that is still there goes into it. -/
theorem rescued_eq (h : Expanded d s id e i x) (hset : Settled d s id e i)
    {roots : List ElementId} (hout : x.outcome = .ok roots) :
    x.rescued s e = e.usage.filter s.contains := by
  rw [Expansion.rescued]
  split
  next hnil =>
    by_cases husage : e.usage = []
    · rw [husage, List.filter_nil]
    · obtain ⟨t, ht, hroots⟩ := hset.usage_placed husage
      obtain ⟨-, t', ht', hlen⟩ := h.roots_of_template roots hout
      rw [Expansion.roots, hout] at hnil
      cases ht.symm.trans ht'
      rw [show roots = [] from hnil, List.length_nil] at hlen
      exact absurd (List.length_eq_zero_iff.mp hlen.symm) hroots
  next => rfl

end Expanded

end Scene

end SceneTree
