import SceneTree.Proofs.Expand.Correct
import SceneTree.Proofs.Session.Linked

/-!
# What becomes of the document's elements

Loading expands every instance, and from then on each instance of a
session is settled (`Reachable.tidy`). So an instance can always be
expanded again with nothing outside of it being touched, and what it keeps
is what it has written down as its usage.

For an instance that a record of the document made this is all the
document has below it (`Homed`). An instance inside a copy may have more
below it: when the copy was made, the usage of the instance around it was
hung under its first root, and that may be this instance. Such usage is
not its own, and goes with the old copy when it is expanded again
(`Reachable.reexpand_keeps_iff`).
-/

namespace SceneTree

namespace Scene

variable {d : Document} {st : Settings} {s t : Scene} {id y z u v : ElementId} {e ey : Element}
  {i : Instance} {todo todo' : List ElementId} {x : Expansion}

/-- An element that is there and was made from a record of the document. -/
def Content (s : Scene) (z : ElementId) : Prop := ∃ e, s.get? z = some e ∧ e.source.isDocument

theorem Content.contains (h : s.Content z) : s.contains z := by
  obtain ⟨e, he, -⟩ := h
  exact contains_of_get? he

theorem SameShape.content_iff (h : s.SameShape t) : t.Content z ↔ s.Content z := by
  constructor
  · rintro ⟨e', he', hd⟩
    obtain ⟨e, he, hplace⟩ := h.exists_get? he'
    have hsource : e.source = e'.source := congrArg (·.1) hplace
    exact ⟨e, he, hsource ▸ hd⟩
  · rintro ⟨e, he, hd⟩
    obtain ⟨e', he'⟩ := contains_iff.mp ((h.contains z).trans (contains_of_get? he))
    obtain ⟨e₀, he₀, hplace⟩ := h.exists_get? he'
    cases he.symm.trans he₀
    have hsource : e.source = e'.source := congrArg (·.1) hplace
    exact ⟨e', he', hsource ▸ hd⟩

/-- All that the document has below `y` lies at or below a piece of usage
that is itself of the document. -/
def Homed (s : Scene) (y : ElementId) (usage : List ElementId) : Prop :=
  ∀ z, s.Content z → s.Above y z → ∃ u ∈ usage, s.Content u ∧ s.AtOrAbove u z

/-- Every instance is settled, but for those of `todo` that are pending
still, and every instance of the document is home to what is below it. -/
structure Tidy (d : Document) (s : Scene) (todo : List ElementId) : Prop where
  forest : s.Forest
  settled : ∀ y e i, s.get? y = some e → e.instance? = some i →
    Settled d s y e i ∨ ¬ i.expanded ∧ y ∈ todo
  homed : ∀ y e, s.get? y = some e → e.isInstance → e.source.isDocument → s.Homed y e.usage

/-! ## A linked document -/

/-- An element of the document that stands for no component yet. -/
structure Unexpanded (e : Element) : Prop where
  source : e.source.isDocument
  pending : ∀ i, e.instance? = some i → ¬ i.expanded

theorem unexpanded_of_linkedScene (he : (Session.linkedScene d st).1.get? y = some e) :
    Unexpanded e := by
  obtain ⟨r, -, halone⟩ := of_linkedScene he
  have hsource := congrArg Element.source halone
  have hinstance := congrArg Element.instance? halone
  exact ⟨congrArg Source.isDocument hsource, fun i hi =>
    (Role.bare_of_ofRecord (hinstance.symm.trans hi)).1⟩

/-- In a linked document all instances are pending. -/
theorem tidy_linkedScene (d : Document) (st : Settings) :
    Tidy d (Session.linkedScene d st).1
      (((Session.linkedScene d st).1.elements.filter (·.isPending)).map (·.id)) := by
  have hforest := (Session.grows_linkedScene d st).forest forest_empty
  refine ⟨hforest, fun y e i he hi => .inr ⟨(unexpanded_of_linkedScene he).pending i hi, ?_⟩,
    fun y e he hi hd z hz hup => ?_⟩
  · refine List.mem_map.mpr ⟨e, List.mem_filter.mpr ⟨mem_elements_of_get? he, ?_⟩, hforest.named he⟩
    have hpend := (unexpanded_of_linkedScene he).pending i hi
    simp only [Element.isPending, hi, Option.any_some, hpend, Bool.not_false]
  · obtain ⟨i, hi⟩ := Option.isSome_iff_exists.mp hi
    obtain ⟨c, hc, hcz⟩ := hforest.above_iff_exists_child.mp hup
    obtain ⟨ec, hec⟩ := contains_iff.mp (hforest.contains_child hc)
    refine ⟨c, ?_, ⟨ec, hec, (unexpanded_of_linkedScene hec).source⟩, hcz⟩
    rw [Element.usage, hi]
    dsimp only
    rwa [if_neg ((unexpanded_of_linkedScene he).pending i hi), ← children_of_get? he]

/-! ## An expansion -/

/-- Between an instance and its usage stands no element of the document. -/
theorem Tidy.not_between (h : Tidy d s todo) (he : s.get? id = some e)
    (hi : e.instance? = some i) (hv : v ∈ e.usage) (hu : s.Content u) (hup : s.Above id u) :
    ¬ s.Above u v := by
  obtain ⟨eu, heu, hd⟩ := hu
  rcases h.settled id e i he hi with hset | ⟨hpend, -⟩
  · exact hset.usage_near v hv u eu heu hd hup
  · intro huv
    have husage : e.usage = s.children id := by
      rw [Element.usage, hi, children_of_get? he]
      exact if_neg hpend
    have hp := h.forest.mirror.mp (husage ▸ hv)
    exact h.forest.acyclic id (Relation.TransGen.trans_right ((above_iff_of_parent? hp).mp huv) hup)

namespace Expanded

/-- What an expansion leaves of the document was there before. -/
theorem content_old (hx : Expanded d s id e i x) (hz : x.scene.Content z) :
    z.index < s.slots.size ∧ s.Content z := by
  obtain ⟨ez, hez, hd⟩ := hz
  have hlt := hx.index_lt_of_isDocument hez hd
  obtain ⟨e₀, he₀, hsource⟩ := hx.old_source hlt hez
  exact ⟨hlt, e₀, he₀, hsource ▸ hd⟩

theorem content_of_contains (hx : Expanded d s id e i x) (hz : s.Content z)
    (hlive : x.scene.contains z) : x.scene.Content z := by
  obtain ⟨ez, hez⟩ := contains_iff.mp hlive
  obtain ⟨e₀, he₀, hsource⟩ := hx.old_source (index_lt_of_contains hz.contains) hez
  obtain ⟨e₁, he₁, hd⟩ := hz
  cases he₀.symm.trans he₁
  exact ⟨ez, hez, hsource ▸ hd⟩

end Expanded

/-- Another instance stays home to what is left below it. -/
theorem Homed.expanded {usage : List ElementId} (h : s.Homed y usage) (ht : Tidy d s todo)
    (hi : e.instance? = some i) (hx : Expanded d s id e i x) (hy : y.index < s.slots.size)
    (hlive : x.scene.contains y) : x.scene.Homed y usage := by
  intro z hz hyz
  obtain ⟨hzlt, hzs⟩ := hx.content_old hz
  obtain ⟨u, hu, hus, huz⟩ := h z hzs ((hx.above_iff hzlt hz.contains hy hlive).mp hyz)
  have hult := index_lt_of_contains hus.contains
  have hux : x.scene.contains u := by
    refine (hx.outlives_iff u hult).mpr ⟨hus.contains, fun hup => ?_⟩
    obtain ⟨v, hv, hvz⟩ := ((hx.outlives_iff z hzlt).mp hz.contains).2 (hup.trans_right huz)
    rcases hvz.total huz with huv | hvu
    · -- otherwise `u` stands between the instance that was expanded and its usage
      rcases atOrAbove_iff.mp huv with rfl | huv
      · exact ⟨v, hv, .refl⟩
      · exact absurd huv (ht.not_between hx.there hi (Expanded.mem_rescued hv).1 hus hup)
    · exact ⟨v, hv, hvu⟩
  refine ⟨u, hu, hx.content_of_contains hus hux, ?_⟩
  exact (hx.atOrAbove_iff hzlt hz.contains hult hux).mpr huz

/-- The instance that was expanded is home to the usage it has left. -/
theorem Homed.rescued (h : s.Homed id e.usage) (hx : Expanded d s id e i x)
    (hlive : x.scene.contains id) : x.scene.Homed id (x.rescued s e) := by
  intro z hz hup
  obtain ⟨hzlt, hzs⟩ := hx.content_old hz
  have hups := (hx.above_iff hzlt hz.contains (index_lt_of_contains hx.contains_id) hlive).mp hup
  obtain ⟨v, hv, hvz⟩ := ((hx.outlives_iff z hzlt).mp hz.contains).2 hups
  obtain ⟨u, hu, hus, huz⟩ := h z hzs hups
  have hve := (Expanded.mem_rescued hv).1
  have huv : u = v := by
    rcases hvz.total huz with huv | hvu
    · rcases atOrAbove_iff.mp huv with heq | huv
      · exact heq.symm
      · exact absurd huv (hx.ready.usage_apart u hu v hve)
    · rcases atOrAbove_iff.mp hvu with heq | hvu
      · exact heq
      · exact absurd hvu (hx.ready.usage_apart v hve u hu)
  subst huv
  obtain ⟨target, -, hp⟩ := hx.rescued_parent? hv
  have hux := contains_of_parent? hp
  refine ⟨u, hv, hx.content_of_contains hus hux, ?_⟩
  exact (hx.atOrAbove_iff hzlt hz.contains (index_lt_of_contains hus.contains) hux).mpr hvz

namespace Tidy

/-- After an expansion the scene is as tidy as before, and one instance
more is settled. -/
theorem expanded (h : Tidy d s todo) (hi : e.instance? = some i)
    (hx : Expanded d s id e i x) (htodo : ∀ y ∈ todo, y ≠ id → y ∈ todo') :
    Tidy d x.scene todo' := by
  refine ⟨hx.forest, fun y ey iy hey hiy => ?_, fun y ey hey hinst hd => ?_⟩
  · refine (hx.settled_or_pending hey hiy fun e₀ he₀ => h.settled y e₀ iy he₀).imp_right ?_
    rintro ⟨hpend, hm, hne⟩
    exact ⟨hpend, htodo y hm hne⟩
  · have hlt := hx.index_lt_of_isDocument hey hd
    have hlive := contains_of_get? hey
    have hinst₀ : e.isInstance := by rw [Element.isInstance, hi, Option.isSome_some]
    by_cases hne : y = id
    · subst hne
      obtain ⟨e', i', he', -, hsource, husage, -⟩ := hx.self_settled
      cases hey.symm.trans he'
      rw [husage]
      exact (h.homed y e hx.there hinst₀ (hsource ▸ hd)).rescued hx hlive
    · obtain ⟨parent, hget⟩ := hx.old_get? hlt hne hey
      exact (h.homed y _ hget hinst hd).expanded h hi hx hlt hlive

/-- An instance can be expanded at any time. -/
theorem ready (h : Tidy d s todo) (he : s.get? id = some e) (hi : e.instance? = some i) :
    Ready s id e i := by
  rcases h.settled id e i he hi with hset | ⟨hpend, -⟩
  · exact hset.toReady
  · exact h.forest.ready he hi hpend

/-- Being tidy is a matter of the shape of the scene. -/
theorem rewrites (h : Tidy d s todo) (hr : s.Rewrites t) : Tidy d t todo := by
  have hst := hr.sameShape
  have ht := hr.grows.forest h.forest
  refine ⟨ht, fun y e' i he' hi => ?_, fun y e' he' hi hd z hz hyz => ?_⟩
  · obtain ⟨e, he, hplace⟩ := hst.exists_get? he'
    refine (h.settled y e i he (Element.instance?_congr hplace ▸ hi)).imp_left fun hset => ?_
    exact hset.congr ht hst he' hplace
  · obtain ⟨e, he, hplace⟩ := hst.exists_get? he'
    have hsource : e.source = e'.source := congrArg (·.1) hplace
    have hinst : e.isInstance := by rwa [Element.isInstance, Element.instance?_congr hplace]
    obtain ⟨u, hu, hus, huz⟩ := h.homed y e he hinst (hsource ▸ hd) z (hst.content_iff.mp hz)
      (hst.above_iff.mp hyz)
    exact ⟨u, Element.usage_congr hplace ▸ hu, hst.content_iff.mpr hus, hst.atOrAbove_iff.mpr huz⟩

/-- Expanding an instance, or trying to expand anything else. -/
theorem expand (h : Tidy d s todo) (st : Settings) (id : ElementId) :
    Tidy d (s.expand d st id).scene todo := by
  by_cases hinst : ∃ e i, s.get? id = some e ∧ e.instance? = some i
  · obtain ⟨e, i, he, hi⟩ := hinst
    have hx := expands_expand d st h.forest he hi (h.ready he hi)
    exact h.expanded hi hx fun y hy _ => hy
  · rwa [scene_expand_of_not_instance hinst]

/-- Expanding all that is pending leaves nothing pending, and keeps what
every single expansion keeps. -/
theorem expandAll_keeps {P : Scene → Prop}
    (hstep : ∀ {s todo id e i}, Tidy d s todo → s.get? id = some e → e.instance? = some i →
      ¬ i.expanded → P s → P (s.expand d st id).scene)
    (h : Tidy d s ((s.elements.filter (·.isPending)).map (·.id))) (hs : P s) :
    Tidy d (s.expandAll d st).scene [] ∧ P (s.expandAll d st).scene := by
  suffices hfold : ∀ (todo : List ElementId) (run : ExpansionRun), Tidy d run.scene todo →
      P run.scene → Tidy d (todo.foldl (expandPending d st) run).scene [] ∧
        P (todo.foldl (expandPending d st) run).scene from hfold _ ⟨s, [], 0⟩ h hs
  intro todo
  induction todo with
  | nil => exact fun _ hrun hP => ⟨hrun, hP⟩
  | cons id todo ih =>
    intro run hrun hP
    have hturn : Tidy d (expandPending d st run id).scene todo ∧
        P (expandPending d st run id).scene := by
      unfold expandPending
      split
      next hpend =>
        obtain ⟨e, he, hpend⟩ := (Option.any_eq_true (·.isPending) (run.scene.get? id)).mp hpend
        obtain ⟨i, hi, hx⟩ := (Option.any_eq_true _ e.instance?).mp hpend
        have hexpanded := expands_expand d st hrun.forest he hi (hrun.ready he hi)
        have hnext := hrun.expanded hi hexpanded fun y hy hne =>
          (List.mem_cons.mp hy).resolve_left hne
        have hkept := hstep hrun he hi (by simpa using hx) hP
        dsimp only
        split
        next => exact ⟨hnext, hkept⟩
        next => exact ⟨hnext, hkept⟩
      next hpend =>
        refine ⟨{ hrun with settled := fun y e i he hi => ?_ }, hP⟩
        refine (hrun.settled y e i he hi).imp_right ?_
        rintro ⟨hx, hm⟩
        refine ⟨hx, (List.mem_cons.mp hm).resolve_left ?_⟩
        rintro rfl
        refine hpend ((Option.any_eq_true (·.isPending) _).mpr ⟨e, he, ?_⟩)
        simp only [Element.isPending, hi, Option.any_some, hx, Bool.not_false]
    exact ih _ hturn.1 hturn.2

theorem expandAll (h : Tidy d s ((s.elements.filter (·.isPending)).map (·.id))) :
    Tidy d (s.expandAll d st).scene [] :=
  (h.expandAll_keeps (P := fun _ => True) (fun _ _ _ _ _ => trivial) trivial).1

end Tidy

end Scene

/-- The record of a container that stands for a component, where entry one
of the string table is the reserved key. -/
def Record.standIn (name : UInt8) (childRefs : List UInt16) : Record :=
  { Record.blank with customs := [{ key := 1, value := .string name }], childRefs }

/-- A text used in a component that is nothing but another component, one
without a slot. -/
def Document.nested : Document :=
  { Document.blank with
    strings := ["", componentKey, "Inner", "Outer"]
    records :=
      [{ Record.ofHeader (.ofWidget .app) with childRefs := [18] }, .standIn 3 [22],
        .ofHeader (.ofWidget .text)]
    offsets := [0, 18, 40]
    components :=
      [{ name := "Inner", parameters := [], template := Record.blank.toBytes },
        { name := "Outer", parameters := [], template := (Record.standIn 2 []).toBytes }] }

namespace Session

open Scene (Tidy)

variable {d : Document} {s : Session} {id : ElementId} {e : Element} {i : Instance}
  {roots : List ElementId}

theorem Reachable.document_eq (h : Reachable d s) : s.document = d := by
  induction h with
  | load h => exact (eq_of_load h).1
  | frame _ ih => exact ih
  | @resize s _ viewport ih =>
    obtain ⟨dirty, heq⟩ := s.resize_eq viewport
    exact heq ▸ ih
  | reexpand _ _ ih => exact ih
  | point _ _ _ _ ih => exact ih
  | equip _ _ ih => exact ih

theorem tidy_load {handlers : Handlers} {options : SessionOptions} {notices : List Notice}
    (h : load d handlers options = (.ok s, notices)) : Tidy d s.scene [] :=
  (Scene.tidy_linkedScene d (Settings.ofDocument d)).expandAll.rewrites (rewrites_load h)

/-- In a session every instance is settled at any time. -/
theorem Reachable.tidy (h : Reachable d s) : Tidy d s.scene [] := by
  induction h with
  | load h => exact tidy_load h
  | frame _ ih => exact ih.rewrites (rewrites_frame _)
  | @resize s _ viewport ih =>
    obtain ⟨dirty, heq⟩ := s.resize_eq viewport
    exact heq ▸ ih
  | @reexpand s h id ih =>
    have hexpanded := ih.expand s.settings id
    rw [← h.document_eq] at hexpanded ⊢
    exact hexpanded.rewrites (s.rewrites_reexpand id)
  | point _ _ _ _ ih => exact ih
  | equip _ _ ih => exact ih

theorem Reachable.settled (h : Reachable d s) (he : s.scene.get? id = some e)
    (hi : e.instance? = some i) : Scene.Settled d s.scene id e i :=
  (h.tidy.settled id e i he hi).resolve_right fun hm => List.not_mem_nil hm.2

/-- What linking a document establishes, and expanding an instance and
rewriting elements where they stand keep, is so in a session at any time. -/
theorem Reachable.keeps {P : Scene → Prop}
    (hlinked : P (linkedScene d (Settings.ofDocument d)).1)
    (hexpand : ∀ {st t todo id e i}, Tidy d t todo → t.get? id = some e →
      e.instance? = some i → P t → P (t.expand d st id).scene)
    (hrewrites : ∀ {t t'}, t.Forest → t.Rewrites t' → P t → P t') (h : Reachable d s) :
    P s.scene := by
  induction h with
  | load h =>
    have hload := (Scene.tidy_linkedScene d (Settings.ofDocument d)).expandAll_keeps
      (fun htidy he hi _ => @hexpand (Settings.ofDocument d) _ _ _ _ _ htidy he hi) hlinked
    exact hrewrites hload.1.forest (rewrites_load h) hload.2
  | @frame s h ih => exact hrewrites h.forest (rewrites_frame s) ih
  | @resize s _ viewport ih =>
    obtain ⟨dirty, heq⟩ := s.resize_eq viewport
    exact heq ▸ ih
  | @reexpand s h id ih =>
    have hforest : (s.scene.expand s.document s.settings id).scene.Forest :=
      (Scene.grows_expandWithin s.document s.settings maxDepth [] s.scene id).forest h.forest
    refine hrewrites hforest (s.rewrites_reexpand id) ?_
    by_cases hinst : ∃ e i, s.scene.get? id = some e ∧ e.instance? = some i
    · obtain ⟨e, i, he, hi⟩ := hinst
      rw [h.document_eq]
      exact hexpand h.tidy he hi ih
    · rwa [Scene.scene_expand_of_not_instance hinst]
  | point _ _ _ _ ih => exact ih
  | equip _ _ ih => exact ih

/-- When an instance is expanded again, an element of the document is lost
exactly if it lies below the instance but not at or below a piece of its
usage. Below an instance of the document there is no such element, so
there nothing is lost. -/
theorem Reachable.reexpand_keeps_iff (h : Reachable d s) (he : s.scene.get? id = some e)
    (hi : e.instance? = some i) (hok : (s.reexpand id).2.1 = .ok roots) :
    (∀ z, s.scene.Content z → ((s.reexpand id).1.scene.contains z ↔
        (s.scene.Above id z → ∃ u ∈ i.usage, s.scene.AtOrAbove u z))) ∧
      (e.source.isDocument → ∀ z, s.scene.Content z → (s.reexpand id).1.scene.contains z) := by
  have htidy := h.tidy
  rw [← h.document_eq] at htidy
  have hset := (htidy.settled id e i he hi).resolve_right fun hm => List.not_mem_nil hm.2
  have hx := Scene.expands_expand s.document s.settings htidy.forest he hi hset.toReady
  have husage : e.usage = i.usage := by
    rw [Element.usage, hi]
    exact if_pos hset.expanded
  have hlives (z : ElementId) (hz : s.scene.Content z) : (s.reexpand id).1.scene.contains z ↔
      (s.scene.Above id z → ∃ u ∈ i.usage, s.scene.AtOrAbove u z) := by
    rw [(s.rewrites_reexpand id).sameShape.contains,
      hx.outlives_iff z (Scene.index_lt_of_contains hz.contains), hx.rescued_eq hset hok, husage]
    refine (and_iff_right hz.contains).trans (imp_congr_right fun _ => exists_congr fun u => ?_)
    refine and_congr_left fun huz => List.mem_filter.trans (and_iff_left ?_)
    exact htidy.forest.contains_of_atOrAbove huz hz.contains
  refine ⟨hlives, fun hd z hz => (hlives z hz).mpr fun hup => ?_⟩
  have hinst : e.isInstance := by rw [Element.isInstance, hi, Option.isSome_some]
  obtain ⟨u, hu, -, huz⟩ := htidy.homed id e he hinst hd z hz hup
  exact ⟨u, husage ▸ hu, huz⟩

/-- The text is kept when the instance it is the usage of is expanded. -/
theorem nested_keeps_text : ∃ s notices e i, load .nested .none .standard = (.ok s, notices) ∧
    s.scene.get? ⟨1⟩ = some e ∧ e.instance? = some i ∧ (s.reexpand ⟨1⟩).2.1 = .ok [⟨5⟩] ∧
    e.source.isDocument ∧ s.scene.Content ⟨2⟩ ∧ (s.reexpand ⟨1⟩).1.scene.contains ⟨2⟩ := by
  have hload : load .nested .none .standard = (.ok _, _) := rfl
  exact ⟨_, _, _, _, hload, rfl, rfl, rfl, rfl, ⟨_, rfl, rfl⟩,
    (Reachable.reexpand_keeps_iff (.load hload) rfl rfl rfl).2 rfl ⟨2⟩ ⟨_, rfl, rfl⟩⟩

/-- It was hung under the instance in the copy, though, and is lost when
that is expanded. -/
theorem nested_loses_text : ∃ s notices, load .nested .none .standard = (.ok s, notices) ∧
    s.scene.Content ⟨2⟩ ∧ (s.reexpand ⟨3⟩).2.1 = .ok [⟨5⟩] ∧
    ¬ (s.reexpand ⟨3⟩).1.scene.contains ⟨2⟩ := by
  have hload : load .nested .none .standard = (.ok _, _) := rfl
  exact ⟨_, _, hload, ⟨_, rfl, rfl⟩, rfl, by decide⟩

end Session

end SceneTree
