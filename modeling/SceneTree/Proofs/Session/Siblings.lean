import SceneTree.Proofs.Session.Renewed

/-!
# Instances that hand down the same

Two instances of a document get their copies at different times. What was
expanded in between has taken ids and may have moved either of them into a
copy. All the same, if they ask for the same component, hand down the same
and have no children in the document, then what is below the one is what is
below the other under other ids, in the same order
(`Session.siblings_alike`).

The copies that stand need not be compared step by step. What an instance
had to hand down when the document was linked can still be told from what
loading has left of it (`Retains`), and an expansion looks at no more. So
the two copies were twins when they were made, and they stand as they were
made (`Paired`).
-/

namespace SceneTree

namespace Scene

open Element (core)
open Relocation

variable {d : Document} {st : Settings} {s₀ s₁ s t : Scene} {p q id y z : ElementId}
  {e₀ e₁ e e' : Element} {i₀ i₁ i i' : Instance} {x₀ x₁ : Expansion} {todo : List ElementId}

/-! ## The same below -/

/-- What is below `q` is what is below `p` under the ids that `f` gives, but
for what is derived from it and what comes from above, and nothing is below
both. -/
structure SameBelow (s : Scene) (p q : ElementId) (f : ElementId → ElementId) : Prop where
  host : f p = q
  below_iff : ∀ z, s.Above q z ↔ ∃ y, s.Above p y ∧ f y = z
  increasing : ∀ y z, s.Above p y → s.Above p z → y.index < z.index → (f y).index < (f z).index
  parent? : ∀ y, s.Above p y → s.parent? (f y) = (s.parent? y).map f
  children : ∀ y, s.AtOrAbove p y → s.children (f y) = (s.children y).map f
  exists_get? : ∀ y e, s.Above p y → s.get? y = some e →
    ∃ e', s.get? (f y) = some e' ∧ e'.core = (e.rename f).core
  apart : ∀ y, s.Above p y → ¬ s.Above q y

/-! ## Twins that stand -/

/-- Without usage there is nothing but the copy below the instance. -/
theorem Stands.above_iff (h : Stands d s₀ p e₀ i₀ x₀ s) (hs : s.Forest)
    (hbare : x₀.rescued s₀ e₀ = []) : s.Above p y ↔ x₀.New s₀ y ∧ s.contains y := by
  rw [h.own_iff hs, hbare]
  exact (and_iff_left fun u hu => absurd hu List.not_mem_nil).symm

theorem Stands.children_host (h : Stands d s₀ p e₀ i₀ x₀ s) : s.children p = x₀.roots := by
  obtain ⟨e, look, decoration, parent, he, hcore⟩ := h.exists_host
  rw [children_of_get? he]
  exact (congrArg Element.children hcore :)

/-- The ids of twins correspond. -/
theorem Twins.new_move_iff (h : Twins (placesFor s₀ p s₁ q) x₀ x₁)
    (hy : s₀.slots.size ≤ y.index) :
    x₁.New s₁ ((placesFor s₀ p s₁ q).move y) ↔ x₀.New s₀ y := by
  have hsize := h.size
  have hmove : (placesFor s₀ p s₁ q).move y = ⟨s₁.slots.size + (y.index - s₀.slots.size)⟩ :=
    move_of_fresh hy
  simp only [placesFor] at hsize
  rw [hmove, Expansion.New, Expansion.New]
  dsimp only
  omega

/-- The copies of two instances that handed down the same and have no usage
are twins. -/
theorem Stands.twins (h : Stands d s₀ p e₀ i₀ (s₀.expand d st p) s)
    (h' : Stands d s₁ q e₁ i₁ (s₁.expand d st q) s) (he : s.get? p = some e)
    (hi : e.instance? = some i) (he' : s.get? q = some e') (hi' : e'.instance? = some i')
    (hpattern : e'.pattern = e.pattern)
    (hdecoration : i.roots ≠ [] → i'.roots ≠ [] → i'.decoration = i.decoration)
    (husage : e.usage = []) (husage' : e'.usage = []) :
    Twins (placesFor s₀ p s₁ q) (s₀.expand d st p) (s₁.expand d st q) := by
  obtain ⟨-, -, hleft, rfl⟩ := h.host_left rfl he hi
  obtain ⟨-, -, hleft', rfl⟩ := h'.host_left rfl he' hi'
  refine twins_expand_apart st h.made.before h.made.there h.instance? h.made.ready
    h'.made.before h'.made.there h'.instance? h'.made.ready
    (hleft'.symm.trans (hpattern.trans hleft)) (fun hne hne' => ?_) fun hne hne' => ?_
  · rw [← e₀.decorationAfter_eq hne, ← e₁.decorationAfter_eq hne']
    exact hdecoration hne hne'
  · have hnone : e₀.usage.filter s₀.contains = [] :=
      (if_neg hne).symm.trans ((h.usage_eq he).symm.trans husage)
    have hnone' : e₁.usage.filter s₁.contains = [] :=
      (if_neg hne').symm.trans ((h'.usage_eq he').symm.trans husage')
    rw [hnone, hnone', List.map_nil]

/-- Two copies that stand, were made as twins and have no usage in them. -/
structure Paired (d : Document) (s₀ : Scene) (p : ElementId) (e₀ : Element) (i₀ : Instance)
    (x₀ : Expansion) (s₁ : Scene) (q : ElementId) (e₁ : Element) (i₁ : Instance)
    (x₁ : Expansion) (s : Scene) : Prop where
  first : Stands d s₀ p e₀ i₀ x₀ s
  second : Stands d s₁ q e₁ i₁ x₁ s
  bare : x₀.rescued s₀ e₀ = []
  bare' : x₁.rescued s₁ e₁ = []
  twins : Twins (placesFor s₀ p s₁ q) x₀ x₁

namespace Paired

theorem move_host (h : Paired d s₀ p e₀ i₀ x₀ s₁ q e₁ i₁ x₁ s) :
    (placesFor s₀ p s₁ q).move p = q :=
  Relocation.move_host (r := placesFor s₀ p s₁ q) (index_lt_of_contains h.first.made.contains_id)

/-- They still are twins where they stand. -/
theorem map_get? (h : Paired d s₀ p e₀ i₀ x₀ s₁ q e₁ i₁ x₁ s) (hy : x₀.New s₀ y) :
    (s.get? ((placesFor s₀ p s₁ q).move y)).map core =
      ((s.get? y).map core).map (·.rename (placesFor s₀ p s₁ q).move) := by
  have hmade : (x₁.scene.get? ((placesFor s₀ p s₁ q).move y)).map core =
      ((x₀.scene.get? y).map core).map (·.rename (placesFor s₀ p s₁ q).move) := by
    rw [h.twins.get?_move y hy.1, Option.map_map, Option.map_map]
    rfl
  rw [h.second.copy _ ((h.twins.new_move_iff hy.1).mpr hy), hmade, h.first.copy y hy]

theorem exists_get? (h : Paired d s₀ p e₀ i₀ x₀ s₁ q e₁ i₁ x₁ s) (hs : s.Forest)
    (hy : s.Above p y) (he : s.get? y = some e) :
    ∃ e', s.get? ((placesFor s₀ p s₁ q).move y) = some e' ∧
      e'.core = (e.rename (placesFor s₀ p s₁ q).move).core := by
  have hmap := h.map_get? ((h.first.above_iff hs h.bare).mp hy).1
  rw [he, Option.map_some, Option.map_some] at hmap
  exact Option.map_eq_some_iff.mp hmap

/-- What is below `q` is what is below `p`, moved. -/
theorem below_iff (h : Paired d s₀ p e₀ i₀ x₀ s₁ q e₁ i₁ x₁ s) (hs : s.Forest) :
    s.Above q z ↔ ∃ y, s.Above p y ∧ (placesFor s₀ p s₁ q).move y = z := by
  have hlive {y : ElementId} (hy : x₀.New s₀ y) :
      s.contains ((placesFor s₀ p s₁ q).move y) = s.contains y := by
    have hsome := congrArg Option.isSome (h.map_get? hy)
    simp only [Option.isSome_map] at hsome
    exact hsome
  rw [h.second.above_iff hs h.bare']
  constructor
  · rintro ⟨hz, hz'⟩
    obtain ⟨y, hy, rfl⟩ := (placesFor s₀ p s₁ q).exists_move hz.1
    have hnew := (h.twins.new_move_iff hy).mp hz
    exact ⟨y, (h.first.above_iff hs h.bare).mpr ⟨hnew, hlive hnew ▸ hz'⟩, rfl⟩
  · rintro ⟨y, hy, rfl⟩
    obtain ⟨hnew, hy'⟩ := (h.first.above_iff hs h.bare).mp hy
    exact ⟨(h.twins.new_move_iff hnew.1).mpr hnew, hlive hnew ▸ hy'⟩

/-- Nothing of the document is in a copy, so neither instance is below the
other, and then nothing is below both. -/
theorem apart (h : Paired d s₀ p e₀ i₀ x₀ s₁ q e₁ i₁ x₁ s) (hs : s.Forest) (hp : s.Content p)
    (hq : s.Content q) (hne : p ≠ q) (hy : s.Above p y) : ¬ s.Above q y := by
  intro hy'
  rcases hy'.atOrAbove.total hy.atOrAbove with hpq | hqp
  · have hpq := hs.above_iff_ne.mpr ⟨hpq, hne⟩
    exact h.first.not_new_of_content hq ((h.first.above_iff hs h.bare).mp hpq).1
  · have hqp := hs.above_iff_ne.mpr ⟨hqp, hne.symm⟩
    exact h.second.not_new_of_content hp ((h.second.above_iff hs h.bare').mp hqp).1

theorem sameBelow (h : Paired d s₀ p e₀ i₀ x₀ s₁ q e₁ i₁ x₁ s) (hs : s.Forest)
    (hp : s.Content p) (hq : s.Content q) (hne : p ≠ q) :
    s.SameBelow p q (placesFor s₀ p s₁ q).move where
  host := h.move_host
  below_iff z := h.below_iff hs
  increasing y z hy hz hlt := by
    have hy : (placesFor s₀ p s₁ q).Fresh y := ((h.first.above_iff hs h.bare).mp hy).1.1
    have hz : (placesFor s₀ p s₁ q).Fresh z := ((h.first.above_iff hs h.bare).mp hz).1.1
    rw [move_of_fresh hy, move_of_fresh hz]
    exact Nat.add_lt_add_left (Nat.sub_lt_sub_right hy hlt) _
  parent? y hy := by
    obtain ⟨e, he⟩ := contains_iff.mp hy.contains
    obtain ⟨e', he', hcore⟩ := h.exists_get? hs hy he
    rw [parent?_of_get? he, parent?_of_get? he']
    exact (congrArg Element.parent hcore :)
  children y hy := by
    rcases atOrAbove_iff.mp hy with rfl | hy
    · rw [h.move_host, h.second.children_host, h.first.children_host, h.twins.roots_eq]
    · obtain ⟨e, he⟩ := contains_iff.mp hy.contains
      obtain ⟨e', he', hcore⟩ := h.exists_get? hs hy he
      rw [children_of_get? he, children_of_get? he']
      exact (congrArg Element.children hcore :)
  exists_get? y e hy he := h.exists_get? hs hy he
  apart y hy := h.apart hs hp hq hne hy

end Paired

/-! ## What loading leaves of an instance -/

/-- The instance `e` has not lost what it had to hand down as the element
`e₀` of a linked document. -/
structure Retains (e₀ e : Element) (i : Instance) : Prop where
  source : e.source = e₀.source
  pattern : e.pattern = e₀.pattern
  waiting : ¬ i.expanded → i.decoration = .none ∧ e.look.decoration = e₀.look.decoration
  decoration : i.roots ≠ [] → i.decoration = e₀.look.decoration
  usage : e₀.children = [] → e.usage = []

/-- No instance of `s₀` that is there in `s` has lost what it had to hand
down. -/
structure Retaining (s₀ s : Scene) : Prop where
  size_le : s₀.slots.size ≤ s.slots.size
  retains : ∀ y e₀ e, s₀.get? y = some e₀ → e₀.isInstance → s.get? y = some e →
    ∃ i, e.instance? = some i ∧ Retains e₀ e i

/-- An instance that is expanded for the first time keeps its decoration,
if there is a copy to wear it. -/
theorem Retains.expanded (h : Retains e₀ e i) (hi : e.instance? = some i) (hpend : ¬ i.expanded)
    (s : Scene) (x : Expansion) :
    let i' := { i with
      expanded := true, usage := x.rescued s e, roots := x.roots
      decoration := e.decorationAfter x.outcome }
    Retains e₀
      { e with look := e.lookAfter x.outcome, role := .standIn i', children := x.roots } i' where
  source := h.source
  pattern := by
    rw [← h.pattern]
    simp only [Element.pattern, hi]
    rfl
  waiting hnot := absurd rfl hnot
  decoration hroots := by
    obtain ⟨hnone, hlook⟩ := h.waiting hpend
    have hown : e.ownDecoration = e.look.decoration := by
      rw [Element.ownDecoration, hi]
      exact if_pos hnone
    exact (e.decorationAfter_eq hroots).trans (hown.trans hlook)
  usage hnone := by
    refine List.eq_nil_iff_forall_not_mem.mpr fun u hu => ?_
    have hm := (Expanded.mem_rescued hu).1
    rw [h.usage hnone] at hm
    exact List.not_mem_nil hm

theorem Retaining.expand (h : Retaining s₀ s) (ht : Tidy d s todo) (he : s.get? id = some e)
    (hi : e.instance? = some i) (hpend : ¬ i.expanded) :
    Retaining s₀ (s.expand d st id).scene := by
  have hr := ht.ready he hi
  have hx : Expanded d s id e i (s.expand d st id) := expands_expand d st ht.forest he hi hr
  refine ⟨Nat.le_trans h.size_le hx.size_le, fun y e₀ e' he₀ hinst he' => ?_⟩
  by_cases hy : y = id
  · subst hy
    obtain ⟨i', hi', hretains⟩ := h.retains y e₀ e he₀ hinst he
    cases hi.symm.trans hi'
    rw [self_expand st ht.forest he hi hr] at he'
    cases he'
    exact ⟨_, rfl, hretains.expanded hi hpend s _⟩
  · have hlt := Nat.lt_of_lt_of_le (index_lt_of_contains (contains_of_get? he₀)) h.size_le
    obtain ⟨parent, hget⟩ := hx.old_get? hlt hy he'
    obtain ⟨i', hi', hretains⟩ := h.retains y e₀ _ he₀ hinst hget
    exact ⟨i', hi', { hretains with }⟩

theorem Retaining.alike (h : Retaining s₀ s) (ha : Alike core s t) : Retaining s₀ t := by
  refine ⟨ha.size ▸ h.size_le, fun y e₀ e' he₀ hinst he' => ?_⟩
  obtain ⟨e, he, hcore⟩ := ha.exists_get? he'
  obtain ⟨i, hi, hretains⟩ := h.retains y e₀ e he₀ hinst he
  have hlook : e.look = e'.look := (congrArg Element.look hcore :)
  have husage : e.usage = e'.usage := Element.usage_congr (congrArg Element.place hcore :)
  refine ⟨i, (congrArg Element.instance? hcore).symm.trans hi, ?_⟩
  exact {
    source := (congrArg Element.source hcore).symm.trans hretains.source
    pattern := (congrArg Element.pattern hcore).symm.trans hretains.pattern
    waiting := hlook ▸ hretains.waiting
    decoration := hretains.decoration
    usage := husage ▸ hretains.usage }

theorem retaining_linkedScene (d : Document) (st : Settings) :
    Retaining (Session.linkedScene d st).1 (Session.linkedScene d st).1 := by
  refine ⟨Nat.le_refl _, fun y e₀ e he₀ hinst he => ?_⟩
  cases he.symm.trans he₀
  obtain ⟨i, hi⟩ := Option.isSome_iff_exists.mp hinst
  obtain ⟨r, -, halone⟩ := of_linkedScene he
  have hinstance := congrArg Element.instance? halone
  obtain ⟨hpend, -, hroots, hdecoration⟩ := Role.bare_of_ofRecord (hinstance.symm.trans hi)
  refine ⟨i, hi, rfl, rfl, fun _ => ⟨hdecoration, rfl⟩, fun hne => absurd hroots hne, ?_⟩
  intro hnone
  rw [Element.usage, hi]
  exact (if_neg hpend).trans hnone

end Scene

/-- Two instances of the component that is nothing but another one. -/
def Document.twice : Document :=
  { Document.nested with
    records :=
      [{ Record.ofHeader (.ofWidget .app) with childRefs := [20, 40] }, .standIn 3 [],
        .standIn 3 []]
    offsets := [0, 20, 40] }

namespace Session

open Scene (Paired Retaining Retains Stands)

variable {d : Document} {handlers : Handlers} {options : SessionOptions} {s : Session}
  {notices : List Notice} {p q : ElementId} {ep eq : Element}

theorem retaining_load (h : load d handlers options = (.ok s, notices)) :
    Retaining (linkedScene d (Settings.ofDocument d)).1 s.scene := by
  have hexpanded : Retaining (linkedScene d (Settings.ofDocument d)).1 (expandedScene d) :=
    ((Scene.tidy_linkedScene d _).expandAll_keeps
      (fun ht he hi hpend hretaining => hretaining.expand ht he hi hpend)
      (Scene.retaining_linkedScene d _)).2
  rw [(eq_of_load h).2]
  exact hexpanded.alike ((Scene.alike_loadTextures _ _ _ _).trans (Scene.alike_inherit _ _))

/-- The copy of an instance that the document has linked stands once it is
loaded, if the instance is there. -/
theorem exists_stands (h : load d handlers options = (.ok s, notices))
    (hp : (linkedScene d (Settings.ofDocument d)).1.get? p = some ep) (hinst : ep.isInstance)
    (hlive : s.scene.contains p) : s.scene.Content p ∧ ∃ e i, s.scene.get? p = some e ∧
      e.instance? = some i ∧ Retains ep e i ∧
        ∃ s₀ e₀ i₀, Stands d s₀ p e₀ i₀ (s₀.expand d s.settings p) s.scene := by
  obtain ⟨e, he⟩ := Scene.contains_iff.mp hlive
  obtain ⟨i, hi, hretains⟩ := (retaining_load h).retains p ep e hp hinst he
  have hd : e.source.isDocument := hretains.source ▸ (Scene.unexpanded_of_linkedScene hp).source
  have hexpanded := (Reachable.settled (.load h) he hi).expanded
  exact ⟨⟨e, he, hd⟩, e, i, he, hi, hretains,
    (steady_load h).lasting.stands p e i he hi hd hexpanded⟩

/-- Two instances of a document without children in it, to which the
document gives the same component, arguments and attributes and the same
decoration, have the same below them once the document is loaded. -/
theorem siblings_alike (h : load d handlers options = (.ok s, notices))
    (hp : (linkedScene d (Settings.ofDocument d)).1.get? p = some ep)
    (hq : (linkedScene d (Settings.ofDocument d)).1.get? q = some eq) (hne : p ≠ q)
    (hpinst : ep.isInstance) (hqinst : eq.isInstance) (hplive : s.scene.contains p)
    (hqlive : s.scene.contains q) (hpbare : ep.children = []) (hqbare : eq.children = [])
    (hpattern : eq.pattern = ep.pattern)
    (hdecoration : eq.look.decoration = ep.look.decoration) :
    ∃ f, s.scene.SameBelow p q f := by
  obtain ⟨hpc, e, i, he, hi, hkept, s₀, e₀, i₀, hstands⟩ := exists_stands h hp hpinst hplive
  obtain ⟨hqc, e', i', he', hi', hkept', s₁, e₁, i₁, hstands'⟩ := exists_stands h hq hqinst hqlive
  have husage := hkept.usage hpbare
  have husage' := hkept'.usage hqbare
  have hsame : e'.pattern = e.pattern :=
    hkept'.pattern.trans (hpattern.trans hkept.pattern.symm)
  have htwins := hstands.twins hstands' he hi he' hi' hsame
    (fun hroots hroots' => (hkept'.decoration hroots').trans
      (hdecoration.trans (hkept.decoration hroots).symm)) husage husage'
  have hpaired : Paired d s₀ p e₀ i₀ _ s₁ q e₁ i₁ _ s.scene :=
    { first := hstands, second := hstands'
      bare := (hstands.usage_eq he).symm.trans husage
      bare' := (hstands'.usage_eq he').symm.trans husage'
      twins := htwins }
  exact ⟨_, hpaired.sameBelow (Reachable.load h).forest hpc hqc hne⟩

/-- A component in a component, used twice. -/
theorem twice_alike : ∃ s notices, load .twice .none .standard = (.ok s, notices) ∧
    s.scene.ids = [⟨0⟩, ⟨1⟩, ⟨2⟩, ⟨3⟩, ⟨4⟩, ⟨5⟩, ⟨6⟩] ∧ s.scene.Above ⟨1⟩ ⟨4⟩ ∧
      ∃ f, s.scene.SameBelow ⟨1⟩ ⟨2⟩ f := by
  have hload : load .twice .none .standard = (.ok _, _) := rfl
  refine ⟨_, _, hload, by decide +kernel, .tail (.single (show _ = some ⟨3⟩ from rfl)) rfl, ?_⟩
  exact siblings_alike hload rfl rfl (by decide) rfl rfl rfl rfl rfl rfl rfl rfl

end Session

end SceneTree
