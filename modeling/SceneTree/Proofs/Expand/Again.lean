import SceneTree.Proofs.Expand.Renaming
import SceneTree.Proofs.Expand.Stands

/-!
# Expanding an instance again

Where the copy of an instance still stands, expanding the instance again
makes the same copy once more, and the rest of the scene stays as it is:
the scene afterwards is the one before with the copy under new ids
(`Again.renewed`).

The instance hands down what it handed down the first time, so the new copy
is a twin of the old one (`Again.twins`). Of the other elements only the
instance and its usage hold ids of the copy, and these now hold those of
the twin. So the proof looks at four kinds of elements: those of the copy,
the instance, its usage, and all others.
-/

namespace SceneTree

namespace Scene

open Element (core)
open Relocation

variable {d : Document} {st : Settings} {s₀ s t : Scene} {p q c u y z : ElementId}
  {e₀ e ey : Element} {i₀ i : Instance} {x₀ x : Expansion} {todo : List ElementId}

/-! ## The new names -/

/-- The name an element of `s` gets when the copy is made again that the
expansion `x₀` of `p` in `s₀` made. -/
def renew (s₀ : Scene) (x₀ : Expansion) (s : Scene) (p y : ElementId) : ElementId :=
  if s₀.slots.size ≤ y.index ∧ y.index < x₀.scene.slots.size then (s₀.placesOf s p).move y else y

theorem fresh_of_new (hy : x₀.New s₀ y) : (s₀.placesOf s p).Fresh y := hy.1

theorem renew_of_new (hy : x₀.New s₀ y) : renew s₀ x₀ s p y = (s₀.placesOf s p).move y := if_pos hy

theorem renew_of_not_new (hy : ¬ x₀.New s₀ y) : renew s₀ x₀ s p y = y := if_neg hy

/-- A new name is that of a slot that is new. -/
theorem le_index_renew (hy : x₀.New s₀ y) : s.slots.size ≤ (renew s₀ x₀ s p y).index := by
  rw [renew_of_new hy]
  exact base_le_move (fresh_of_new hy)

/-- On the copy and on what was there before it, both renamings agree. -/
theorem move_eq_renew (hy : x₀.New s₀ y ∨ y.index < s₀.slots.size) :
    (s₀.placesOf s p).move y = renew s₀ x₀ s p y := by
  rcases hy with hy | hy
  · exact (renew_of_new hy).symm
  · rw [move_placesOf_of_lt hy, renew_of_not_new fun hnew => Nat.not_lt.mpr hnew.1 hy]

theorem map_renew_of_not_new {l : List ElementId} (hl : ∀ y ∈ l, ¬ x₀.New s₀ y) :
    l.map (renew s₀ x₀ s p) = l :=
  (List.map_congr_left fun y hy => renew_of_not_new (hl y hy)).trans (List.map_id' l)

/-- The roots of twins correspond. -/
theorem Twins.roots_eq {r : Relocation} {x x' : Expansion} (h : Twins r x x') :
    x'.roots = x.roots.map r.move := by
  have hroots (x : Expansion) : x.roots = x.outcome.toOption.getD [] := by
    rw [Expansion.roots]
    cases x.outcome <;> rfl
  rw [hroots, hroots, h.outcome]
  cases x.outcome.toOption <;> rfl

theorem Twins.children_move {r : Relocation} {x x' : Expansion} (h : Twins r x x')
    (hy : r.Fresh y) : x'.scene.children (r.move y) = (x.scene.children y).map r.move := by
  rw [children, h.get?_move y hy, children]
  cases x.scene.get? y <;> rfl

/-- The copy is what was given out and is there. -/
theorem Stands.ownCopy_iff (h : Stands d s₀ p e₀ i₀ x₀ s) (hs : s.Forest) :
    s.OwnCopy p y ↔ x₀.New s₀ y ∧ s.contains y := by
  rw [h.own_iff hs]
  refine and_congr_right fun _ => ⟨fun hu u hm => ?_, fun hu e he u hm => ?_⟩
  · obtain ⟨e, he⟩ := contains_iff.mp h.contains_host
    exact hu e he u (h.usage_eq he ▸ hm)
  · exact hu u (h.usage_eq he ▸ hm)

/-- What an expansion leaves the instance with. It hands down what it handed
down before. -/
theorem Stands.host_left (h : Stands d s₀ p e₀ i₀ x₀ s) (hfirst : x₀ = s₀.expand d st p)
    (he : s.get? p = some e) (hi : e.instance? = some i) :
    e.look = e₀.lookAfter x₀.outcome ∧ e.children = x₀.roots ∧ e.pattern = e₀.pattern ∧
      i = { i₀ with
            expanded := true, usage := x₀.rescued s₀ e₀, roots := x₀.roots
            decoration := e₀.decorationAfter x₀.outcome } := by
  have hi₀ := h.instance?
  obtain ⟨parent, hhost⟩ := h.host
  rw [hfirst, self_expand st h.made.before h.made.there hi₀ h.made.ready, ← hfirst, he,
    Option.map_some, Option.map_some] at hhost
  have hcore := Option.some.inj hhost
  have hinstance := congrArg Element.instance? hcore
  have hpattern := congrArg Element.pattern hcore
  refine ⟨(congrArg Element.look hcore :), (congrArg Element.children hcore :), ?_,
    Option.some.inj (hi.symm.trans hinstance)⟩
  refine hpattern.trans ?_
  simp only [Element.pattern, hi₀]
  rfl

/-! ## Twins -/

/-- An instance was expanded by `x₀`, its copy stands in `s`, and now it is
expanded again by `x`. -/
structure Again (d : Document) (st : Settings) (s₀ : Scene) (p : ElementId) (e₀ : Element)
    (i₀ : Instance) (x₀ : Expansion) (s : Scene) (e : Element) (i : Instance) (x : Expansion) :
    Prop where
  stands : Stands d s₀ p e₀ i₀ x₀ s
  first : x₀ = s₀.expand d st p
  second : x = s.expand d st p
  made : Expanded d s p e i x
  instance? : e.instance? = some i

namespace Again

/-- The copy that is made now is a twin of the one that stands. -/
theorem twins (h : Again d st s₀ p e₀ i₀ x₀ s e i x) : Twins (placesOf s₀ s p) x₀ x := by
  obtain ⟨hlook, -, hpattern, hleft⟩ :=
    h.stands.host_left h.first h.made.there h.instance?
  have hdecoration := congrArg Instance.decoration hleft
  have hmade := h.stands.made
  rw [h.first, h.second]
  refine twins_expand st hmade.before hmade.there h.stands.instance? hmade.ready h.made.before
    h.made.there h.instance? h.made.ready hpattern (fun hne => ?_) fun hne => ?_
  · have hown : e.decorationAfter x₀.outcome = i.decoration :=
      (Element.after_again hlook h.instance? hdecoration rfl).2
    rw [hdecoration, h.first] at hown
    exact (e.decorationAfter_eq hne).symm.trans (hown.trans (e₀.decorationAfter_eq hne))
  · rw [← h.first] at hne
    have hrescued : x₀.rescued s₀ e₀ = e₀.usage.filter s₀.contains := if_neg hne
    rw [h.stands.usage_eq h.made.there, ← hrescued]
    exact List.filter_eq_self.mpr h.stands.usage_live

/-- The same usage goes into it. -/
theorem rescued_eq (h : Again d st s₀ p e₀ i₀ x₀ s e i x) : x.rescued s e = x₀.rescued s₀ e₀ := by
  have hroots := h.twins.roots_eq
  by_cases hnil : x₀.roots = []
  · have hnil' : x.roots = [] := by rw [hroots, hnil, List.map_nil]
    rw [Expansion.rescued, Expansion.rescued, if_pos hnil, if_pos hnil']
  · have hnil' : x.roots ≠ [] := by
      rw [hroots]
      exact List.map_eq_nil_iff.not.mpr hnil
    rw [Expansion.rescued, if_neg hnil', h.stands.usage_eq h.made.there]
    exact List.filter_eq_self.mpr h.stands.usage_live

/-! ## What becomes of each element -/

/-- An element of the copy has its twin. -/
theorem exists_twin (h : Again d st s₀ p e₀ i₀ x₀ s e i x) (hy : x₀.New s₀ y)
    (hey : s.get? y = some ey) : ∃ e', x.scene.get? (renew s₀ x₀ s p y) = some e' ∧
      e'.core = (ey.rename (renew s₀ x₀ s p)).core := by
  have hcopy := h.stands.copy y hy
  rw [hey, Option.map_some] at hcopy
  obtain ⟨e₁, he₁, hcore⟩ := Option.map_eq_some_iff.mp hcopy.symm
  have hget := h.twins.get?_move y hy.1
  rw [he₁, Option.map_some] at hget
  refine ⟨_, by rw [renew_of_new hy]; exact hget, ?_⟩
  -- the ids that it holds are of the copy or were there before it
  have hforest := h.stands.made.forest
  have hsame : e₁.rename (placesOf s₀ s p).move = e₁.rename (renew s₀ x₀ s p) := by
    refine Element.rename_congr ?_ (fun q hq => ?_) (fun c hc => ?_) fun j hj c hc => ?_
    · rw [hforest.named he₁]
      exact move_eq_renew (.inl hy)
    · rw [← parent?_of_get? he₁, ← parent?_of_core (h.stands.copy y hy)] at hq
      refine move_eq_renew ((h.stands.parent_inside hy hq).imp_right ?_)
      rintro rfl
      exact index_lt_of_contains h.stands.made.contains_id
    · rw [← children_of_get? he₁, ← children_of_core (h.stands.copy y hy)] at hc
      refine move_eq_renew ((h.stands.child_inside (.inl hy) hc).imp_right fun hm => ?_)
      exact index_lt_of_contains (Expanded.mem_rescued hm).2
    · have hkept := (h.twins.raw y e₁ hy.1 he₁).kept j hj
      have hset := h.stands.made.fresh_settled y e₁ j hy.1 he₁ hj
      refine move_eq_renew (.inl ⟨hc.elim (hkept.1 c) (hkept.2 c), ?_⟩)
      rcases hc with hc | hc
      · exact hset.usage_made c (Element.usage_of_expanded hj hset.expanded ▸ hc)
      · have hm := (hset.roots_lead hset.expanded).subset hc
        rw [← children_of_get? he₁] at hm
        exact index_lt_of_contains (hforest.contains_child hm)
  rw [hsame, Element.core_rename, Element.core_rename, hcore]

/-- No element outside has a parent in the copy, but for usage. -/
theorem parent_not_new (h : Again d st s₀ p e₀ i₀ x₀ s e i x) (hy : ¬ x₀.New s₀ y)
    (hm : y ∉ x₀.rescued s₀ e₀) (hp : s.parent? y = some q) : ¬ x₀.New s₀ q := fun hq =>
  (h.stands.child_inside (.inl hq) (h.made.before.mirror.mpr hp)).elim hy hm

theorem host_not_rescued (h : Again d st s₀ p e₀ i₀ x₀ s e i x) : p ∉ x₀.rescued s₀ e₀ :=
  fun hm => h.stands.not_atOrAbove_rescued h.made.before hm (.inr rfl) .refl

/-- The instance is left as it was, with the roots of the new copy. -/
theorem exists_host (h : Again d st s₀ p e₀ i₀ x₀ s e i x) : ∃ e', x.scene.get? p = some e' ∧
    e'.core = (e.rename (renew s₀ x₀ s p)).core := by
  obtain ⟨hlook, hchildren, -, hleft⟩ :=
    h.stands.host_left h.first h.made.there h.instance?
  have hagain : e.lookAfter x.outcome = e.look ∧ e.decorationAfter x.outcome = i.decoration := by
    refine Element.after_again hlook h.instance? (congrArg Instance.decoration hleft) ?_
    rw [h.twins.outcome, Option.isSome_map]
  have hid : renew s₀ x₀ s p e.id = e.id := by
    rw [h.made.before.named h.made.there]
    exact renew_of_not_new h.stands.not_new_host
  have hparent : e.parent.map (renew s₀ x₀ s p) = e.parent := by
    refine (Option.map_congr fun q hq => renew_of_not_new ?_).trans Option.map_id'
    rw [← parent?_of_get? h.made.there] at hq
    exact h.parent_not_new h.stands.not_new_host h.host_not_rescued hq
  have hroots : x.roots = x₀.roots.map (renew s₀ x₀ s p) := by
    rw [h.twins.roots_eq]
    exact List.map_congr_left fun c hc =>
      move_eq_renew (.inl (h.stands.made.new_of_mem_roots hc))
  have husage : (x₀.rescued s₀ e₀).map (renew s₀ x₀ s p) = x₀.rescued s₀ e₀ :=
    map_renew_of_not_new fun u hu => not_new_of_mem_rescued hu
  have hself := self_expand (d := d) st h.made.before h.made.there h.instance? h.made.ready
  rw [← h.second] at hself
  refine ⟨_, hself, ?_⟩
  rw [hagain.1, hagain.2, h.rescued_eq, hroots, Element.rename,
    Element.role_of_instance? h.instance?, hid, hparent, hchildren, hleft, Role.rename,
    Instance.rename, husage]

/-- Of the elements outside, no other than usage holds an id of the copy,
and usage only that of its parent. -/
theorem rename_outside (h : Again d st s₀ p e₀ i₀ x₀ s e i x) (hy : ¬ x₀.New s₀ y) (hne : y ≠ p)
    (hey : s.get? y = some ey) : ey.rename (renew s₀ x₀ s p) =
      { ey with parent := ey.parent.map (renew s₀ x₀ s p) } := by
  have hs := h.made.before
  have hid : renew s₀ x₀ s p ey.id = ey.id := by
    rw [hs.named hey]
    exact renew_of_not_new hy
  have hchildren : ey.children.map (renew s₀ x₀ s p) = ey.children := by
    refine map_renew_of_not_new fun c hc hnew => ?_
    rw [← children_of_get? hey] at hc
    exact (h.stands.parent_inside hnew (hs.mirror.mp hc)).elim hy hne
  have hrole : ey.role.rename (renew s₀ x₀ s p) = ey.role := by
    cases hr : ey.role with
    | plain widget => rfl
    | standIn j =>
      have hj : ey.instance? = some j := by rw [Element.instance?, hr]; rfl
      have hkept := h.stands.outside y ey j hey hj hne hy
      rw [Role.rename, Instance.rename, map_renew_of_not_new fun c hc => hkept c (.inl hc),
        map_renew_of_not_new fun c hc => hkept c (.inr hc)]
  rw [Element.rename, hid, hchildren, hrole]

/-- Usage hangs in the new copy where it hung in the old one. -/
theorem get?_usage (h : Again d st s₀ p e₀ i₀ x₀ s e i x) (hy : y ∈ x₀.rescued s₀ e₀)
    (hey : s.get? y = some ey) : x.scene.get? y = some (ey.rename (renew s₀ x₀ s p)) := by
  obtain ⟨target, hnew, hm, hp⟩ := h.stands.rescued_parent? h.made.before hy
  have hm' : y ∈ x.scene.children ((placesOf s₀ s p).move target) := by
    rw [h.twins.children_move hnew.1]
    refine List.mem_map.mpr ⟨y, hm, move_placesOf_of_lt ?_⟩
    exact index_lt_of_contains (Expanded.mem_rescued hy).2
  have hp' := h.made.forest.mirror.mp hm'
  obtain ⟨target', -, hget⟩ := h.made.moved y (h.rescued_eq ▸ hy)
  rw [hey, Option.map_some] at hget
  have htarget : target' = renew s₀ x₀ s p target := by
    rw [parent?_of_get? hget] at hp'
    exact (Option.some.inj hp').trans (renew_of_new hnew).symm
  rw [hget, h.rename_outside (not_new_of_mem_rescued hy)
    (fun heq => h.host_not_rescued (heq ▸ hy)) hey, htarget, ← parent?_of_get? hey, hp,
    Option.map_some]

/-- Nothing else is touched. -/
theorem get?_other (h : Again d st s₀ p e₀ i₀ x₀ s e i x) (hy : ¬ x₀.New s₀ y) (hne : y ≠ p)
    (hm : y ∉ x₀.rescued s₀ e₀) (hey : s.get? y = some ey) (hlive : x.scene.contains y) :
    x.scene.get? y = some (ey.rename (renew s₀ x₀ s p)) := by
  have hparent : ey.parent.map (renew s₀ x₀ s p) = ey.parent := by
    refine (Option.map_congr fun q hq => renew_of_not_new ?_).trans Option.map_id'
    rw [← parent?_of_get? hey] at hq
    exact h.parent_not_new hy hm hq
  have hlt := index_lt_of_contains (contains_of_get? hey)
  rw [h.rename_outside hy hne hey, hparent, h.made.same y hlt hne (h.rescued_eq ▸ hm) hlive, hey]

/-! ## The renaming -/

/-- All that is not of the copy outlives the expansion. -/
theorem contains_outside (h : Again d st s₀ p e₀ i₀ x₀ s e i x) (hy : ¬ x₀.New s₀ y)
    (hlive : s.contains y) : x.scene.contains y := by
  refine (h.made.outlives_iff y (index_lt_of_contains hlive)).mpr ⟨hlive, fun ha => ?_⟩
  rw [h.rescued_eq]
  rcases h.stands.inside h.made.before ha.atOrAbove with (hnew | rfl) | hu
  · exact absurd hnew hy
  · exact absurd ha (h.made.before.acyclic _)
  · exact hu

/-- The scene afterwards is the one before under the new names. -/
theorem renames (h : Again d st s₀ p e₀ i₀ x₀ s e i x) :
    Renaming core (renew s₀ x₀ s p) s x.scene where
  exists_get? y ey hey := by
    by_cases hy : x₀.New s₀ y
    · exact h.exists_twin hy hey
    · rw [renew_of_not_new hy]
      by_cases hne : y = p
      · subst hne
        cases hey.symm.trans h.made.there
        exact h.exists_host
      · by_cases hm : y ∈ x₀.rescued s₀ e₀
        · exact ⟨_, h.get?_usage hm hey, rfl⟩
        · exact ⟨_, h.get?_other hy hne hm hey (h.contains_outside hy (contains_of_get? hey)), rfl⟩
  inj y z hy hz heq := by
    have hmixed {y z : ElementId} (hy : x₀.New s₀ y) (hz : ¬ x₀.New s₀ z) (hlive : s.contains z)
        (heq : renew s₀ x₀ s p y = renew s₀ x₀ s p z) : False := by
      have hle : s.slots.size ≤ (renew s₀ x₀ s p y).index := le_index_renew hy
      rw [heq, renew_of_not_new hz] at hle
      exact Nat.not_lt.mpr hle (index_lt_of_contains hlive)
    by_cases hynew : x₀.New s₀ y
    · by_cases hznew : x₀.New s₀ z
      · rw [renew_of_new hynew, renew_of_new hznew] at heq
        exact (move_inj (fresh_of_new hynew) (fresh_of_new hznew)).mp heq
      · exact (hmixed hynew hznew hz heq).elim
    · by_cases hznew : x₀.New s₀ z
      · exact (hmixed hznew hynew hy heq.symm).elim
      · rwa [renew_of_not_new hynew, renew_of_not_new hznew] at heq
  onto z hz := by
    by_cases hlt : z.index < s.slots.size
    · have hlive := h.made.contains_old hlt hz
      have hold : ¬ x₀.New s₀ z := fun hnew => by
        -- the old copy is gone
        obtain ⟨u, hu, huz⟩ := h.made.exists_rescued_above hz (h.stands.above_host hnew hlive)
        exact h.stands.not_atOrAbove_rescued h.made.before (h.rescued_eq ▸ hu) (.inl hnew) huz
      exact ⟨z, hlive, renew_of_not_new hold⟩
    · obtain ⟨y, hy, rfl⟩ := (placesOf s₀ s p).exists_move (Nat.not_lt.mp hlt)
      have hlive : x₀.scene.contains y := by
        rwa [contains, h.twins.get?_move y hy, Option.isSome_map] at hz
      have hnew : x₀.New s₀ y := ⟨hy, index_lt_of_contains hlive⟩
      refine ⟨y, ?_, renew_of_new hnew⟩
      rwa [contains_of_core (h.stands.copy y hnew)]

/-- Expanding an instance again renews its copy. -/
theorem renewed (h : Again d st s₀ p e₀ i₀ x₀ s e i x) (hkeeps : KeepsMade s) :
    Renewed core s x.scene p (renew s₀ x₀ s p) := by
  have hs := h.made.before
  have hown {y : ElementId} : s.OwnCopy p y ↔ x₀.New s₀ y ∧ s.contains y := h.stands.ownCopy_iff hs
  have hown' {y : ElementId} : x.scene.OwnCopy p y ↔ x.New s y ∧ x.scene.contains y :=
    (Stands.of_expanded h.made h.instance? hkeeps).ownCopy_iff h.made.forest
  refine ⟨h.renames, h.renames.size_eq hs h.made.forest, h.made.size_le, fun y hy hout => ?_,
    fun y hy => le_index_renew (hown.mp hy).1, fun y z hy hz hlt => ?_, fun y hy => ?_⟩
  · exact renew_of_not_new fun hnew => hout (hown.mpr ⟨hnew, hy⟩)
  · have hynew := (hown.mp hy).1
    have hznew := (hown.mp hz).1
    rw [renew_of_new hynew, renew_of_new hznew, move_of_fresh (fresh_of_new hynew),
      move_of_fresh (fresh_of_new hznew)]
    exact Nat.add_lt_add_left (Nat.sub_lt_sub_right hynew.1 hlt) _
  · rw [hown, hown']
    have hlive := h.renames.contains hy
    constructor
    · rintro ⟨hnew', -⟩
      refine ⟨by_contra fun hnew => ?_, hy⟩
      rw [renew_of_not_new hnew] at hnew'
      exact Nat.not_lt.mpr hnew'.1 (index_lt_of_contains hy)
    · rintro ⟨hnew, -⟩
      exact ⟨⟨le_index_renew hnew, index_lt_of_contains hlive⟩, hlive⟩

end Again

end Scene

end SceneTree
