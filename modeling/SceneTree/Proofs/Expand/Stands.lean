import SceneTree.Proofs.Expand.Twins
import SceneTree.Proofs.Forest.Alike
import SceneTree.Proofs.Session.Usage

/-!
# A copy that still stands

Once an instance of the document has been expanded, nothing but another
expansion of it touches its copy. `Stands` says that the copy that was made
by an expansion `x` is in a scene as `x` left it, but for what is derived
from it: the same elements under the same ids, with the same edges, and the
instance with what it was left to keep.

What is below the instance then is the copy and the usage, and nothing
between the two (`Stands.own_iff`). An expansion of another instance of the
document leaves that alone, unless it takes the first along
(`Stands.expanded`): the other instance lies around the first, or below a
piece of its usage, but never in the copy, where nothing is of the document.
-/

namespace SceneTree

namespace Expansion

/-- Whether an id was given out by an expansion of an instance of `s`. -/
def New (s : Scene) (x : Expansion) (y : ElementId) : Prop :=
  s.slots.size ≤ y.index ∧ y.index < x.scene.slots.size

end Expansion

namespace Scene

open Element (core)

variable {d : Document} {st : Settings} {s₀ s t : Scene} {p q c u y z : ElementId}
  {e₀ e eq : Element} {i₀ i iq : Instance} {x x' : Expansion} {todo : List ElementId}

/-! ## Readings of the core -/

theorem parent?_of_core {z : ElementId} (h : (s.get? y).map core = (t.get? z).map core) :
    s.parent? y = t.parent? z := by
  have hmap := congrArg (Option.map (·.parent)) h
  rw [Option.map_map, Option.map_map] at hmap
  rw [parent?_eq_map, parent?_eq_map]
  exact congrArg Option.join hmap

theorem children_of_core {z : ElementId} (h : (s.get? y).map core = (t.get? z).map core) :
    s.children y = t.children z := by
  have hmap := congrArg (Option.map (·.children)) h
  rw [Option.map_map, Option.map_map] at hmap
  rw [children, children]
  exact congrArg (·.getD []) hmap

theorem contains_of_core {z : ElementId} (h : (s.get? y).map core = (t.get? z).map core) :
    s.contains y = t.contains z := by
  have hsome := congrArg Option.isSome h
  rwa [Option.isSome_map, Option.isSome_map] at hsome

/-- What is below the instance and outlives its expansion is at or below
rescued usage. -/
theorem Expanded.exists_rescued_above (h : Expanded d s p e i x) (hlive : x.scene.contains y)
    (ha : s.Above p y) : ∃ u ∈ x.rescued s e, s.AtOrAbove u y :=
  ((h.outlives_iff y (index_lt_of_contains ha.contains)).mp hlive).2 ha

/-- The roots are among the ids that were given out. -/
theorem Expanded.new_of_mem_roots (h : Expanded d s p e i x) (hc : c ∈ x.roots) : x.New s c := by
  obtain ⟨look, decoration, hself⟩ := h.self
  have hm : c ∈ x.scene.children p := by rwa [children_of_get? hself]
  refine ⟨?_, index_lt_of_contains (h.forest.contains_child hm)⟩
  cases hout : x.outcome with
  | error cause =>
    rw [Expansion.roots, hout] at hc
    exact absurd hc List.not_mem_nil
  | ok roots =>
    rw [Expansion.roots, hout] at hc
    exact (h.roots_of_template roots hout).1 c hc

theorem not_new_of_mem_rescued (hu : u ∈ x.rescued s e) : ¬ x.New s u := fun hnew =>
  Nat.not_lt.mpr hnew.1 (index_lt_of_contains (Expanded.mem_rescued hu).2)

/-! ## Standing -/

/-- The ids that instances keep are of slots that there are. -/
def KeepsMade (s : Scene) : Prop :=
  ∀ y e i, s.get? y = some e → e.instance? = some i → ∀ c, c ∈ i.usage ∨ c ∈ i.roots →
    c.index < s.slots.size

/-- In `s` the copy stands that `x` made for the instance `p` of `s₀`. -/
structure Stands (d : Document) (s₀ : Scene) (p : ElementId) (e₀ : Element) (i₀ : Instance)
    (x : Expansion) (s : Scene) : Prop where
  made : Expanded d s₀ p e₀ i₀ x
  instance? : e₀.instance? = some i₀
  size_le : x.scene.slots.size ≤ s.slots.size
  copy : ∀ y, x.New s₀ y → (s.get? y).map core = (x.scene.get? y).map core
  /-- The instance may have moved along with what it is usage of. -/
  host : ∃ parent, (s.get? p).map core = (x.scene.get? p).map fun e => core { e with parent }
  usage_live : ∀ u ∈ x.rescued s₀ e₀, s.contains u
  /-- No other instance keeps an id of the copy. -/
  outside : ∀ y e i, s.get? y = some e → e.instance? = some i → y ≠ p → ¬ x.New s₀ y →
    ∀ c, c ∈ i.usage ∨ c ∈ i.roots → ¬ x.New s₀ c

namespace Stands

theorem not_new_host (h : Stands d s₀ p e₀ i₀ x s) : ¬ x.New s₀ p := fun hp =>
  Nat.not_lt.mpr hp.1 (index_lt_of_contains h.made.contains_id)

/-- What the instance keeps. -/
theorem exists_host (h : Stands d s₀ p e₀ i₀ x s) : ∃ e look decoration parent,
    s.get? p = some e ∧ e.core = core
      { e₀ with
        look
        role := .standIn
          { i₀ with expanded := true, usage := x.rescued s₀ e₀, roots := x.roots, decoration }
        parent
        children := x.roots } := by
  obtain ⟨parent, hhost⟩ := h.host
  obtain ⟨look, decoration, hself⟩ := h.made.self
  rw [hself, Option.map_some] at hhost
  obtain ⟨e, he, hcore⟩ := Option.map_eq_some_iff.mp hhost
  exact ⟨e, look, decoration, parent, he, hcore⟩

theorem contains_host (h : Stands d s₀ p e₀ i₀ x s) : s.contains p := by
  obtain ⟨e, -, -, -, he, -⟩ := h.exists_host
  exact contains_of_get? he

theorem usage_eq (h : Stands d s₀ p e₀ i₀ x s) (he : s.get? p = some e) :
    e.usage = x.rescued s₀ e₀ := by
  obtain ⟨e', look, decoration, parent, he', hcore⟩ := h.exists_host
  cases he.symm.trans he'
  exact (Element.usage_congr (congrArg Element.place hcore) :)

theorem instance?_host (h : Stands d s₀ p e₀ i₀ x s) (he : s.get? p = some e) :
    ∃ i, e.instance? = some i := by
  obtain ⟨e', look, decoration, parent, he', hcore⟩ := h.exists_host
  cases he.symm.trans he'
  exact ⟨_, (congrArg Element.instance? hcore :)⟩

/-! ### What lies in the copy -/

/-- In the copy and in the instance the children are those there were. -/
theorem children_eq (h : Stands d s₀ p e₀ i₀ x s) (hy : x.New s₀ y ∨ y = p) :
    s.children y = x.scene.children y := by
  rcases hy with hy | rfl
  · exact children_of_core (h.copy y hy)
  · obtain ⟨e, look, decoration, parent, he, hcore⟩ := h.exists_host
    obtain ⟨look', decoration', hself⟩ := h.made.self
    rw [children_of_get? he, children_of_get? hself]
    exact (congrArg Element.children hcore :)

theorem parent_inside (h : Stands d s₀ p e₀ i₀ x s) (hy : x.New s₀ y)
    (hp : s.parent? y = some q) : x.New s₀ q ∨ q = p := by
  rw [parent?_of_core (h.copy y hy)] at hp
  refine (h.made.fresh_parent? hy.1 hp).imp_left fun hq => ⟨hq, ?_⟩
  exact index_lt_of_contains (h.made.forest.contains_parent hp)

theorem child_inside (h : Stands d s₀ p e₀ i₀ x s) (hy : x.New s₀ y ∨ y = p)
    (hc : c ∈ s.children y) : x.New s₀ c ∨ c ∈ x.rescued s₀ e₀ := by
  rw [h.children_eq hy] at hc
  have hclt := index_lt_of_contains (h.made.forest.contains_child hc)
  rcases hy with hy | rfl
  · by_cases hfresh : s₀.slots.size ≤ c.index
    · exact .inl ⟨hfresh, hclt⟩
    · -- it was there before, so it came into the copy as usage
      refine .inr (by_contra fun hm => ?_)
      have hlive := h.made.forest.contains_child hc
      have hparent := h.made.old_parent? (Nat.not_le.mp hfresh) hm hlive
      rw [h.made.forest.mirror.mp hc] at hparent
      have := index_lt_of_contains (h.made.before.contains_parent hparent.symm)
      exact absurd this (Nat.not_lt.mpr hy.1)
  · obtain ⟨look, decoration, hself⟩ := h.made.self
    rw [children_of_get? hself] at hc
    exact .inl (h.made.new_of_mem_roots hc)

/-- Above the copy are the copy, the instance, and what is above that. -/
theorem new_or_above_host (h : Stands d s₀ p e₀ i₀ x s) (hy : x.New s₀ y)
    (ha : s.AtOrAbove z y) : x.New s₀ z ∨ s.AtOrAbove z p := by
  induction ha using Relation.ReflTransGen.head_induction_on with
  | refl => exact .inl hy
  | head hp hup ih =>
    rcases h.parent_inside hy hp with hq | rfl
    · exact ih hq
    · exact .inr hup

theorem above_host (h : Stands d s₀ p e₀ i₀ x s) (hy : x.New s₀ y) (hlive : s.contains y) :
    s.Above p y := by
  rw [contains_of_core (h.copy y hy)] at hlive
  have hbelow := h.made.fresh_below y hy.1 hlive
  induction hbelow using Relation.TransGen.head_induction_on with
  | single hp => exact .single ((parent?_of_core (h.copy _ hy)).trans hp)
  | head hp hup ih =>
    have hp' := (parent?_of_core (h.copy _ hy)).trans hp
    rcases h.parent_inside hy hp' with hq | heq
    · exact .head hp' (ih hq (h.made.forest.contains_parent hp))
    · exact absurd (heq ▸ hup) (h.made.forest.acyclic p)

/-- Usage hangs where it was hung. -/
theorem rescued_parent? (h : Stands d s₀ p e₀ i₀ x s) (hs : s.Forest)
    (hu : u ∈ x.rescued s₀ e₀) : ∃ target, x.New s₀ target ∧
      u ∈ x.scene.children target ∧ s.parent? u = some target := by
  obtain ⟨target, hfresh, hp⟩ := h.made.rescued_parent? hu
  have hnew : x.New s₀ target :=
    ⟨hfresh, index_lt_of_contains (h.made.forest.contains_parent hp)⟩
  have hm := h.made.forest.mirror.mpr hp
  refine ⟨target, hnew, hm, ?_⟩
  rw [← h.children_eq (.inl hnew)] at hm
  exact hs.mirror.mp hm

theorem rescued_below (h : Stands d s₀ p e₀ i₀ x s) (hs : s.Forest)
    (hu : u ∈ x.rescued s₀ e₀) : s.Above p u := by
  obtain ⟨target, hnew, -, hp⟩ := h.rescued_parent? hs hu
  exact .head hp (h.above_host hnew (hs.contains_parent hp))

/-- No usage is above the copy. -/
theorem not_atOrAbove_rescued (h : Stands d s₀ p e₀ i₀ x s) (hs : s.Forest)
    (hu : u ∈ x.rescued s₀ e₀) (hy : x.New s₀ y ∨ y = p) : ¬ s.AtOrAbove u y := by
  have hhost : ¬ s.AtOrAbove u p := fun ha =>
    hs.acyclic u ((h.rescued_below hs hu).trans_left ha)
  rcases hy with hy | rfl
  · intro ha
    exact (h.new_or_above_host hy ha).elim (not_new_of_mem_rescued hu) hhost
  · exact hhost

/-- Below the instance are the copy and what is below the usage. -/
theorem inside (h : Stands d s₀ p e₀ i₀ x s) (hs : s.Forest) (ha : s.AtOrAbove p y) :
    (x.New s₀ y ∨ y = p) ∨ ∃ u ∈ x.rescued s₀ e₀, s.AtOrAbove u y := by
  induction ha using Relation.ReflTransGen.head_induction_on with
  | refl => exact .inl (.inr rfl)
  | head hp _ ih =>
    rcases ih with hin | ⟨u, hu, hup⟩
    · rcases h.child_inside hin (hs.mirror.mpr hp) with hnew | hm
      · exact .inl (.inl hnew)
      · exact .inr ⟨_, hm, .refl⟩
    · exact .inr ⟨u, hu, .head hp hup⟩

/-- The copy is what lies below the instance, but not at or below its
usage. -/
theorem own_iff (h : Stands d s₀ p e₀ i₀ x s) (hs : s.Forest) :
    x.New s₀ y ∧ s.contains y ↔
      s.Above p y ∧ ∀ u ∈ x.rescued s₀ e₀, ¬ s.AtOrAbove u y := by
  constructor
  · rintro ⟨hnew, hlive⟩
    exact ⟨h.above_host hnew hlive, fun u hu => h.not_atOrAbove_rescued hs hu (.inl hnew)⟩
  · rintro ⟨ha, hu⟩
    rcases h.inside hs ha.atOrAbove with (hnew | rfl) | ⟨u, hm, hup⟩
    · exact ⟨hnew, ha.contains⟩
    · exact absurd ha (hs.acyclic _)
    · exact absurd hup (hu u hm)

/-! ### What leaves it standing -/

theorem alike (h : Stands d s₀ p e₀ i₀ x s) (ha : Alike core s t) :
    Stands d s₀ p e₀ i₀ x t where
  made := h.made
  instance? := h.instance?
  size_le := ha.size ▸ h.size_le
  copy y hy := (ha.map_get? y).trans (h.copy y hy)
  host := by
    obtain ⟨parent, hhost⟩ := h.host
    exact ⟨parent, (ha.map_get? p).trans hhost⟩
  usage_live u hu := ha.contains u ▸ h.usage_live u hu
  outside y e i he hi := by
    obtain ⟨e', he', hcore⟩ := ha.exists_get? he
    have hrole : e'.role = e.role := congrArg (·.role) hcore
    exact h.outside y e' i he' (by rwa [Element.instance?, hrole])

/-- A copy stands when it was just made. -/
theorem of_expanded (hx : Expanded d s p e i x) (hi : e.instance? = some i)
    (hkeeps : KeepsMade s) : Stands d s p e i x x.scene where
  made := hx
  instance? := hi
  size_le := Nat.le_refl _
  copy _ _ := rfl
  host := by
    obtain ⟨look, decoration, hself⟩ := hx.self
    exact ⟨e.parent, by rw [hself]; rfl⟩
  usage_live u hu := by
    obtain ⟨target, -, hp⟩ := hx.rescued_parent? hu
    exact contains_of_parent? hp
  outside y ey iy hey hiy hne hold c hc hnew := by
    have hlt : y.index < s.slots.size := Nat.not_le.mp fun hle =>
      hold ⟨hle, index_lt_of_contains (contains_of_get? hey)⟩
    obtain ⟨parent, hget⟩ := hx.old_get? hlt hne hey
    exact Nat.not_lt.mpr hnew.1 (hkeeps y _ iy hget hiy c hc)

/-! ### Expanding another instance -/

/-- An instance of the document is no part of the copy. -/
theorem not_new_of_content (h : Stands d s₀ p e₀ i₀ x s) (hq : s.Content q) :
    ¬ x.New s₀ q := fun hnew => by
  obtain ⟨eq, heq, hdoc⟩ := hq
  have hcopy := h.copy q hnew
  rw [heq, Option.map_some] at hcopy
  obtain ⟨e', he', hcore⟩ := Option.map_eq_some_iff.mp hcopy.symm
  have hsource : e'.source = eq.source := congrArg (·.source) hcore
  exact h.made.fresh_made q e' hnew.1 he' (hsource ▸ hdoc)

/-- No other instance of the document has usage in the copy. -/
theorem not_new_of_mem_usage (h : Stands d s₀ p e₀ i₀ x s) (hs : s.Forest)
    (heq : s.get? q = some eq) (hiq : eq.instance? = some iq) (hq : s.Content q) (hne : q ≠ p)
    (hc : c ∈ eq.usage) : ¬ x.New s₀ c := by
  have hqnew := h.not_new_of_content hq
  rw [Element.usage, hiq] at hc
  dsimp only at hc
  split at hc
  next => exact h.outside q eq iq heq hiq hne hqnew c (.inl hc)
  next =>
    intro hnew
    rw [← children_of_get? heq] at hc
    exact (h.parent_inside hnew (hs.mirror.mp hc)).elim hqnew hne

/-- The copy is left alone. If the other instance is around it, so is a
piece of the other's usage. -/
theorem get?_expanded (h : Stands d s₀ p e₀ i₀ x s) (hx : Expanded d s q eq iq x')
    (hq : s.Content q) (hne : q ≠ p) (husage : ∀ c ∈ x'.rescued s eq, ¬ x.New s₀ c)
    (hlive : x'.scene.contains p) (hy : x.New s₀ y) : x'.scene.get? y = s.get? y := by
  have hlt : y.index < s.slots.size := Nat.lt_of_lt_of_le hy.2 h.size_le
  have hqnew := h.not_new_of_content hq
  by_cases hys : s.contains y
  · have hyx : x'.scene.contains y := by
      refine (hx.outlives_iff y hlt).mpr ⟨hys, fun hqy => ?_⟩
      have hqp := (h.new_or_above_host hy hqy.atOrAbove).resolve_left hqnew
      obtain ⟨v, hv, hvp⟩ := hx.exists_rescued_above hlive (hx.before.above_iff_ne.mpr ⟨hqp, hne⟩)
      exact ⟨v, hv, (h.above_host hy hys).atOrAbove.trans hvp⟩
    exact hx.same y hlt (fun heq => hqnew (heq ▸ hy)) (fun hm => husage y hm hy) hyx
  · have hyx : ¬ x'.scene.contains y := fun hyx => hys (hx.contains_old hlt hyx)
    rw [Option.not_isSome_iff_eq_none.mp hys, Option.not_isSome_iff_eq_none.mp hyx]

/-- The usage outlives it. Nothing of the document stands between the
instance and its usage. -/
theorem contains_usage_expanded (h : Stands d s₀ p e₀ i₀ x s) (ht : Tidy d s todo)
    (hx : Expanded d s q eq iq x') (hq : s.Content q) (hne : q ≠ p)
    (hlive : x'.scene.contains p) (hu : u ∈ x.rescued s₀ e₀) : x'.scene.contains u := by
  have hs := hx.before
  have hus := h.usage_live u hu
  have hpu := h.rescued_below hs hu
  refine (hx.outlives_iff u (index_lt_of_contains hus)).mpr ⟨hus, fun hqu => ?_⟩
  rcases hqu.atOrAbove.total hpu.atOrAbove with hpq | hqp
  · obtain ⟨e, he⟩ := contains_iff.mp h.contains_host
    have hpq := hs.above_iff_ne.mpr ⟨hpq, hne.symm⟩
    obtain ⟨i, hi⟩ := h.instance?_host he
    exact absurd hqu (ht.not_between he hi (h.usage_eq he ▸ hu) hq hpq)
  · obtain ⟨v, hv, hvp⟩ := hx.exists_rescued_above hlive (hs.above_iff_ne.mpr ⟨hqp, hne⟩)
    exact ⟨v, hv, hpu.atOrAbove.trans hvp⟩

/-- The other instance keeps ids of its own copy, and what is new those of
what is new. -/
theorem outside_expanded (h : Stands d s₀ p e₀ i₀ x s) (hx : Expanded d s q eq iq x')
    (husage : ∀ c ∈ x'.rescued s eq, ¬ x.New s₀ c)
    (hraw : ∀ y e, s.slots.size ≤ y.index → x'.scene.get? y = some e → (placesOf s s q).Raw e)
    {ey : Element} {iy : Instance} (hey : x'.scene.get? y = some ey)
    (hiy : ey.instance? = some iy) (hyp : y ≠ p) (hy : ¬ x.New s₀ y)
    (hc : c ∈ iy.usage ∨ c ∈ iy.roots) : ¬ x.New s₀ c := by
  have hfresh {c : ElementId} (hc : s.slots.size ≤ c.index) : ¬ x.New s₀ c := fun hnew =>
    Nat.not_lt.mpr hc (Nat.lt_of_lt_of_le hnew.2 h.size_le)
  by_cases hlt : y.index < s.slots.size
  · by_cases hyq : y = q
    · obtain ⟨look, decoration, hself⟩ := hx.self
      rw [hyq, hself] at hey
      cases hey
      cases hiy
      rcases hc with hc | hc
      · exact husage c hc
      · exact hfresh (hx.new_of_mem_roots hc).1
    · obtain ⟨parent, hget⟩ := hx.old_get? hlt hyq hey
      exact h.outside y _ iy hget hiy hyp hy c hc
  · have hkept := (hraw y ey (Nat.not_lt.mp hlt) hey).kept iy hiy
    exact hfresh (hc.elim (hkept.1 c) (hkept.2 c))

/-- When another instance of the document is expanded, the copy goes on
standing, if the instance it belongs to is not lost. -/
theorem expanded (h : Stands d s₀ p e₀ i₀ x s) (ht : Tidy d s todo)
    (hiq : eq.instance? = some iq) (hx : Expanded d s q eq iq x') (hq : s.Content q) (hne : q ≠ p)
    (hlive : x'.scene.contains p)
    (hraw : ∀ y e, s.slots.size ≤ y.index → x'.scene.get? y = some e → (placesOf s s q).Raw e) :
    Stands d s₀ p e₀ i₀ x x'.scene := by
  have husage : ∀ c ∈ x'.rescued s eq, ¬ x.New s₀ c := fun c hc =>
    h.not_new_of_mem_usage hx.before hx.there hiq hq hne (Expanded.mem_rescued hc).1
  refine ⟨h.made, h.instance?, Nat.le_trans h.size_le hx.size_le, fun y hy => ?_, ?_,
    fun u hu => h.contains_usage_expanded ht hx hq hne hlive hu,
    fun y ey iy hey hiy hyp hy c hc => h.outside_expanded hx husage hraw hey hiy hyp hy hc⟩
  · rw [← h.copy y hy, h.get?_expanded hx hq hne husage hlive hy]
  · obtain ⟨parent, hhost⟩ := h.host
    obtain ⟨e', he'⟩ := contains_iff.mp hlive
    obtain ⟨old, hold⟩ := hx.old_get? (index_lt_of_contains h.contains_host) hne.symm he'
    rw [hold, Option.map_some] at hhost
    obtain ⟨e, he, heq⟩ := Option.map_eq_some_iff.mp hhost.symm
    refine ⟨e'.parent, ?_⟩
    rw [he', he, Option.map_some, Option.map_some]
    exact congrArg some (congrArg (fun a : Element => { a with parent := e'.parent }) heq.symm)

end Stands

end Scene

end SceneTree
