import Mathlib.Data.List.Find
import SceneTree.Proofs.Expand.Noted
import SceneTree.Proofs.Session.Growth

/-!
# The two ends of an expansion

An expansion ends in one of two ways. If it is refused, nothing is made:
what was below the instance is gone, the instance has its decoration back,
and nothing else has changed (`Spent`). Only a background that covered
nothing does not come back as it was, since nothing of it was kept.

If it succeeds, the roots of the copy are the children of the instance, and
the usage is the end of the children of one element of the copy, in the
order it had (`Furnished`). That element is the first of the copies that is
still there and has a slot. It is looked for when the copy is filled;
placing the usage writes edges only, so it is the same in the end.
-/

namespace SceneTree

/-- Taking a decoration off and putting it on again. -/
theorem Look.redress (l : Look) : l.decoration.applyTo l.undecorated =
    { l with background := if l.background.isClear then .clear else l.background } := by
  cases hborder : l.border.isZero <;> cases hpadding : l.padding.isZero <;>
    cases hcolor : l.borderColor <;>
    simp_all [Decoration.applyTo, Look.decoration, Look.undecorated, Edges.isZero]

namespace Scene

variable {d : Document} {st : Settings} {s t bare filled spliced : Scene}
  {id y u target : ElementId} {e inst : Element} {i : Instance} {component : ComponentId}
  {c : Component} {tmpl : Template} {x : Expansion} {cause : ExpandFault}
  {nest : Scene → ElementId → Expansion} {put : Scene → Detached → Expansion}
  {roots : List ElementId} {decoration : Decoration}

/-! ## Refusals -/

/-- `t` is `s` with the instance `id` expanded to nothing. -/
structure Spent (s : Scene) (id : ElementId) (e : Element) (i : Instance) (t : Scene) : Prop where
  size : t.slots.size = s.slots.size
  self : t.get? id = some
    { e with
      look := { e.look with
        background := if e.look.background.isClear then .clear else e.look.background }
      role := .standIn { i with expanded := true, usage := [], roots := [] }
      children := [] }
  below : ∀ y, s.Above id y → ¬ t.contains y
  same : ∀ y, y ≠ id → ¬ s.Above id y → t.get? y = s.get? y

/-- Without a copy nothing below the instance outlives it. -/
theorem Expanded.not_contains_of_above (h : Expanded d s id e i x) (hroots : x.roots = [])
    (hy : s.Above id y) : ¬ x.scene.contains y := fun hlive => by
  obtain ⟨u, hu, -⟩ := ((h.outlives_iff y (index_lt_of_contains hy.contains)).mp hlive).2 hy
  rw [Expansion.rescued, if_pos hroots] at hu
  exact List.not_mem_nil hu

/-- What is neither the instance nor below it is as it was. -/
theorem Expanded.get?_of_not_above (h : Expanded d s id e i x)
    (hsize : x.scene.slots.size = s.slots.size) (hne : y ≠ id) (hy : ¬ s.Above id y) :
    x.scene.get? y = s.get? y := by
  by_cases hlt : y.index < s.slots.size
  · by_cases hlive : s.contains y
    · exact h.same y hlt hne (fun hm => hy (h.rescued_below hm)) (h.contains_of_not_below hlive hy)
    · have hgone : ¬ x.scene.contains y := fun hx => hlive ((h.outlives_iff y hlt).mp hx).1
      rw [Option.not_isSome_iff_eq_none.mp hgone, Option.not_isSome_iff_eq_none.mp hlive]
  · have hnone {r : Scene} (hr : r.slots.size = s.slots.size) : r.get? y = none :=
      Option.not_isSome_iff_eq_none.mp fun hlive => hlt (hr ▸ index_lt_of_contains hlive)
    rw [hnone hsize, hnone rfl]

/-- An instance that keeps no decoration is left as it was when it is
refused, less what was below it. -/
theorem Begun.spent (h : Begun s id e i bare inst) (hx : Expanded d s id e i (expandWith put s id))
    (hput : put bare (taken id e i) = { scene := bare, notices := [], outcome := .error cause })
    (hnone : i.decoration = .none) : Spent s id e i (expandWith put s id).scene := by
  have hroots : (expandWith put s id).roots = [] := by
    rw [Expansion.roots, (told_expandWith h.detach?).2, hput]
  have hsize := h.size_of_refusal hput
  have hown : e.ownDecoration = e.look.decoration := by
    rw [Element.ownDecoration, h.instance?]
    exact if_pos hnone
  refine ⟨hsize, ?_, fun y => hx.not_contains_of_above hroots,
    fun y => hx.get?_of_not_above hsize⟩
  rw [h.self_of_refusal hput, hown, Look.redress, ← hnone]

/-! ## Copies -/

/-- What expanding the instance `id` of `s` leaves, when it gets a copy of
the template of `component`. -/
structure Furnished (s : Scene) (id : ElementId) (e : Element) (component : ComponentId)
    (tmpl : Template) (t : Scene) : Prop where
  children : t.children id = tmpl.roots.map s.copyId
  copies : ∀ k < tmpl.nodes.length, ∀ ek, t.get? (s.copyId k) = some ek →
    ek.source = .template component k
  /-- The usage that is there ends up under the first slot that is left, or
  else under the first root, after what the copy has there itself. -/
  usage : tmpl.nodes ≠ [] → ∃ target before,
    (((List.range tmpl.nodes.length).map s.copyId).find? fun c => (t.get? c).any (·.slot)).or
      (tmpl.roots.map s.copyId).head? = some target ∧
    t.children target = before ++ e.usage.filter t.contains ∧
    (∀ c ∈ before, s.slots.size ≤ c.index) ∧
    ∀ u ∈ e.usage, (t.contains u ↔ s.contains u) ∧ (s.contains u → t.parent? u = some target)
  dropped : tmpl.nodes = [] → tmpl.roots = [] ∧ ∀ u ∈ e.usage, ∀ y, s.AtOrAbove u y → ¬ t.contains y

/-- Splicing always gives the roots of the copy. -/
theorem outcome_splice {det : Detached} (h : s.get? det.id = some inst) :
    (splice d st nest component tmpl s det).outcome = .ok (tmpl.roots.map s.copyId) := by
  simp only [splice, h]

namespace Placed

/-- Settling the instance moves nothing. -/
theorem parent?_settled (h : Placed d s id e i roots target bare filled spliced)
    (hu : u ∈ e.usage.filter s.contains) (usage : List ElementId) :
    (spliced.settleInstance id usage roots decoration).parent? u = some target := by
  obtain ⟨eu, heu⟩ := contains_iff.mp (List.mem_filter.mp hu).2
  have hmoved := h.moved hu
  rw [heu, Option.map_some] at hmoved
  obtain ⟨f, hf, hsettle⟩ := exists_settleInstance spliced id usage roots decoration
  rw [hsettle, parent?_modify hf.parent]
  exact parent?_of_get? hmoved

/-- Whether a copy is there and has a slot was settled when it was filled. -/
theorem slot_settled (h : Placed d s id e i roots target bare filled spliced)
    (hy : s.slots.size ≤ y.index) (usage : List ElementId) :
    ((spliced.settleInstance id usage roots decoration).get? y).any (·.slot) =
      (filled.get? y).any (·.slot) := by
  rw [h.get?_settled hy, Option.any_map]

/-- The usage follows what the copy has there itself. -/
theorem children_settled (h : Placed d s id e i roots target bare filled spliced)
    (usage : List ElementId) :
    (spliced.settleInstance id usage roots decoration).children target =
      filled.children target ++ e.usage.filter s.contains := by
  obtain ⟨f, hf, hsettle⟩ := exists_settleInstance spliced id usage roots decoration
  rw [hsettle, children_modify hf.children, h.hung.children, if_pos rfl]

end Placed

namespace Begun

/-- A copy that is there was made of its node. -/
theorem source_of_splice (h : Begun s id e i bare inst) (st : Settings) (hsound : tmpl.Sound)
    (hgrows : ∀ (s : Scene) id, s.Grows (nest s id).scene) {k : Nat} (hk : k < tmpl.nodes.length)
    {ek : Element} (hek : (expandWith (splice d st nest component tmpl) s id).scene.get?
      (s.copyId k) = some ek) : ek.source = .template component k := by
  have hself : bare.get? (taken id e i).id = some inst := h.self
  have hcopied := h.copied d st component hsound
  have hrest : (rooted d st component tmpl bare (taken id e i) inst).scene.Grows
      (expandWith (splice d st nest component tmpl) s id).scene := by
    rw [expandWith_of_ok h.detach? (outcome_splice hself), splice_eq_fill hself]
    have hfilled := Grows.foldl Splicing.scene
      (grows_expandNested hgrows (taken id e i).component)
      (rooted d st component tmpl bare (taken id e i) inst)
      ((List.range tmpl.nodes.length).map bare.copyId)
    exact hfilled.trans ((grows_placeUsage _ _ _).trans (grows_settleInstance _ _ _ _ _))
  obtain ⟨made, hmade, hcopy⟩ := hcopied.made k hk
  rw [← h.copyId_eq] at hek
  have hlt := index_lt_of_contains (contains_of_get? hmade)
  obtain ⟨e₀, he₀, hsource⟩ := hrest.source_of_lt hlt hek
  cases he₀.symm.trans hmade
  rw [← hsource, hcopy.source]

/-- With a node there is a place for the usage. -/
theorem usage_of_splice (h : Begun s id e i bare inst) (st : Settings) (hsound : tmpl.Sound)
    (hnodes : tmpl.nodes ≠ []) (hnest : Expands d nest)
    (hx : Expanded d s id e i (expandWith (splice d st nest component tmpl) s id)) :
    let t := (expandWith (splice d st nest component tmpl) s id).scene
    ∃ target before,
      (((List.range tmpl.nodes.length).map s.copyId).find? fun c => (t.get? c).any (·.slot)).or
        (tmpl.roots.map s.copyId).head? = some target ∧
      t.children target = before ++ e.usage.filter t.contains ∧
      (∀ c ∈ before, s.slots.size ≤ c.index) ∧
      ∀ u ∈ e.usage,
        (t.contains u ↔ s.contains u) ∧ (s.contains u → t.parent? u = some target) := by
  obtain ⟨hout, -, target, htarget, hplaced⟩ := placed_splice st h.before h.there h.ready h.parted
    hnest hsound hnodes component (show (taken id e i).id = id from rfl) rfl h.self
  have hscene := congrArg Expansion.scene (expandWith_of_ok h.detach? hout)
  dsimp only at hscene
  have hparent (u : ElementId) (hu : u ∈ e.usage) (hlive : s.contains u) :
      (expandWith (splice d st nest component tmpl) s id).scene.parent? u = some target := by
    rw [hscene]
    exact hplaced.parent?_settled (List.mem_filter.mpr ⟨hu, hlive⟩) _
  have hthere (u : ElementId) (hu : u ∈ e.usage) :
      (expandWith (splice d st nest component tmpl) s id).scene.contains u ↔ s.contains u :=
    ⟨fun hlive => ((hx.outlives_iff u (h.ready.usage_made u hu)).mp hlive).1,
      fun hlive => contains_of_parent? (hparent u hu hlive)⟩
  refine ⟨target, (fill d st nest component tmpl bare (taken id e i) inst).scene.children target,
    ?_, ?_, fun c hc => ?_, fun u hu => ⟨hthere u hu, hparent u hu⟩⟩
  · rw [← h.copyId_eq, ← htarget, usageTarget?, Option.orElse_eq_orElse, Option.orElse_eq_or]
    refine congrArg (Option.or · _) (List.find?_congr fun c hc => ?_)
    rw [hscene]
    exact hplaced.slot_settled (h.parted.size ▸ le_index_of_mem_map_copyId hc) _
  · rw [List.filter_congr fun u hu => Bool.eq_iff_iff.mpr (hthere u hu), hscene]
    exact hplaced.children_settled _
  · rw [← h.parted.size]
    exact hplaced.filled.le_index_of_mem_children h.parted.forest
      (h.parted.size ▸ hplaced.fresh) hc

/-- An instance whose template can be read is furnished with a copy of it. -/
theorem furnished (h : Begun s id e i bare inst) (st : Settings)
    (hasked : e.definition? = some component) (hcomponent : d.component? component = some c)
    (hread : Template.read c.template = .ok tmpl) (hnest : Expands d nest)
    (hgrows : ∀ (s : Scene) id, s.Grows (nest s id).scene) :
    Furnished s id e component tmpl (expandWith (splice d st nest component tmpl) s id).scene := by
  have hsound := Template.read_sound hread
  have hx := h.parted.expanded_of_splice h.before h.there h.instance? h.ready st component hnest
    hsound (h.template?_eq hasked hcomponent hread) h.detach? rfl rfl rfl
  have hout : (expandWith (splice d st nest component tmpl) s id).outcome =
      .ok (tmpl.roots.map s.copyId) := by
    rw [(told_expandWith h.detach?).2, ← h.copyId_eq]
    exact outcome_splice h.self
  refine ⟨?_, fun k hk ek => h.source_of_splice st hsound hgrows hk,
    fun hnodes => h.usage_of_splice st hsound hnodes hnest hx, fun hnodes => ?_⟩
  · obtain ⟨look, decoration, hself⟩ := hx.self
    rw [children_of_get? hself, Expansion.roots, hout]
  · have hroots : tmpl.roots = [] := Template.roots_of_nil hnodes
    have hnone : (expandWith (splice d st nest component tmpl) s id).roots = [] := by
      rw [Expansion.roots, hout, hroots]
      rfl
    refine ⟨hroots, fun u hu y huy hlive => ?_⟩
    have hy : s.contains y := by
      rcases atOrAbove_iff.mp huy with rfl | hup
      · exact ((hx.outlives_iff y (h.ready.usage_made y hu)).mp hlive).1
      · exact hup.contains
    have hbelow := h.ready.usage_below u hu (h.before.contains_of_atOrAbove huy hy)
    exact hx.not_contains_of_above hnone (hbelow.trans_right huy) hlive

end Begun

end Scene

end SceneTree
