import SceneTree.Proofs.Expand.Detach
import SceneTree.Proofs.Expand.Nest

/-!
# Expanding keeps the contract

An expansion either fails, and then all that was below the instance is
gone, or it ends with the usage being hung under one of the copies. In
both cases what it comes to is what `Expanded` says. The proof is by
induction on the levels that are left: inside a copy, instances are
expanded by the same function with a level less.
-/

namespace SceneTree

namespace Scene

variable {d : Document} {st : Settings} {s bare t t' : Scene} {id y z u target : ElementId}
  {e : Element} {i : Instance} {roots : List ElementId} {decoration : Decoration} {x : Expansion}

/-! ## Writing down what became of an instance -/

theorem get?_settleInstance (he : s.get? id = some e) (hi : e.instance? = some i)
    (usage roots : List ElementId) (decoration : Decoration) :
    (s.settleInstance id usage roots decoration).get? id = some
      { e with role := .standIn { i with expanded := true, usage, roots, decoration } } := by
  rw [settleInstance, get?_modify_self he, Element.role_of_instance? hi]

/-- Nothing else is touched, and the instance stays where it is. -/
theorem exists_settleInstance (s : Scene) (id : ElementId) (usage roots : List ElementId)
    (decoration : Decoration) :
    ∃ f, KeepsPlace f ∧ s.settleInstance id usage roots decoration = s.modify id f :=
  ⟨_, by constructor <;> intro <;> rfl, rfl⟩

/-! ## Nothing left -/

/-- What the instance looks like does not matter. -/
theorem Emptied.dress (h : Emptied s id e t) (f : Look → Look) :
    Emptied s id e (t.modify id fun e => { e with look := f e.look }) where
  forest := h.forest.modify (by constructor <;> intro <;> rfl) id
  size := (size_modify t id _).trans h.size
  outlives_iff y := by rw [contains_modify, h.outlives_iff]
  self := by
    obtain ⟨look, hself⟩ := h.self
    exact ⟨f look, get?_modify_self hself⟩
  same y hy hlive := by
    rw [contains_modify] at hlive
    rw [get?_modify_of_ne hy, h.same y hy hlive]

/-- An expansion that leaves nothing below the instance and says so keeps
the contract. -/
theorem Emptied.expanded (h : Emptied s id e t) (hs : s.Forest) (he : s.get? id = some e)
    (hi : e.instance? = some i) (hr : Ready s id e i) (hroots : x.roots = [])
    (htemplate : ∀ roots, x.outcome = .ok roots →
      ∃ t, i.template? d = some t ∧ roots.length = t.roots.length)
    (hscene : x.scene = t.settleInstance id [] [] decoration) : Expanded d s id e i x := by
  have hrescued : x.rescued s e = [] := if_pos hroots
  obtain ⟨f, hf, hsettle⟩ := exists_settleInstance t id [] [] decoration
  have hedit : x.scene = t.modify id f := hscene.trans hsettle
  have hsize : x.scene.slots.size = s.slots.size := by rw [hedit, size_modify, h.size]
  have hcontains (y : ElementId) : x.scene.contains y = t.contains y := by
    rw [hedit, contains_modify]
  have hold {y : ElementId} (hy : s.slots.size ≤ y.index) : ¬ x.scene.contains y := fun hx =>
    Nat.not_lt.mpr hy (hsize ▸ index_lt_of_contains hx)
  refine ⟨hs, he, hr, hedit ▸ h.forest.modify hf id, Nat.le_of_eq hsize.symm, fun y _ => ?_,
    fun y _ hne _ hx => ?_, fun u hu => ?_, ?_, fun y hy hx => absurd hx (hold hy),
    fun y ey hy hey => absurd (contains_of_get? hey) (hold hy),
    fun y ey iy hy hey _ => absurd (contains_of_get? hey) (hold hy), fun roots hout => ⟨?_, ?_⟩⟩
  · rw [hcontains, h.outlives_iff, hrescued]
    simp only [List.not_mem_nil, false_and, exists_false]
  · rw [hedit, get?_modify_of_ne hne, h.same y hne (hcontains y ▸ hx)]
  · rw [hrescued] at hu
    exact absurd hu List.not_mem_nil
  · obtain ⟨look, hself⟩ := h.self
    refine ⟨look, decoration, ?_⟩
    rw [hrescued, hroots, hscene]
    exact get?_settleInstance hself hi _ _ _
  · have hnil : x.roots = roots := by rw [Expansion.roots, hout]
    rw [← hnil, hroots]
    exact fun r hr => absurd hr List.not_mem_nil
  · exact htemplate roots hout

/-! ## Usage in its place -/

namespace Parted

theorem contains_usage (h : Parted s id e bare) (hu : u ∈ e.usage) :
    bare.contains u = s.contains u := by
  rw [Bool.eq_iff_iff, h.outlives_iff]
  exact and_iff_left_of_imp fun _ _ => ⟨u, hu, .refl⟩

theorem contains_self (h : Parted s id e bare) : bare.contains id := by
  obtain ⟨look, hself⟩ := h.self
  exact contains_of_get? hself

/-- The usage that is there stays while the copy is made. -/
theorem filter_usage (h : Parted s id e bare) (hr : Ready s id e i)
    (hf : Filled d bare id roots [] t) : e.usage.filter t.contains = e.usage.filter s.contains :=
  List.filter_congr fun u hu => by
    rw [hf.contains_old (h.size ▸ hr.usage_made u hu), h.contains_usage hu]

/-- While the copy is made, usage is around neither the instance nor
anything in the copy. -/
theorem not_atOrAbove (h : Parted s id e bare) (hs : s.Forest) (he : s.get? id = some e)
    (hr : Ready s id e i) (hf : Filled d bare id roots [] t) (hu : u ∈ e.usage)
    (hlive : s.contains u) (hy : y = id ∨ s.slots.size ≤ y.index) : ¬ t.AtOrAbove u y := by
  have hidu := hr.usage_below u hu hlive
  have hid : ¬ t.AtOrAbove u id := fun ha => by
    have ha := (h.forest.atOrAbove_of_old (fun _ => hf.old_parent?) h.contains_self).mp ha
    have ha := ha.mono fun _ _ => h.parent?_sub he
    exact hs.acyclic u (hidu.trans_left ha)
  rcases hy with rfl | hfresh
  · exact hid
  · intro ha
    have hult : u.index < bare.slots.size := h.size ▸ hr.usage_made u hu
    exact hid (hf.atOrAbove_of_fresh h.forest (h.size ▸ hfresh) hult ha)

/-- Usage that is still there can be hung under any part of the copy. What
is noted is the rest. -/
theorem hung_usage (h : Parted s id e bare) (hs : s.Forest) (he : s.get? id = some e)
    (hr : Ready s id e i) {w : Splicing} (hf : Filled d bare id roots [] w.scene)
    (hfresh : s.slots.size ≤ target.index) (hlive : w.scene.contains target) (name : String) :
    let all := e.usage.foldl (fun w child => w.link (.usageRejected name child) target child) w
    all.scene.Forest ∧ w.scene.Hung all.scene target (e.usage.filter s.contains) ∧
      all.notices = w.notices ++
        (e.usage.filter (!s.contains ·)).map fun u => .usageRejected name u (.missing u) := by
  have hold : ∀ u ∈ e.usage, w.scene.contains u = s.contains u := fun u hu => by
    rw [hf.contains_old (h.size ▸ hr.usage_made u hu), h.contains_usage hu]
  obtain ⟨hforest, hhung, hnotices⟩ := hf.forest.hung_foldl_link (.usageRejected name) hlive
    hr.usage_nodup fun u hu hlive => by
      rw [hold u hu] at hlive
      refine ⟨?_, h.not_atOrAbove hs he hr hf hu hlive (.inr hfresh)⟩
      rw [hf.old_parent? (h.size ▸ hr.usage_made u hu), h.parent?_of_mem hu]
  rw [List.filter_congr hold] at hhung
  rw [List.filter_congr fun u hu => congrArg not (hold u hu)] at hnotices
  exact ⟨hforest, hhung, hnotices⟩

end Parted

/-- The usage of an instance has been hung under one of the copies. -/
structure Placed (d : Document) (s : Scene) (id : ElementId) (e : Element) (i : Instance)
    (roots : List ElementId) (target : ElementId) (bare t t' : Scene) : Prop where
  before : s.Forest
  there : s.get? id = some e
  ready : Ready s id e i
  parted : Parted s id e bare
  filled : Filled d bare id roots [] t
  forest : t'.Forest
  fresh : s.slots.size ≤ target.index
  hung : t.Hung t' target (e.usage.filter s.contains)

namespace Placed

theorem not_mem_usage (h : Placed d s id e i roots target bare t t')
    (hy : y = id ∨ s.slots.size ≤ y.index) : y ∉ e.usage.filter s.contains := fun hm => by
  obtain ⟨hu, hlive⟩ := List.mem_filter.mp hm
  exact h.parted.not_atOrAbove h.before h.there h.ready h.filled hu hlive hy .refl

/-- From the instance and from the copy the ways up are as they were. -/
theorem atOrAbove_iff (h : Placed d s id e i roots target bare t t')
    (hy : y = id ∨ s.slots.size ≤ y.index) : t'.AtOrAbove z y ↔ t.AtOrAbove z y :=
  h.hung.atOrAbove_iff fun c hc => by
    obtain ⟨hu, hlive⟩ := List.mem_filter.mp hc
    exact h.parted.not_atOrAbove h.before h.there h.ready h.filled hu hlive hy

theorem above_iff (h : Placed d s id e i roots target bare t t')
    (hy : y = id ∨ s.slots.size ≤ y.index) : t'.Above z y ↔ t.Above z y := by
  rw [h.forest.above_iff_ne, h.filled.forest.above_iff_ne, h.atOrAbove_iff hy]

/-- Which of the elements that were there outlive the expansion. -/
theorem contains_old (h : Placed d s id e i roots target bare t t')
    (hy : y.index < s.slots.size) : t'.contains y ↔
      s.contains y ∧ (s.Above id y → ∃ u ∈ e.usage.filter s.contains, s.AtOrAbove u y) := by
  rw [h.hung.contains, h.filled.contains_old (h.parted.size ▸ hy), h.parted.outlives_iff]
  refine and_congr_right fun hlive => imp_congr_right fun _ => ⟨?_, ?_⟩
  · rintro ⟨u, hu, huy⟩
    exact ⟨u, List.mem_filter.mpr ⟨hu, h.before.contains_of_atOrAbove huy hlive⟩, huy⟩
  · rintro ⟨u, hu, huy⟩
    exact ⟨u, (List.mem_filter.mp hu).1, huy⟩

theorem same (h : Placed d s id e i roots target bare t t') (hy : y.index < s.slots.size)
    (hne : y ≠ id) (hm : y ∉ e.usage.filter s.contains) (hlive : t'.contains y) :
    t'.get? y = s.get? y := by
  have hylt : y.index < bare.slots.size := h.parted.size ▸ hy
  have hbare : bare.contains y := by
    rwa [h.hung.contains, h.filled.contains_old hylt] at hlive
  have hys := ((h.parted.outlives_iff y).mp hbare).1
  have hyu : y ∉ e.usage := fun hu => hm (List.mem_filter.mpr ⟨hu, hys⟩)
  have htarget : y ≠ target := by
    rintro rfl
    exact Nat.not_lt.mpr h.fresh hy
  rw [← h.parted.same y hne hyu hbare, ← h.filled.same y hylt hne]
  refine get?_eq_of_alone? (h.hung.alone? y) ?_ ?_
  · rw [h.hung.parent?, if_neg hm]
  · rw [h.hung.children, if_neg htarget]

/-- Usage keeps everything but its parent. -/
theorem moved (h : Placed d s id e i roots target bare t t') (hu : u ∈ e.usage.filter s.contains) :
    t'.get? u = (s.get? u).map fun eu => { eu with parent := some target } := by
  obtain ⟨hue, hlive⟩ := List.mem_filter.mp hu
  have hult : u.index < bare.slots.size := h.parted.size ▸ h.ready.usage_made u hue
  have hne : u ≠ id := fun hid => h.not_mem_usage (.inl hid) hu
  have htarget : u ≠ target := by
    rintro rfl
    exact h.not_mem_usage (.inr h.fresh) hu
  obtain ⟨eu, heu⟩ := contains_iff.mp hlive
  have ht : t.get? u = some { eu with parent := none } := by
    rw [h.filled.same u hult hne, h.parted.parted u hue hlive, heu, Option.map_some]
  rw [get?_of_alone? (h.hung.alone? u) ht, h.hung.parent?, if_pos hu, h.hung.children,
    if_neg htarget, children_of_get? ht, heu, Option.map_some]

theorem self (h : Placed d s id e i roots target bare t t') :
    ∃ look, t'.get? id = some { e with look, children := roots } := by
  obtain ⟨look, hbare⟩ := h.parted.self
  have ht := h.filled.self
  rw [hbare, Option.map_some] at ht
  have htarget : id ≠ target := fun hid =>
    Nat.not_lt.mpr h.fresh (hid ▸ index_lt_of_contains (contains_of_get? h.there))
  refine ⟨look, ?_⟩
  rw [get?_of_alone? (h.hung.alone? id) ht, h.hung.parent?, if_neg (h.not_mem_usage (.inl rfl)),
    h.hung.children, if_neg htarget, parent?_of_get? ht, children_of_get? ht]

/-! ### New elements -/

theorem fresh_below (h : Placed d s id e i roots target bare t t') (hy : s.slots.size ≤ y.index)
    (hlive : t'.contains y) : t'.Above id y := by
  rw [h.above_iff (.inr hy)]
  exact h.filled.below y (h.parted.size ▸ hy) (h.hung.contains y ▸ hlive)

/-- A new element is what it was but for its parent and for the usage it
got. -/
theorem fresh_get? (h : Placed d s id e i roots target bare t t') {ey : Element}
    (hey : t'.get? y = some ey) : ∃ e₀, t.get? y = some e₀ ∧ e₀.alone = ey.alone ∧
      e₀.children <+: ey.children := by
  have hlive : t.contains y := h.hung.contains y ▸ contains_of_get? hey
  obtain ⟨e₀, he₀⟩ := contains_iff.mp hlive
  have hget := get?_of_alone? (h.hung.alone? y) he₀
  cases hey.symm.trans hget
  refine ⟨e₀, he₀, rfl, ?_⟩
  dsimp only
  rw [h.hung.children]
  split
  next hy =>
    rw [← hy, children_of_get? he₀]
    exact List.prefix_append _ _
  next => exact children_of_get? he₀ ▸ List.prefix_rfl

theorem fresh_made (h : Placed d s id e i roots target bare t t') {ey : Element}
    (hy : s.slots.size ≤ y.index) (hey : t'.get? y = some ey) : ¬ ey.source.isDocument := by
  obtain ⟨e₀, he₀, halone, -⟩ := h.fresh_get? hey
  have hsource : e₀.source = ey.source := congrArg (·.source) halone
  rw [← hsource]
  exact h.filled.made y e₀ (h.parted.size ▸ hy) he₀

/-- Instances of the copy stay settled when the usage moves in. -/
theorem fresh_settled (h : Placed d s id e i roots target bare t t') {ey : Element}
    {iy : Instance} (hy : s.slots.size ≤ y.index) (hey : t'.get? y = some ey)
    (hiy : ey.instance? = some iy) : Settled d t' y ey iy := by
  obtain ⟨e₀, he₀, halone, hlead⟩ := h.fresh_get? hey
  have hrole : e₀.role = ey.role := congrArg (·.role) halone
  have hi₀ : e₀.instance? = some iy := by
    rwa [Element.instance?, hrole]
  have hybare : bare.slots.size ≤ y.index := h.parted.size ▸ hy
  have hset := (h.filled.settled y e₀ iy hybare he₀ hi₀).resolve_right fun hm =>
    List.not_mem_nil hm.2
  have husage : ey.usage = e₀.usage := by
    rw [Element.usage, Element.usage, hiy, hi₀]
    exact (if_pos hset.expanded).trans (if_pos hset.expanded).symm
  -- what is left of its usage is part of the copy too
  have hfresh {u : ElementId} (hu : u ∈ e₀.usage) (hlive : t'.contains u) :
      s.slots.size ≤ u.index := by
    rw [h.hung.contains] at hlive
    by_contra hlt
    have hult : u.index < bare.slots.size := h.parted.size ▸ Nat.not_le.mp hlt
    rw [h.filled.contains_old hult] at hlive
    refine h.filled.not_above_old h.parted.forest hybare hlive ?_
    exact (hset.usage_below u hu (h.filled.contains_old hult ▸ hlive)).atOrAbove
  have hready : Ready t' y ey iy :=
    hset.toReady.transfer h.forest (contains_of_get? hey) (Nat.le_of_eq h.hung.size.symm) husage
      hlead (fun u _ hu => h.hung.contains u ▸ hu)
      fun u hu hlive z _ _ => h.above_iff (.inr (hfresh hu hlive))
  refine ⟨hready, hset.expanded, fun u hu z ez hz hd hyz hzu => ?_, fun hne => ?_⟩
  · have hzlt : z.index < bare.slots.size := by
      rw [h.parted.size]
      by_contra hle
      exact h.fresh_made (Nat.not_lt.mp hle) hz hd
    have hufresh := hfresh (husage ▸ hu) hzu.contains
    have hzid := h.filled.atOrAbove_of_fresh h.parted.forest (h.parted.size ▸ hufresh) hzlt
      ((h.above_iff (.inr hufresh)).mp hzu).atOrAbove
    have hyid : t'.Above y id :=
      Relation.TransGen.trans_right ((h.atOrAbove_iff (.inl rfl)).mpr hzid) hyz
    exact h.forest.acyclic id (hyid.trans (h.fresh_below hy (contains_of_get? hey)))
  · exact hset.usage_placed (husage ▸ hne)

/-! ### The contract -/

/-- With the instance settled the contract is kept. -/
theorem expanded (h : Placed d s id e i roots target bare t t') (hi : e.instance? = some i)
    (hscene : x.scene = t'.settleInstance id (e.usage.filter s.contains) roots decoration)
    (hout : x.outcome = .ok roots) (hne : roots ≠ [])
    (hmade : ∀ r ∈ roots, s.slots.size ≤ r.index)
    (htemplate : ∃ t, i.template? d = some t ∧ roots.length = t.roots.length) :
    Expanded d s id e i x := by
  have hroots : x.roots = roots := by rw [Expansion.roots, hout]
  have hrescued : x.rescued s e = e.usage.filter s.contains := by
    rw [Expansion.rescued, hroots, if_neg hne]
  obtain ⟨f, hf, hsettle⟩ :=
    exists_settleInstance t' id (e.usage.filter s.contains) roots decoration
  have hedit : x.scene = t'.modify id f := hscene.trans hsettle
  have hcontains (y : ElementId) : x.scene.contains y = t'.contains y := by
    rw [hedit, contains_modify]
  have hother {y : ElementId} (hy : y ≠ id) : x.scene.get? y = t'.get? y := by
    rw [hedit, get?_modify_of_ne hy]
  have hfresh {y : ElementId} (hy : s.slots.size ≤ y.index) : y ≠ id := by
    rintro rfl
    exact Nat.not_lt.mpr hy (index_lt_of_contains (contains_of_get? h.there))
  refine ⟨h.before, h.there, h.ready, hedit ▸ h.forest.modify hf id, ?_, fun y hy => ?_,
    fun y hy hne hm hlive => ?_, fun u hu => ?_, ?_, fun y hy hlive => ?_, fun y ey hy hey => ?_,
    fun y ey iy hy hey hiy => ?_, fun roots' hout' => ?_⟩
  · rw [hedit, size_modify, h.hung.size, ← h.parted.size]
    exact h.filled.size_le
  · rw [hcontains, hrescued]
    exact h.contains_old hy
  · rw [hother hne]
    exact h.same hy hne (hrescued ▸ hm) (hcontains y ▸ hlive)
  · rw [hrescued] at hu
    refine ⟨target, h.fresh, ?_⟩
    rw [hother fun hid => h.not_mem_usage (.inl hid) hu, h.moved hu]
  · obtain ⟨look, hself⟩ := h.self
    refine ⟨look, decoration, ?_⟩
    rw [hscene, hrescued, hroots]
    exact get?_settleInstance hself hi _ _ _
  · rw [hedit, above_modify hf.parent]
    exact h.fresh_below hy (hcontains y ▸ hlive)
  · exact h.fresh_made hy ((hother (hfresh hy)).symm.trans hey)
  · have hey' := (hother (hfresh hy)).symm.trans hey
    rw [hedit]
    exact (h.fresh_settled hy hey' hiy).modify h.forest hey' hf id
  · cases hout.symm.trans hout'
    exact ⟨hmade, htemplate⟩

end Placed

/-! ## Failing -/

/-- A failure keeps the contract: nothing is left below the instance. -/
theorem Parted.expanded_of_error (h : Parted s id e bare) (hs : s.Forest)
    (he : s.get? id = some e) (hi : e.instance? = some i) (hr : Ready s id e i)
    {put : Scene → Detached → Expansion} {det : Detached} (hdet : s.detach? id = some (bare, det))
    (husage : det.usage = e.usage) (cause : ExpandFault)
    (hput : put bare det = { scene := bare, notices := [], outcome := .error cause }) :
    Expanded d s id e i (expandWith put s id) := by
  have hempty := (h.drop hs hr he).dress det.decoration.applyTo
  simp only [expandWith, hdet, hput, husage]
  refine hempty.expanded hs he hi hr rfl (fun roots hok => ?_) rfl
  cases hok

/-! ## Splicing -/

/-- Where there is a root there is a place for the usage. -/
theorem Filled.usageTarget? (h : Filled d s id roots [] t) (hid : s.contains id)
    {copies : List ElementId} (hcopies : ∀ c ∈ copies, s.slots.size ≤ c.index)
    (hroots : ∀ r ∈ roots, s.slots.size ≤ r.index) (hne : roots ≠ []) :
    ∃ target, t.usageTarget? copies roots = some target ∧ s.slots.size ≤ target.index ∧
      t.contains target := by
  rw [Scene.usageTarget?]
  cases hfind : copies.find? fun id => (t.get? id).any (·.slot) with
  | some c =>
    obtain ⟨ec, hec, -⟩ := (Option.any_eq_true (·.slot) (t.get? c)).mp (List.find?_some hfind :)
    exact ⟨c, rfl, hcopies c (List.mem_of_find?_eq_some hfind), contains_of_get? hec⟩
  | none =>
    obtain ⟨r, rest, rfl⟩ := List.exists_cons_of_ne_nil hne
    have hm : r ∈ t.children id := by
      obtain ⟨e, he⟩ := contains_iff.mp hid
      rw [children, h.self, he]
      exact List.mem_cons_self
    exact ⟨r, rfl, hroots r List.mem_cons_self, h.forest.contains_child hm⟩

theorem scene_placeUsage_none (det : Detached) (w : Splicing) :
    (placeUsage det none w).scene = det.usage.foldl remove w.scene := by
  unfold placeUsage
  dsimp only
  split
  next hnil => rw [List.isEmpty_iff.mp hnil, List.foldl_nil]
  next => rfl

/-- A template without a node leaves no place for the usage. -/
theorem splice_of_nil {nest : Scene → ElementId → Expansion} {component : ComponentId}
    {tmpl : Template} (hsound : tmpl.Sound) (hnodes : tmpl.nodes = []) {det : Detached}
    {inst : Element} (hinst : s.get? det.id = some inst) :
    (splice d st nest component tmpl s det).scene = det.usage.foldl remove s ∧
      (splice d st nest component tmpl s det).outcome = .ok [] := by
  have hroots : tmpl.roots = [] := Template.roots_of_nil hnodes
  have hedges : tmpl.edges = [] := List.eq_nil_iff_forall_not_mem.mpr fun e he => by
    have := hsound.inside e he
    rw [hnodes] at this
    exact Nat.not_lt_zero _ this
  simp only [splice, hinst, hroots, hnodes, List.map_nil, List.length_nil, List.range_zero,
    List.foldl_nil, usageTarget?, List.find?_nil, List.head?_nil, Option.orElse_eq_orElse,
    attachRoots, linkCopies, hedges, addTemplate, List.zipIdx_nil, Splicing.note, and_true]
  exact scene_placeUsage_none det _

/-- A template with a node in has a root. -/
theorem roots_ne_nil {tmpl : Template} (hsound : tmpl.Sound) (hnodes : tmpl.nodes ≠ []) :
    tmpl.roots.map s.copyId ≠ [] :=
  List.map_eq_nil_iff.not.mpr
    (List.ne_nil_of_mem (hsound.zero_mem_roots (List.length_pos_iff.mpr hnodes)))

theorem le_index_of_mem_map_copyId {nodes : List Nat} (h : y ∈ nodes.map s.copyId) :
    s.slots.size ≤ y.index := by
  obtain ⟨k, -, rfl⟩ := List.mem_map.mp h
  exact Nat.le_add_right _ _

/-- A copy under an instance, with the instances inside expanded and the
usage not yet in its place. -/
def fill (d : Document) (st : Settings) (nest : Scene → ElementId → Expansion)
    (component : ComponentId) (tmpl : Template) (s : Scene) (det : Detached) (inst : Element) :
    Splicing :=
  ((List.range tmpl.nodes.length).map s.copyId).foldl (expandNested nest det.component)
    (attachRoots det (tmpl.roots.map s.copyId)
      (linkCopies det.component s.copyId tmpl (addTemplate d st inst component det.decoration tmpl s)))

/-- Splicing is filling and then placing the usage. -/
theorem splice_eq_fill {nest : Scene → ElementId → Expansion} {component : ComponentId}
    {tmpl : Template} {det : Detached} {inst : Element} (h : s.get? det.id = some inst) :
    splice d st nest component tmpl s det =
      let copies := (List.range tmpl.nodes.length).map s.copyId
      let roots := tmpl.roots.map s.copyId
      let filled := fill d st nest component tmpl s det inst
      let placed := placeUsage det (filled.scene.usageTarget? copies roots) filled
      { scene := placed.scene, notices := placed.notices, outcome := .ok roots } := by
  simp only [splice, h, fill]

/-- Splicing a template with a node in puts the usage in its place. -/
theorem placed_splice (st : Settings) (hs : s.Forest) (he : s.get? id = some e)
    (hr : Ready s id e i) (hparted : Parted s id e bare)
    {nest : Scene → ElementId → Expansion} (hnest : Expands d nest) {tmpl : Template}
    (hsound : tmpl.Sound) (hnodes : tmpl.nodes ≠ []) (component : ComponentId) {det : Detached}
    (hid : det.id = id) (husage : det.usage = e.usage) {inst : Element}
    (hinst : bare.get? id = some inst) :
    let filled := fill d st nest component tmpl bare det inst
    let spliced := splice d st nest component tmpl bare det
    spliced.outcome = .ok (tmpl.roots.map bare.copyId) ∧
      spliced.notices = filled.notices ++ (e.usage.filter (!s.contains ·)).map
        (fun u => .usageRejected det.component u (.missing u)) ∧
      ∃ target, filled.scene.usageTarget? ((List.range tmpl.nodes.length).map bare.copyId)
          (tmpl.roots.map bare.copyId) = some target ∧
        Placed d s id e i (tmpl.roots.map bare.copyId) target bare filled.scene spliced.scene := by
  subst hid
  have hidbare := hparted.contains_self
  obtain ⟨look, hself⟩ := hparted.self
  cases hself.symm.trans hinst
  obtain ⟨hcopied, -⟩ := copied_attachRoots d st { e with look, children := [] } component
    det.decoration hparted.forest hsound hself rfl
  have hcopies : ∀ c ∈ (List.range tmpl.nodes.length).map bare.copyId,
      bare.slots.size ≤ c.index := fun _ => le_index_of_mem_map_copyId
  have hfilled := (hcopied.filled (d := d)).foldl_expandNested hparted.forest hidbare hcopies
    hnest det.component
  obtain ⟨target, htarget, hfresh, hlive⟩ := hfilled.usageTarget? hidbare hcopies
    (fun _ => le_index_of_mem_map_copyId) (roots_ne_nil hsound hnodes)
  obtain ⟨hforest, hhung, hnotices⟩ := hparted.hung_usage hs he hr hfilled
    (hparted.size ▸ hfresh) hlive det.component
  refine ⟨by rw [splice_eq_fill hself], ?_, target, htarget, hs, he, hr, hparted, hfilled, ?_,
    hparted.size ▸ hfresh, ?_⟩
  all_goals
    rw [splice_eq_fill hself]
    simp only [placeUsage, fill, htarget, husage]
  · exact hnotices
  · exact hforest
  · exact hhung

/-! ## Every expansion -/

/-- What an expansion that splices leaves. -/
theorem expandWith_of_ok {put : Scene → Detached → Expansion} {det : Detached}
    (hdet : s.detach? id = some (bare, det)) (hout : (put bare det).outcome = .ok roots) :
    expandWith put s id = { put bare det with
      scene := (put bare det).scene.settleInstance id
        (det.usage.filter (put bare det).scene.contains) roots det.decoration } := by
  simp only [expandWith, hdet, hout]

/-- Splicing keeps the contract, whether or not there is a place for the
usage. -/
theorem Parted.expanded_of_splice (h : Parted s id e bare) (hs : s.Forest)
    (he : s.get? id = some e) (hi : e.instance? = some i) (hr : Ready s id e i)
    (st : Settings) (component : ComponentId) {nest : Scene → ElementId → Expansion}
    (hnest : Expands d nest) {tmpl : Template} (hsound : tmpl.Sound)
    (htemplate : i.template? d = some tmpl)
    {put : Scene → Detached → Expansion} {det : Detached} (hdet : s.detach? id = some (bare, det))
    (hid : det.id = id) (husage : det.usage = e.usage)
    (hput : put bare det = splice d st nest component tmpl bare det) :
    Expanded d s id e i (expandWith put s id) := by
  by_cases hnodes : tmpl.nodes = []
  · obtain ⟨look, hself⟩ := h.self
    obtain ⟨hscene, hout⟩ : (put bare det).scene = e.usage.foldl remove bare ∧
        (put bare det).outcome = .ok [] := by
      rw [hput, ← husage]
      exact splice_of_nil hsound hnodes (hid ▸ hself)
    have hempty := h.drop hs hr he
    have hkept : e.usage.filter (e.usage.foldl remove bare).contains = [] :=
      List.filter_eq_nil_iff.mpr fun u hu hlive => by
        obtain ⟨hsu, hup⟩ := (hempty.outlives_iff u).mp hlive
        exact hup (hr.usage_below u hu hsu)
    rw [expandWith_of_ok hdet hout, hscene, husage, hkept]
    refine hempty.expanded hs he hi hr ?_ (fun roots hok => ?_) rfl
    · rw [Expansion.roots, hout]
    · cases hout.symm.trans hok
      refine ⟨tmpl, htemplate, ?_⟩
      rw [Template.roots_of_nil hnodes]
      rfl
  · obtain ⟨inst, hinst⟩ := contains_iff.mp h.contains_self
    obtain ⟨hout, -, target, -, hplaced⟩ := placed_splice st hs he hr h hnest hsound hnodes
      component hid husage hinst
    rw [← hput] at hout hplaced
    have hkept : e.usage.filter (put bare det).scene.contains = e.usage.filter s.contains := by
      rw [← h.filter_usage hr hplaced.filled]
      exact List.filter_congr fun u _ => hplaced.hung.contains u
    rw [expandWith_of_ok hdet hout, husage, hkept]
    refine hplaced.expanded hi rfl hout (roots_ne_nil hsound hnodes) (fun r hr => ?_)
      ⟨tmpl, htemplate, List.length_map ..⟩
    exact h.size ▸ le_index_of_mem_map_copyId hr

theorem findComponent_eq_ok {enclosing : List ComponentId} {det : Detached} {cid : ComponentId}
    {c : Component} (h : findComponent d enclosing det = .ok (cid, c)) :
    det.definition.bind d.component? = some c := by
  rw [findComponent] at h
  split at h
  next => cases h
  next hfind =>
    split at h
    next => cases h
    next =>
      cases h
      obtain ⟨def?, hdef, hc⟩ := Option.bind_eq_some_iff.mp hfind
      obtain ⟨c, hc, heq⟩ := Option.map_eq_some_iff.mp hc
      cases heq
      rw [hdef, Option.bind_some, hc]

/-- Whatever the components are, and however many levels are left, an
expansion keeps the contract. -/
theorem expands_expandWithin (d : Document) (st : Settings) (levels : Nat)
    (enclosing : List ComponentId) : Expands d (expandWithin d st levels enclosing) := by
  induction levels generalizing enclosing with
  | zero =>
    intro s id e i hs he hi hr
    exact (hr.parted hs he hi).expanded_of_error hs he hi hr (detach?_of_instance he hi) rfl _ rfl
  | succ levels ih =>
    intro s id e i hs he hi hr
    have hdet := detach?_of_instance he hi
    have hparted := hr.parted hs he hi
    rw [expandWithin]
    cases hfind : findComponent d enclosing (taken id e i) with
    | error cause =>
      exact hparted.expanded_of_error hs he hi hr hdet rfl cause (by simp only [hfind])
    | ok found =>
      cases hread : Template.read found.2.template with
      | error cause =>
        exact hparted.expanded_of_error hs he hi hr hdet rfl
          (.badTemplate (taken id e i).component cause) (by simp only [hfind, hread])
      | ok tmpl =>
        have htemplate : i.template? d = some tmpl := by
          have hcomponent : i.definition.bind d.component? = some found.2 :=
            findComponent_eq_ok hfind
          rw [Instance.template?, hcomponent, Option.bind_some, hread]
          rfl
        exact hparted.expanded_of_splice hs he hi hr st found.1 (ih (found.1 :: enclosing))
          (Template.read_sound hread) htemplate hdet rfl rfl (by simp only [hfind, hread])

/-- Expanding an instance of a session keeps the contract. -/
theorem expands_expand (d : Document) (st : Settings) : Expands d fun s id => s.expand d st id :=
  expands_expandWithin d st maxDepth []

end Scene

end SceneTree
