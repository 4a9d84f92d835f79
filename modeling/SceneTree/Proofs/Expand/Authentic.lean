import SceneTree.Proofs.Expand.Imprint
import SceneTree.Proofs.Expand.Outcome

/-!
# Expansions make nothing up

The copy that an expansion makes has the imprints of the nodes, made for
the instance, when it has just been made. From then on its elements only
lose parts and get usage. The instances inside are expanded one after
another, and each of them leaves its own copy the same way. So whichever
of them had their turn, all that is new is made of its record, and all the
roots that an instance has are those of a copy made for it
(`Begun.authentic_atTurn`). The induction over the levels is
`expandWithin_induction`.
-/

namespace SceneTree

namespace Scene

variable {d : Document} {st : Settings} {s t bare : Scene} {id c y : ElementId}
  {e inst : Element} {i : Instance} {component : ComponentId} {definition : Component}
  {tmpl : Template} {det : Detached} {x : Expansion} {cause : ExpandFault}
  {nest : Scene → ElementId → Expansion} {done rest roots : List ElementId}

/-- `expand` gives every instance that is ready a copy made for it. -/
def Authoring (d : Document) (st : Settings) (expand : Scene → ElementId → Expansion) : Prop :=
  ∀ {s id e i}, s.Forest → s.get? id = some e → e.instance? = some i → Ready s id e i →
    Authors d st s id (expand s id)

/-! ## The turns -/

/-- A copy that was just made is authentic. -/
theorem Copied.authentic
    (h : s.Copied det.id component tmpl (rooted d st component tmpl s det inst).scene)
    (hrec : ∀ k n, tmpl.nodes[k]? = some n → d.recordOf? (.template component k) = some n.record) :
    let t := (rooted d st component tmpl s det inst).scene
    Authentic d st s.slots.size t ∧ Renders d st t inst component tmpl s.slots.size := by
  refine ⟨⟨fun y e hy he => ?_, fun p e hp he hroots => ?_⟩, fun k n e hk he => ?_⟩
  · obtain ⟨k, n, -, hk, -, hmade⟩ := h.exists_node hy he
    have hcopy := (Element.imprint_of_alone hmade).trans (copyElement_imprint _ k n.record)
    refine ⟨n.record, ?_, congrArg Imprint.role hcopy⟩
    rw [show e.source = .template component k from congrArg Imprint.source hcopy, hrec k n hk]
  · obtain ⟨k, n, -, -, -, hmade⟩ := h.exists_node hp he
    refine absurd (Element.kept_of_pending fun i hi => ?_).1 hroots
    have hinstance := congrArg Element.instance? hmade
    exact (copyElement_bare_instance _ k n.record (hinstance.symm.trans hi)).1
  · have hmade := alone_of_rooted hk (show (rooted d st component tmpl s det inst).scene.get?
      (s.copyId k) = some e from he)
    exact (Element.imprint_of_alone hmade).trans (copyElement_imprint _ k n.record)

/-- Whichever copies had their turn, what is new is authentic, and the copy
is the one that was made. -/
theorem Begun.authentic_atTurn (h : Begun s id e i bare inst)
    (hcomponent : d.component? component = some definition)
    (hread : Template.read definition.template = .ok tmpl) (hnest : Expands d nest)
    (hauthor : Authoring d st nest)
    (hcopies : (List.range tmpl.nodes.length).map bare.copyId = done ++ rest) :
    let t := atTurn d st nest component tmpl bare (taken id e i) inst done
    bare.slots.size + tmpl.nodes.length ≤ t.slots.size ∧ Authentic d st bare.slots.size t ∧
      Renders d st t inst component tmpl bare.slots.size := by
  have hcopied := h.copied d st component (Template.read_sound hread)
  have hfresh : ∀ y ∈ done, bare.slots.size ≤ y.index := fun y hy =>
    le_index_of_mem_map_copyId (hcopies ▸ List.mem_append_left rest hy)
  refine Filled.turns_keep (P := fun t => bare.slots.size + tmpl.nodes.length ≤ t.slots.size ∧
    Authentic d st bare.slots.size t ∧ Renders d st t inst component tmpl bare.slots.size)
    (hcopies ▸ hcopied.filled (d := d)) h.parted.forest h.parted.contains_self hfresh hnest
    (fun {t c ec ic} _ ht hec hic hready ⟨hmade, hauthentic, hrenders⟩ => ?_)
    (taken id e i).component
    ⟨Nat.le_of_eq hcopied.size.symm,
      hcopied.authentic fun k n => recordOf?_template hcomponent hread⟩
  have hx := hnest ht hec hic hready
  exact ⟨Nat.le_trans hmade hx.size_le, hauthentic.expanded hx hic (hauthor ht hec hic hready),
    hrenders.recalls (hx.recalls hic bare.slots.size) (Nat.le_refl _) hmade rfl⟩

/-! ## The instance -/

namespace Begun

variable {put : Scene → Detached → Expansion}

theorem imprint_eq (h : Begun s id e i bare inst) : inst.imprint = e.imprint := by
  rw [h.inst_eq]
  rfl

/-- An instance that is refused has no roots, and nothing is new. -/
theorem authors_of_refusal (h : Begun s id e i bare inst)
    (hput : put bare (taken id e i) = { scene := bare, notices := [], outcome := .error cause }) :
    Authors d st s id (expandWith put s id) := by
  refine ⟨fun e' he' hroots => ?_, .of_size (Nat.le_of_eq (h.size_of_refusal hput))⟩
  cases he'.symm.trans (h.self_of_refusal hput)
  exact absurd rfl hroots

/-- What is new when the usage is in its place is what was new before. -/
theorem settled_of_splice (h : Begun s id e i bare inst) (st : Settings) (hsound : tmpl.Sound)
    (hnodes : tmpl.nodes ≠ []) (hnest : Expands d nest) (component : ComponentId) :
    let filled := (fill d st nest component tmpl bare (taken id e i) inst).scene
    let t := (expandWith (splice d st nest component tmpl) s id).scene
    t.slots.size = filled.slots.size ∧ ∀ y e', s.slots.size ≤ y.index → t.get? y = some e' →
      ∃ e₀, filled.get? y = some e₀ ∧ e'.imprint = e₀.imprint ∧ e'.oldRoots = e₀.oldRoots := by
  obtain ⟨hout, -, target, -, hplaced⟩ := placed_splice st h.before h.there h.ready h.parted hnest
    hsound hnodes component (show (taken id e i).id = id from rfl) rfl h.self
  rw [expandWith_of_ok h.detach? hout]
  refine ⟨?_, fun y e' hy he' => ?_⟩
  · dsimp only
    rw [settleInstance, size_modify, hplaced.hung.size]
  · rw [hplaced.get?_settled hy] at he'
    obtain ⟨e₀, he₀, rfl⟩ := Option.map_eq_some_iff.mp he'
    exact ⟨e₀, he₀, rfl, rfl⟩

/-- The copy that an instance gets is made for it, and what is new is
authentic. -/
theorem authentic_of_splice (h : Begun s id e i bare inst)
    (hcomponent : d.component? component = some definition)
    (hread : Template.read definition.template = .ok tmpl) (hnest : Expands d nest)
    (hauthor : Authoring d st nest) :
    let t := (expandWith (splice d st nest component tmpl) s id).scene
    Authentic d st s.slots.size t ∧ Renders d st t e component tmpl s.slots.size ∧
      s.slots.size + tmpl.nodes.length ≤ t.slots.size := by
  have hsound := Template.read_sound hread
  by_cases hnodes : tmpl.nodes = []
  · have hsize := h.size_of_nodeless d st nest component hsound hnodes
    refine ⟨.of_size (Nat.le_of_eq hsize), fun k n e' hk => ?_, ?_⟩
    · rw [hnodes] at hk
      cases hk
    · rw [hsize, hnodes]
      exact Nat.le_refl _
  · obtain ⟨hsize, hsame⟩ := h.settled_of_splice st hsound hnodes hnest component
    obtain ⟨hmade, hauthentic, hrenders⟩ := h.authentic_atTurn hcomponent hread hnest hauthor
      (List.append_nil _).symm
    rw [h.parted.size] at hmade hauthentic hrenders
    refine ⟨hauthentic.congr hsize hsame, fun k n e' hk he' => ?_, hsize ▸ hmade⟩
    obtain ⟨e₀, he₀, heq, -⟩ := hsame ⟨s.slots.size + k⟩ e' (Nat.le_add_right _ _) he'
    rw [heq, hrenders k n e₀ hk he₀, Imprint.ofNode_congr h.imprint_eq]

/-- So the instance has the copy, and an instance without a root has
none. -/
theorem authors_of_splice (h : Begun s id e i bare inst) (hasked : e.definition? = some component)
    (hcomponent : d.component? component = some definition)
    (hread : Template.read definition.template = .ok tmpl) (hnest : Expands d nest)
    (hauthor : Authoring d st nest) :
    Authors d st s id (expandWith (splice d st nest component tmpl) s id) := by
  obtain ⟨hauthentic, hrenders, hmade⟩ := h.authentic_of_splice hcomponent hread hnest hauthor
  have hx := h.parted.expanded_of_splice h.before h.there h.instance? h.ready st component hnest
    (Template.read_sound hread) (h.template?_eq hasked hcomponent hread) h.detach? rfl rfl rfl
  have hroots : (expandWith (splice d st nest component tmpl) s id).roots =
      tmpl.roots.map s.copyId := by
    rw [Expansion.roots, (told_expandWith h.detach?).2, outcome_splice h.self, h.copyId_eq]
  refine ⟨fun e' he' _ => ⟨component, tmpl, s.slots.size, ?_⟩, hauthentic⟩
  obtain ⟨e₀, he₀, heq⟩ := (hx.recalls h.instance? 0).same id e' (Nat.zero_le _)
    (index_lt_of_contains (contains_of_get? h.there)) he'
  cases he₀.symm.trans h.there
  obtain ⟨look, decoration, hself⟩ := hx.self
  refine ⟨(Element.definition?_of_imprint heq).trans hasked, ⟨definition, hcomponent, hread⟩, ?_,
    index_lt_of_contains (contains_of_get? h.there), hmade, fun k n ek hk hek => ?_⟩
  · cases he'.symm.trans hself
    exact hroots
  · rw [hrenders k n ek hk hek, Imprint.ofNode_congr heq]

end Begun

/-- Whatever the components are, and however many levels are left, an
expansion makes nothing up. -/
theorem authoring_expandWithin (d : Document) (st : Settings) (levels : Nat)
    (enclosing : List ComponentId) : Authoring d st (expandWithin d st levels enclosing) :=
  expandWithin_induction (P := fun s id _ x => Authors d st s id x)
    (fun h hput => h.authors_of_refusal hput)
    (fun h hasked hcomponent hread hnest hauthor =>
      h.authors_of_splice hasked hcomponent hread hnest hauthor)
    levels enclosing

end Scene

end SceneTree
