import SceneTree.Proofs.Expand.Twins
import SceneTree.Proofs.Expand.Worn

/-!
# Copies are attired

What a copy wears is settled when its elements are made, before any of
them is linked. From then on an expansion only moves things: linking and
placing the usage write no more than edges, and the instances inside the
copy are expanded in the same way, on a level less. So the proof follows
the stages of `splice` and then goes by induction on the levels
(`expandWithin_induction`), as for the contract.
-/

namespace SceneTree

variable {d : Document} {st : Settings}

/-! ## What a node is made into -/

/-- What keeps no decoration has the one it shows. -/
theorem Element.wears_of_look {e : Element} {l : Look} (hlook : e.look = l)
    (hkept : ∀ i, e.instance? = some i → i.decoration = .none) : e.Wears l where
  plain _ := hlook
  handed hinst := by
    obtain ⟨i, hi⟩ := Option.isSome_iff_exists.mp hinst
    rw [ownDecoration, hi, ← hlook]
    dsimp only
    rw [if_pos (hkept i hi)]
    exact .refl _

namespace Scene

variable {s t t' bare : Scene} {id y p c f : ElementId} {e giver inst : Element} {i : Instance}
  {component : ComponentId} {decoration : Decoration} {node : Nat} {rec : Record}
  {tmpl : Template} {det : Detached} {nest : Scene → ElementId → Expansion}

theorem copyElement_source (id : ElementId) (node : Nat) (rec : Record) :
    (copyElement d st inst component decoration id node rec).source =
      .template component node := by
  unfold copyElement
  split <;> rfl

theorem copyElement_header (id : ElementId) (node : Nat) (rec : Record) :
    (copyElement d st inst component decoration id node rec).header =
      copyHeader inst node rec.header := by
  unfold copyElement
  split <;> rfl

theorem copyElement_look (id : ElementId) (node : Nat) (rec : Record) :
    (copyElement d st inst component decoration id node rec).look =
      let own := (Attributes.ofRecord d st (copyHeader inst node rec.header) rec).look
      if node = 0 then decoration.applyTo own else own := by
  unfold copyElement
  split <;> rfl

/-- A copy has just been made, so as an instance it keeps nothing. -/
theorem copyElement_bare_instance (id : ElementId) (node : Nat) (rec : Record)
    (hi : (copyElement d st inst component decoration id node rec).instance? = some i) :
    ¬ i.expanded ∧ i.decoration = .none := by
  have hrole : (Role.ofRecord d rec).instance? = some i := by
    unfold copyElement at hi
    split at hi <;> exact hi
  obtain ⟨hpend, -, -, hnone⟩ := Role.bare_of_ofRecord hrole
  exact ⟨hpend, hnone⟩

/-- The copy of a later node is as its record makes it. -/
theorem copyElement_asMade (id : ElementId) (hnode : node ≠ 0)
    (hrec : d.recordOf? (.template component node) = some rec) :
    (copyElement d st inst component decoration id node rec).AsMade d st := by
  have hheader : copyHeader inst node rec.header = rec.header := if_neg fun h => hnode h.1
  refine ⟨rec, by rw [copyElement_source, hrec], by rw [copyElement_header, hheader],
    Element.wears_of_look ?_ fun i hi => (copyElement_bare_instance id node rec hi).2⟩
  rw [Element.ownLook, copyElement_header, copyElement_look]
  exact if_neg hnode

/-- The copy of the first node is as its record makes it under what it is
given. -/
theorem copyElement_ledBy (id : ElementId)
    (hrec : d.recordOf? (.template component 0) = some rec) (hheader : inst.header = giver.header)
    (hdefinition : giver.definition? = some component)
    (hdecoration : decoration = giver.ownDecoration) :
    Element.LedBy d st giver (copyElement d st inst component decoration id 0 rec) := by
  refine ⟨⟨component, hdefinition, copyElement_source id 0 rec⟩, rec,
    by rw [copyElement_source, hrec], ?_,
    Element.wears_of_look ?_ fun i hi => (copyElement_bare_instance id 0 rec hi).2⟩
  · rw [copyElement_header, copyHeader, copyHeader, hheader]
  · rw [Element.ownLook, copyElement_header, copyElement_look, ← hdecoration]
    exact if_pos rfl

/-! ## Making and hanging the copy -/

theorem alone?_splicingLink (w : Splicing) (refusal : LinkFault → Notice) (p c y : ElementId) :
    (w.link refusal p c).scene.alone? y = w.scene.alone? y := by
  unfold Splicing.link
  split
  next hlink => exact alone?_link hlink y
  next => rfl

theorem alone?_foldl_splicingLink {α : Type} {refusal : α → LinkFault → Notice}
    {parent child : α → ElementId} (l : List α) (w : Splicing) (y : ElementId) :
    (l.foldl (fun w a => w.link (refusal a) (parent a) (child a)) w).scene.alone? y =
      w.scene.alone? y := by
  induction l generalizing w with
  | nil => rfl
  | cons a l ih => rw [List.foldl_cons, ih, alone?_splicingLink]

/-- The nodes of a template become elements in order. -/
theorem get?_foldl_addNode {f : Splicing → TemplateNode × Nat → Splicing}
    (hf : ∀ w n k, (f w (n, k)).scene = addNode d st inst component decoration w.scene k n.record)
    (nodes : List TemplateNode) (first : Nat) (w : Splicing) {k : Nat} {n : TemplateNode}
    (hk : nodes[k]? = some n) :
    ((nodes.zipIdx first).foldl f w).scene.get? (w.scene.copyId k) =
      some (copyElement d st inst component decoration (w.scene.copyId k) (first + k)
        n.record) := by
  induction nodes generalizing first w k with
  | nil => cases hk
  | cons m nodes ih =>
    have hsize : (f w (m, first)).scene.slots.size = w.scene.slots.size + 1 := by
      rw [hf, size_addNode]
    rw [List.zipIdx_cons, List.foldl_cons]
    cases k with
    | zero =>
      obtain rfl : m = n := Option.some.inj hk
      have hlater := appended_foldl hf nodes (first + 1) (f w (m, first))
      rw [hlater.old _ (by rw [hsize]; exact Nat.lt_succ_self _), hf, get?_addNode]
      exact if_pos rfl
    | succ k =>
      have hid : (f w (m, first)).scene.copyId k = w.scene.copyId (k + 1) := by
        simp only [copyId, nextId, hsize, ElementId.mk.injEq]
        omega
      rw [← hid, ih (first + 1) (f w (m, first)) hk, show first + 1 + k = first + (k + 1) by omega]

/-- A copy under an instance, with the instances inside still pending. -/
def rooted (d : Document) (st : Settings) (component : ComponentId) (tmpl : Template) (s : Scene)
    (det : Detached) (inst : Element) : Splicing :=
  attachRoots det (tmpl.roots.map s.copyId)
    (linkCopies det.component s.copyId tmpl (addTemplate d st inst component det.decoration tmpl s))

theorem copied_rooted (d : Document) (st : Settings) (component : ComponentId) (hs : s.Forest)
    (hsound : tmpl.Sound) (hinst : s.get? det.id = some inst) (hbare : inst.children = []) :
    s.Copied det.id component tmpl (rooted d st component tmpl s det inst).scene :=
  (copied_attachRoots d st inst component det.decoration hs hsound hinst hbare).1

theorem Begun.copied (h : Begun s id e i bare inst) (d : Document) (st : Settings)
    (component : ComponentId) (hsound : tmpl.Sound) :
    bare.Copied id component tmpl (rooted d st component tmpl bare (taken id e i) inst).scene :=
  copied_rooted d st component h.parted.forest hsound
    (show bare.get? (taken id e i).id = some inst from h.self)
    (congrArg Element.children h.inst_eq)

/-- Linking and hanging leave what was made of a node alone. -/
theorem alone_of_rooted {k : Nat} {n : TemplateNode} (hk : tmpl.nodes[k]? = some n)
    (he : (rooted d st component tmpl s det inst).scene.get? (s.copyId k) = some e) :
    e.alone =
      (copyElement d st inst component det.decoration (s.copyId k) k n.record).alone := by
  have hmade : (addTemplate d st inst component det.decoration tmpl s).scene.get? (s.copyId k) =
      some (copyElement d st inst component det.decoration (s.copyId k) (0 + k) n.record) :=
    get?_foldl_addNode (fun _ _ _ => rfl) tmpl.nodes 0 ⟨s, []⟩ hk
  rw [Nat.zero_add] at hmade
  have hlinked : (linkCopies det.component s.copyId tmpl
      (addTemplate d st inst component det.decoration tmpl s)).scene.alone? (s.copyId k) =
        (addTemplate d st inst component det.decoration tmpl s).scene.alone? (s.copyId k) :=
    alone?_foldl_splicingLink tmpl.edges _ _
  have halone : (rooted d st component tmpl s det inst).scene.alone? (s.copyId k) =
      some e.alone := by
    rw [alone?, he, Option.map_some]
  rw [rooted, attachRoots, alone?_foldl_splicingLink, hlinked, alone?, hmade] at halone
  exact (Option.some.inj halone).symm

namespace Copied

/-- Whoever is in a copy that was just made is as its node was made, and
leads the copy if the node is the first. -/
theorem exists_node (h : s.Copied det.id component tmpl (rooted d st component tmpl s det
    inst).scene) (hy : s.slots.size ≤ y.index)
    (he : (rooted d st component tmpl s det inst).scene.get? y = some e) :
    ∃ k n, y = s.copyId k ∧ tmpl.nodes[k]? = some n ∧ (e.source.isLead ↔ k = 0) ∧ e.alone =
      (copyElement d st inst component det.decoration (s.copyId k) k n.record).alone := by
  obtain ⟨k, hk, rfl⟩ := h.exists_copyId hy (contains_of_get? he)
  have hn := List.getElem?_eq_getElem hk
  have hmade := alone_of_rooted hn he
  have hsource : e.source = .template component k :=
    (congrArg Element.source hmade :).trans (copyElement_source _ k _)
  refine ⟨k, _, rfl, hn, ?_, hmade⟩
  rw [hsource, Source.isLead, beq_iff_eq]

/-- The usage of an instance in the copy are the nodes below it, and no
first node lies below another. -/
theorem follows (h : s.Copied det.id component tmpl (rooted d st component tmpl s det inst).scene)
    (hs : s.Forest) (hinst : s.contains det.id) (hsound : tmpl.Sound) (hnodes : tmpl.nodes ≠ [])
    (hy : s.slots.size ≤ y.index)
    (hc : c ∈ (rooted d st component tmpl s det inst).scene.children y) :
    s.slots.size ≤ c.index ∧ (rooted d st component tmpl s det inst).scene.Follows c := by
  have hp := h.forest.mirror.mp hc
  have hle : s.slots.size ≤ c.index := (h.filled (d := d)).le_index_of_mem_children hs hy hc
  refine ⟨hle, index_lt_of_contains (h.forest.contains_child hc), fun ec hec hlead => ?_⟩
  obtain ⟨k, n, rfl, -, hfirst, -⟩ := h.exists_node hle hec
  obtain rfl := hfirst.mp hlead
  -- the copy of the first node hangs under the instance
  obtain ⟨e, he⟩ := contains_iff.mp hinst
  have hroot := hsound.zero_mem_roots (List.length_pos_iff.mpr hnodes)
  have hm : s.copyId 0 ∈ (rooted d st component tmpl s det inst).scene.children det.id := by
    rw [children, h.self, he]
    exact List.mem_map_of_mem hroot
  have hhost := h.forest.mirror.mp hm
  obtain rfl : det.id = y := Option.some.inj (hhost.symm.trans hp)
  exact Nat.not_lt.mpr hy (index_lt_of_contains hinst)

/-- A copy that was just made is attired, and no part of it leads
another. -/
theorem attired (h : s.Copied det.id component tmpl (rooted d st component tmpl s det inst).scene)
    (hs : s.Forest) (hinst : s.contains det.id) (hsound : tmpl.Sound) (hnodes : tmpl.nodes ≠ [])
    (hrec : ∀ k n, tmpl.nodes[k]? = some n → d.recordOf? (.template component k) = some n.record) :
    Attired d st s.slots.size (some (s.copyId 0))
      (rooted d st component tmpl s det inst).scene := by
  have hpending {y : ElementId} {e : Element} (hy : s.slots.size ≤ y.index)
      (he : (rooted d st component tmpl s det inst).scene.get? y = some e) :
      ∀ i, e.instance? = some i → ¬ i.expanded := fun i hi => by
    obtain ⟨k, n, -, -, -, hmade⟩ := h.exists_node hy he
    have hinstance := congrArg Element.instance? hmade
    exact (copyElement_bare_instance _ k n.record (hinstance.symm.trans hi)).1
  refine ⟨fun y e hy he hlead => ?_, fun g eg f hg heg hf => ?_, fun y e hy he hlead => .inl ?_,
    fun p ep u hp hep _ hu => ?_⟩
  · obtain ⟨k, n, -, hk, hfirst, hmade⟩ := h.exists_node hy he
    have hnode : k ≠ 0 := fun hzero => hlead (hfirst.mpr hzero)
    exact (copyElement_asMade _ hnode (hrec k n hk)).congr (.of_alone hmade)
  · rw [(Element.kept_of_pending (hpending hg heg)).1] at hf
    cases hf
  · obtain ⟨k, n, rfl, -, hfirst, -⟩ := h.exists_node hy he
    rw [hfirst.mp hlead]
  · rw [(Element.kept_of_pending (hpending hp hep)).2, ← children_of_get? hep] at hu
    exact h.follows hs hinst hsound hnodes hp hu

/-- Its first node is as the instance hands down. -/
theorem leadsFor (h : s.Copied det.id component tmpl (rooted d st component tmpl s det inst).scene)
    (hnodes : tmpl.nodes ≠ [])
    (hrec : ∀ k n, tmpl.nodes[k]? = some n → d.recordOf? (.template component k) = some n.record)
    (hheader : inst.header = giver.header) (hdefinition : giver.definition? = some component)
    (hdecoration : det.decoration = giver.ownDecoration) :
    LeadsFor d st (rooted d st component tmpl s det inst).scene (s.copyId 0) giver := by
  refine ⟨?_, fun ef hef => ?_⟩
  · rw [h.size]
    exact Nat.lt_add_of_pos_right (List.length_pos_iff.mpr hnodes)
  · obtain ⟨n, hn⟩ : ∃ n, tmpl.nodes[0]? = some n :=
      ⟨_, List.getElem?_eq_getElem (List.length_pos_iff.mpr hnodes)⟩
    exact (copyElement_ledBy _ (hrec 0 n hn) hheader hdefinition hdecoration).congr (.refl giver)
      (.of_alone (alone_of_rooted hn hef))

end Copied

/-! ## Expanding inside the copy -/

/-- `expand` dresses every instance that is ready. -/
def Dressing (d : Document) (st : Settings) (expand : Scene → ElementId → Expansion) : Prop :=
  ∀ {s id e i}, s.Forest → s.get? id = some e → e.instance? = some i → Ready s id e i →
    Dresses d st s id e (expand s id)

/-- One turn keeps what every expansion of an instance keeps. -/
theorem Filled.expandNested_keeps {P : Scene → Prop} {roots todo : List ElementId} {w : Splicing}
    (h : Filled d s id roots (c :: todo) w.scene) (hc : s.slots.size ≤ c.index)
    (hstep : ∀ {t e i}, t.Forest → t.get? c = some e → e.instance? = some i → Ready t c e i →
      P t → P (nest t c).scene) (component : String) (hw : P w.scene) :
    P (Scene.expandNested nest component w c).scene := by
  rcases expandNested_cases nest component w c with ⟨ec, ic, _, hec, hic, -, hturn⟩ | ⟨-, hturn⟩
  · rw [hturn]
    exact hstep h.forest hec hic (h.ready hc hec hic) hw
  · rwa [hturn]

/-- The turns of some keep what every expansion of an instance keeps. -/
theorem Filled.turns_keep {P : Scene → Prop} {roots done rest : List ElementId} {w : Splicing}
    (h : Filled d s id roots (done ++ rest) w.scene) (hs : s.Forest) (hid : s.contains id)
    (hdone : ∀ c ∈ done, s.slots.size ≤ c.index) (hnest : Expands d nest)
    (hstep : ∀ {t c e i}, s.slots.size ≤ c.index → t.Forest → t.get? c = some e →
      e.instance? = some i → Ready t c e i → P t → P (nest t c).scene) (component : String)
    (hw : P w.scene) :
    P (done.foldl (Scene.expandNested nest component) w).scene := by
  induction done generalizing w with
  | nil => exact hw
  | cons c done ih =>
    rw [List.forall_mem_cons] at hdone
    rw [List.cons_append] at h
    exact ih (h.expandNested hs hid hdone.1 hnest component rfl) hdone.2
      (h.expandNested_keeps hdone.1 (hstep hdone.1) component hw)

/-- So do the turns of all. -/
theorem Filled.foldl_keeps {P : Scene → Prop} {roots todo : List ElementId} {w : Splicing}
    (h : Filled d s id roots todo w.scene) (hs : s.Forest) (hid : s.contains id)
    (htodo : ∀ c ∈ todo, s.slots.size ≤ c.index) (hnest : Expands d nest)
    (hstep : ∀ {t c e i}, s.slots.size ≤ c.index → t.Forest → t.get? c = some e →
      e.instance? = some i → Ready t c e i → P t → P (nest t c).scene) (component : String)
    (hw : P w.scene) :
    P (todo.foldl (Scene.expandNested nest component) w).scene := by
  have hall : Filled d s id roots (todo ++ []) w.scene := by rwa [List.append_nil]
  exact hall.turns_keep hs hid htodo hnest hstep component hw

/-- The record of a node is that of the template. -/
theorem recordOf?_template {c : Component} (hcomponent : d.component? component = some c)
    (hread : Template.read c.template = .ok tmpl) {k : Nat} {n : TemplateNode}
    (hk : tmpl.nodes[k]? = some n) : d.recordOf? (.template component k) = some n.record := by
  simp only [Document.recordOf?, hcomponent, hread, Option.bind_some, Except.toOption, hk,
    Option.map_some]

/-- A filled copy is attired, and its first node is as the instance hands
down. -/
theorem attired_fill (hs : s.Forest) (hinst : s.get? det.id = some inst)
    (hbare : inst.children = []) {c : Component} (hcomponent : d.component? component = some c)
    (hread : Template.read c.template = .ok tmpl) (hnodes : tmpl.nodes ≠ [])
    (hheader : inst.header = giver.header) (hdefinition : giver.definition? = some component)
    (hdecoration : det.decoration = giver.ownDecoration) (hnest : Expands d nest)
    (hdress : Dressing d st nest) :
    let t := (fill d st nest component tmpl s det inst).scene
    Attired d st s.slots.size (some (s.copyId 0)) t ∧ LeadsFor d st t (s.copyId 0) giver := by
  have hsound := Template.read_sound hread
  have hid := contains_of_get? hinst
  have hcopied := copied_rooted d st component hs hsound hinst hbare
  have hrec : ∀ k n, tmpl.nodes[k]? = some n →
      d.recordOf? (.template component k) = some n.record := fun k n =>
    recordOf?_template hcomponent hread
  refine (hcopied.filled (d := d)).foldl_keeps
    (P := fun t => Attired d st s.slots.size (some (s.copyId 0)) t ∧
      LeadsFor d st t (s.copyId 0) giver) hs hid
    (fun _ => le_index_of_mem_map_copyId) hnest
    (fun {t c ec ic} hc ht hec hic hready ⟨hattired, hleads⟩ => ?_)
    det.component ⟨hcopied.attired hs hid hsound hnodes hrec,
      hcopied.leadsFor hnodes hrec hheader hdefinition hdecoration⟩
  have hx := hnest ht hec hic hready
  have hd := hdress ht hec hic hready
  exact ⟨hattired.expanded hx hic hd hc, hleads.expanded hx hic hd (.refl giver)⟩

/-! ## Taking the instance apart and settling it -/

namespace Begun

variable {put : Scene → Detached → Expansion} {cause : ExpandFault} {roots : List ElementId}
  {e' e₁ : Element}

/-- An instance that is refused keeps on what it had, and nothing is
new. -/
theorem dresses_of_refusal (h : Begun s id e i bare inst)
    (hput : put bare (taken id e i) = { scene := bare, notices := [], outcome := .error cause }) :
    Dresses d st s id e (expandWith put s id) := by
  have hsize := h.size_of_refusal hput
  refine ⟨fun e' he' => ?_, .of_size (Nat.le_of_eq hsize), fun f hf => ?_⟩
  · cases he'.symm.trans (h.self_of_refusal hput)
    exact Decoration.same_decoration_applyTo e.ownDecoration e.look
  · rw [expandWith_of_error h.detach? hput] at hf
    cases hf

/-- An instance that gets a copy keeps its decoration. -/
theorem decoration_of_ok (h : Begun s id e i bare inst)
    (hout : (put bare (taken id e i)).outcome = .ok roots)
    (he₁ : (put bare (taken id e i)).scene.get? id = some e₁)
    (hlook : e₁.look = e.look.undecorated) (hi₁ : e₁.instance? = some i)
    (he' : (expandWith put s id).scene.get? id = some e') :
    e'.ownDecoration = e.ownDecoration := by
  rw [expandWith_of_ok h.detach? hout] at he'
  cases he'.symm.trans (get?_settleInstance he₁ hi₁ _ roots _)
  rw [Element.ownDecoration]
  dsimp only [Element.instance?, Role.instance?, taken]
  split
  next hnone => rw [hlook, Look.decoration_undecorated, hnone]
  next => rfl

/-- Without a node there is nothing to dress. -/
theorem dresses_of_nil (h : Begun s id e i bare inst) (hsound : tmpl.Sound)
    (hnodes : tmpl.nodes = []) :
    Dresses d st s id e (expandWith (splice d st nest component tmpl) s id) := by
  obtain ⟨hscene, hout⟩ : (splice d st nest component tmpl bare (taken id e i)).scene =
      e.usage.foldl remove bare ∧ (splice d st nest component tmpl bare (taken id e i)).outcome =
        .ok [] := splice_of_nil hsound hnodes h.self
  have hsize := h.size_of_nodeless d st nest component hsound hnodes
  refine ⟨fun e' he' => ?_, .of_size (Nat.le_of_eq hsize), fun f hf => ?_⟩
  · have hdropped := h.get?_drop
    rw [← hscene] at hdropped
    rw [h.decoration_of_ok hout hdropped h.look h.instance? he']
    exact .refl _
  · rw [expandWith_of_ok h.detach? hout, Expansion.roots, hout] at hf
    cases hf

end Begun

namespace Placed

variable {roots usage : List ElementId} {target : ElementId} {e' e₀ : Element}
  {lead : Option ElementId}

/-- When the usage is in its place and the instance settled, what is new is
as it was, but for the children of one element. -/
theorem get?_settled (h : Placed d s id e i roots target bare t t') (hy : s.slots.size ≤ y.index) :
    (t'.settleInstance id usage roots decoration).get? y = (t.get? y).map fun e₀ =>
      { e₀ with
        children :=
          if y = target then e₀.children ++ e.usage.filter s.contains else e₀.children } := by
  have hne : y ≠ id := by
    rintro rfl
    exact Nat.not_lt.mpr hy (index_lt_of_contains (contains_of_get? h.there))
  rw [settleInstance, get?_modify_of_ne hne, h.get?_fresh hy]

theorem exists_filled (h : Placed d s id e i roots target bare t t')
    (hy : s.slots.size ≤ y.index)
    (he' : (t'.settleInstance id usage roots decoration).get? y = some e') :
    ∃ e₀, t.get? y = some e₀ ∧ e₀.DressedAlike e' ∧ e'.oldRoots = e₀.oldRoots ∧
      e'.parent = e₀.parent ∧ (e'.isInstance → e'.usage = e₀.usage) := by
  rw [h.get?_settled hy] at he'
  obtain ⟨e₀, he₀, rfl⟩ := Option.map_eq_some_iff.mp he'
  refine ⟨e₀, he₀, .of_eq rfl rfl rfl rfl, rfl, rfl, fun hinst => ?_⟩
  -- in a filled copy every instance is expanded, so the children do not matter
  obtain ⟨i₀, hi₀⟩ := Option.isSome_iff_exists.mp hinst
  have hset := (h.filled.settled y e₀ i₀ (h.parted.size ▸ hy) he₀ hi₀).resolve_right fun hm =>
    List.not_mem_nil hm.2
  exact (Element.usage_of_expanded hi₀ hset.expanded).trans
    (Element.usage_of_expanded (show e₀.instance? = some i₀ from hi₀) hset.expanded).symm

/-- The first node of the copy leads it still. -/
theorem leadsFor {giver' : Element} (h : Placed d s id e i roots target bare t t')
    (hf : s.slots.size ≤ f.index) (hlead : LeadsFor d st t f giver)
    (halike : giver.DressedAlike giver') :
    LeadsFor d st (t'.settleInstance id usage roots decoration) f giver' := by
  refine ⟨?_, fun ef hef => ?_⟩
  · rw [settleInstance, size_modify, h.hung.size]
    exact hlead.1
  · obtain ⟨e₀, he₀, hsame, -⟩ := h.exists_filled hf hef
    exact (hlead.2 e₀ he₀).congr halike hsame

/-- So what is new stays attired. -/
theorem attired (h : Placed d s id e i roots target bare t t')
    (hattired : Attired d st s.slots.size lead t) :
    Attired d st s.slots.size lead (t'.settleInstance id usage roots decoration) := by
  refine ⟨fun y e' hy he' hlead => ?_, fun g eg f hg heg hf => ?_, fun y e' hy he' hlead => ?_,
    fun p ep u hp hep hinst hu => ?_⟩
  · obtain ⟨e₀, he₀, hsame, -⟩ := h.exists_filled hy he'
    exact (hattired.made y e₀ hy he₀ (hsame.source ▸ hlead)).congr hsame
  · obtain ⟨e₀, he₀, hsame, hold, -⟩ := h.exists_filled hg heg
    obtain ⟨hle, hled⟩ := hattired.led g e₀ f hg he₀ (hold ▸ hf)
    exact ⟨hle, h.leadsFor hle hled hsame⟩
  · obtain ⟨e₀, he₀, hsame, -, hparent, -⟩ := h.exists_filled hy he'
    refine (hattired.headed y e₀ hy he₀ (hsame.source ▸ hlead)).imp_right
      fun ⟨g, hg, hp, eg, heg, hroots⟩ => ⟨g, hg, ?_, ?_⟩
    · rw [parent?_of_get? he', hparent, ← parent?_of_get? he₀, hp]
    · exact ⟨_, (h.get?_settled hg).trans (congrArg (Option.map _) heg), hroots⟩
  · obtain ⟨e₀, he₀, hsame, -, -, husage⟩ := h.exists_filled hp hep
    obtain ⟨hle, hlt, hfollows⟩ := hattired.usage p e₀ u hp he₀ (hsame.isInstance ▸ hinst)
      (husage hinst ▸ hu)
    refine ⟨hle, ?_, fun eu heu => ?_⟩
    · rw [settleInstance, size_modify, h.hung.size]
      exact hlt
    · obtain ⟨e₁, he₁, hsame₁, -⟩ := h.exists_filled hle heu
      exact hsame₁.source ▸ hfollows e₁ he₁

end Placed

/-- The first of the roots is the first node. -/
theorem head?_roots (hsound : tmpl.Sound) (hnodes : tmpl.nodes ≠ []) :
    tmpl.roots.head? = some 0 := by
  have hlength := List.length_pos_iff.mpr hnodes
  have hroot := (Template.mem_roots.mp (hsound.zero_mem_roots hlength)).2
  obtain ⟨n, hn⟩ := Nat.exists_eq_succ_of_ne_zero (Nat.ne_of_gt hlength)
  rw [Template.roots, hn, List.range_succ_eq_map, List.filter_cons, hroot]
  rfl

/-- An instance that gets a copy hands its decoration to the first node. -/
theorem Begun.dresses_of_copy (h : Begun s id e i bare inst) {c : Component}
    (hdefinition : e.definition? = some component) (hcomponent : d.component? component = some c)
    (hread : Template.read c.template = .ok tmpl) (hnodes : tmpl.nodes ≠ [])
    (hnest : Expands d nest) (hdress : Dressing d st nest) :
    Dresses d st s id e (expandWith (splice d st nest component tmpl) s id) := by
  have hsound := Template.read_sound hread
  obtain ⟨hout, -, target, -, hplaced⟩ := placed_splice st h.before h.there h.ready h.parted hnest
    hsound hnodes component (show (taken id e i).id = id from rfl) rfl h.self
  have hbare : inst.children = [] := congrArg Element.children h.inst_eq
  have hheader : inst.header = e.header := (congrArg Element.header h.inst_eq :)
  obtain ⟨hattired, hlead⟩ := attired_fill h.parted.forest
    (show bare.get? (taken id e i).id = some inst from h.self) hbare hcomponent hread hnodes
    hheader hdefinition rfl hnest hdress
  rw [h.parted.size] at hattired
  have hle : s.slots.size ≤ (bare.copyId 0).index := by
    rw [h.copyId_eq]
    exact Nat.le_add_right _ _
  have hx := expandWith_of_ok h.detach? hout
  have hfirst : (tmpl.roots.map bare.copyId).head? = some (bare.copyId 0) := by
    rw [List.head?_map, head?_roots hsound hnodes]
    rfl
  refine ⟨fun e' he' => ?_, ?_, fun f hf => ?_⟩
  · obtain ⟨look, hself⟩ := hplaced.self
    have hlook := (hplaced.look h.self hself).trans h.look
    rw [h.decoration_of_ok hout hself hlook h.instance? he']
    exact .refl _
  · rw [hx, Expansion.roots, hout]
    dsimp only
    rw [hfirst]
    exact hplaced.attired hattired
  · rw [hx, Expansion.roots, hout] at hf
    cases hfirst.symm.trans hf
    rw [hx]
    exact ⟨hle, hplaced.leadsFor hle hlead (.refl e)⟩

/-! ## Every expansion -/

theorem component?_of_findComponent {enclosing : List ComponentId} {found : ComponentId × Component}
    (h : findComponent d enclosing det = .ok found) :
    det.definition = some found.1 ∧ d.component? found.1 = some found.2 := by
  rw [findComponent] at h
  split at h
  next => cases h
  next hfind =>
    split at h
    next => cases h
    next =>
      cases h
      obtain ⟨id, hid, hc⟩ := Option.bind_eq_some_iff.mp hfind
      obtain ⟨c, hc, heq⟩ := Option.map_eq_some_iff.mp hc
      cases heq
      exact ⟨hid, hc⟩

/-- The template of an instance is that of the component it asks for. -/
theorem Begun.template?_eq (h : Begun s id e i bare inst) {c : Component}
    (hasked : e.definition? = some component) (hcomponent : d.component? component = some c)
    (hread : Template.read c.template = .ok tmpl) : i.template? d = some tmpl := by
  rw [Element.definition?, h.instance?, Option.bind_some] at hasked
  rw [Instance.template?, hasked, Option.bind_some, hcomponent, Option.bind_some, hread]
  rfl

/-- An instance whose component and template are found gets a copy. -/
theorem Begun.expandWithin_eq_splice (h : Begun s id e i bare inst) (st : Settings) (levels : Nat)
    {enclosing : List ComponentId} {found : ComponentId × Component}
    (hfind : findComponent d enclosing (taken id e i) = .ok found)
    (hread : Template.read found.2.template = .ok tmpl) :
    expandWithin d st (levels + 1) enclosing s id = expandWith (splice d st
      (expandWithin d st levels (found.1 :: enclosing)) found.1 tmpl) s id := by
  rw [expandWithin]
  exact expandWith_congr h.detach? (by simp only [hfind, hread])

/-- A component is refused by its name, and outside of any other only if it
is not defined. -/
theorem of_findComponent_eq_error {enclosing : List ComponentId} {cause : ExpandFault}
    (h : findComponent d enclosing det = .error cause) :
    (∀ y, cause ≠ .notAnInstance y) ∧
      (enclosing = [] → det.definition.bind d.component? = none) := by
  rw [findComponent] at h
  split at h
  next hfind =>
    cases h
    refine ⟨fun y => ExpandFault.noConfusion, fun _ => ?_⟩
    cases hdef : det.definition with
    | none => rfl
    | some component =>
      rw [hdef, Option.bind_some, Option.map_eq_none_iff] at hfind
      exact hfind
  next =>
    split at h
    next hin =>
      cases h
      refine ⟨fun y => ExpandFault.noConfusion, fun hnil => ?_⟩
      rw [hnil] at hin
      exact absurd hin Bool.false_ne_true
    next => cases h

/-- An instance is refused with nothing put in, or it gets a copy in which
there is a level less. By itself it is refused only if its component has
no template that can be read. -/
theorem Begun.expandWithin_cases (h : Begun s id e i bare inst) (d : Document) (st : Settings)
    (levels : Nat) (enclosing : List ComponentId) :
    (∃ put cause, expandWithin d st levels enclosing s id = expandWith put s id ∧
      put bare (taken id e i) = { scene := bare, notices := [], outcome := .error cause } ∧
      (∀ y, cause ≠ .notAnInstance y) ∧
      (enclosing = [] → levels ≠ 0 → i.template? d = none)) ∨
    ∃ fewer component c tmpl, levels = fewer + 1 ∧ e.definition? = some component ∧
      d.component? component = some c ∧ Template.read c.template = .ok tmpl ∧
      expandWithin d st levels enclosing s id = expandWith (splice d st
        (expandWithin d st fewer (component :: enclosing)) component tmpl) s id := by
  cases levels with
  | zero =>
    refine .inl ⟨_, _, by rw [expandWithin], rfl, ?_, fun _ hzero => absurd rfl hzero⟩
    cases hfind : findComponent d enclosing (taken id e i) with
    | error cause => exact (of_findComponent_eq_error hfind).1
    | ok found => exact fun y => ExpandFault.noConfusion
  | succ levels =>
    cases hfind : findComponent d enclosing (taken id e i) with
    | error cause =>
      obtain ⟨hcause, hundefined⟩ := of_findComponent_eq_error hfind
      refine .inl ⟨_, cause, by rw [expandWithin], by simp only [hfind], hcause,
        fun hnil _ => ?_⟩
      rw [Instance.template?, show i.definition.bind d.component? = none from hundefined hnil,
        Option.bind_none]
    | ok found =>
      cases hread : Template.read found.2.template with
      | error fault =>
        refine .inl ⟨_, _, by rw [expandWithin], by simp only [hfind, hread]; rfl,
          fun y => ExpandFault.noConfusion, fun _ _ => ?_⟩
        rw [Instance.template?, show i.definition.bind d.component? = some found.2 from
          findComponent_eq_ok hfind, Option.bind_some, hread]
        rfl
      | ok tmpl =>
        obtain ⟨hdefinition, hcomponent⟩ := component?_of_findComponent hfind
        have hasked : e.definition? = some found.1 := by
          rw [Element.definition?, h.instance?, Option.bind_some]
          exact hdefinition
        exact .inr ⟨levels, found.1, found.2, tmpl, rfl, hasked, hcomponent, hread,
          h.expandWithin_eq_splice st levels hfind hread⟩

/-- What holds of an instance that is refused, and of one that gets a copy
if it holds of the instances inside, holds of every expansion. The
induction is on the levels that are left. -/
theorem expandWithin_induction {P : Scene → ElementId → Element → Expansion → Prop}
    (hrefuse : ∀ {s id e i bare inst put cause}, Begun s id e i bare inst →
      put bare (taken id e i) = { scene := bare, notices := [], outcome := .error cause } →
      P s id e (expandWith put s id))
    (hsplice : ∀ {s id e i bare inst nest component c tmpl}, Begun s id e i bare inst →
      e.definition? = some component → d.component? component = some c →
      Template.read c.template = .ok tmpl → Expands d nest →
      (∀ {s id e i}, s.Forest → s.get? id = some e → e.instance? = some i → Ready s id e i →
        P s id e (nest s id)) →
      P s id e (expandWith (splice d st nest component tmpl) s id))
    (levels : Nat) (enclosing : List ComponentId) (hs : s.Forest) (he : s.get? id = some e)
    (hi : e.instance? = some i) (hr : Ready s id e i) :
    P s id e (expandWithin d st levels enclosing s id) := by
  induction levels using Nat.strongRecOn generalizing enclosing s id e i with
  | _ levels ih =>
    obtain ⟨bare, inst, h⟩ := exists_begun hs he hi hr
    rcases h.expandWithin_cases d st levels enclosing with ⟨put, cause, hx, hput, -⟩ |
      ⟨fewer, component, c, tmpl, rfl, hasked, hcomponent, hread, hx⟩
    · rw [hx]
      exact hrefuse h hput
    · rw [hx]
      exact hsplice h hasked hcomponent hread
        (expands_expandWithin d st fewer (component :: enclosing))
        (ih fewer (Nat.lt_succ_self fewer) (component :: enclosing))

/-- Whatever the components are, and however many levels are left, an
expansion dresses the instance and its copy. -/
theorem dressing_expandWithin (d : Document) (st : Settings) (levels : Nat)
    (enclosing : List ComponentId) : Dressing d st (expandWithin d st levels enclosing) := by
  refine expandWithin_induction (P := Dresses d st) (fun h hput => h.dresses_of_refusal hput)
    (fun {_ _ _ _ _ _ nest component c tmpl} h hasked hcomponent hread hnest hdress => ?_)
    levels enclosing
  by_cases hnodes : tmpl.nodes = []
  · exact h.dresses_of_nil (Template.read_sound hread) hnodes
  · exact h.dresses_of_copy hasked hcomponent hread hnodes hnest hdress

/-- Expanding an instance of a session dresses it and its copy. -/
theorem dressing_expand (d : Document) (st : Settings) :
    Dressing d st fun s id => s.expand d st id :=
  dressing_expandWithin d st maxDepth []

end Scene

end SceneTree
