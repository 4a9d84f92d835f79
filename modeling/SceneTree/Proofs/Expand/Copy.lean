import SceneTree.Proofs.Expand.Contract
import SceneTree.Proofs.Session.Growth

/-!
# Copying a template

The copies of a template's nodes get the next ids in order. The edges of a
template run forward and claim no node twice, and the copies stand alone
when they are linked, so no link is refused: each copy ends up under the
copy of its parent, or under the instance if it is a root
(`Copied`). Nothing that was there before is written but the instance,
whose children the roots become.
-/

namespace SceneTree

variable {d : Document} {st : Settings}

/-- An instance that has just been made is not expanded and keeps no ids and
no decoration. -/
theorem Role.bare_of_ofRecord {r : Record} {i : Instance}
    (h : (Role.ofRecord d r).instance? = some i) :
    ¬ i.expanded ∧ i.usage = [] ∧ i.roots = [] ∧ i.decoration = .none := by
  unfold Role.ofRecord at h
  split at h
  next => cases h
  next =>
    cases h
    exact ⟨Bool.false_ne_true, rfl, rfl, rfl⟩

/-- What is known of the copy of a node, wherever it hangs. -/
structure Element.CopyOf (e : Element) (component : ComponentId) (node : Nat) : Prop where
  source : e.source = .template component node
  pending : ∀ i, e.instance? = some i → ¬ i.expanded

namespace Scene

variable {s t : Scene} {id x y z p c : ElementId} {e inst : Element} {component : ComponentId}
  {decoration : Decoration}

theorem copyId_inj {j k : Nat} : s.copyId j = s.copyId k ↔ j = k := by
  rw [copyId, copyId, ElementId.mk.injEq, Nat.add_left_cancel_iff]

/-- No copy takes the place of what was there. -/
theorem ne_copyId (hy : y.index < s.slots.size) (k : Nat) : y ≠ s.copyId k := by
  rintro rfl
  exact absurd hy (Nat.not_lt.mpr (Nat.le_add_right _ _))

/-! ## Making the elements -/

theorem size_addNode (s : Scene) (node : Nat) (r : Record) :
    (addNode d st inst component decoration s node r).slots.size = s.slots.size + 1 := by
  unfold addNode
  split
  next => rw [size_modify, size_modify, add, size_modify, size_push]
  next => rw [size_modify, add, size_modify, size_push]

theorem get?_addNode_of_ne (s : Scene) (node : Nat) (r : Record) (hy : y ≠ s.nextId) :
    (addNode d st inst component decoration s node r).get? y = s.get? y := by
  have hadd (h : Header) : (s.add d st (.template component node) h r).get? y = s.get? y := by
    rw [add, get?_modify_of_ne hy, get?_push_of_ne hy]
  unfold addNode
  split
  next => rw [get?_modify_of_ne hy, get?_modify_of_ne hy, hadd]
  next => rw [get?_modify_of_ne hy, hadd]

/-- The new element stands alone. -/
theorem get?_addNode_nextId (s : Scene) (node : Nat) (r : Record) :
    ∃ e, (addNode d st inst component decoration s node r).get? s.nextId = some e ∧
      e.CopyOf component node ∧ e.parent = none ∧ e.children = [] := by
  have hadd (h : Header) : (s.add d st (.template component node) h r).get? s.nextId =
      some ((Element.fresh s.nextId (.template component node) h).become d st r) :=
    get?_modify_self (get?_push_nextId s _ _)
  unfold addNode
  split
  next =>
    refine ⟨_, get?_modify_self (get?_modify_self (hadd _)), ⟨rfl, fun i hi => ?_⟩, rfl, rfl⟩
    exact (Role.bare_of_ofRecord hi).1
  next =>
    refine ⟨_, get?_modify_self (hadd _), ⟨rfl, fun i hi => ?_⟩, rfl, rfl⟩
    exact (Role.bare_of_ofRecord hi).1

/-- `t` is `s` with copies added, which stand alone. -/
structure Appended (s t : Scene) (component : ComponentId) (first count : Nat) : Prop where
  size : t.slots.size = s.slots.size + count
  old : ∀ y, y.index < s.slots.size → t.get? y = s.get? y
  made : ∀ k < count, ∃ e, t.get? (s.copyId k) = some e ∧ e.CopyOf component (first + k) ∧
    e.parent = none ∧ e.children = []

theorem appended_foldl {f : Splicing → TemplateNode × Nat → Splicing}
    (hf : ∀ w n k, (f w (n, k)).scene = addNode d st inst component decoration w.scene k n.record)
    (nodes : List TemplateNode) (first : Nat) (w : Splicing) :
    w.scene.Appended ((nodes.zipIdx first).foldl f w).scene component first nodes.length := by
  induction nodes generalizing first w with
  | nil => exact ⟨rfl, fun _ _ => rfl, fun k hk => absurd hk (Nat.not_lt_zero k)⟩
  | cons n nodes ih =>
    have hnext := ih (first + 1) (f w (n, first))
    rw [List.zipIdx_cons, List.foldl_cons]
    have hsize : (f w (n, first)).scene.slots.size = w.scene.slots.size + 1 := by
      rw [hf, size_addNode]
    refine ⟨?_, fun y hy => ?_, fun k hk => ?_⟩
    · rw [hnext.size, hsize, List.length_cons]
      omega
    · rw [hnext.old y (by omega), hf, get?_addNode_of_ne]
      rintro rfl
      exact absurd hy (Nat.lt_irrefl _)
    · cases k with
      | zero =>
        rw [hnext.old _ (by rw [hsize]; exact Nat.lt_succ_self _), hf]
        exact get?_addNode_nextId w.scene first n.record
      | succ k =>
        have hmade := hnext.made k (by rw [List.length_cons] at hk; omega)
        have hid : (f w (n, first)).scene.copyId k = w.scene.copyId (k + 1) := by
          simp only [copyId, nextId, hsize, ElementId.mk.injEq]
          omega
        rw [hid] at hmade
        rwa [show first + (k + 1) = first + 1 + k by omega]

theorem appended_addTemplate (s : Scene) (t : Template) :
    s.Appended (addTemplate d st inst component decoration t s).scene component 0
      t.nodes.length :=
  appended_foldl (fun _ _ _ => rfl) t.nodes 0 ⟨s, []⟩

namespace Appended

variable {first count : Nat}

theorem parent?_copyId (h : s.Appended t component first count) {k : Nat} (hk : k < count) :
    t.parent? (s.copyId k) = none := by
  obtain ⟨ek, hek, -, hparent, -⟩ := h.made k hk
  rw [parent?_of_get? hek, hparent]

theorem contains_copyId (h : s.Appended t component first count) {k : Nat} (hk : k < count) :
    t.contains (s.copyId k) := by
  obtain ⟨ek, hek, -⟩ := h.made k hk
  exact contains_of_get? hek

end Appended

/-! ## Linking the copies -/

theorem Splicing.link_of_ok {w : Splicing} {refusal : LinkFault → Notice}
    (h : w.scene.link p c = .ok s) : w.link refusal p c = { w with scene := s } := by
  simp only [link, h]

/-- The scene after the edges `linked` of a template were taken over by
the copies. `made` is the scene before the first. -/
structure Linked (s made t : Scene) (linked : List TemplateEdge) (count : Nat) : Prop where
  forest : t.Forest
  size : t.slots.size = made.slots.size
  alone? : ∀ x, t.alone? x = made.alone? x
  old : ∀ y, y.index < s.slots.size → t.get? y = made.get? y
  parent? : ∀ k < count,
    t.parent? (s.copyId k) = (Template.parentIn? linked k).map s.copyId

/-- An edge more is found only by its own child. -/
theorem parentIn?_append {linked : List TemplateEdge} {e : TemplateEdge} (k : Nat)
    (h : e.child ∉ linked.map (·.child)) : Template.parentIn? (linked ++ [e]) k =
      if k = e.child then some e.parent else Template.parentIn? linked k := by
  rw [Template.parentIn?_append]
  split
  next hk => rw [if_pos hk.symm, ← hk, Template.parentIn?_eq_none.mpr h, Option.none_or]
  next hk => rw [if_neg (Ne.symm hk), Option.or_none]

namespace Linked

variable {made : Scene} {linked : List TemplateEdge} {count : Nat}

/-- Above the copy of a node are copies of earlier nodes only. -/
theorem atOrAbove_copyId (h : s.Linked made t linked count)
    (hforward : ∀ e ∈ linked, e.parent < e.child) {k : Nat} (hk : k < count)
    (ha : t.AtOrAbove y (s.copyId k)) : ∃ j ≤ k, y = s.copyId j := by
  induction k using Nat.strongRecOn generalizing y with
  | _ k ih =>
    rcases Relation.ReflTransGen.cases_head ha with rfl | ⟨p, hp, hup⟩
    · exact ⟨k, Nat.le_refl k, rfl⟩
    · rw [Rises, h.parent? k hk] at hp
      obtain ⟨j, hj, rfl⟩ := Option.map_eq_some_iff.mp hp
      have hlt := hforward _ (Template.mem_of_parentIn?_eq_some hj)
      obtain ⟨i, hi, rfl⟩ := ih j hlt (Nat.lt_trans hlt hk) hup
      exact ⟨i, Nat.le_trans hi (Nat.le_of_lt hlt), rfl⟩

/-- The next edge is taken over as well. -/
theorem link (h : s.Linked made t linked count) {tmpl : Template} (hsound : tmpl.Sound)
    (hmade : s.Appended made component 0 tmpl.nodes.length) (hcount : count = tmpl.nodes.length)
    {e : TemplateEdge} {rest : List TemplateEdge} (hedges : tmpl.edges = linked ++ e :: rest) :
    ∃ t', t.link (s.copyId e.parent) (s.copyId e.child) = .ok t' ∧
      s.Linked made t' (linked ++ [e]) count := by
  subst hcount
  have he : e ∈ tmpl.edges := hedges ▸ List.mem_append_right linked List.mem_cons_self
  have hlt := hsound.forward e he
  have hchild := hsound.inside e he
  have hparent := Nat.lt_trans hlt hchild
  have hnodup := hsound.claimed_once
  rw [hedges, List.map_append, List.nodup_append] at hnodup
  have hnew : e.child ∉ linked.map (·.child) := fun hm =>
    hnodup.2.2 _ hm _ (List.mem_map.mpr ⟨e, List.mem_cons_self, rfl⟩) rfl
  have hforward : ∀ e ∈ linked, e.parent < e.child := fun e he =>
    hsound.forward e (hedges ▸ List.mem_append_left _ he)
  have hlive {k : Nat} (hk : k < tmpl.nodes.length) : t.contains (s.copyId k) := by
    rw [contains_of_alone? (h.alone? _)]
    exact hmade.contains_copyId hk
  have hup : ¬ t.isAtOrAbove (s.copyId e.child) (s.copyId e.parent) := fun ha => by
    have ha := h.forest.isAtOrAbove_iff.mp ha
    obtain ⟨j, hj, heq⟩ := h.atOrAbove_copyId hforward hparent ha
    have := copyId_inj.mp heq
    omega
  have hfree : t.parent? (s.copyId e.child) = none := by
    rw [h.parent? _ hchild, Template.parentIn?_eq_none.mpr hnew]
    rfl
  have hne : s.copyId e.parent ≠ s.copyId e.child := fun heq =>
    Nat.ne_of_lt hlt (copyId_inj.mp heq)
  obtain ⟨t', ht'⟩ := link_ok hne (hlive hchild) (hlive hparent) hfree hup
  refine ⟨t', ht', h.forest.link ht', (size_link ht').trans h.size,
    fun x => (alone?_link ht' x).trans (h.alone? x), fun y hy => ?_, fun k hk => ?_⟩
  · rw [get?_link_of_ne ht' (ne_copyId hy _) (ne_copyId hy _), h.old y hy]
  · rw [parent?_link ht', parentIn?_append k hnew, h.parent? k hk]
    simp only [copyId_inj]
    split <;> rfl

end Linked

/-- The copies are linked as the template has them, and nothing is noted but
the references that the template left out. -/
theorem linked_linkCopies {tmpl : Template} (hsound : tmpl.Sound) {w : Splicing}
    (hforest : w.scene.Forest) (hmade : s.Appended w.scene component 0 tmpl.nodes.length)
    (name : String) :
    s.Linked w.scene (linkCopies name s.copyId tmpl w).scene tmpl.edges tmpl.nodes.length ∧
      (linkCopies name s.copyId tmpl w).notices = w.notices ++ tmpl.unresolved.map
        fun r => .templateRefSkipped name r.parent r.offset r.problem := by
  suffices hfold : ∀ (rest linked : List TemplateEdge) (w' : Splicing),
      tmpl.edges = linked ++ rest → s.Linked w.scene w'.scene linked tmpl.nodes.length →
        let all := rest.foldl (fun w e => w.link (.templateLinkRejected name)
          (s.copyId e.parent) (s.copyId e.child)) w'
        s.Linked w.scene all.scene tmpl.edges tmpl.nodes.length ∧ all.notices = w'.notices by
    obtain ⟨hlinked, hnotices⟩ := hfold tmpl.edges [] w rfl
      ⟨hforest, rfl, fun _ => rfl, fun _ _ => rfl, fun k hk => hmade.parent?_copyId hk⟩
    exact ⟨hlinked, congrArg (· ++ _) hnotices⟩
  intro rest
  induction rest with
  | nil =>
    intro linked w' hedges h
    rw [hedges, List.append_nil]
    exact ⟨h, rfl⟩
  | cons e rest ih =>
    intro linked w' hedges h
    obtain ⟨t', ht', h'⟩ := h.link hsound hmade rfl hedges
    rw [List.foldl_cons, Splicing.link_of_ok ht']
    refine ih (linked ++ [e]) { w' with scene := t' } ?_ h'
    rw [hedges, List.append_assoc, List.singleton_append]

/-! ## Hanging the roots -/

theorem Splicing.link_of_missing {w : Splicing} {refusal : LinkFault → Notice} (hne : p ≠ c)
    (h : ¬ w.scene.contains c) : w.link refusal p c = w.note [refusal (.missing c)] := by
  rw [link, Scene.link, if_neg hne, Option.not_isSome_iff_eq_none.mp h]

/-- Roots that do not lie around `p` are hung under it one by one, as far
as they are there. Those that are missing are noted, and no others. -/
theorem Forest.hung_foldl_link {w : Splicing} (h : w.scene.Forest) {l : List ElementId}
    (refusal : ElementId → LinkFault → Notice) (hp : w.scene.contains p) (hl : l.Nodup)
    (hfree : ∀ c ∈ l, w.scene.contains c →
      w.scene.parent? c = none ∧ ¬ w.scene.AtOrAbove c p) :
    let all := l.foldl (fun w c => w.link (refusal c) p c) w
    all.scene.Forest ∧ w.scene.Hung all.scene p (l.filter w.scene.contains) ∧
      all.notices =
        w.notices ++ (l.filter (!w.scene.contains ·)).map fun c => refusal c (.missing c) := by
  induction l generalizing w with
  | nil => exact ⟨h, .refl w.scene p, (List.append_nil _).symm⟩
  | cons c l ih =>
    obtain ⟨hc, hl⟩ := List.nodup_cons.mp hl
    rw [List.forall_mem_cons] at hfree
    rw [List.foldl_cons]
    by_cases hlive : w.scene.contains c
    · obtain ⟨hnone, hup⟩ := hfree.1 hlive
      have hne : p ≠ c := fun hpc => hup (hpc ▸ .refl)
      obtain ⟨s', hs'⟩ := link_ok hne hlive hp hnone fun ha => hup (h.isAtOrAbove_iff.mp ha)
      have hcontains : s'.contains = w.scene.contains := funext (contains_link hs')
      have hdead : (c :: l).filter (!w.scene.contains ·) = l.filter (!w.scene.contains ·) :=
        List.filter_cons_of_neg (by rw [hlive]; exact Bool.false_ne_true)
      have hrest : ∀ d ∈ l, s'.contains d → s'.parent? d = none ∧ ¬ s'.AtOrAbove d p := by
        intro d hd hdlive
        obtain ⟨hdnone, hdup⟩ := hfree.2 d hd (hcontains ▸ hdlive)
        have hdc : d ≠ c := fun hdc => hc (hdc ▸ hd)
        rw [parent?_link hs', if_neg hdc, atOrAbove_link hs' hup]
        exact ⟨hdnone, hdup⟩
      rw [Splicing.link_of_ok hs', hdead]
      obtain ⟨hforest, hhung, hnotices⟩ :=
        ih (w := { w with scene := s' }) (h.link hs') (hcontains ▸ hp) hl hrest
      refine ⟨hforest, ?_, hcontains ▸ hnotices⟩
      have hhung := (Hung.link hs').trans hhung
      rwa [hcontains, List.singleton_append, ← List.filter_cons_of_pos hlive] at hhung
    · have hne : p ≠ c := fun hpc => hlive (hpc ▸ hp)
      have hdead : (c :: l).filter (!w.scene.contains ·) = c :: l.filter (!w.scene.contains ·) :=
        List.filter_cons_of_pos (by rw [Bool.eq_false_iff.mpr hlive]; rfl)
      rw [List.filter_cons_of_neg hlive, Splicing.link_of_missing hne hlive, hdead, List.map_cons,
        List.append_cons]
      exact ih (w := w.note [refusal c (.missing c)]) h hp hl hfree.2

/-- `t` is `s` with the copy of a template under `id`, a bare instance. -/
structure Copied (s : Scene) (id : ElementId) (component : ComponentId) (tmpl : Template)
    (t : Scene) : Prop where
  forest : t.Forest
  size : t.slots.size = s.slots.size + tmpl.nodes.length
  same : ∀ y, y.index < s.slots.size → y ≠ id → t.get? y = s.get? y
  self : t.get? id = (s.get? id).map fun e => { e with children := tmpl.roots.map s.copyId }
  made : ∀ k < tmpl.nodes.length, ∃ e, t.get? (s.copyId k) = some e ∧ e.CopyOf component k
  below : ∀ k < tmpl.nodes.length, t.Above id (s.copyId k)

namespace Linked

variable {made linked : Scene} {tmpl : Template}

/-- What was there before has been left alone. -/
theorem get?_old (hlinked : s.Linked made linked tmpl.edges tmpl.nodes.length)
    (hmade : s.Appended made component 0 tmpl.nodes.length) (hy : y.index < s.slots.size) :
    linked.get? y = s.get? y :=
  (hlinked.old y hy).trans (hmade.old y hy)

/-- The copies of the roots are there, have no parent yet, and are no part
of what was there before. -/
theorem root_free (hlinked : s.Linked made linked tmpl.edges tmpl.nodes.length)
    (hmade : s.Appended made component 0 tmpl.nodes.length) (h : s.Forest) (hid : s.contains id)
    (hc : c ∈ tmpl.roots.map s.copyId) :
    linked.contains c ∧ linked.parent? c = none ∧ ¬ linked.AtOrAbove c id := by
  obtain ⟨k, hk, rfl⟩ := List.mem_map.mp hc
  obtain ⟨hk, hroot⟩ := Template.mem_roots.mp hk
  refine ⟨?_, by rw [hlinked.parent? k hk, hroot, Option.map_none], fun ha => ?_⟩
  · rw [contains_of_alone? (hlinked.alone? _)]
    exact hmade.contains_copyId hk
  · have hsame (z : ElementId) (hz : z.index < s.slots.size) : linked.parent? z = s.parent? z := by
      rw [Scene.parent?, hlinked.get?_old hmade hz, ← Scene.parent?]
    have ha := (h.atOrAbove_of_old hsame hid).mp ha
    exact ne_copyId (index_lt_of_contains (h.contains_of_atOrAbove ha hid)) k rfl

/-- Hanging the roots finishes the copy. -/
theorem copied (hlinked : s.Linked made linked tmpl.edges tmpl.nodes.length)
    (hmade : s.Appended made component 0 tmpl.nodes.length) (hsound : tmpl.Sound)
    (he : s.get? id = some e) (hbare : e.children = []) (ht : t.Forest)
    (hhung : linked.Hung t id (tmpl.roots.map s.copyId)) :
    s.Copied id component tmpl t := by
  have hidlt := index_lt_of_contains (contains_of_get? he)
  have helinked : linked.get? id = some e := (hlinked.get?_old hmade hidlt).trans he
  have hout {y : ElementId} (hy : y.index < s.slots.size) : y ∉ tmpl.roots.map s.copyId :=
    fun hm => by
      obtain ⟨k, -, hk⟩ := List.mem_map.mp hm
      exact ne_copyId hy k hk.symm
  have hroot {k : Nat} : s.copyId k ∈ tmpl.roots.map s.copyId ↔ k ∈ tmpl.roots :=
    List.mem_map_of_injective fun _ _ => copyId_inj.mp
  refine ⟨ht, ?_, fun y hy hne => ?_, ?_, fun k hk => ?_, fun k hk => ?_⟩
  · exact hhung.size.trans (hlinked.size.trans hmade.size)
  · rw [← hlinked.get?_old hmade hy]
    refine get?_eq_of_alone? (hhung.alone? y) ?_ ?_
    · rw [hhung.parent?, if_neg (hout hy)]
    · rw [hhung.children, if_neg hne]
  · rw [get?_of_alone? (hhung.alone? id) helinked, hhung.parent?, if_neg (hout hidlt),
      hhung.children, if_pos rfl, parent?_of_get? helinked, children_of_get? helinked, hbare,
      List.nil_append, he, Option.map_some]
  · obtain ⟨ek, hek, hcopy, -⟩ := hmade.made k hk
    have halone := (hhung.alone? (s.copyId k)).trans (hlinked.alone? (s.copyId k))
    rw [Nat.zero_add] at hcopy
    exact ⟨_, get?_of_alone? halone hek, hcopy.source, hcopy.pending⟩
  · -- the way up from a copy leads from node to node and ends at a root
    induction k using Nat.strongRecOn with
    | _ k ih =>
      cases hp : Template.parentIn? tmpl.edges k with
      | none =>
        refine .single ((hhung.parent? _).trans (if_pos ?_))
        exact hroot.mpr (Template.mem_roots.mpr ⟨hk, hp⟩)
      | some p =>
        have hm : s.copyId k ∉ tmpl.roots.map s.copyId := fun hm => by
          have hnone := (Template.mem_roots.mp (hroot.mp hm)).2
          rw [hp] at hnone
          cases hnone
        have hlt := hsound.forward _ (Template.mem_of_parentIn?_eq_some hp)
        refine .head ?_ (ih p hlt (Nat.lt_trans hlt hk))
        rw [Rises, hhung.parent?, if_neg hm, hlinked.parent? k hk, hp, Option.map_some]

end Linked

/-- Making, linking and hanging a copy under an instance without children.
No link is refused on the way. -/
theorem copied_attachRoots (d : Document) (st : Settings) (inst : Element)
    (component : ComponentId) (decoration : Decoration) (h : s.Forest) {tmpl : Template}
    (hsound : tmpl.Sound) {det : Detached} (he : s.get? det.id = some e) (hbare : e.children = []) :
    let made := addTemplate d st inst component decoration tmpl s
    let rooted := attachRoots det (tmpl.roots.map s.copyId)
      (linkCopies det.component s.copyId tmpl made)
    s.Copied det.id component tmpl rooted.scene ∧ rooted.notices = made.notices ++
      tmpl.unresolved.map fun r =>
        .templateRefSkipped det.component r.parent r.offset r.problem := by
  intro made rooted
  have hmade : s.Appended made.scene component 0 tmpl.nodes.length := appended_addTemplate s tmpl
  have hforest := (grows_addTemplate d st inst component decoration tmpl s).forest h
  obtain ⟨hlinked, hskipped⟩ := linked_linkCopies hsound hforest hmade det.component
  have hid := contains_of_get? he
  have hlive : (linkCopies det.component s.copyId tmpl made).scene.contains det.id := by
    rw [contains, hlinked.get?_old hmade (index_lt_of_contains hid), ← contains]
    exact hid
  obtain ⟨hforest, hhung, hnotices⟩ := hlinked.forest.hung_foldl_link
    (fun _ => .templateRootRejected det.component) hlive
    (tmpl.roots_nodup.map fun _ _ => copyId_inj.mp)
    fun c hc _ => (hlinked.root_free hmade h hid hc).2
  have hthere (c : ElementId) (hc : c ∈ tmpl.roots.map s.copyId) :=
    (hlinked.root_free hmade h hid hc).1
  rw [List.filter_eq_self.mpr hthere] at hhung
  rw [List.filter_eq_nil_iff.mpr fun c hc => by simp only [hthere c hc, Bool.not_true,
    Bool.false_eq_true, not_false_eq_true], List.map_nil, List.append_nil] at hnotices
  exact ⟨hlinked.copied hmade hsound he hbare hforest hhung, hnotices.trans hskipped⟩

end Scene

end SceneTree
