import SceneTree.Proofs.Document.Template
import SceneTree.Proofs.Session.Linked

/-!
# One block, one tree

The records of a block are linked in two ways: as the elements of a
document (`Scene.connect`) and as the nodes of a template
(`Template.read`). A scene tests a link for other faults than a template
tests an edge, and in another order, and it goes up through elements where
the template goes up through a list of edges. Still both find one tree
(`Document.tree_of_section`).

Both take the same references in the same order (`Document.Holds.refs_eq`).
What a scene and a template have in common after any number of them is
`Linking.HasTree`. A reference keeps that (`Linking.HasTree.take`): where
the two ways up are one (`Linking.HasTree.lineageWithin_eq`), a link is
refused exactly when an edge is.
-/

namespace SceneTree

/-- Who made a reference, and where it points. -/
def SkippedRef.place (r : SkippedRef) : Nat × Nat := (r.parent.index, r.offset)

/-- Who made a reference, and where it points. -/
def UnresolvedRef.place (r : UnresolvedRef) : Nat × Nat := (r.parent, r.offset)

/-- There is an element for each node, the elements hang together as the
nodes do, and the references that made no edge are the same. -/
structure Linking.HasTree (l : Linking) (t : Template) : Prop where
  size_eq : l.scene.slots.size = t.nodes.length
  contains_iff : ∀ i, l.scene.contains i ↔ i.index < t.nodes.length
  parent?_iff : ∀ i j, l.scene.parent? i = some j ↔ ⟨j.index, i.index⟩ ∈ t.edges
  children_eq : ∀ j, l.scene.children j =
    (t.edges.filter (·.parent == j.index)).map fun e => ⟨e.child⟩
  skipped_eq : l.skipped.map (·.place) = t.unresolved.map (·.place)

/-! ## Where a reference lands -/

/-- In a list without repetition, a place is told by what stands there. -/
theorem idxOf?_eq_some {l : List Nat} (h : l.Nodup) {a i : Nat} :
    l.idxOf? a = some i ↔ l[i]? = some a := by
  rw [List.idxOf?_eq_some_iff]
  constructor
  · rintro ⟨hi, rfl, -⟩
    exact List.getElem?_eq_getElem hi
  · intro hget
    obtain ⟨hi, rfl⟩ := List.getElem?_eq_some_iff.mp hget
    refine ⟨hi, rfl, fun j hj heq => ?_⟩
    exact Nat.ne_of_lt hj ((h.getElem_inj_iff).mp heq)

namespace Document

variable {d D : Document} {st : Settings} {nodes : List TemplateNode} {bytes : List UInt8}

/-- The records of the document are those of the nodes, each at its
offset, and no two begin at one place. -/
structure Holds (d : Document) (nodes : List TemplateNode) : Prop where
  records : d.records = nodes.map (·.record)
  offsets : d.offsets = nodes.map (·.offset)
  increasing : (nodes.map (·.offset)).Pairwise (· < ·)

theorem holds_of_withSection (h : d.withSection bytes = .ok D) :
    ∃ nodes, Template.read bytes = .ok (.ofNodes nodes) ∧ D.Holds nodes ∧
      (bytes ≠ [] → nodes ≠ []) := by
  rw [withSection] at h
  cases hread : Record.readAll bytes with
  | error cause =>
    rw [hread] at h
    cases h
  | ok placed =>
    rw [hread] at h
    cases h
    refine ⟨placed.map fun p => { offset := p.1, record := p.2 }, ?_, ⟨?_, ?_, ?_⟩, ?_⟩
    · rw [Template.read, hread]
      rfl
    · simp [Function.comp_def]
    · simp [Function.comp_def]
    · rw [List.map_map]
      exact Record.readAll_increasing hread
    · intro hbytes hnodes
      exact Record.readAll_ne_nil hread hbytes (List.map_eq_nil_iff.mp hnodes)

namespace Holds

theorem length_eq (h : D.Holds nodes) : D.records.length = nodes.length := by
  rw [h.records, List.length_map]

theorem offsets_length (h : D.Holds nodes) : D.offsets.length = D.records.length := by
  rw [h.offsets, List.length_map, h.length_eq]

/-- The references of the document are those of the nodes. -/
theorem refs_eq (h : D.Holds nodes) :
    D.refs = (Template.refsOf nodes).map fun ref => (⟨ref.1⟩, ref.2) := by
  rw [refs, Template.refsOf, h.records, h.offsets, List.zip_map', List.zipIdx_map,
    List.flatMap_map, List.map_flatMap]
  refine List.flatMap_congr fun n _ => ?_
  rw [List.map_map]
  rfl

/-- A reference lands on an element exactly when it lands on the node. -/
theorem recordAt?_eq (h : D.Holds nodes) (offset : Nat) :
    D.recordAt? offset = (Template.nodeAt? nodes offset).map ElementId.mk := by
  have hnodup : D.offsets.Nodup := h.offsets ▸ h.increasing.imp Nat.ne_of_lt
  have hnode : Template.nodeAt? nodes offset = D.offsets.idxOf? offset := by
    rw [h.offsets, List.idxOf?, List.findIdx?_map]
    rfl
  rw [hnode, recordAt?]
  apply Option.ext
  intro c
  simp only [Option.map_eq_some_iff, idxOf?_eq_some hnodup,
    idxOf?_eq_some (List.nodup_reverse.mpr hnodup)]
  constructor
  · rintro ⟨i, hi, rfl⟩
    have hlt := List.length_reverse ▸ (List.getElem?_eq_some_iff.mp hi).1
    exact ⟨_, List.getElem?_reverse hlt ▸ hi, rfl⟩
  · rintro ⟨i, hi, rfl⟩
    have hlt := (List.getElem?_eq_some_iff.mp hi).1
    refine ⟨D.offsets.length - 1 - i, ?_, congrArg ElementId.mk (by omega)⟩
    rw [List.getElem?_reverse (by omega), ← hi]
    congr 1
    omega

end Holds

end Document

/-! ## One reference -/

namespace Linking.HasTree

variable {l : Linking} {t : Template} {D : Document} {ref : Nat × Nat}

theorem parent?_eq (h : l.HasTree t) (hsound : t.Sound) (i : ElementId) :
    l.scene.parent? i = (Template.parentIn? t.edges i.index).map ElementId.mk := by
  apply Option.ext
  intro j
  rw [h.parent?_iff, Option.map_eq_some_iff]
  simp only [Template.parentIn?_eq_some hsound.claimed_once]
  constructor
  · intro hm
    exact ⟨j.index, hm, rfl⟩
  · rintro ⟨p, hm, rfl⟩
    exact hm

/-- The way up through the elements is the way up through the edges. -/
theorem lineageWithin_eq (h : l.HasTree t) (hsound : t.Sound) (steps node : Nat) :
    l.scene.lineageWithin steps ⟨node⟩ =
      (Template.lineageIn t.edges steps node).map ElementId.mk := by
  induction steps generalizing node with
  | zero => rfl
  | succ steps ih =>
    rw [Scene.lineageWithin, h.parent?_eq hsound, Template.lineageIn, List.map_cons]
    cases Template.parentIn? t.edges node with
    | none => rfl
    | some p => exact congrArg _ (ih p)

theorem isAtOrAbove_eq (h : l.HasTree t) (hsound : t.Sound) (upper node : Nat) :
    l.scene.isAtOrAbove ⟨upper⟩ ⟨node⟩ =
      (Template.lineageIn t.edges t.nodes.length node).contains upper := by
  rw [Scene.isAtOrAbove, Scene.lineage, h.size_eq, h.lineageWithin_eq hsound, Bool.eq_iff_iff,
    List.contains_iff_mem, List.contains_iff_mem, List.mem_map]
  constructor
  · rintro ⟨p, hm, heq⟩
    exact ElementId.mk.inj heq ▸ hm
  · intro hm
    exact ⟨upper, hm, rfl⟩

/-- One reference more, passed over by both. -/
theorem skip (h : l.HasTree t) (ref : Nat × Nat) (reason : SkipReason) (problem : RefFault) :
    HasTree { l with skipped := l.skipped ++ [{ parent := ⟨ref.1⟩, offset := ref.2, reason }] }
      { t with unresolved := t.unresolved ++ [{ parent := ref.1, offset := ref.2, problem }] } where
  size_eq := h.size_eq
  contains_iff := h.contains_iff
  parent?_iff := h.parent?_iff
  children_eq := h.children_eq
  skipped_eq := by
    rw [List.map_append, List.map_append, h.skipped_eq]
    rfl

/-- One edge more on both sides. -/
theorem edge (h : l.HasTree t) {p c : Nat} {s : Scene} (hlink : l.scene.link ⟨p⟩ ⟨c⟩ = .ok s) :
    HasTree { l with scene := s } { t with edges := t.edges ++ [{ parent := p, child := c }] } where
  size_eq := (Scene.size_link hlink).trans h.size_eq
  contains_iff i := Scene.contains_link hlink i ▸ h.contains_iff i
  parent?_iff i j := by
    have hfree := (Scene.link_eq_ok hlink).2.2.2.1
    rw [Scene.parent?_link hlink, List.mem_append, List.mem_singleton, TemplateEdge.mk.injEq]
    split
    next hi =>
      -- the child had no edge before
      subst hi
      have hnone := mt (h.parent?_iff ⟨c⟩ j).mpr (by rw [hfree]; exact (Option.some_ne_none j).symm)
      rw [Option.some_inj, or_iff_right hnone, and_iff_left rfl, eq_comm]
      exact ⟨congrArg ElementId.index, congrArg ElementId.mk⟩
    next hi =>
      have hne : i.index ≠ c := fun heq => hi (congrArg ElementId.mk heq)
      rw [h.parent?_iff, or_iff_left fun heq => hne heq.2]
  children_eq j := by
    rw [Scene.children_link hlink, List.filter_append, List.map_append, h.children_eq]
    by_cases hj : j = ⟨p⟩
    · simp [hj]
    · have hne : p ≠ j.index := fun heq => hj (congrArg ElementId.mk heq.symm)
      simp [hj, hne]
  skipped_eq := h.skipped_eq

/-- A reference makes an edge on both sides, or on neither. -/
theorem take (h : l.HasTree t) (hsound : t.Sound) (hD : D.Holds t.nodes)
    (href : Template.Pointed t.nodes ref) :
    (l.take D (⟨ref.1⟩, ref.2)).HasTree (t.take ref) := by
  obtain ⟨n, hn, -⟩ := href
  have hp := (h.contains_iff ⟨ref.1⟩).mpr (List.getElem?_eq_some_iff.mp hn).1
  unfold Linking.take Template.take
  rw [hD.recordAt?_eq]
  cases hchild : Template.nodeAt? t.nodes ref.2 with
  | none => exact h.skip ref .dangling .dangling
  | some c =>
    obtain ⟨m, hm, -⟩ := Template.nodeAt?_eq_some hchild
    have hc := (h.contains_iff ⟨c⟩).mpr (List.getElem?_eq_some_iff.mp hm).1
    have hfree : l.scene.parent? ⟨c⟩ = none ↔ ¬ (Template.parentIn? t.edges c).isSome := by
      rw [h.parent?_eq hsound, Option.map_eq_none_iff, Option.not_isSome_iff_eq_none]
    have hup := h.isAtOrAbove_eq hsound c ref.1
    dsimp only [Option.map_some]
    cases hlink : l.scene.link ⟨ref.1⟩ ⟨c⟩ with
    | ok s =>
      obtain ⟨-, -, -, hnone, habove, -⟩ := Scene.link_eq_ok hlink
      rw [if_neg (hfree.mp hnone), if_neg (hup ▸ habove)]
      exact h.edge hlink
    | error cause =>
      dsimp only
      split
      next => exact h.skip ref (.rejected ⟨c⟩ cause) .alreadyParented
      next hnone =>
        split
        next => exact h.skip ref (.rejected ⟨c⟩ cause) .cycle
        next hbelow =>
          -- a scene has no other reason to refuse: a link to itself lies on its own way up
          have hne : (⟨ref.1⟩ : ElementId) ≠ ⟨c⟩ := by
            rintro heq
            rw [ElementId.mk.inj heq] at hbelow
            refine hbelow (List.contains_iff_mem.mpr ?_)
            cases t.nodes.length <;> simp [Template.lineageIn]
          obtain ⟨s, hok⟩ := Scene.link_ok hne hc hp (hfree.mpr hnone) (hup ▸ hbelow)
          rw [hok] at hlink
          cases hlink

/-! ## All references -/

/-- However many references are taken, on both sides the same edges are made. -/
theorem foldl_take (h : l.HasTree t) (hsound : t.Sound) (hD : D.Holds t.nodes)
    {refs : List (Nat × Nat)} (hrefs : ∀ ref ∈ refs, Template.Pointed t.nodes ref) :
    ((refs.map fun ref => (⟨ref.1⟩, ref.2)).foldl (Linking.take D) l).HasTree
      (refs.foldl Template.take t) := by
  induction refs generalizing l t with
  | nil => exact h
  | cons ref refs ih =>
    have href := hrefs ref List.mem_cons_self
    have hnodes := t.nodes_take ref
    refine ih (h.take hsound hD href) (hsound.take hD.increasing href) (hnodes ▸ hD) ?_
    exact fun r hr => hnodes ▸ hrefs r (List.mem_cons_of_mem _ hr)

theorem roots_eq (h : l.HasTree t) (hsound : t.Sound) (hforest : l.scene.Forest) :
    l.scene.roots = t.roots.map ElementId.mk := by
  rw [hforest.roots_eq, List.filter_map, h.size_eq, Template.roots]
  refine congrArg (List.map ElementId.mk) (List.filter_congr fun i hi => ?_)
  have hlive : l.scene.contains ⟨i⟩ := (h.contains_iff ⟨i⟩).mpr (List.mem_range.mp hi)
  rw [Function.comp_apply, hlive, h.parent?_eq hsound, Option.isNone_map, Bool.true_and]

end Linking.HasTree

namespace Document

variable {d D : Document} {nodes : List TemplateNode} {bytes : List UInt8}

/-- Before the first reference nothing hangs together. -/
theorem Holds.hasTree_start (h : D.Holds nodes) (st : Settings) :
    Linking.HasTree { scene := .ofDocument D st, skipped := [] }
      { nodes, edges := [], unresolved := [] } where
  size_eq := (Scene.get?_ofDocument D st).1.trans h.length_eq
  contains_iff i := by
    rw [Scene.contains, (Scene.get?_ofDocument D st).2, Option.isSome_map, ← h.length_eq]
    simp
  parent?_iff i j := by
    have hfree : (Scene.ofDocument D st).parent? i = none := by
      rw [Scene.parent?, (Scene.get?_ofDocument D st).2]
      cases D.records[i.index]? <;> rfl
    simp [hfree]
  children_eq j := by
    rw [Scene.children, (Scene.get?_ofDocument D st).2]
    cases D.records[j.index]? <;> rfl
  skipped_eq := rfl

/-- A block of records that can be read is linked alike as a document and
as a template: whichever number of references is taken, an element has the
parent and the children that its node has, and the references that were
passed over are the same. In the end the roots are the same, unless there
is no element. -/
theorem tree_of_section (st : Settings) (h : d.withSection bytes = .ok D) :
    ∃ t, Template.read bytes = .ok t ∧
      ((Scene.ofDocument D st).connect D).HasTree t ∧
      (bytes ≠ [] → ((Scene.ofDocument D st).connect D).scene.rootsOf D =
        .ok (t.roots.map ElementId.mk)) ∧
      D.refs = (Template.refsOf t.nodes).map (fun ref => (⟨ref.1⟩, ref.2)) ∧
      ∀ n, ((D.refs.take n).foldl (Linking.take D)
          { scene := .ofDocument D st, skipped := [] }).HasTree
        (((Template.refsOf t.nodes).take n).foldl Template.take
          { nodes := t.nodes, edges := [], unresolved := [] }) := by
  obtain ⟨nodes, hread, hD, hne⟩ := holds_of_withSection h
  have hsound := Template.ofNodes_sound hD.increasing
  have hnodes : (Template.ofNodes nodes).nodes = nodes := Template.nodes_ofNodes nodes
  have hstart : Template.Sound { nodes, edges := [], unresolved := [] } :=
    Template.sound_start nodes
  have hpointed (ref) (href : ref ∈ Template.refsOf nodes) := Template.pointed_of_mem_refsOf href
  have htree : ((Scene.ofDocument D st).connect D).HasTree (Template.ofNodes nodes) := by
    rw [Scene.connect, if_pos hD.offsets_length, hD.refs_eq]
    exact (hD.hasTree_start st).foldl_take hstart hD hpointed
  refine ⟨_, hread, htree, fun hbytes => ?_, ?_, fun n => ?_⟩
  · have hforest := (Session.grows_linkedScene D st).forest Scene.forest_empty
    have hroots : (Session.linkedScene D st).1.roots = _ := htree.roots_eq hsound hforest
    have hzero := hsound.zero_mem_roots (hnodes.symm ▸ List.length_pos_iff.mpr (hne hbytes))
    rw [Scene.rootsOf, if_neg (not_not.mpr hD.offsets_length),
      show ((Scene.ofDocument D st).connect D).scene.documentRoots D = _ from
        Scene.documentRoots_linkedScene D st, hroots, if_neg]
    intro hempty
    rw [List.isEmpty_iff, List.map_eq_nil_iff] at hempty
    exact absurd (hempty ▸ hzero) List.not_mem_nil
  · rw [hnodes, hD.refs_eq]
  · rw [hnodes, hD.refs_eq, ← List.map_take]
    exact (hD.hasTree_start st).foldl_take hstart hD fun ref href =>
      hpointed ref (List.mem_of_mem_take href)

/-- Two records. The first refers to the second, to it again, to itself,
and to where no record begins. -/
def tangled : List UInt8 :=
  ({ Record.ofHeader (.ofWidget .app) with childRefs := [24, 24, 0, 3] } : Record).toBytes ++
    Record.blank.toBytes

theorem tangled_tree : ∃ D t, blank.withSection tangled = .ok D ∧
    Template.read tangled = .ok t ∧ t.edges = [⟨0, 1⟩] ∧
      t.unresolved.map (·.place) = [(0, 24), (0, 0), (0, 3)] ∧
      ((Scene.ofDocument D (.ofDocument D)).connect D).HasTree t ∧
      ((Scene.ofDocument D (.ofDocument D)).connect D).scene.rootsOf D = .ok [⟨0⟩] := by
  have hsection : blank.withSection tangled = .ok _ := rfl
  obtain ⟨t, hread, htree, hroots, -⟩ := tree_of_section (.ofDocument _) hsection
  have ht : Template.read tangled = .ok _ := rfl
  obtain rfl := Except.ok.inj (ht.symm.trans hread)
  exact ⟨_, _, hsection, hread, rfl, rfl, htree, hroots (List.cons_ne_nil _ _)⟩

end Document

end SceneTree
