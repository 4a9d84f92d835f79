import Mathlib
import SceneTree.Document.Builder
import SceneTree.Proofs.Document.Template

/-!
# Pushed trees

A tree is pushed element by element, each with the number of the push that
is its parent. `Pushes` reads such a list as a tree: the parent of an
element, its children in the order of their pushes, the roots. Where every
parent is an earlier push, an outline has just these links
(`Pushes.Ordered.nodes_outline`).

The other half of this module goes from bytes back to that tree. If the
references of a block of records say where the children of each push begin,
in order, then each of them makes an edge and none is left over
(`Template.Spells.ofNodes_eq`).
-/

namespace SceneTree

/-- Drafts in the order of their pushes, each with the number of the push
that is its parent. -/
abbrev Pushes := List (Draft × Option Nat)

namespace Pushes

variable {ps : Pushes} {i j p c : Nat}

def parent? (ps : Pushes) (i : Nat) : Option Nat := ps[i]?.bind (·.2)

/-- The pushes that name `j` as their parent, in order. -/
def children (ps : Pushes) (j : Nat) : List Nat :=
  (List.range ps.length).filter fun i => ps.parent? i == some j

/-- The pushes that name no parent, in order. -/
def roots (ps : Pushes) : List Nat :=
  (List.range ps.length).filter fun i => (ps.parent? i).isNone

/-- Every parent is an earlier push. -/
def Ordered (ps : Pushes) : Prop := ∀ i p, ps.parent? i = some p → p < i

instance (ps : Pushes) : Decidable ps.Ordered :=
  decidable_of_iff (∀ i < ps.length, ∀ p ∈ ps.parent? i, p < i) <| by
    refine ⟨fun h i p hp => h i ?_ p hp, fun h i _ p hp => h i p hp⟩
    obtain ⟨q, hq, -⟩ := Option.bind_eq_some_iff.mp hp
    exact (List.getElem?_eq_some_iff.mp hq).1

/-- What the pushes make of a blank outline. -/
def outline (ps : Pushes) : Outline := ps.foldl (fun o p => o.push p.1 p.2) .blank

theorem lt_of_parent? (h : ps.parent? i = some p) : i < ps.length := by
  obtain ⟨q, hq, -⟩ := Option.bind_eq_some_iff.mp h
  exact (List.getElem?_eq_some_iff.mp hq).1

theorem mem_children : c ∈ ps.children j ↔ ps.parent? c = some j := by
  rw [children, List.mem_filter, List.mem_range, beq_iff_eq]
  exact and_iff_right_of_imp lt_of_parent?

theorem children_nodup (ps : Pushes) (j : Nat) : (ps.children j).Nodup :=
  List.nodup_range.filter _

theorem length_children_le (ps : Pushes) (j : Nat) : (ps.children j).length ≤ ps.length :=
  (List.length_filter_le _ _).trans (Nat.le_of_eq List.length_range)

/-! ## One push more -/

section Snoc

variable (ps : Pushes) (q : Draft × Option Nat)

theorem parent?_snoc_of_lt (h : i < ps.length) : parent? (ps ++ [q]) i = ps.parent? i := by
  rw [parent?, List.getElem?_append_left h, parent?]

theorem parent?_snoc_self : parent? (ps ++ [q]) ps.length = q.2 := by
  rw [parent?, List.getElem?_concat_length]
  rfl

theorem children_snoc (j : Nat) :
    children (ps ++ [q]) j = ps.children j ++ if q.2 = some j then [ps.length] else [] := by
  have hold : (List.range ps.length).filter (fun i => parent? (ps ++ [q]) i == some j) =
      ps.children j := by
    apply List.filter_congr
    intro i hi
    rw [parent?_snoc_of_lt ps q (List.mem_range.mp hi)]
  rw [children, List.length_append, List.length_singleton, List.range_succ, List.filter_append,
    hold, List.filter_singleton, parent?_snoc_self]
  simp

theorem Ordered.of_snoc (h : Ordered (ps ++ [q])) : ps.Ordered := fun i p hp =>
  h i p (by rwa [parent?_snoc_of_lt ps q (lt_of_parent? hp)])

end Snoc

/-- A push that is not there yet has no children. -/
theorem Ordered.children_eq_nil (h : ps.Ordered) (hj : ps.length ≤ j) : ps.children j = [] := by
  apply List.filter_eq_nil_iff.mpr
  intro i hi hp
  have hlt := h i j (beq_iff_eq.mp hp)
  have hi := List.mem_range.mp hi
  omega

/-! ## Edges -/

/-- All links, in the order in which the records make them. -/
def edges (ps : Pushes) : List TemplateEdge :=
  (List.range ps.length).flatMap fun j => (ps.children j).map fun c => ⟨j, c⟩

theorem Ordered.mem_edges (h : ps.Ordered) {e : TemplateEdge} :
    e ∈ ps.edges ↔ ps.parent? e.child = some e.parent := by
  rw [edges, List.mem_flatMap]
  constructor
  · rintro ⟨j, -, he⟩
    obtain ⟨c, hc, rfl⟩ := List.mem_map.mp he
    exact mem_children.mp hc
  · intro hp
    have hlt := h _ _ hp
    have hchild := lt_of_parent? hp
    exact ⟨e.parent, List.mem_range.mpr (by omega), List.mem_map.mpr ⟨_, mem_children.mpr hp, rfl⟩⟩

theorem map_child_edges (ps : Pushes) :
    ps.edges.map (·.child) = (List.range ps.length).flatMap ps.children := by
  rw [edges, List.map_flatMap]
  apply List.flatMap_congr
  intro j _
  rw [List.map_map]
  exact List.map_id _

/-- No push is the child of two. -/
theorem nodup_edges (ps : Pushes) : (ps.edges.map (·.child)).Nodup := by
  rw [map_child_edges]
  refine List.nodup_flatMap.mpr ⟨fun j _ => ps.children_nodup j, ?_⟩
  refine List.nodup_range.imp fun {j k} hne c hcj hck => hne ?_
  exact Option.some.inj ((mem_children.mp hcj).symm.trans (mem_children.mp hck))

theorem Ordered.parentIn?_edges (h : ps.Ordered) (i : Nat) :
    Template.parentIn? ps.edges i = ps.parent? i := by
  apply Option.ext
  intro p
  rw [Template.parentIn?_eq_some ps.nodup_edges]
  exact h.mem_edges

/-- Of a part for each number, only the part of one number is taken. -/
theorem flatMap_ite_eq {α : Type} (l : List Nat) (hl : l.Nodup) (part : List α) (j : Nat) :
    l.flatMap (fun k => if k = j then part else []) = if j ∈ l then part else [] := by
  induction l with
  | nil => rfl
  | cons k l ih =>
    obtain ⟨hk, hl⟩ := List.nodup_cons.mp hl
    rw [List.flatMap_cons, ih hl]
    by_cases hj : k = j
    · subst hj
      simp [hk]
    · simp [hj, Ne.symm hj]

/-- The links of one parent are to its children, in order. -/
theorem Ordered.filter_edges (h : ps.Ordered) (j : Nat) :
    (ps.edges.filter (·.parent == j)).map (·.child) = ps.children j := by
  have hpart (k : Nat) : (((ps.children k).map fun c => (⟨k, c⟩ : TemplateEdge)).filter
      (·.parent == j)).map (·.child) = if k = j then ps.children j else [] := by
    rw [List.filter_map, List.map_map]
    split
    next hk =>
      subst hk
      simp [Function.comp_def]
    next hk => simp [Function.comp_def, hk]
  rw [edges, List.filter_flatMap, List.map_flatMap, List.flatMap_congr fun k _ => hpart k,
    flatMap_ite_eq _ List.nodup_range]
  split
  next => rfl
  next hj => exact (h.children_eq_nil (Nat.not_lt.mp (mt List.mem_range.mpr hj))).symm

end Pushes

/-! ## Pushing -/

namespace Outline

/-- Below a node that is there, a push adds a node and a link to it. -/
theorem push_of_lt (o : Outline) (d : Draft) {parent : Option Nat}
    (h : ∀ p ∈ parent, p < o.nodes.length) :
    (o.push d parent).ignored = o.ignored ∧ ∀ i, (o.push d parent).nodes[i]? =
      (o.nodes ++ [(⟨d, [], []⟩ : OutlineNode)])[i]?.map fun n : OutlineNode =>
        { n with children := n.children ++ if parent = some i then [o.nodes.length] else [] } := by
  cases parent with
  | none => simp [push]
  | some p =>
    have hp := h p rfl
    have hpush : o.push d (some p) = { o with
        nodes := (o.nodes ++ [(⟨d, [], []⟩ : OutlineNode)]).modify p fun n : OutlineNode =>
          { n with children := n.children ++ [o.nodes.length] } } :=
      if_pos ⟨by rw [List.length_append]; omega, by simp⟩
    rw [hpush]
    refine ⟨rfl, fun i => ?_⟩
    rw [List.getElem?_modify]
    refine congrArg (Option.map · _) (funext fun n => ?_)
    by_cases hi : p = i <;> simp [hi]

end Outline

namespace Pushes

theorem outline_snoc (ps : Pushes) (q : Draft × Option Nat) :
    outline (ps ++ [q]) = ps.outline.push q.1 q.2 := by
  rw [outline, List.foldl_append]
  rfl

/-- Pushed one after another, drafts have just the links of the tree, and
nothing is left out. -/
theorem Ordered.nodes_outline {ps : Pushes} (h : ps.Ordered) :
    ps.outline.ignored = [] ∧ ps.outline.nodes =
      ps.mapIdx fun i p => { draft := p.1, children := ps.children i, bareRefs := [] } := by
  induction ps using List.reverseRecOn with
  | nil => exact ⟨rfl, rfl⟩
  | append_singleton ps q ih =>
    obtain ⟨hignored, hnodes⟩ := ih (h.of_snoc ps q)
    have hlength : (outline ps).nodes.length = ps.length := by
      rw [hnodes, List.length_mapIdx]
    have hparent : ∀ p ∈ q.2, p < (outline ps).nodes.length := by
      intro p hp
      rw [hlength]
      exact h ps.length p ((parent?_snoc_self ps q).trans hp)
    obtain ⟨hsame, hget⟩ := (outline ps).push_of_lt q.1 hparent
    rw [outline_snoc]
    refine ⟨hsame.trans hignored, List.ext_getElem? fun i => ?_⟩
    rw [hget, List.getElem?_mapIdx, hlength, children_snoc]
    rcases Nat.lt_trichotomy i ps.length with hlt | rfl | hgt
    · rw [List.getElem?_append_left (hlength ▸ hlt), List.getElem?_append_left hlt, hnodes,
        List.getElem?_mapIdx, Option.map_map]
      rfl
    · rw [← hlength, List.getElem?_concat_length, hlength, List.getElem?_concat_length,
        (h.of_snoc ps q).children_eq_nil (Nat.le_refl _)]
      rfl
    · rw [List.getElem?_eq_none (by simp; omega), List.getElem?_eq_none (by simp; omega)]
      rfl

end Pushes

/-! ## Reading the tree back -/

namespace Template

variable {ps : Pushes} {nodes : List TemplateNode} {i : Nat} {n : TemplateNode}

/-- The nodes stand one after another, and each refers to where the
children of its push begin, in order. -/
structure Spells (nodes : List TemplateNode) (ps : Pushes) : Prop where
  length_eq : nodes.length = ps.length
  increasing : (nodes.map (·.offset)).Pairwise (· < ·)
  refs : ∀ i n, nodes[i]? = some n → n.record.childRefs.map (n.offset + ·.toNat) =
    (ps.children i).map fun c => (nodes.map (·.offset)).getD c 0

/-- A node is found where it begins. -/
theorem nodeAt?_offset (h : (nodes.map (·.offset)).Pairwise (· < ·)) (hn : nodes[i]? = some n) :
    nodeAt? nodes n.offset = some i := by
  obtain ⟨hi, rfl⟩ := List.getElem?_eq_some_iff.mp hn
  refine List.findIdx?_eq_some_iff_getElem.mpr ⟨hi, beq_self_eq_true _, fun j hj hsame => ?_⟩
  rw [List.pairwise_map, List.pairwise_iff_getElem] at h
  exact Nat.ne_of_lt (h j i (Nat.lt_trans hj hi) hi hj) (beq_iff_eq.mp hsame)

namespace Spells

/-- The references are the links, in order. -/
theorem refsOf_eq (h : Spells nodes ps) : refsOf nodes =
    ps.edges.map fun e => (e.parent, (nodes.map (·.offset)).getD e.child 0) := by
  have hrange : List.range ps.length = nodes.zipIdx.map (·.2) := by
    rw [List.zipIdx_map_snd, h.length_eq, List.range_eq_range']
  rw [refsOf, Pushes.edges, hrange, List.flatMap_map, List.map_flatMap]
  apply List.flatMap_congr
  intro p hp
  have hrefs := h.refs p.2 p.1 (List.mem_zipIdx_iff_getElem?.mp hp)
  have hpairs := congrArg (List.map fun offset => (p.2, offset)) hrefs
  rw [List.map_map, List.map_map] at hpairs
  rw [List.map_map]
  exact hpairs

/-- A reference makes its edge, if those before it have made theirs. -/
theorem take_eq (h : Spells nodes ps) (hps : ps.Ordered) {done rest : List TemplateEdge}
    {e : TemplateEdge} (hedges : ps.edges = done ++ e :: rest) :
    take { nodes, edges := done, unresolved := [] }
        (e.parent, (nodes.map (·.offset)).getD e.child 0) =
      { nodes, edges := done ++ [e], unresolved := [] } := by
  have hmem (e' : TemplateEdge) (he' : e' ∈ done ++ [e]) : e' ∈ ps.edges := by
    rw [hedges, List.append_cons]
    exact List.mem_append_left rest he'
  have hforward (e' : TemplateEdge) (he' : e' ∈ done ++ [e]) : e'.parent < e'.child :=
    hps _ _ (hps.mem_edges.mp (hmem e' he'))
  have he : e ∈ done ++ [e] := List.mem_append_right _ List.mem_cons_self
  have hchild : e.child < nodes.length :=
    h.length_eq ▸ Pushes.lt_of_parent? (hps.mem_edges.mp (hmem e he))
  have hnode : nodeAt? nodes ((nodes.map (·.offset)).getD e.child 0) = some e.child := by
    have hoffset : (nodes.map (·.offset)).getD e.child 0 = nodes[e.child].offset := by
      rw [List.getD_eq_getElem?_getD, List.getElem?_map, List.getElem?_eq_getElem hchild]
      rfl
    rw [hoffset]
    exact nodeAt?_offset h.increasing (List.getElem?_eq_getElem hchild)
  have hfree : parentIn? done e.child = none := by
    have hnodup := ps.nodup_edges
    rw [hedges, List.map_append, List.map_cons] at hnodup
    rw [parentIn?_eq_none]
    intro hclaimed
    exact (List.nodup_append.mp hnodup).2.2 _ hclaimed _ List.mem_cons_self rfl
  have hup : ¬ (lineageIn done nodes.length e.parent).contains e.child := by
    intro hcontains
    have hle := le_of_mem_lineageIn
      (fun e' he' => hforward e' (List.mem_append_left _ he')) (List.contains_iff_mem.mp hcontains)
    exact absurd (hforward e he) (Nat.not_lt.mpr hle)
  unfold take
  simp only [hnode, hfree, Option.isSome_none, Bool.false_eq_true, if_false, if_neg hup]

theorem foldl_take_eq (h : Spells nodes ps) (hps : ps.Ordered) {done rest : List TemplateEdge}
    (hedges : ps.edges = done ++ rest) :
    (rest.map fun e => (e.parent, (nodes.map (·.offset)).getD e.child 0)).foldl take
        { nodes, edges := done, unresolved := [] } =
      { nodes, edges := ps.edges, unresolved := [] } := by
  induction rest generalizing done with
  | nil => rw [hedges, List.append_nil, List.map_nil, List.foldl_nil]
  | cons e rest ih =>
    rw [List.map_cons, List.foldl_cons, h.take_eq hps hedges]
    exact ih (hedges.trans (List.append_cons done e rest))

/-- Every link is an edge, and no reference is left over. -/
theorem ofNodes_eq (h : Spells nodes ps) (hps : ps.Ordered) :
    ofNodes nodes = { nodes, edges := ps.edges, unresolved := [] } := by
  rw [ofNodes, h.refsOf_eq]
  exact h.foldl_take_eq hps (List.nil_append ps.edges).symm

theorem nodes_eq_nil_iff (h : Spells nodes ps) : nodes = [] ↔ ps = [] := by
  rw [← List.length_eq_zero_iff, h.length_eq, List.length_eq_zero_iff]

theorem roots_ofNodes (h : Spells nodes ps) (hps : ps.Ordered) :
    (ofNodes nodes).roots = ps.roots := by
  rw [h.ofNodes_eq hps, roots, Pushes.roots, h.length_eq]
  exact List.filter_congr fun i _ => congrArg Option.isNone (hps.parentIn?_edges i)

end Spells

end Template

end SceneTree
