import SceneTree.Proofs.Document.Tree

/-!
# What becomes of each reference

Reading a template goes through the references one by one, with the edges
found so far at hand: it looks whether a node has a parent, and walks up
from the node that refers. None of this depends on how the edges came
about. A reference *claims* a node when it lands there from an earlier
one, and the first claim on a node is its edge (`Template.verdict`,
`Template.ofNodes_eq`). The walk up never gets to a node that could be
claimed: it finds the node itself, or nothing.

References stand in the order of the nodes that make them. So a node can
be claimed only by references before its own, and the first claim on it
is the one from the smallest node (`Template.mem_edges`).
-/

namespace SceneTree

namespace Template

variable {nodes : List TemplateNode} {before refs : List (Nat × Nat)} {ref : Nat × Nat}
variable {bytes : List UInt8} {t : Template}

/-- The reference points at the beginning of the record of a node. -/
def Lands (nodes : List TemplateNode) (ref : Nat × Nat) (node : Nat) : Prop :=
  ∃ n, nodes[node]? = some n ∧ n.offset = ref.2

/-- None of the references lands on the node from an earlier one. -/
def Free (nodes : List TemplateNode) (before : List (Nat × Nat)) (node : Nat) : Prop :=
  ∀ r ∈ before, r.1 < node → ¬ Lands nodes r node

/-- The reference lands on the node from an earlier one. -/
def claims (nodes : List TemplateNode) (node : Nat) (ref : Nat × Nat) : Bool :=
  decide (ref.1 < node) && (nodeAt? nodes ref.2 == some node)

/-- What becomes of a reference that stands after `before`. -/
def verdict (nodes : List TemplateNode) (before : List (Nat × Nat)) (ref : Nat × Nat) :
    TemplateEdge ⊕ UnresolvedRef :=
  match nodeAt? nodes ref.2 with
  | none => .inr { parent := ref.1, offset := ref.2, problem := .dangling }
  | some child =>
    if before.any (claims nodes child) then
      .inr { parent := ref.1, offset := ref.2, problem := .alreadyParented }
    else if child = ref.1 then .inr { parent := ref.1, offset := ref.2, problem := .cycle }
    else .inl { parent := ref.1, child }

/-- What becomes of references that stand one after another. -/
def verdictsAfter (nodes : List TemplateNode) :
    (before refs : List (Nat × Nat)) → List (TemplateEdge ⊕ UnresolvedRef)
  | _, [] => []
  | before, ref :: refs => verdict nodes before ref :: verdictsAfter nodes (before ++ [ref]) refs

/-! ## Where a reference lands -/

/-- Where no two records begin at one place, a reference lands on one node at most. -/
theorem nodeAt?_eq_some_iff (hinc : (nodes.map (·.offset)).Pairwise (· < ·)) {node : Nat} :
    nodeAt? nodes ref.2 = some node ↔ Lands nodes ref node := by
  have hnode : nodeAt? nodes ref.2 = (nodes.map (·.offset)).idxOf? ref.2 := by
    rw [List.idxOf?, List.findIdx?_map]
    rfl
  rw [hnode, idxOf?_eq_some (hinc.imp Nat.ne_of_lt), List.getElem?_map, Option.map_eq_some_iff]
  exact Iff.rfl

theorem lands_unique (hinc : (nodes.map (·.offset)).Pairwise (· < ·)) {node other : Nat}
    (h : Lands nodes ref node) (h' : Lands nodes ref other) : node = other :=
  Option.some.inj <|
    ((nodeAt?_eq_some_iff hinc).mpr h).symm.trans ((nodeAt?_eq_some_iff hinc).mpr h')

theorem claims_iff (hinc : (nodes.map (·.offset)).Pairwise (· < ·)) {node : Nat} :
    claims nodes node ref ↔ ref.1 < node ∧ Lands nodes ref node := by
  rw [claims, Bool.and_eq_true, decide_eq_true_eq, beq_iff_eq, nodeAt?_eq_some_iff hinc]

theorem free_iff (hinc : (nodes.map (·.offset)).Pairwise (· < ·)) {node : Nat} :
    Free nodes before node ↔ ¬ before.any (claims nodes node) := by
  rw [List.any_eq_true]
  simp only [claims_iff hinc, not_exists, not_and]
  exact Iff.rfl

/-- A reference never lands before the node that makes it. -/
theorem le_of_lands (hinc : (nodes.map (·.offset)).Pairwise (· < ·)) {node : Nat}
    (href : Pointed nodes ref) (h : Lands nodes ref node) : ref.1 ≤ node := by
  obtain ⟨n, hn, hle⟩ := href
  obtain ⟨m, hm, hoffset⟩ := h
  exact le_of_offset_le hinc hn hm (hoffset ▸ hle)

/-- References stand in the order of the nodes that make them. -/
theorem refsOf_sorted (nodes : List TemplateNode) :
    (refsOf nodes).Pairwise fun r r' => r.1 ≤ r'.1 := by
  refine List.pairwise_flatMap.mpr ⟨fun n _ => ?_, ?_⟩
  · refine List.pairwise_map.mpr (List.pairwise_of_forall fun _ _ => Nat.le_refl _)
  · rw [List.pairwise_iff_getElem]
    intro i j hi hj hij r hr r' hr'
    rw [List.getElem_zipIdx] at hr hr'
    obtain ⟨x, -, rfl⟩ := List.mem_map.mp hr
    obtain ⟨y, -, rfl⟩ := List.mem_map.mp hr'
    dsimp only
    omega

theorem le_of_getElem?_le (nodes : List TemplateNode) {i j : Nat} {r r' : Nat × Nat}
    (hi : (refsOf nodes)[i]? = some r) (hj : (refsOf nodes)[j]? = some r') (hle : i ≤ j) :
    r.1 ≤ r'.1 := by
  obtain ⟨hi', rfl⟩ := List.getElem?_eq_some_iff.mp hi
  obtain ⟨hj', rfl⟩ := List.getElem?_eq_some_iff.mp hj
  rcases Nat.lt_or_eq_of_le hle with hlt | rfl
  · exact List.pairwise_iff_getElem.mp (refsOf_sorted nodes) i j hi' hj' hlt
  · exact Nat.le_refl _

/-! ## One reference -/

/-- The ways in which a reference can end. -/
theorem verdict_cases (hinc : (nodes.map (·.offset)).Pairwise (· < ·))
    (before : List (Nat × Nat)) (href : Pointed nodes ref) :
    (verdict nodes before ref = .inr ⟨ref.1, ref.2, .dangling⟩ ∧
      ∀ node, ¬ Lands nodes ref node) ∨
    ∃ child, Lands nodes ref child ∧
      ((verdict nodes before ref = .inr ⟨ref.1, ref.2, .alreadyParented⟩ ∧
          ¬ Free nodes before child) ∨
        Free nodes before child ∧
          ((verdict nodes before ref = .inr ⟨ref.1, ref.2, .cycle⟩ ∧ child = ref.1) ∨
            (verdict nodes before ref = .inl ⟨ref.1, child⟩ ∧ ref.1 < child))) := by
  simp only [← nodeAt?_eq_some_iff hinc, free_iff hinc]
  rw [verdict]
  cases hchild : nodeAt? nodes ref.2 with
  | none => exact .inl ⟨rfl, fun _ h => nomatch h⟩
  | some child =>
    refine .inr ⟨child, rfl, ?_⟩
    dsimp only
    split
    next hany => exact .inl ⟨rfl, not_not.mpr hany⟩
    next hfree =>
      refine .inr ⟨hfree, ?_⟩
      split
      next hself => exact .inl ⟨rfl, hself⟩
      next hne =>
        have hle := le_of_lands hinc href ((nodeAt?_eq_some_iff hinc).mp hchild)
        exact .inr ⟨rfl, Nat.lt_of_le_of_ne hle (Ne.symm hne)⟩

theorem self_mem_lineageIn (edges : List TemplateEdge) (steps node : Nat) :
    node ∈ lineageIn edges steps node := by
  cases steps <;> exact List.mem_cons_self

/-- What a template that has taken the references `before` knows of them:
which nodes are claimed. -/
structure Follows (nodes : List TemplateNode) (before : List (Nat × Nat)) (t : Template) :
    Prop where
  nodes_eq : t.nodes = nodes
  sound : t.Sound
  claimed : ∀ node, (parentIn? t.edges node).isSome = before.any (claims nodes node)

/-- Writes down what became of a reference. -/
def enter (t : Template) : TemplateEdge ⊕ UnresolvedRef → Template
  | .inl e => { t with edges := t.edges ++ [e] }
  | .inr u => { t with unresolved := t.unresolved ++ [u] }

/-- A reference is entered under its verdict. -/
theorem Follows.take_eq (h : Follows nodes before t)
    (hinc : (nodes.map (·.offset)).Pairwise (· < ·)) (href : Pointed nodes ref) :
    t.take ref = t.enter (verdict nodes before ref) := by
  obtain rfl := h.nodes_eq
  unfold Template.take verdict
  cases hchild : nodeAt? t.nodes ref.2 with
  | none => rfl
  | some child =>
    dsimp only
    rw [h.claimed]
    split
    next => rfl
    next =>
      have hle := le_of_lands hinc href ((nodeAt?_eq_some_iff hinc).mp hchild)
      have hup : (lineageIn t.edges t.nodes.length ref.1).contains child ↔ child = ref.1 := by
        rw [List.contains_iff_mem]
        constructor
        · intro hm
          exact Nat.le_antisymm (le_of_mem_lineageIn h.sound.forward hm) hle
        · rintro rfl
          exact self_mem_lineageIn _ _ _
      simp only [hup]
      split <;> rfl

/-- A reference claims the child of the edge it makes, and no other node
that has no parent yet. -/
theorem Follows.take (h : Follows nodes before t)
    (hinc : (nodes.map (·.offset)).Pairwise (· < ·)) (href : Pointed nodes ref) :
    Follows nodes (before ++ [ref]) (t.take ref) where
  nodes_eq := (t.nodes_take ref).trans h.nodes_eq
  sound := h.sound.take (h.nodes_eq ▸ hinc) (h.nodes_eq ▸ href)
  claimed node := by
    rw [h.take_eq hinc href, List.any_append, List.any_cons, List.any_nil, Bool.or_false,
      ← h.claimed]
    unfold verdict
    cases hchild : nodeAt? nodes ref.2 with
    | none => simp [enter, claims, hchild]
    | some child =>
      have hle := le_of_lands hinc href ((nodeAt?_eq_some_iff hinc).mp hchild)
      have hclaims : claims nodes node ref = (decide (ref.1 < node) && (child == node)) := by
        rw [claims, hchild]
        rfl
      dsimp only
      rw [hclaims]
      split
      next htaken =>
        -- only the child could be claimed, and that has a parent
        by_cases hc : child = node
        · subst hc
          simp [enter, h.claimed, htaken]
        · simp [enter, hc]
      next =>
        split
        next hself =>
          by_cases hc : child = node
          · simp [enter, ← hself, hc]
          · simp [enter, hc]
        next hne =>
          have hlt : ref.1 < child := Nat.lt_of_le_of_ne hle (Ne.symm hne)
          by_cases hc : child = node
          · subst hc
            simp [enter, parentIn?_append, hlt]
          · simp [enter, parentIn?_append, hc]

/-! ## All references -/

theorem verdictsAfter_getElem? (k : Nat) :
    (verdictsAfter nodes before refs)[k]? =
      refs[k]?.map (verdict nodes (before ++ refs.take k)) := by
  induction refs generalizing before k with
  | nil => rfl
  | cons r refs ih =>
    cases k with
    | zero => simp [verdictsAfter]
    | succ k => simp [verdictsAfter, ih]

theorem length_verdictsAfter : (verdictsAfter nodes before refs).length = refs.length := by
  induction refs generalizing before with
  | nil => rfl
  | cons r refs ih => rw [verdictsAfter, List.length_cons, List.length_cons, ih]

/-- Taking references one after another enters them under their verdicts. -/
theorem Follows.foldl_take (h : Follows nodes before t)
    (hinc : (nodes.map (·.offset)).Pairwise (· < ·)) (hrefs : ∀ r ∈ refs, Pointed nodes r) :
    Follows nodes (before ++ refs) (refs.foldl Template.take t) ∧
      refs.foldl Template.take t = (verdictsAfter nodes before refs).foldl enter t := by
  induction refs generalizing before t with
  | nil => exact ⟨(List.append_nil before).symm ▸ h, rfl⟩
  | cons r refs ih =>
    have hr := hrefs r List.mem_cons_self
    obtain ⟨hfollows, heq⟩ := ih (h.take hinc hr) fun r hr => hrefs r (List.mem_cons_of_mem _ hr)
    rw [List.append_assoc] at hfollows
    refine ⟨hfollows, heq.trans ?_⟩
    rw [h.take_eq hinc hr]
    rfl

/-- Edges and other references keep the order in which they are entered. -/
theorem foldl_enter (t : Template) (vs : List (TemplateEdge ⊕ UnresolvedRef)) :
    vs.foldl enter t =
      { t with
        edges := t.edges ++ vs.filterMap Sum.getLeft?
        unresolved := t.unresolved ++ vs.filterMap Sum.getRight? } := by
  induction vs generalizing t with
  | nil => simp
  | cons v vs ih =>
    rw [List.foldl_cons, ih]
    cases v <;> simp [enter, List.filterMap_cons]

/-- The tree in a block of records, by the verdict on each reference. -/
theorem ofNodes_eq (hinc : (nodes.map (·.offset)).Pairwise (· < ·)) :
    Follows nodes (refsOf nodes) (ofNodes nodes) ∧
      ofNodes nodes =
        { nodes
          edges := (verdictsAfter nodes [] (refsOf nodes)).filterMap Sum.getLeft?
          unresolved := (verdictsAfter nodes [] (refsOf nodes)).filterMap Sum.getRight? } := by
  have hstart : Follows nodes [] { nodes, edges := [], unresolved := [] } :=
    ⟨rfl, sound_start nodes, fun _ => rfl⟩
  obtain ⟨hfollows, heq⟩ := hstart.foldl_take hinc fun _ => pointed_of_mem_refsOf
  refine ⟨hfollows, heq.trans ?_⟩
  rw [foldl_enter, List.nil_append, List.nil_append]

/-! ## The tree in closed form -/

/-- The node has a reference to the other one. -/
def Refers (nodes : List TemplateNode) (node other : Nat) : Prop :=
  ∃ ref ∈ refsOf nodes, ref.1 = node ∧ Lands nodes ref other

/-- References of smaller nodes stand before. -/
theorem mem_take_of_lt {k : Nat} {r : Nat × Nat} (hk : (refsOf nodes)[k]? = some ref)
    (hr : r ∈ refsOf nodes) (hlt : r.1 < ref.1) : r ∈ (refsOf nodes).take k := by
  obtain ⟨j, hj⟩ := List.mem_iff_getElem?.mp hr
  have hjk : j < k := by
    by_contra hkj
    exact absurd (le_of_getElem?_le nodes hk hj (Nat.not_lt.mp hkj)) (Nat.not_le.mpr hlt)
  exact List.mem_iff_getElem?.mpr ⟨j, by rw [List.getElem?_take_of_lt hjk, hj]⟩

/-- Whether a node is free is settled by the references before its own. -/
theorem free_take {k node : Nat} (hk : (refsOf nodes)[k]? = some ref) (hle : node ≤ ref.1) :
    Free nodes ((refsOf nodes).take k) node ↔ Free nodes (refsOf nodes) node :=
  ⟨fun h r hr hlt => h r (mem_take_of_lt hk hr (Nat.lt_of_lt_of_le hlt hle)) hlt,
    fun h r hr => h r (List.mem_of_mem_take hr)⟩

/-- A node is free after all references when it has no parent. -/
theorem Follows.parentIn?_eq_none (h : Follows nodes before t)
    (hinc : (nodes.map (·.offset)).Pairwise (· < ·)) {node : Nat} :
    parentIn? t.edges node = none ↔ Free nodes before node := by
  rw [free_iff hinc, ← h.claimed, Option.not_isSome_iff_eq_none]

/-- The edge at a node is the first reference that lands there from an
earlier one. -/
theorem mem_edges_iff_first (hinc : (nodes.map (·.offset)).Pairwise (· < ·)) {p c : Nat} :
    ⟨p, c⟩ ∈ (ofNodes nodes).edges ↔ ∃ k ref, (refsOf nodes)[k]? = some ref ∧ ref.1 = p ∧
      p < c ∧ Lands nodes ref c ∧ Free nodes ((refsOf nodes).take k) c := by
  rw [(ofNodes_eq hinc).2]
  dsimp only
  rw [List.mem_filterMap]
  constructor
  · rintro ⟨v, hv, hleft⟩
    obtain ⟨k, hk⟩ := List.mem_iff_getElem?.mp hv
    rw [verdictsAfter_getElem?, List.nil_append, Option.map_eq_some_iff] at hk
    obtain ⟨ref, href, rfl⟩ := hk
    have hpointed := pointed_of_mem_refsOf (List.mem_of_getElem? href)
    rw [Sum.getLeft?_eq_some_iff] at hleft
    obtain ⟨h, -⟩ | ⟨child, hlands, ⟨h, -⟩ | ⟨hfree, ⟨h, -⟩ | ⟨h, hlt⟩⟩⟩ :=
      verdict_cases hinc ((refsOf nodes).take k) hpointed
    all_goals rw [h] at hleft; cases hleft
    exact ⟨k, ref, href, rfl, hlt, hlands, hfree⟩
  · rintro ⟨k, ref, href, rfl, hlt, hlands, hfree⟩
    have hpointed := pointed_of_mem_refsOf (List.mem_of_getElem? href)
    refine ⟨.inl ⟨ref.1, c⟩, List.mem_iff_getElem?.mpr ⟨k, ?_⟩, rfl⟩
    rw [verdictsAfter_getElem?, href, List.nil_append, Option.map_some]
    obtain ⟨-, hnone⟩ | ⟨child, hchild, ⟨-, hclaimed⟩ | ⟨-, ⟨-, hself⟩ | ⟨h, -⟩⟩⟩ :=
      verdict_cases hinc ((refsOf nodes).take k) hpointed
    · exact absurd hlands (hnone c)
    · exact absurd (lands_unique hinc hlands hchild ▸ hfree) hclaimed
    · exact absurd (lands_unique hinc hlands hchild) (hself ▸ Nat.ne_of_gt hlt)
    · rw [h, lands_unique hinc hlands hchild]

/-- A child belongs to the smallest node that has a reference to it, if
that is smaller than the child. -/
theorem mem_edges_iff (hinc : (nodes.map (·.offset)).Pairwise (· < ·)) {p c : Nat} :
    ⟨p, c⟩ ∈ (ofNodes nodes).edges ↔
      p < c ∧ Refers nodes p c ∧ ∀ q < p, ¬ Refers nodes q c := by
  rw [mem_edges_iff_first hinc]
  constructor
  · rintro ⟨k, ref, href, rfl, hlt, hlands, hfree⟩
    refine ⟨hlt, ⟨ref, List.mem_of_getElem? href, rfl, hlands⟩, ?_⟩
    rintro q hq ⟨r, hr, rfl, hr'⟩
    exact hfree r (mem_take_of_lt href hr hq) (Nat.lt_trans hq hlt) hr'
  · rintro ⟨hlt, ⟨ref, hmem, rfl, hlands⟩, hsmallest⟩
    -- the first reference that claims the child comes from the same node
    have hclaim : claims nodes c ref := (claims_iff hinc).mpr ⟨hlt, hlands⟩
    obtain ⟨first, hfind⟩ :=
      Option.isSome_iff_exists.mp (List.find?_isSome.mpr ⟨ref, hmem, hclaim⟩)
    obtain ⟨hfirst, k, hk, rfl, hbefore⟩ := List.find?_eq_some_iff_getElem.mp hfind
    have hk' := List.getElem?_eq_getElem hk
    obtain ⟨-, hfirst⟩ := (claims_iff hinc).mp hfirst
    have hfree : Free nodes ((refsOf nodes).take k) c := by
      rw [free_iff hinc, List.any_eq_true]
      rintro ⟨r, hr, hclaims⟩
      obtain ⟨j, hj, rfl⟩ := List.mem_take_iff_getElem.mp hr
      have hnot := hbefore j (Nat.lt_of_lt_of_le hj (Nat.min_le_left _ _))
      rw [hclaims] at hnot
      cases hnot
    have hsame : (refsOf nodes)[k].1 = ref.1 := by
      apply Nat.le_antisymm
      · by_contra hq
        exact hfree ref (mem_take_of_lt hk' hmem (Nat.not_le.mp hq)) hlt hlands
      · by_contra hq
        exact hsmallest _ (Nat.not_le.mp hq) ⟨_, List.getElem_mem hk, rfl, hfirst⟩
    exact ⟨k, _, hk', hsame, hlt, hfirst, hfree⟩

/-! ## Every reference has its verdict -/

/-- The verdict on a reference that stands after `before`. An edge is the
first claim on its child. A reference that made no edge is listed with the
reason: nothing begins where it points, or it is a zero in a node without
a parent, or the node it points at was claimed before. -/
def Answers (t : Template) (before : List (Nat × Nat)) (ref : Nat × Nat) :
    TemplateEdge ⊕ UnresolvedRef → Prop
  | .inl e => e.parent = ref.1 ∧ Lands t.nodes ref e.child ∧ ref.1 < e.child ∧
      Free t.nodes before e.child
  | .inr u => u.place = ref ∧
      (u.problem = .dangling ↔ ∀ node, ¬ Lands t.nodes ref node) ∧
      (u.problem = .cycle ↔ Lands t.nodes ref ref.1 ∧ parentIn? t.edges ref.1 = none) ∧
      (u.problem = .alreadyParented ↔
        ∃ node, Lands t.nodes ref node ∧ ¬ Free t.nodes before node)

theorem Follows.answers (h : Follows nodes (refsOf nodes) t)
    (hinc : (nodes.map (·.offset)).Pairwise (· < ·)) {k : Nat}
    (hk : (refsOf nodes)[k]? = some ref) :
    t.Answers ((refsOf nodes).take k) ref (verdict nodes ((refsOf nodes).take k) ref) := by
  have hpointed := pointed_of_mem_refsOf (List.mem_of_getElem? hk)
  have hparent : parentIn? t.edges ref.1 = none ↔ Free nodes ((refsOf nodes).take k) ref.1 :=
    (h.parentIn?_eq_none hinc).trans (free_take hk (Nat.le_refl _)).symm
  obtain ⟨hv, hnone⟩ | ⟨child, hlands, hchild⟩ :=
    verdict_cases hinc ((refsOf nodes).take k) hpointed
  · rw [hv, Answers, h.nodes_eq]
    refine ⟨rfl, iff_of_true rfl hnone, iff_of_false nofun fun h => hnone _ h.1,
      iff_of_false nofun ?_⟩
    rintro ⟨node, hnode, -⟩
    exact hnone node hnode
  · -- where the reference lands on one node, it lands on no other
    have hsome (P : Nat → Prop) : (∃ node, Lands nodes ref node ∧ P node) ↔ P child :=
      ⟨fun ⟨node, hnode, hp⟩ => lands_unique hinc hnode hlands ▸ hp, fun hp => ⟨child, hlands, hp⟩⟩
    have hdangling : ¬ ∀ node, ¬ Lands nodes ref node := fun hnone => hnone child hlands
    obtain ⟨hv, hclaimed⟩ | ⟨hfree, ⟨hv, rfl⟩ | ⟨hv, hlt⟩⟩ := hchild
    · rw [hv, Answers, h.nodes_eq, hparent, hsome fun c => ¬ Free nodes _ c]
      refine ⟨rfl, iff_of_false nofun hdangling, iff_of_false nofun ?_, iff_of_true rfl hclaimed⟩
      rintro ⟨hself, hfree⟩
      exact hclaimed (lands_unique hinc hlands hself ▸ hfree)
    · rw [hv, Answers, h.nodes_eq, hparent, hsome fun c => ¬ Free nodes _ c]
      exact ⟨rfl, iff_of_false nofun hdangling, iff_of_true rfl ⟨hlands, hfree⟩,
        iff_of_false nofun (not_not.mpr hfree)⟩
    · rw [hv, Answers, h.nodes_eq]
      exact ⟨rfl, hlands, hlt, hfree⟩

/-- The nodes of a template are the records of its block. -/
theorem read_eq_ok (h : read bytes = .ok t) : ∃ nodes,
    Record.readAll bytes = .ok (nodes.map fun n => (n.offset, n.record)) ∧ t = ofNodes nodes ∧
      (nodes.map (·.offset)).Pairwise (· < ·) := by
  rw [read] at h
  cases hread : Record.readAll bytes with
  | error e =>
    rw [hread] at h
    cases h
  | ok placed =>
    rw [hread] at h
    refine ⟨placed.map fun p => { offset := p.1, record := p.2 }, ?_, (Except.ok.inj h).symm, ?_⟩
    · rw [List.map_map]
      exact congrArg Except.ok (List.map_id placed).symm
    · rw [List.map_map]
      exact Record.readAll_increasing hread

/-- A template that can be read, in closed form. Each reference has one
verdict, in order: it is an edge, or it is listed as unresolved. It
dangles exactly when no record begins where it points, and is a circle
exactly when it points at its own node and that is a root; what else is
unresolved points at a node that has a parent. A node is the child of the
smallest one that refers to it, if that is smaller than the node itself.
So edges run forward, a node has one parent at most, and the first node is
a root. -/
theorem read_verdicts (h : read bytes = .ok t) :
    Record.readAll bytes = .ok (t.nodes.map fun n => (n.offset, n.record)) ∧
    (∃ verdicts : List (TemplateEdge ⊕ UnresolvedRef),
      verdicts.length = (refsOf t.nodes).length ∧
      verdicts.filterMap Sum.getLeft? = t.edges ∧
      verdicts.filterMap Sum.getRight? = t.unresolved ∧
      ∀ k ref v, (refsOf t.nodes)[k]? = some ref → verdicts[k]? = some v →
        t.Answers ((refsOf t.nodes).take k) ref v) ∧
    (∀ p c, ⟨p, c⟩ ∈ t.edges ↔ p < c ∧ Refers t.nodes p c ∧ ∀ q < p, ¬ Refers t.nodes q c) ∧
    (∀ e ∈ t.edges, e.parent < e.child) ∧
    (t.edges.map (·.child)).Nodup ∧
    (0 < t.nodes.length → 0 ∈ t.roots) ∧
    (t.roots ≠ [] ↔ bytes ≠ []) := by
  obtain ⟨nodes, hrecords, rfl, hinc⟩ := read_eq_ok h
  obtain ⟨hfollows, heq⟩ := ofNodes_eq hinc
  have hsound := hfollows.sound
  have hzero (hn : 0 < nodes.length) : 0 ∈ (ofNodes nodes).roots :=
    hsound.zero_mem_roots (by rwa [hfollows.nodes_eq])
  rw [hfollows.nodes_eq]
  refine ⟨hrecords, ⟨verdictsAfter nodes [] (refsOf nodes), length_verdictsAfter, ?_, ?_, ?_⟩,
    fun p c => mem_edges_iff hinc, hsound.forward, hsound.claimed_once, hzero, ?_⟩
  · exact (congrArg edges heq).symm
  · exact (congrArg unresolved heq).symm
  · intro k ref v hk hv
    rw [verdictsAfter_getElem?, hk, List.nil_append, Option.map_some] at hv
    exact Option.some.inj hv ▸ hfollows.answers hinc hk
  · constructor
    · rintro hroots rfl
      obtain rfl : nodes = [] := List.map_eq_nil_iff.mp (Except.ok.inj hrecords).symm
      exact hroots rfl
    · intro hbytes
      have hne : nodes ≠ [] := fun hnil =>
        Record.readAll_ne_nil hrecords hbytes (List.map_eq_nil_iff.mpr hnil)
      exact List.ne_nil_of_mem (hzero (List.length_pos_iff.mpr hne))

/-- The first record refers to the second twice, to itself, and to where
nothing begins. -/
theorem tangled_verdicts : ∃ t, read Document.tangled = .ok t ∧
    t.unresolved = [⟨0, 24, .alreadyParented⟩, ⟨0, 0, .cycle⟩, ⟨0, 3, .dangling⟩] ∧
    (∀ p c, ⟨p, c⟩ ∈ t.edges ↔ p < c ∧ Refers t.nodes p c ∧ ∀ q < p, ¬ Refers t.nodes q c) ∧
    t.roots ≠ [] := by
  have ht : read Document.tangled = .ok _ := rfl
  obtain ⟨-, -, hedges, -, -, -, hroots⟩ := read_verdicts ht
  exact ⟨_, ht, rfl, hedges, hroots.mpr (List.cons_ne_nil _ _)⟩

end Template

end SceneTree
