import Mathlib.Data.List.Nodup
import SceneTree.Template

/-!
# The tree in a block of records

A record takes bytes, so the records of a block begin at offsets that
increase (`Record.readAll_increasing`), and an offset is the beginning of
one record only. A reference counts its distance forward and may not lead
to the record itself. So whatever the block says, the edges that are kept
run from a node to a later one, and no node is claimed twice
(`Template.read_sound`). Going up from a node therefore ends at a root.
-/

namespace SceneTree

/-! ## Readers go forward -/

namespace Reader

variable {α β : Type}

/-- The reader never goes back. -/
def Forward (r : Reader α) : Prop := ∀ c a c', r c = .ok a c' → c.offset ≤ c'.offset

/-- The reader takes a byte at least whenever it succeeds. -/
def Advances (r : Reader α) : Prop := ∀ c a c', r c = .ok a c' → c.offset < c'.offset

/-- What a chain of two readers went through. -/
theorem bind_eq_ok {r : Reader α} {next : α → Reader β} {c c' : Cursor} {b : β}
    (h : (r >>= next) c = .ok b c') : ∃ a c₁, r c = .ok a c₁ ∧ next a c₁ = .ok b c' := by
  change EStateM.bind r next c = _ at h
  rw [EStateM.bind] at h
  split at h
  next a c₁ ha => exact ⟨a, c₁, ha, h⟩
  next => cases h

theorem offset_of_bytes {n : Nat} {c c' : Cursor} {taken : List UInt8}
    (h : bytes n c = .ok taken c') : c'.offset = c.offset + n := by
  rw [bytes] at h
  split at h
  next => cases h
  next =>
    cases h
    rfl

namespace Forward

theorem pure (a : α) : Forward (pure a) := by
  rintro c _ _ ⟨⟩
  exact Nat.le_refl _

theorem bind {r : Reader α} {next : α → Reader β} (h : Forward r)
    (h' : ∀ a, Forward (next a)) : Forward (r >>= next) := by
  intro c b c' hb
  obtain ⟨a, c₁, ha, hnext⟩ := bind_eq_ok hb
  exact Nat.le_trans (h c a c₁ ha) (h' a c₁ b c' hnext)

theorem bytes (n : Nat) : Forward (bytes n) := fun c a c' h => by
  rw [offset_of_bytes h]
  exact Nat.le_add_right _ _

theorem byte : Forward byte := (bytes 1).bind fun _ => pure _

theorem word : Forward word := (bytes 2).bind fun bs => by
  split <;> exact pure _

theorem times {item : Reader α} (h : Forward item) (k : Nat) : Forward (times k item) := by
  induction k with
  | zero => exact pure []
  | succ k ih => exact h.bind fun a => ih.bind fun as => pure (a :: as)

theorem value : Forward value := byte.bind fun _ => byte.bind fun size =>
  (bytes size.toNat).bind fun _ => pure _

theorem property : Forward property := byte.bind fun _ => value.bind fun _ => pure _

theorem custom : Forward custom := byte.bind fun _ => value.bind fun _ => pure _

theorem trigger : Forward trigger := byte.bind fun _ => byte.bind fun _ => pure _

end Forward

theorem advances_byte : Advances byte := by
  intro c b c' h
  obtain ⟨taken, c₁, hbytes, hpure⟩ := bind_eq_ok h
  have hforward := Forward.pure _ c₁ b c' hpure
  rw [offset_of_bytes hbytes] at hforward
  omega

theorem advances_header : Advances header := by
  intro c h c' hh
  obtain ⟨widget, c₁, hbyte, hrest⟩ := bind_eq_ok hh
  have hfirst := advances_byte c widget c₁ hbyte
  have hforward : Forward _ := Forward.byte.bind fun nameIndex => Forward.word.bind fun x =>
    Forward.word.bind fun y => Forward.word.bind fun width => Forward.word.bind fun height =>
      Forward.byte.bind fun layout => Forward.byte.bind fun styleId => Forward.pure
        ({ widget := .ofByte widget, nameIndex, x, y, width, height, layout := ⟨layout⟩, styleId } :
          Header)
  exact Nat.lt_of_lt_of_le hfirst (hforward c₁ h c' hrest)

theorem advances_record : Advances record := by
  intro c r c' hr
  obtain ⟨h, c₁, hheader, hrest⟩ := bind_eq_ok hr
  have hforward : Forward _ := Forward.byte.bind fun propertyCount => Forward.byte.bind
    fun childCount => Forward.byte.bind fun triggerCount => Forward.byte.bind fun customCount =>
      (Forward.property.times propertyCount.toNat).bind fun properties =>
        (Forward.custom.times customCount.toNat).bind fun customs =>
          (Forward.trigger.times triggerCount.toNat).bind fun triggers =>
            (Forward.word.times childCount.toNat).bind fun childRefs => Forward.pure
              ({ header := h, properties, customs, triggers, childRefs } : Record)
  exact Nat.lt_of_lt_of_le (advances_header c h c₁ hheader) (hforward c₁ r c' hrest)

/-- Records that are read one after another begin at offsets that increase. -/
theorem recordsWithin_increasing {steps : Nat} {c c' : Cursor} {placed : List (Nat × Record)}
    (h : recordsWithin steps c = .ok placed c') :
    (∀ p ∈ placed, c.offset ≤ p.1) ∧ (placed.map (·.1)).Pairwise (· < ·) := by
  induction steps generalizing c placed with
  | zero =>
    cases h
    exact ⟨fun p hp => absurd hp List.not_mem_nil, .nil⟩
  | succ steps ih =>
    obtain ⟨_, _, ⟨⟩, h⟩ := bind_eq_ok h
    split at h
    next =>
      cases h
      exact ⟨fun p hp => absurd hp List.not_mem_nil, .nil⟩
    next =>
      obtain ⟨first, c₁, hfirst, h⟩ := bind_eq_ok h
      obtain ⟨others, c₂, hothers, h⟩ := bind_eq_ok h
      cases h
      have hlt := advances_record c first c₁ hfirst
      obtain ⟨hle, hinc⟩ := ih hothers
      constructor
      · intro p hp
        rcases List.mem_cons.mp hp with rfl | hp
        · exact Nat.le_refl _
        · exact Nat.le_of_lt (Nat.lt_of_lt_of_le hlt (hle p hp))
      · refine List.pairwise_cons.mpr ⟨fun o ho => ?_, hinc⟩
        obtain ⟨p, hp, rfl⟩ := List.mem_map.mp ho
        exact Nat.lt_of_lt_of_le hlt (hle p hp)

end Reader

theorem Record.readAll_increasing {bytes : List UInt8} {placed : List (Nat × Record)}
    (h : readAll bytes = .ok placed) : (placed.map (·.1)).Pairwise (· < ·) := by
  rw [readAll, Reader.runOn] at h
  split at h
  next hread =>
    cases h
    exact (Reader.recordsWithin_increasing hread).2
  next => cases h

/-- Where there are bytes there is a record. -/
theorem Record.readAll_ne_nil {bytes : List UInt8} {placed : List (Nat × Record)}
    (h : readAll bytes = .ok placed) (hne : bytes ≠ []) : placed ≠ [] := by
  rw [readAll, Reader.runOn] at h
  split at h
  next hread =>
    cases h
    cases bytes with
    | nil => exact absurd rfl hne
    | cons b bytes =>
      obtain ⟨_, _, ⟨⟩, hread⟩ := Reader.bind_eq_ok hread
      obtain ⟨first, c, -, hread⟩ := Reader.bind_eq_ok hread
      obtain ⟨others, c', -, ⟨⟩⟩ := Reader.bind_eq_ok hread
      exact List.cons_ne_nil _ _
  next => cases h

/-! ## Edges -/

namespace Template

/-- Every edge runs to a later node, and no node is claimed twice. -/
structure Sound (t : Template) : Prop where
  forward : ∀ e ∈ t.edges, e.parent < e.child
  inside : ∀ e ∈ t.edges, e.child < t.nodes.length
  claimed_once : (t.edges.map (·.child)).Nodup

theorem parentIn?_eq_none {edges : List TemplateEdge} {node : Nat} :
    parentIn? edges node = none ↔ node ∉ edges.map (·.child) := by
  rw [parentIn?, Option.map_eq_none_iff, List.find?_eq_none, List.mem_map]
  constructor
  · rintro h ⟨e, he, rfl⟩
    exact h e he (beq_self_eq_true e.child)
  · intro h e he heq
    exact h ⟨e, he, beq_iff_eq.mp heq⟩

theorem mem_of_parentIn?_eq_some {edges : List TemplateEdge} {node p : Nat}
    (h : parentIn? edges node = some p) : ⟨p, node⟩ ∈ edges := by
  obtain ⟨e, he, rfl⟩ := Option.map_eq_some_iff.mp h
  have hchild := List.find?_some he
  rw [beq_iff_eq] at hchild
  exact hchild ▸ List.mem_of_find?_eq_some he

theorem parentIn?_eq_some {edges : List TemplateEdge} {node p : Nat}
    (h : (edges.map (·.child)).Nodup) :
    parentIn? edges node = some p ↔ ⟨p, node⟩ ∈ edges := by
  refine ⟨mem_of_parentIn?_eq_some, fun hmem => ?_⟩
  cases hq : parentIn? edges node with
  | none => exact absurd (List.mem_map.mpr ⟨_, hmem, rfl⟩) (parentIn?_eq_none.mp hq)
  | some q =>
    have heq := List.inj_on_of_nodup_map h (mem_of_parentIn?_eq_some hq) hmem rfl
    exact congrArg (fun e => some e.parent) heq

theorem parentIn?_append (edges : List TemplateEdge) (e : TemplateEdge) (node : Nat) :
    parentIn? (edges ++ [e]) node =
      (parentIn? edges node).or (if e.child = node then some e.parent else none) := by
  rw [parentIn?, parentIn?, List.find?_append, Option.map_or, List.find?_singleton]
  by_cases he : e.child = node <;> simp [he]

/-- Where edges run forward, going up never leads to a later node. -/
theorem le_of_mem_lineageIn {edges : List TemplateEdge} (h : ∀ e ∈ edges, e.parent < e.child)
    {steps node upper : Nat} (hm : upper ∈ lineageIn edges steps node) : upper ≤ node := by
  induction steps generalizing node with
  | zero => exact Nat.le_of_eq (List.mem_singleton.mp hm)
  | succ steps ih =>
    rw [lineageIn] at hm
    rcases List.mem_cons.mp hm with rfl | hm
    · exact Nat.le_refl _
    · cases hp : parentIn? edges node with
      | none =>
        rw [hp] at hm
        exact absurd hm List.not_mem_nil
      | some p =>
        rw [hp] at hm
        have hlt : p < node := h _ (mem_of_parentIn?_eq_some hp)
        exact Nat.le_trans (ih hm) (Nat.le_of_lt hlt)

theorem nodeAt?_eq_some {nodes : List TemplateNode} {offset node : Nat}
    (h : nodeAt? nodes offset = some node) : ∃ n, nodes[node]? = some n ∧ n.offset = offset := by
  obtain ⟨hlt, hoffset, -⟩ := List.findIdx?_eq_some_iff_getElem.mp h
  exact ⟨nodes[node], List.getElem?_eq_getElem hlt, beq_iff_eq.mp hoffset⟩

/-- A reference to be taken: it is made by a node, and points at no place
before that. -/
def Pointed (nodes : List TemplateNode) (ref : Nat × Nat) : Prop :=
  ∃ n, nodes[ref.1]? = some n ∧ n.offset ≤ ref.2

theorem pointed_of_mem_refsOf {nodes : List TemplateNode} {ref : Nat × Nat}
    (h : ref ∈ refsOf nodes) : Pointed nodes ref := by
  obtain ⟨⟨n, i⟩, hn, href⟩ := List.mem_flatMap.mp h
  obtain ⟨r, -, rfl⟩ := List.mem_map.mp href
  exact ⟨n, List.mem_zipIdx_iff_getElem?.mp hn, Nat.le_add_right _ _⟩

/-- Nodes at increasing offsets stand in the order of their offsets. -/
theorem le_of_offset_le {nodes : List TemplateNode} (h : (nodes.map (·.offset)).Pairwise (· < ·))
    {i j : Nat} {m n : TemplateNode} (hi : nodes[i]? = some m) (hj : nodes[j]? = some n)
    (hle : m.offset ≤ n.offset) : i ≤ j := by
  by_contra hlt
  rw [List.pairwise_map, List.pairwise_iff_getElem] at h
  obtain ⟨hi', rfl⟩ := List.getElem?_eq_some_iff.mp hi
  obtain ⟨hj', rfl⟩ := List.getElem?_eq_some_iff.mp hj
  have := h j i hj' hi' (Nat.not_le.mp hlt)
  omega

theorem nodes_take (t : Template) (ref : Nat × Nat) : (t.take ref).nodes = t.nodes := by
  unfold take
  split
  next => rfl
  next =>
    split
    next => rfl
    next => split <;> rfl

theorem Sound.take {t : Template} {ref : Nat × Nat}
    (h : t.Sound) (hinc : (t.nodes.map (·.offset)).Pairwise (· < ·))
    (href : Pointed t.nodes ref) : (t.take ref).Sound := by
  have hsame (ns : List UnresolvedRef) : { t with unresolved := ns }.Sound :=
    ⟨h.forward, h.inside, h.claimed_once⟩
  unfold Template.take
  dsimp only
  split
  next => exact hsame _
  next child hchild =>
    split
    next => exact hsame _
    next hfree =>
      split
      next => exact hsame _
      next hcycle =>
        obtain ⟨n, hn, hle⟩ := href
        obtain ⟨m, hm, hoffset⟩ := nodeAt?_eq_some hchild
        -- the lineage begins with the node itself, so a node never claims itself
        have hne : ref.1 ≠ child := by
          rintro rfl
          exact hcycle (List.contains_iff_mem.mpr (by cases t.nodes.length <;> simp [lineageIn]))
        have hlt : ref.1 < child :=
          Nat.lt_of_le_of_ne (le_of_offset_le hinc hn hm (hoffset ▸ hle)) hne
        have hinside : child < t.nodes.length := (List.getElem?_eq_some_iff.mp hm).1
        have hnew : child ∉ t.edges.map (·.child) :=
          parentIn?_eq_none.mp (Option.not_isSome_iff_eq_none.mp hfree)
        refine ⟨fun e he => ?_, fun e he => ?_, ?_⟩
        · rcases List.mem_append.mp he with he | he
          · exact h.forward e he
          · rw [List.mem_singleton.mp he]
            exact hlt
        · rcases List.mem_append.mp he with he | he
          · exact h.inside e he
          · rw [List.mem_singleton.mp he]
            exact hinside
        · rw [List.map_append]
          refine List.nodup_append.mpr ⟨h.claimed_once, List.nodup_singleton _, ?_⟩
          rintro a ha b hb rfl
          rw [List.mem_singleton.mp hb] at ha
          exact hnew ha

/-- Before the first reference there are no edges. -/
theorem sound_start (nodes : List TemplateNode) :
    Sound { nodes, edges := [], unresolved := [] } where
  forward _ he := absurd he List.not_mem_nil
  inside _ he := absurd he List.not_mem_nil
  claimed_once := .nil

theorem nodes_ofNodes (nodes : List TemplateNode) : (ofNodes nodes).nodes = nodes :=
  List.foldlRecOn (motive := fun t : Template => t.nodes = nodes) (refsOf nodes) take rfl
    fun t ht ref _ => (t.nodes_take ref).trans ht

theorem ofNodes_sound {nodes : List TemplateNode}
    (hinc : (nodes.map (·.offset)).Pairwise (· < ·)) : (ofNodes nodes).Sound := by
  suffices hfold : ∀ (refs : List (Nat × Nat)) (t : Template), t.nodes = nodes → t.Sound →
      (∀ ref ∈ refs, Pointed nodes ref) → (refs.foldl Template.take t).Sound from
    hfold _ _ rfl (sound_start nodes) fun _ => pointed_of_mem_refsOf
  intro refs
  induction refs with
  | nil => exact fun _ _ ht _ => ht
  | cons ref refs ih =>
    rintro t rfl ht hrefs
    have htake := ht.take hinc (hrefs ref List.mem_cons_self)
    exact ih (t.take ref) (t.nodes_take ref) htake
      fun r hr => hrefs r (List.mem_cons_of_mem _ hr)

/-- Whatever bytes a template is read from, its edges make a forest. -/
theorem read_sound {bytes : List UInt8} {t : Template} (h : read bytes = .ok t) : t.Sound := by
  rw [read] at h
  cases hread : Record.readAll bytes with
  | error e =>
    rw [hread] at h
    cases h
  | ok placed =>
    rw [hread] at h
    cases h
    refine ofNodes_sound ?_
    rw [List.map_map]
    exact Record.readAll_increasing hread

/-! ## Roots -/

theorem mem_roots {t : Template} {node : Nat} :
    node ∈ t.roots ↔ node < t.nodes.length ∧ parentIn? t.edges node = none := by
  rw [roots, List.mem_filter, List.mem_range, Option.isNone_iff_eq_none]

theorem roots_of_nil {t : Template} (h : t.nodes = []) : t.roots = [] := by
  rw [roots, h]
  rfl

theorem roots_nodup (t : Template) : t.roots.Nodup := List.nodup_range.filter _

/-- The first node is a root. -/
theorem Sound.zero_mem_roots {t : Template} (h : t.Sound) (hn : 0 < t.nodes.length) :
    0 ∈ t.roots := by
  refine mem_roots.mpr ⟨hn, parentIn?_eq_none.mpr fun hm => ?_⟩
  obtain ⟨e, he, hzero⟩ := List.mem_map.mp hm
  exact absurd (h.forward e he) (hzero ▸ Nat.not_lt_zero _)

end Template

end SceneTree
