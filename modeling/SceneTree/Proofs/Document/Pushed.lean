import Mathlib
import SceneTree.Proofs.Document.Reach
import SceneTree.Proofs.Document.Tree

/-!
# A pushed tree is the tree that is read

Drafts are pushed one by one, each below an earlier one or below none. They
may become the template of a component, or the elements of a document.
Either way what comes out at the end is the tree that was pushed
(`Pushes.Ordered.survives`): strings take their indices, records their
places, links become distances and bytes, and the bytes are read and linked
again, and no link is lost, moved or added.

The bound on this is the block: 255 children, since a count is a byte, and
65535 bytes, since a distance is two.
-/

namespace SceneTree

/-! ## Records of drafts -/

theorem Draft.childRefs_toRecord (d : Draft) (t : Tables) :
    (d.toRecord.run t).1.childRefs = [] := by
  unfold toRecord
  cases d.name <;> rfl

/-- Drafts become records without references. -/
theorem Draft.childRefs_of_mem_mapM {ds : List Draft} {t : Tables} {r : Record}
    (h : r ∈ ((ds.mapM Draft.toRecord).run t).1) : r.childRefs = [] := by
  induction ds generalizing t with
  | nil => exact absurd h List.not_mem_nil
  | cons d ds ih =>
    rw [List.mapM_cons] at h
    rcases List.mem_cons.mp h with rfl | h
    · exact d.childRefs_toRecord t
    · exact ih h

/-- Filling in references changes nothing else. -/
theorem Outline.filled_withoutRefs (o : Outline) (t : Tables) :
    (o.filled t).map (fun r => { r with childRefs := [] }) =
      (o.bare t).map fun r => { r with childRefs := [] } := by
  apply List.ext_getElem?
  intro i
  rw [List.getElem?_map, List.getElem?_map]
  cases hn : o.nodes[i]? with
  | none =>
    have hi := List.getElem?_eq_none_iff.mp hn
    rw [List.getElem?_eq_none (o.length_filled t ▸ hi),
      List.getElem?_eq_none (o.length_bare t ▸ hi)]
  | some n =>
    obtain ⟨r, hr⟩ := exists_bare t hn
    rw [getElem?_filled hn hr, hr]
    rfl

namespace Pushes

variable {ps : Pushes} {t : Tables} {i : Nat} {r : Record}

theorem Ordered.bare_eq (h : ps.Ordered) (t : Tables) :
    ps.outline.bare t = (((ps.map (·.1)).mapM Draft.toRecord).run t).1 := by
  have hdrafts : ps.map (·.1) = ps.outline.nodes.map (·.draft) := by
    rw [h.nodes_outline.2]
    apply List.ext_getElem?
    intro i
    rw [List.getElem?_map, List.getElem?_map, List.getElem?_mapIdx, Option.map_map]
    rfl
  rw [hdrafts, List.mapM_map]
  rfl

/-- The block of the outline, with its records in some form that keeps
references. -/
def nodes (ps : Pushes) (t : Tables) (form : Record → Record) : List TemplateNode :=
  ((ps.outline.reserved t).zip ((ps.outline.filled t).map form)).map fun p => ⟨p.1, p.2⟩

theorem Ordered.length_filled (h : ps.Ordered) (t : Tables) :
    (ps.outline.filled t).length = ps.length := by
  rw [Outline.length_filled, h.length_nodes]

theorem Ordered.map_offset_nodes (h : ps.Ordered) (t : Tables) (form : Record → Record) :
    (ps.nodes t form).map (·.offset) = ps.outline.reserved t := by
  rw [nodes, List.map_map]
  refine List.map_fst_zip (Nat.le_of_eq ?_)
  rw [List.length_map, h.length_reserved, h.length_filled]

theorem Ordered.map_record_nodes (h : ps.Ordered) (t : Tables) (form : Record → Record) :
    (ps.nodes t form).map (·.record) = (ps.outline.filled t).map form := by
  rw [nodes, List.map_map]
  refine List.map_snd_zip (Nat.le_of_eq ?_)
  rw [List.length_map, h.length_reserved, h.length_filled]

/-- The records of the block, without their references, are those of the
drafts. -/
theorem Ordered.records_nodes (h : ps.Ordered) (t : Tables) :
    (ps.nodes t Record.normal).map (fun n => { n.record with childRefs := [] }) =
      (((ps.map (·.1)).mapM Draft.toRecord).run t).1.map (·.normal) := by
  let bare (r : Record) : Record := { r with childRefs := [] }
  have hsame : (ps.outline.bare t).map bare = ps.outline.bare t := by
    refine (List.map_congr_left fun r hr => ?_).trans (List.map_id _)
    rw [h.bare_eq] at hr
    show ({ r with childRefs := [] } : Record) = r
    rw [← Draft.childRefs_of_mem_mapM hr]
  calc (ps.nodes t Record.normal).map (fun n => { n.record with childRefs := [] })
    _ = ((ps.nodes t Record.normal).map (·.record)).map bare := by rw [List.map_map]; rfl
    _ = ((ps.outline.filled t).map Record.normal).map bare := by rw [h.map_record_nodes]
    _ = ((ps.outline.filled t).map bare).map Record.normal := by
      rw [List.map_map, List.map_map]
      rfl
    _ = ((ps.outline.bare t).map bare).map Record.normal :=
      congrArg (List.map Record.normal) (ps.outline.filled_withoutRefs t)
    _ = _ := by rw [hsame, h.bare_eq]

section Short

variable (h : ps.Ordered) (hfew : ∀ j, (ps.children j).length ≤ 255)
  (hshort : ((ps.outline.filled t).flatMap (·.toBytes)).length ≤ 65535)

include h hfew hshort

/-- In a short block the references are to the children. -/
theorem Ordered.spells {form : Record → Record}
    (hform : ∀ r : Record, r.childRefs.length ≤ 255 → (form r).childRefs = r.childRefs) :
    Template.Spells (ps.nodes t form) ps where
  length_eq := by
    rw [nodes, List.length_map, List.length_zip, List.length_map, h.length_reserved,
      h.length_filled, Nat.min_self]
  increasing := by
    rw [h.map_offset_nodes]
    exact ps.reserved_increasing t
  refs i n hn := by
    have hoffset : (ps.outline.reserved t)[i]? = some n.offset := by
      rw [← h.map_offset_nodes t form, List.getElem?_map, hn]
      rfl
    have hrecord : ((ps.outline.filled t).map form)[i]? = some n.record := by
      rw [← h.map_record_nodes t form, List.getElem?_map, hn]
      rfl
    rw [List.getElem?_map] at hrecord
    obtain ⟨r, hr, hform'⟩ := Option.map_eq_some_iff.mp hrecord
    have hrefs := h.childRefs_filled hfew hshort hr
    have hkept : n.record.childRefs = r.childRefs := by
      rw [← hform']
      refine hform r ?_
      rw [hrefs, List.length_map]
      exact hfew i
    rw [hkept, hrefs, List.map_map, h.map_offset_nodes]
    apply List.map_congr_left
    intro c hc
    have hle := h.getD_reserved_le t hc
    have hlt := h.reserved_lt hfew hshort c
    have hbase : (ps.outline.reserved t).getD i 0 = n.offset := by
      rw [List.getD_eq_getElem?_getD, hoffset, Option.getD_some]
    rw [hbase] at hle ⊢
    rw [Function.comp_apply, UInt16.toNat_ofNat']
    omega

/-- The block of a pushed template is read back as the tree. -/
theorem Ordered.read_template :
    Template.read ((ps.outline.filled t).flatMap (·.toBytes)) =
        .ok (.ofNodes (ps.nodes t Record.normal)) ∧
      Template.Spells (ps.nodes t Record.normal) ps := by
  refine ⟨?_, h.spells hfew hshort fun r hr => List.take_of_length_le hr⟩
  rw [Template.read, Record.readAll_flatMap, ← h.reserved_eq hfew hshort]
  rfl

end Short

end Pushes

/-! ## Pushing into a builder -/

namespace Builder

variable {b : Builder} {ps : Pushes}

def pushAll (b : Builder) (ps : Pushes) : Builder := ps.foldl (fun b p => (b.push p.1 p.2).2) b

/-- A builder without elements takes the pushes into its outline, and that
is all it does. -/
theorem pushAll_eq (hps : ps.Ordered) (hb : b.outline = .blank) :
    b.pushAll ps = { b with outline := ps.outline } := by
  induction ps using List.reverseRecOn with
  | nil =>
    rw [show Pushes.outline [] = b.outline from hb.symm]
    rfl
  | append_singleton ps q ih =>
    have hignored := hps.nodes_outline.1
    rw [Pushes.outline_snoc] at hignored
    have hlast : b.pushAll (ps ++ [q]) = ((b.pushAll ps).push q.1 q.2).2 := by
      rw [pushAll, List.foldl_append]
      rfl
    rw [hlast, ih (hps.of_snoc ps q), Pushes.outline_snoc, push, withOutline]
    generalize (Pushes.outline ps).push q.1 q.2 = o at hignored ⊢
    obtain ⟨nodes, _⟩ := o
    obtain rfl : _ = [] := hignored
    rw [Tables.note, List.append_nil]

end Builder

/-! ## Linking a block of nodes -/

namespace Document.Holds

variable {D : Document} {nodes : List TemplateNode}

theorem hasTree (h : D.Holds nodes) (st : Settings) :
    ((Scene.ofDocument D st).connect D).HasTree (.ofNodes nodes) := by
  rw [Scene.connect, if_pos h.offsets_length, h.refs_eq]
  exact (h.hasTree_start st).foldl_take (Template.sound_start nodes) h
    fun ref href => Template.pointed_of_mem_refsOf href

theorem roots_eq (h : D.Holds nodes) (st : Settings) :
    ((Scene.ofDocument D st).connect D).scene.roots =
      (Template.ofNodes nodes).roots.map ElementId.mk :=
  (h.hasTree st).roots_eq (Template.ofNodes_sound h.increasing)
    ((Session.grows_linkedScene D st).forest Scene.forest_empty)

/-- A block with an element has a root. -/
theorem rootsOf_eq (h : D.Holds nodes) (st : Settings) :
    ((Scene.ofDocument D st).connect D).scene.rootsOf D =
      if nodes = [] then .error (.noRoots 0)
      else .ok ((Template.ofNodes nodes).roots.map ElementId.mk) := by
  have hall : ((Scene.ofDocument D st).connect D).scene.documentRoots D =
      (Template.ofNodes nodes).roots.map ElementId.mk :=
    (Scene.documentRoots_linkedScene D st).trans (h.roots_eq st)
  have hempty : ((Template.ofNodes nodes).roots.map ElementId.mk).isEmpty ↔ nodes = [] := by
    rw [List.isEmpty_iff, List.map_eq_nil_iff]
    constructor
    · intro hroots
      by_contra hne
      have hzero := (Template.ofNodes_sound h.increasing).zero_mem_roots
        ((Template.nodes_ofNodes nodes).symm ▸ List.length_pos_iff.mpr hne)
      exact absurd (hroots ▸ hzero) List.not_mem_nil
    · rintro rfl
      rfl
  rw [Scene.rootsOf, if_neg (not_not.mpr h.offsets_length), hall, h.length_eq]
  split
  next hnone =>
    obtain rfl := hempty.mp hnone
    rfl
  next hsome => rw [if_neg (mt hempty.mpr hsome)]

end Document.Holds

namespace Pushes

variable {ps : Pushes}

/-- A document made of the pushes has the block of them. -/
theorem Ordered.holds (h : ps.Ordered) {d : Document} {t : Tables}
    (hrecords : d.records = ps.outline.filled t) (hoffsets : d.offsets = ps.outline.reserved t) :
    d.Holds (ps.nodes t id) where
  records := by rw [hrecords, h.map_record_nodes, List.map_id]
  offsets := by rw [hoffsets, h.map_offset_nodes]
  increasing := by
    rw [h.map_offset_nodes]
    exact ps.reserved_increasing t

/-- A tree of pushes, each below an earlier one or below none, with no more
than 255 children anywhere. As the template of a component it is read back
whole if the template has 65535 bytes at most: the nodes are the records of
the drafts in their normal forms, in order, and they hang together as
pushed. In a builder without elements it becomes a document, and if the
records of that have 65535 bytes at most, its elements hang together as
pushed once they are linked, and no reference is skipped. The roots are
found too, unless nothing was pushed. -/
theorem Ordered.survives (h : ps.Ordered) (hfew : ∀ j, (ps.children j).length ≤ 255) :
    (∀ (b : Builder) (name : String) (parameters : List Parameter), ∃ template,
      (b.addComponent name parameters ps.outline).components =
        b.components ++ [⟨name, parameters, template⟩] ∧
      (template.length ≤ 65535 → ∃ t, Template.read template = .ok t ∧
        t.nodes.map (fun n => { n.record with childRefs := [] }) =
          (((ps.map (·.1)).mapM Draft.toRecord).run b.tables).1.map (·.normal) ∧
        (∀ j, (t.edges.filter (·.parent == j)).map (·.child) = ps.children j) ∧
        (∀ i, Template.parentIn? t.edges i = ps.parent? i) ∧
        t.roots = ps.roots ∧ t.unresolved = [])) ∧
    ∀ (b : Builder) (st : Settings), b.outline = .blank →
      let d := (b.pushAll ps).build.1
      let l := (Scene.ofDocument d st).connect d
      (d.records.flatMap (·.toBytes)).length ≤ 65535 →
        (∀ i, l.scene.contains i ↔ i.index < ps.length) ∧
        (∀ i, l.scene.parent? i = (ps.parent? i.index).map ElementId.mk) ∧
        (∀ i, l.scene.children i = (ps.children i.index).map ElementId.mk) ∧
        l.scene.roots = ps.roots.map ElementId.mk ∧ l.skipped = [] ∧
        l.scene.rootsOf d =
          if ps = [] then .error (.noRoots 0) else .ok (ps.roots.map ElementId.mk) := by
  constructor
  · intro b name parameters
    have htables : b.tables.note ps.outline.ignored = b.tables := by
      rw [h.nodes_outline.1, Tables.note, List.append_nil]
    refine ⟨(ps.outline.filled b.tables).flatMap (·.toBytes), ?_, fun hshort => ?_⟩
    · rw [Builder.addComponent, htables]
      rfl
    · obtain ⟨hread, hspells⟩ := h.read_template hfew hshort
      have hroots := hspells.roots_ofNodes h
      rw [hspells.ofNodes_eq h] at hread hroots
      exact ⟨_, hread, h.records_nodes b.tables, h.filter_edges, h.parentIn?_edges, hroots, rfl⟩
  · intro b st hb d l hshort
    have hbuilt : d = ({ b with outline := ps.outline } : Builder).build.1 := by
      rw [← Builder.pushAll_eq h hb]
    have hrecords : d.records = ps.outline.filled b.tables := by rw [hbuilt]; rfl
    have hoffsets : d.offsets = ps.outline.reserved b.tables := by rw [hbuilt]; rfl
    have hD := h.holds hrecords hoffsets
    have hspells : Template.Spells (ps.nodes b.tables id) ps :=
      h.spells hfew (hrecords ▸ hshort) fun _ _ => rfl
    have htree : l.HasTree { nodes := ps.nodes b.tables id, edges := ps.edges, unresolved := [] } :=
      hspells.ofNodes_eq h ▸ hD.hasTree st
    have hsound := hspells.ofNodes_eq h ▸ Template.ofNodes_sound hD.increasing
    refine ⟨fun i => ?_, fun i => ?_, fun i => ?_, ?_, ?_, ?_⟩
    · rw [htree.contains_iff, ← hspells.length_eq]
    · rw [htree.parent?_eq hsound, h.parentIn?_edges]
    · rw [htree.children_eq, ← h.filter_edges, List.map_map]
      rfl
    · rw [← hspells.roots_ofNodes h]
      exact hD.roots_eq st
    · exact List.map_eq_nil_iff.mp htree.skipped_eq
    · rw [hD.rootsOf_eq st, hspells.roots_ofNodes h]
      simp only [hspells.nodes_eq_nil_iff]

/-- A text below a container, which stands before another container. -/
def sapling : Pushes :=
  [(.app, none), (.container, some 0), (.label "leaf", some 1), (.container, some 0)]

theorem sapling_survives : sapling.Ordered ∧ (∀ j, (sapling.children j).length ≤ 255) ∧
    let b := Builder.blank.addComponent "Twig" [] sapling.outline
    let d := (b.pushAll sapling).build.1
    let l := (Scene.ofDocument d (.ofDocument d)).connect d
    (d.records.flatMap (·.toBytes)).length ≤ 65535 ∧
    (∃ template t, b.components = [⟨"Twig", [], template⟩] ∧ Template.read template = .ok t ∧
      (t.edges.filter (·.parent == 0)).map (·.child) = [1, 3] ∧ t.roots = [0] ∧
        t.unresolved = []) ∧
    l.scene.children ⟨0⟩ = [⟨1⟩, ⟨3⟩] ∧ l.scene.parent? ⟨2⟩ = some ⟨1⟩ ∧ l.skipped = [] ∧
      l.scene.rootsOf d = .ok [⟨0⟩] := by
  have hordered : sapling.Ordered := by decide
  have hfew (j : Nat) : (sapling.children j).length ≤ 255 :=
    (sapling.length_children_le j).trans (by decide)
  obtain ⟨htemplate, hdocument⟩ := hordered.survives hfew
  refine ⟨hordered, hfew, ?_⟩
  intro b d l
  have hshort : (d.records.flatMap (·.toBytes)).length ≤ 65535 := by decide
  obtain ⟨-, hparent, hchildren, -, hskipped, hroots⟩ := hdocument b (.ofDocument d) rfl hshort
  refine ⟨hshort, ?_, hchildren ⟨0⟩, hparent ⟨2⟩, hskipped, hroots⟩
  obtain ⟨template, hcomponents, hread⟩ := htemplate Builder.blank "Twig" []
  have hwritten : (sapling.outline.filled .blank).flatMap (·.toBytes) = template :=
    (Component.mk.inj (List.head_eq_of_cons_eq hcomponents)).2.2
  have hlength : template.length ≤ 65535 := hwritten ▸ by decide
  obtain ⟨t, ht, -, hedges, -, htroots, hunresolved⟩ := hread hlength
  exact ⟨template, t, hcomponents, ht, hedges 0, htroots, hunresolved⟩

end Pushes

end SceneTree
