import SceneTree.Proofs.Session.Linked

/-!
# The roots of a linked document

The references of a document may say anything: that two elements share a
child, that one is its own, that records stand where none can. Linking
takes one reference after the other and keeps what can be kept, so the
elements hang together as a forest at every moment, and a forest that has
elements has roots. No line of linking sees to that: it holds because
going up in a finite forest ends (`Scene.Forest.exists_root_atOrAbove`).

What linking does keep is told by `Linking.Heeds`: no edge without a
reference, and no reference to a root unless it is made at or below that
root. Without a table that matches the records there is nothing to link,
and then there are no roots to speak of.
-/

namespace SceneTree

variable {d : Document} {st : Settings}

/-- What a scene that was linked by the references `refs` owes them: every
edge is one of them, and where one of them lands there is a parent, or
else the reference comes from the element itself or from below it. -/
structure Linking.Heeds (d : Document) (refs : List (ElementId × Nat)) (l : Linking) : Prop where
  forest : l.scene.Forest
  live : ∀ y, l.scene.contains y ↔ y.index < d.records.length
  made : ∀ c p, l.scene.parent? c = some p → ∃ ref ∈ refs, ref.1 = p ∧ d.recordAt? ref.2 = some c
  taken : ∀ ref ∈ refs, ∀ c, d.recordAt? ref.2 = some c →
    l.scene.parent? c ≠ none ∨ l.scene.AtOrAbove c ref.1

namespace Document

theorem index_lt_of_recordAt? {offset : Nat} {c : ElementId} (h : d.recordAt? offset = some c) :
    c.index < d.offsets.length := by
  obtain ⟨i, hi, rfl⟩ := Option.map_eq_some_iff.mp h
  obtain ⟨hlt, -⟩ := List.idxOf?_eq_some_iff.mp hi
  rw [List.length_reverse] at hlt
  dsimp only
  omega

theorem index_lt_of_mem_refs {ref : ElementId × Nat} (h : ref ∈ d.refs) :
    ref.1.index < d.records.length := by
  obtain ⟨⟨⟨r, base⟩, i⟩, hi, href⟩ := List.mem_flatMap.mp h
  obtain ⟨n, -, rfl⟩ := List.mem_map.mp href
  have hlt := (List.getElem?_eq_some_iff.mp (List.mem_zipIdx_iff_getElem?.mp hi)).1
  rw [List.length_zip] at hlt
  exact Nat.lt_of_lt_of_le hlt (Nat.min_le_left _ _)

end Document

namespace Linking.Heeds

variable {l : Linking} {refs : List (ElementId × Nat)} {ref : ElementId × Nat}

/-- Without edges there is nothing to answer for. -/
theorem start (d : Document) (st : Settings) :
    Linking.Heeds d [] { scene := .ofDocument d st, skipped := [] } where
  forest := (Scene.grows_addDocument .empty d st).forest Scene.forest_empty
  live y := by
    rw [Scene.contains, (Scene.get?_ofDocument d st).2, Option.isSome_map]
    simp
  made c p hp := by
    rw [Scene.parent?, (Scene.get?_ofDocument d st).2] at hp
    cases hr : d.records[c.index]? <;> rw [hr] at hp <;> cases hp
  taken ref href := absurd href List.not_mem_nil

/-- One reference more that changes nothing. -/
theorem skip (h : l.Heeds d refs) (reason : SkipReason) (hnew : ∀ c, d.recordAt? ref.2 = some c →
    l.scene.parent? c ≠ none ∨ l.scene.AtOrAbove c ref.1) :
    Heeds d (refs ++ [ref])
      { l with skipped := l.skipped ++ [{ parent := ref.1, offset := ref.2, reason }] } where
  forest := h.forest
  live := h.live
  made c p hc := by
    obtain ⟨r, hr, heq⟩ := h.made c p hc
    exact ⟨r, List.mem_append_left _ hr, heq⟩
  taken r hr := by
    rcases List.mem_append.mp hr with hr | hr
    · exact h.taken r hr
    · rw [List.mem_singleton.mp hr]
      exact hnew

/-- One reference more that is an edge. -/
theorem edge (h : l.Heeds d refs) {child : ElementId} {s : Scene}
    (hlink : l.scene.link ref.1 child = .ok s) (hchild : d.recordAt? ref.2 = some child) :
    Heeds d (refs ++ [ref]) { l with scene := s } := by
  have hfree := (Scene.link_eq_ok hlink).2.2.2.1
  have hkeep (c p : ElementId) (hc : l.scene.parent? c = some p) : s.parent? c = some p := by
    have hne : c ≠ child := by
      rintro rfl
      exact Option.some_ne_none p (hc.symm.trans hfree)
    rw [Scene.parent?_link hlink, if_neg hne, hc]
  refine ⟨h.forest.link hlink, fun y => (Scene.contains_link hlink y) ▸ h.live y,
    fun c p hc => ?_, fun r hr c hc => ?_⟩
  · rw [Scene.parent?_link hlink] at hc
    split at hc
    next heq =>
      subst heq
      exact ⟨ref, List.mem_append_right _ List.mem_cons_self, Option.some.inj hc, hchild⟩
    next =>
      obtain ⟨r, hr, heq⟩ := h.made c p hc
      exact ⟨r, List.mem_append_left _ hr, heq⟩
  · rcases List.mem_append.mp hr with hr | hr
    · refine (h.taken r hr c hc).imp (fun hne hnone => ?_) (Scene.AtOrAbove.mono hkeep)
      obtain ⟨p, hp⟩ := Option.ne_none_iff_exists'.mp hne
      exact Option.some_ne_none p ((hkeep c p hp).symm.trans hnone)
    · rw [List.mem_singleton.mp hr, hchild] at hc
      obtain rfl := Option.some.inj hc
      rw [Scene.parent?_link hlink, if_pos rfl]
      exact .inl (Option.some_ne_none _)

/-- One reference more. -/
theorem take (h : l.Heeds d refs) (hp : ref.1.index < d.records.length)
    (htable : d.offsets.length = d.records.length) : (l.take d ref).Heeds d (refs ++ [ref]) := by
  unfold Linking.take
  cases hchild : d.recordAt? ref.2 with
  | none => exact h.skip _ fun c hc => nomatch hchild.symm.trans hc
  | some child =>
    dsimp only
    cases hlink : l.scene.link ref.1 child with
    | ok s => exact h.edge hlink hchild
    | error cause =>
      -- a link is refused only for a parent the child has, or because it lies above
      refine h.skip _ fun c hc => ?_
      obtain rfl := Option.some.inj (hchild.symm.trans hc)
      by_contra hneither
      rw [not_or, not_not] at hneither
      obtain ⟨hfree, hbelow⟩ := hneither
      have hc := (h.live child).mpr (htable ▸ Document.index_lt_of_recordAt? hchild)
      have hne : ref.1 ≠ child := fun heq => hbelow (heq ▸ .refl)
      obtain ⟨s, hok⟩ := Scene.link_ok hne hc ((h.live ref.1).mpr hp) hfree
        (mt h.forest.isAtOrAbove_iff.mp hbelow)
      exact nomatch hlink.symm.trans hok

/-- All references, one after the other. -/
theorem foldl_take {more : List (ElementId × Nat)} (h : l.Heeds d refs)
    (hmore : ∀ ref ∈ more, ref.1.index < d.records.length)
    (htable : d.offsets.length = d.records.length) :
    (more.foldl (Linking.take d) l).Heeds d (refs ++ more) := by
  induction more generalizing l refs with
  | nil => rwa [List.append_nil]
  | cons ref more ih =>
    rw [List.append_cons]
    exact ih (h.take (hmore ref List.mem_cons_self) htable)
      fun r hr => hmore r (List.mem_cons_of_mem _ hr)

/-- All elements there are belong to the document. -/
theorem documentRoots_eq (h : l.Heeds d refs) : l.scene.documentRoots d = l.scene.roots :=
  List.filter_eq_self.mpr fun y hy =>
    decide_eq_true ((h.live y).mp (h.forest.mem_roots.mp hy).1)

/-- Where there is an element, there is one without a parent. -/
theorem roots_eq_nil_iff (h : l.Heeds d refs) : l.scene.roots = [] ↔ d.records = [] := by
  constructor
  · intro hnil
    by_contra hrecords
    obtain ⟨r, hr, -⟩ := h.forest.exists_root_atOrAbove
      ((h.live ⟨0⟩).mpr (List.length_pos_iff.mpr hrecords))
    exact List.ne_nil_of_mem hr hnil
  · intro hrecords
    refine List.eq_nil_iff_forall_not_mem.mpr fun y hy => ?_
    have hlt := (h.live y).mp (h.forest.mem_roots.mp hy).1
    rw [hrecords] at hlt
    exact Nat.not_lt_zero _ hlt

end Linking.Heeds

namespace Scene

/-- Linking the elements of a document, whatever its references and
offsets are. Without an offset for each record nothing is linked, and there
are no roots. Otherwise there are roots exactly when there are elements:
the elements without a parent, in the order of their ids. Every element
lies below exactly one of them, or is one. -/
theorem rootsOf_connect (d : Document) (st : Settings) :
    let l := (ofDocument d st).connect d
    (d.offsets.length ≠ d.records.length →
      l.scene = ofDocument d st ∧ l.skipped = [] ∧
        l.scene.rootsOf d = .error (.offsetCount d.offsets.length d.records.length)) ∧
    (d.offsets.length = d.records.length →
      l.Heeds d d.refs ∧
      ((∃ n, l.scene.rootsOf d = .error (.noRoots n)) ↔ d.records = []) ∧
      (d.records ≠ [] → ∃ roots, l.scene.rootsOf d = .ok roots ∧ roots ≠ [] ∧
        roots.Pairwise (·.index < ·.index) ∧
        (∀ y, y ∈ roots ↔ l.scene.contains y ∧ l.scene.parent? y = none) ∧
        ∀ y, l.scene.contains y → ∃! r, r ∈ roots ∧ l.scene.AtOrAbove r y)) := by
  intro l
  constructor
  · intro htable
    have hl : l = { scene := ofDocument d st, skipped := [] } := if_neg htable
    rw [hl]
    exact ⟨rfl, rfl, if_pos htable⟩
  intro htable
  have hheeds : l.Heeds d d.refs := by
    have hl : l = d.refs.foldl (Linking.take d) { scene := ofDocument d st, skipped := [] } :=
      if_pos htable
    rw [hl]
    exact (Linking.Heeds.start d st).foldl_take (fun _ => Document.index_lt_of_mem_refs) htable
  have hforest := hheeds.forest
  have hroots : l.scene.rootsOf d =
      if d.records = [] then .error (.noRoots d.records.length) else .ok l.scene.roots := by
    rw [rootsOf, if_neg (not_not.mpr htable), hheeds.documentRoots_eq]
    simp only [List.isEmpty_iff, hheeds.roots_eq_nil_iff]
  refine ⟨hheeds, ⟨fun ⟨n, hn⟩ => ?_, fun hrecords => ⟨_, hroots.trans (if_pos hrecords)⟩⟩,
    fun hrecords => ⟨_, hroots.trans (if_neg hrecords), mt hheeds.roots_eq_nil_iff.mp hrecords,
      hforest.roots_increasing, fun y => hforest.mem_roots, fun y hy => ?_⟩⟩
  · by_contra hrecords
    rw [hroots, if_neg hrecords] at hn
    cases hn
  · obtain ⟨r, hr, hup⟩ := hforest.exists_root_atOrAbove hy
    exact ⟨r, ⟨hr, hup⟩, fun q ⟨hq, hup'⟩ => hforest.root_unique hq hr hup' hup⟩

end Scene

namespace Document

/-- Three records, of which the first two are said to begin at one place,
after the third. The first refers to the second, the second to itself, the
third to both itself and the second. -/
def shuffled : Document :=
  { blank with
    records := [{ Record.blank with childRefs := [0] }, { Record.blank with childRefs := [0] },
      { Record.blank with childRefs := [0, 6] }]
    offsets := [10, 10, 4] }

theorem shuffled_roots : ∃ l, l = (Scene.ofDocument shuffled .standard).connect shuffled ∧
    l.skipped = [⟨⟨1⟩, 10, .rejected ⟨1⟩ (.selfLink ⟨1⟩)⟩, ⟨⟨2⟩, 4, .rejected ⟨2⟩ (.selfLink ⟨2⟩)⟩,
      ⟨⟨2⟩, 10, .rejected ⟨1⟩ (.alreadyParented ⟨1⟩ ⟨0⟩)⟩] ∧
    l.scene.rootsOf shuffled = .ok [⟨0⟩, ⟨2⟩] ∧
    ∀ y, l.scene.contains y → ∃! r, r ∈ [⟨0⟩, ⟨2⟩] ∧ l.scene.AtOrAbove r y := by
  obtain ⟨-, -, hroots⟩ := (Scene.rootsOf_connect shuffled .standard).2 rfl
  obtain ⟨roots, hok, -, -, -, hunique⟩ := hroots (List.cons_ne_nil _ _)
  have hfound : ((Scene.ofDocument shuffled .standard).connect shuffled).scene.rootsOf shuffled =
      .ok [⟨0⟩, ⟨2⟩] := rfl
  obtain rfl := Except.ok.inj (hfound.symm.trans hok)
  exact ⟨_, rfl, rfl, hfound, hunique⟩

end Document

end SceneTree
