import SceneTree.Proofs.Session.Growth

/-!
# A linked document

Filling a scene makes the elements of a document, each under the number of
its record, and linking writes no more than edges. So a linked document has
one element for each record, and by itself it is what the record was made
into (`linkedScene_alone?`). What holds of all such elements need not be
proved along the stages of loading (`of_linkedScene`).
-/

namespace SceneTree

/-- The element of a record of the document. -/
def Element.ofRecord (d : Document) (st : Settings) (id : ElementId) (r : Record) : Element :=
  (fresh id (.document id.index) r.header).become d st r

namespace Scene

variable {d : Document} {st : Settings} {s : Scene} {y : ElementId} {e : Element}

theorem size_add (s : Scene) (d : Document) (st : Settings) (source : Source) (h : Header)
    (r : Record) : (s.add d st source h r).slots.size = s.slots.size + 1 := by
  rw [add, size_modify, size_push]

theorem get?_add (s : Scene) (d : Document) (st : Settings) (source : Source) (h : Header)
    (r : Record) (y : ElementId) : (s.add d st source h r).get? y =
      if y = s.nextId then some ((Element.fresh s.nextId source h).become d st r)
      else s.get? y := by
  rw [add, get?_modify]
  split
  next hy => rw [hy, get?_push_nextId, Option.map_some]
  next hy => rw [get?_push_of_ne hy]

/-- Records are made into elements one after the other. -/
theorem get?_foldl_add (d : Document) (st : Settings) (records : List Record) (s : Scene) :
    let t : Scene := (records.zipIdx s.slots.size).foldl
      (fun (s : Scene) ri => s.add d st (.document ri.2) ri.1.header ri.1) s
    t.slots.size = s.slots.size + records.length ∧ ∀ y, t.get? y =
      if s.slots.size ≤ y.index then
        records[y.index - s.slots.size]?.map (Element.ofRecord d st y)
      else s.get? y := by
  induction records generalizing s with
  | nil =>
    refine ⟨rfl, fun y => ?_⟩
    split
    next hy => exact get?_eq_none_of_le hy
    next => rfl
  | cons r records ih =>
    have hsize := size_add s d st (.document s.slots.size) r.header r
    have ih := ih (s.add d st (.document s.slots.size) r.header r)
    rw [hsize] at ih
    obtain ⟨hcount, hget⟩ := ih
    refine ⟨?_, fun y => ?_⟩
    · rw [List.length_cons, Nat.add_comm records.length, ← Nat.add_assoc]
      exact hcount
    · rw [List.zipIdx_cons, List.foldl_cons, hget y, get?_add]
      rcases Nat.lt_trichotomy y.index s.slots.size with hlt | heq | hgt
      · have hne : y ≠ s.nextId := fun hy => Nat.ne_of_lt hlt (congrArg ElementId.index hy)
        rw [if_neg (by omega), if_neg hne, if_neg (by omega)]
      · obtain rfl : y = s.nextId := congrArg ElementId.mk heq
        rw [if_neg (by rw [heq]; omega), if_pos rfl, if_pos (Nat.le_of_eq heq.symm), heq,
          Nat.sub_self]
        rfl
      · obtain ⟨k, hk⟩ := Nat.exists_eq_add_of_lt hgt
        rw [if_pos (by omega), if_pos (by omega), show y.index - s.slots.size = k + 1 by omega,
          show y.index - (s.slots.size + 1) = k by omega, List.getElem?_cons_succ]

/-- The elements of a document are those of its records, by number. -/
theorem get?_ofDocument (d : Document) (st : Settings) :
    (ofDocument d st).slots.size = d.records.length ∧
      ∀ y, (ofDocument d st).get? y = d.records[y.index]?.map (Element.ofRecord d st y) := by
  obtain ⟨hsize, hget⟩ := get?_foldl_add d st d.records empty
  refine ⟨hsize.trans (Nat.zero_add _), fun y => (hget y).trans ?_⟩
  exact if_pos (Nat.zero_le _)

/-- Linking writes no more than edges. -/
theorem connect_alone? (s : Scene) (d : Document) :
    (s.connect d).scene.slots.size = s.slots.size ∧
      ∀ y, (s.connect d).scene.alone? y = s.alone? y := by
  rw [connect]
  split
  next =>
    refine List.foldlRecOn (motive := fun l : Linking => l.scene.slots.size = s.slots.size ∧
      ∀ y, l.scene.alone? y = s.alone? y) d.refs _ ⟨rfl, fun _ => rfl⟩ fun l hl ref _ => ?_
    unfold Linking.take
    split
    next => exact hl
    next =>
      split
      next hlink =>
        exact ⟨(size_link hlink).trans hl.1, fun y => (alone?_link hlink y).trans (hl.2 y)⟩
      next => exact hl
  next => exact ⟨rfl, fun _ => rfl⟩

/-- A linked document has the elements of its records, but for the edges. -/
theorem linkedScene_alone? (d : Document) (st : Settings) :
    (Session.linkedScene d st).1.slots.size = d.records.length ∧
      ∀ y, (Session.linkedScene d st).1.alone? y =
        d.records[y.index]?.map fun r => (Element.ofRecord d st y r).alone := by
  obtain ⟨hmade, hget⟩ := get?_ofDocument d st
  obtain ⟨hsize, halone⟩ := connect_alone? (ofDocument d st) d
  refine ⟨hsize.trans hmade, fun y => (halone y).trans ?_⟩
  rw [alone?, hget, Option.map_map]
  rfl

theorem of_linkedScene (he : (Session.linkedScene d st).1.get? y = some e) :
    ∃ r, d.records[y.index]? = some r ∧ e.alone = (Element.ofRecord d st y r).alone := by
  have halone := (linkedScene_alone? d st).2 y
  rw [alone?, he, Option.map_some] at halone
  obtain ⟨r, hr, heq⟩ := Option.map_eq_some_iff.mp halone.symm
  exact ⟨r, hr, heq.symm⟩

/-- All elements that are there when a document has been linked are of the
document, so its roots are all the roots there are. -/
theorem documentRoots_linkedScene (d : Document) (st : Settings) :
    (Session.linkedScene d st).1.documentRoots d = (Session.linkedScene d st).1.roots := by
  have hforest := (Session.grows_linkedScene d st).forest forest_empty
  refine List.filter_eq_self.mpr fun y hy => decide_eq_true ?_
  rw [← (linkedScene_alone? d st).1]
  exact index_lt_of_contains (hforest.mem_roots.mp hy).1

end Scene

end SceneTree
