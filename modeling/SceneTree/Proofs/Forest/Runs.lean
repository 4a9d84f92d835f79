import SceneTree.Proofs.Forest.Steps

/-!
# Runs of calls

A scene that is built by calls alone, whatever ids they are given and in
whatever order, is a forest. `Sound` spells out what that is worth to
whoever walks in it: both records of every edge, no id in two lists of
children, walks that end by themselves, one root above every live element.

Ids are given out in increasing order and never twice, so what was removed
never comes back.
-/

namespace SceneTree

namespace Scene

variable {s : Scene} {id : ElementId}

/-! ## Calls -/

/-- One call on a scene, with any ids. -/
inductive Call where
  | push (source : Source) (header : Header)
  | link (parent child : ElementId)
  | unlink (child : ElementId)
  | remove (id : ElementId)

namespace Call

/-- The scene after a call. A link that is refused changes nothing. -/
def apply (s : Scene) : Call → Scene
  | .push source header => s.push source header
  | .link parent child =>
    match s.link parent child with
    | .ok linked => linked
    | .error _ => s
  | .unlink child => s.unlink child
  | .remove id => s.remove id

/-- The id a call answers, if it adds an element. -/
def added? (s : Scene) : Call → Option ElementId
  | .push _ _ => some s.nextId
  | _ => none

theorem grows (c : Call) (s : Scene) : s.Grows (c.apply s) := by
  cases c with
  | push source header => exact .of_step (.push source header)
  | link p c =>
    simp only [apply]
    split
    next hl => exact .of_step (.link hl)
    next => exact .refl s
  | unlink c => exact .of_step (.unlink c)
  | remove id => exact .of_step (.remove id)

/-- The id of a new element is the number of slots there were, and there
is one more of them after. -/
theorem index_of_added? {c : Call} (h : c.added? s = some id) :
    id.index = s.slots.size ∧ (c.apply s).slots.size = s.slots.size + 1 := by
  cases c with
  | push source header =>
    cases h
    exact ⟨rfl, size_push s source header⟩
  | _ => cases h

end Call

/-- The scene after a run of calls. -/
def after (s : Scene) (calls : List Call) : Scene := calls.foldl Call.apply s

/-- The ids the additions of a run answer, in order. -/
def addedBy (s : Scene) : List Call → List ElementId
  | [] => []
  | c :: rest => (c.added? s).toList ++ (c.apply s).addedBy rest

theorem grows_after (s : Scene) (calls : List Call) : s.Grows (s.after calls) :=
  Grows.foldl id (fun s c => c.grows s) s calls

theorem after_append (s : Scene) (earlier later : List Call) :
    s.after (earlier ++ later) = (s.after earlier).after later :=
  List.foldl_append

theorem forest_after (calls : List Call) : (empty.after calls).Forest :=
  (grows_after empty calls).forest forest_empty

/-! ## Ids of a run -/

theorem le_index_of_mem_addedBy {calls : List Call} (h : id ∈ s.addedBy calls) :
    s.slots.size ≤ id.index := by
  induction calls generalizing s with
  | nil => exact absurd h List.not_mem_nil
  | cons c rest ih =>
    rw [addedBy, List.mem_append, Option.mem_toList] at h
    rcases h with h | h
    · exact Nat.le_of_eq (c.index_of_added? h).1.symm
    · exact Nat.le_trans (c.grows s).size_le (ih h)

theorem index_lt_of_mem_addedBy {calls : List Call} (h : id ∈ s.addedBy calls) :
    id.index < (s.after calls).slots.size := by
  induction calls generalizing s with
  | nil => exact absurd h List.not_mem_nil
  | cons c rest ih =>
    rw [addedBy, List.mem_append, Option.mem_toList] at h
    rcases h with h | h
    · obtain ⟨hid, hsize⟩ := c.index_of_added? h
      have := ((c.apply s).grows_after rest).size_le
      change id.index < ((c.apply s).after rest).slots.size
      omega
    · exact ih h

/-- Additions answer larger ids each time. -/
theorem addedBy_increasing (s : Scene) (calls : List Call) :
    (s.addedBy calls).Pairwise (·.index < ·.index) := by
  induction calls generalizing s with
  | nil => exact .nil
  | cons c rest ih =>
    rw [addedBy]
    cases hc : c.added? s with
    | none => exact ih _
    | some id =>
      refine List.Pairwise.cons (fun x hx => ?_) (ih _)
      obtain ⟨hid, hsize⟩ := c.index_of_added? hc
      have := le_index_of_mem_addedBy hx
      omega

/-! ## Walking in a forest -/

/-- What the invariant is worth. The walks of a scene are given as many
steps as it has slots; they are the same with any more, so they end by
themselves. -/
structure Sound (s : Scene) : Prop where
  named : ∀ id e, s.get? id = some e → e.id = id
  mirror : ∀ p c, c ∈ s.children p ↔ s.parent? c = some p
  ends_live : ∀ p c, s.parent? c = some p → s.contains p ∧ s.contains c
  listed_once : (s.elements.flatMap (·.children)).Nodup
  acyclic : ∀ id, ¬ s.Above id id
  lineage_nodup : ∀ id, (s.lineage id).Nodup
  lineage_ends : ∀ n id, s.slots.size ≤ n → s.lineageWithin n id = s.lineage id
  isAtOrAbove_iff : ∀ upper id, s.isAtOrAbove upper id ↔ s.AtOrAbove upper id
  descendants_nodup : ∀ id, (s.descendants id).Nodup
  descendants_end : ∀ n id, s.slots.size ≤ n →
    (s.visitWithin (fun _ => true) n [id]).map (·.id) = s.descendants id
  mem_descendants : ∀ id x, x ∈ s.descendants id ↔ s.contains x ∧ s.AtOrAbove id x
  one_root : ∀ id, s.contains id → ∃! r, r ∈ s.roots ∧ s.AtOrAbove r id

/-- No id stands in two lists of children, nor twice in one. -/
theorem Forest.listed_once (h : s.Forest) : (s.elements.flatMap (·.children)).Nodup := by
  have hchildren {e : Element} (he : e ∈ s.elements) : s.children e.id = e.children :=
    children_of_get? (h.mem_elements.mp he)
  have hparent {e : Element} {x : ElementId} (he : e ∈ s.elements) (hx : x ∈ e.children) :
      s.parent? x = some e.id := by
    rw [← hchildren he] at hx
    exact h.mirror.mp hx
  refine List.nodup_flatMap.mpr ⟨fun e he => hchildren he ▸ h.children_nodup e.id, ?_⟩
  refine (List.pairwise_map.mp h.ids_nodup).imp_of_mem fun {a b} ha hb hne x hxa hxb => hne ?_
  exact Option.some.inj ((hparent ha hxa).symm.trans (hparent hb hxb))

theorem Forest.sound (h : s.Forest) : s.Sound where
  named _ _ := h.named
  mirror _ _ := h.mirror
  ends_live _ _ hp := ⟨h.contains_parent hp, contains_of_parent? hp⟩
  listed_once := h.listed_once
  acyclic := h.acyclic
  lineage_nodup := h.lineageWithin_nodup _
  lineage_ends _ id hn := h.lineageWithin_eq hn id
  isAtOrAbove_iff _ _ := h.isAtOrAbove_iff
  descendants_nodup id := by
    rw [h.descendants_eq]
    exact h.subtree_nodup id
  descendants_end _ id hn := by rw [h.map_visitWithin_singleton hn, h.descendants_eq]
  mem_descendants _ _ := h.mem_descendants
  one_root id hid := by
    obtain ⟨r, hr, ha⟩ := h.exists_root_atOrAbove hid
    exact ⟨r, ⟨hr, ha⟩, fun q hq => h.root_unique hq.1 hr hq.2 ha⟩

/-- Whatever is called on an empty scene, it stays a forest in which every
walk ends, ids grow with each addition, and what is gone stays gone. -/
theorem sound_after (calls : List Call) :
    (empty.after calls).Sound ∧
      (empty.addedBy calls).Pairwise (·.index < ·.index) ∧
      ∀ earlier later, calls = earlier ++ later →
        ∀ id ∈ empty.addedBy earlier, ¬ (empty.after earlier).contains id →
          ¬ (empty.after calls).contains id := by
  refine ⟨(forest_after calls).sound, addedBy_increasing empty calls, ?_⟩
  intro earlier later hcalls id hid hgone hback
  rw [hcalls, after_append] at hback
  exact hgone ((grows_after _ later).contains_of_lt (index_lt_of_mem_addedBy hid) hback)

end Scene

end SceneTree
