import SceneTree.Proofs.Forest.Steps

/-!
# Steps one after another

What becomes of a scene when several elements are unlinked, removed or
hung under one parent in turn. Each operation moves elements and leaves
the rest of them alone, so an element is told by three readings: what it
is by itself (`Element.alone`), its parent, and its children.

Ways up are compared along sets that are closed upwards: where two scenes
agree on the parents of such a set, they agree on what is above its
members (`atOrAbove_congr`).
-/

namespace SceneTree

/-- The element by itself, out of the tree. -/
def Element.alone (e : Element) : Element := { e with parent := none, children := [] }

namespace Scene

variable {s t : Scene} {e : Element} {id x y p c upper : ElementId} {l : List ElementId}

/-! ## Readings -/

/-- An element as it is by itself. -/
def alone? (s : Scene) (id : ElementId) : Option Element := (s.get? id).map Element.alone

theorem contains_of_alone? (h : t.alone? x = s.alone? x) : t.contains x = s.contains x := by
  have hsome := congrArg Option.isSome h
  rwa [alone?, alone?, Option.isSome_map, Option.isSome_map] at hsome

/-- The three readings tell an element. -/
theorem get?_of_alone? (h : t.alone? x = s.alone? x) (he : s.get? x = some e) :
    t.get? x = some { e with parent := t.parent? x, children := t.children x } := by
  rw [alone?, alone?, he, Option.map_some, Option.map_eq_some_iff] at h
  obtain ⟨e', he', halone⟩ := h
  have hfields := congrArg
    (fun a : Element => { a with parent := e'.parent, children := e'.children }) halone
  rw [parent?_of_get? he', children_of_get? he', he']
  exact congrArg some hfields

theorem get?_eq_of_alone? (h : t.alone? x = s.alone? x) (hp : t.parent? x = s.parent? x)
    (hc : t.children x = s.children x) : t.get? x = s.get? x := by
  cases he : s.get? x with
  | none =>
    have hnone : ¬ t.contains x := by
      rw [contains_of_alone? h]
      simp only [contains, he, Option.isSome_none, Bool.false_eq_true, not_false_eq_true]
    exact Option.not_isSome_iff_eq_none.mp hnone
  | some e =>
    rw [get?_of_alone? h he, hp, hc, parent?_of_get? he, children_of_get? he]

theorem alone?_modify {f : Element → Element} (hf : ∀ e, (f e).alone = e.alone) (s : Scene)
    (id x : ElementId) : (s.modify id f).alone? x = s.alone? x := map_get?_modify hf s id x

theorem alone?_unlink (s : Scene) (c x : ElementId) : (s.unlink c).alone? x = s.alone? x := by
  cases hp : s.parent? c with
  | none => rw [unlink_of_root hp]
  | some p =>
    rw [unlink_of_parent? hp, alone?_modify (by intro; rfl), alone?_modify (by intro; rfl)]

theorem alone?_link {s' : Scene} (h : s.link p c = .ok s') (x : ElementId) :
    s'.alone? x = s.alone? x := by
  obtain ⟨-, -, -, -, -, rfl⟩ := link_eq_ok h
  rw [alone?_modify (by intro; rfl), alone?_modify (by intro; rfl)]

theorem Forest.alone?_remove (h : s.Forest) (hx : ¬ s.AtOrAbove id x) :
    (s.remove id).alone? x = s.alone? x := by
  rw [alone?, Scene.remove, get?_free_of_not_mem fun hm => hx (h.mem_removed.mp hm).2]
  exact alone?_unlink s id x

/-- What a removal leaves is as it was by itself. -/
theorem alone?_remove (h : (s.remove id).contains x) : (s.remove id).alone? x = s.alone? x := by
  rw [remove, contains_free] at h
  rw [alone?, remove, get?_free_of_not_mem h.2]
  exact alone?_unlink s id x

/-! ### What a step makes of an element -/

theorem get?_link {s' : Scene} (h : s.link p c = .ok s') (x : ElementId) :
    s'.get? x = (s.get? x).map fun e =>
      { e with
        parent := if x = c then some p else e.parent
        children := if x = p then e.children ++ [c] else e.children } := by
  cases he : s.get? x with
  | none =>
    have hx : ¬ s'.contains x := by
      rw [contains_link h, contains, he]
      exact Bool.false_ne_true
    rw [Option.not_isSome_iff_eq_none.mp hx, Option.map_none]
  | some e =>
    rw [get?_of_alone? (alone?_link h x) he, parent?_link h, children_link h,
      parent?_of_get? he, children_of_get? he, Option.map_some]

theorem Forest.get?_unlink (h : s.Forest) (c x : ElementId) :
    (s.unlink c).get? x = (s.get? x).map fun e =>
      { e with
        parent := if x = c then none else e.parent
        children := e.children.filter (· ≠ c) } := by
  cases he : s.get? x with
  | none =>
    have hx : ¬ (s.unlink c).contains x := by
      rw [contains_unlink, contains, he]
      exact Bool.false_ne_true
    rw [Option.not_isSome_iff_eq_none.mp hx, Option.map_none]
  | some e =>
    rw [get?_of_alone? (alone?_unlink s c x) he, parent?_unlink, h.children_unlink,
      parent?_of_get? he, children_of_get? he, Option.map_some]

theorem Forest.get?_remove_of_atOrAbove (h : s.Forest) (hx : s.AtOrAbove c x) :
    (s.remove c).get? x = none :=
  Option.not_isSome_iff_eq_none.mp fun hlive => (h.contains_remove.mp hlive).2 hx

theorem Forest.get?_remove_of_not_atOrAbove (h : s.Forest) (hx : ¬ s.AtOrAbove c x) :
    (s.remove c).get? x = (s.get? x).map fun e =>
      { e with children := e.children.filter (· ≠ c) } := by
  rw [Scene.remove, get?_free_of_not_mem fun hm => hx (h.mem_removed.mp hm).2, h.get?_unlink]
  refine congrArg (Option.map · (s.get? x)) (funext fun e => ?_)
  rw [if_neg (by rintro rfl; exact hx .refl)]

/-! ## Ways up -/

/-- What is above the members of a set that is closed upwards depends on
their parents only. -/
theorem atOrAbove_congr {P : ElementId → Prop} (hup : ∀ {x p}, P x → s.parent? x = some p → P p)
    (hsame : ∀ {x}, P x → t.parent? x = s.parent? x) (hx : P x) :
    t.AtOrAbove y x ↔ s.AtOrAbove y x := by
  constructor
  · intro ha
    induction ha using Relation.ReflTransGen.head_induction_on with
    | refl => exact .refl
    | head hp _ ih =>
      have hp' := (hsame hx).symm.trans hp
      exact .head hp' (ih (hup hx hp'))
  · intro ha
    induction ha using Relation.ReflTransGen.head_induction_on with
    | refl => exact .refl
    | head hp _ ih => exact .head ((hsame hx).trans hp) (ih (hup hx hp))

/-- Adding elements leaves alone the ways up from those that were there. -/
theorem Forest.atOrAbove_of_old (h : s.Forest)
    (hsame : ∀ z, z.index < s.slots.size → t.parent? z = s.parent? z) (hx : s.contains x) :
    t.AtOrAbove y x ↔ s.AtOrAbove y x :=
  atOrAbove_congr (P := fun z => s.contains z) (fun _ hp => h.contains_parent hp)
    (fun hz => hsame _ (index_lt_of_contains hz)) hx

/-- Where new elements hang only under new ones or under `p`, the way from
one up to what was there before leads through `p`. -/
theorem atOrAbove_of_fresh {n : Nat}
    (hparent : ∀ {z q}, n ≤ z.index → t.parent? z = some q → n ≤ q.index ∨ q = p)
    (hx : n ≤ x.index) (hy : y.index < n) (ha : t.AtOrAbove y x) : t.AtOrAbove y p := by
  induction ha using Relation.ReflTransGen.head_induction_on with
  | refl => exact absurd hy (Nat.not_lt.mpr hx)
  | head hp hup ih =>
    rcases hparent hx hp with hfresh | rfl
    · exact ih hfresh
    · exact hup

/-- What is not below an element lies under nothing below it. -/
theorem not_atOrAbove_of_parent? (hx : ¬ s.AtOrAbove c x) (hp : s.parent? x = some p) :
    ¬ s.AtOrAbove c p := fun ha => hx (.head hp ha)

theorem Forest.atOrAbove_remove (h : s.Forest) (hx : ¬ s.AtOrAbove c x) :
    (s.remove c).AtOrAbove y x ↔ s.AtOrAbove y x :=
  atOrAbove_congr not_atOrAbove_of_parent? h.parent?_remove hx

/-- A link leaves alone all ways up that do not begin below the child. -/
theorem atOrAbove_link {s' : Scene} (h : s.link p c = .ok s') (hx : ¬ s.AtOrAbove c x) :
    s'.AtOrAbove y x ↔ s.AtOrAbove y x := by
  refine atOrAbove_congr not_atOrAbove_of_parent? (fun {z} hz => ?_) hx
  rw [parent?_link h, if_neg (by rintro rfl; exact hz .refl)]

/-! ## Unlinking several -/

theorem size_foldl_unlink (s : Scene) (l : List ElementId) :
    (l.foldl unlink s).slots.size = s.slots.size := by
  induction l generalizing s with
  | nil => rfl
  | cons c l ih => rw [List.foldl_cons, ih, size_unlink]

theorem alone?_foldl_unlink (s : Scene) (l : List ElementId) (x : ElementId) :
    (l.foldl unlink s).alone? x = s.alone? x := by
  induction l generalizing s with
  | nil => rfl
  | cons c l ih => rw [List.foldl_cons, ih, alone?_unlink]

theorem parent?_foldl_unlink (s : Scene) (l : List ElementId) (x : ElementId) :
    (l.foldl unlink s).parent? x = if x ∈ l then none else s.parent? x := by
  induction l generalizing s with
  | nil => rfl
  | cons c l ih =>
    rw [List.foldl_cons, ih, parent?_unlink]
    by_cases hl : x ∈ l
    · rw [if_pos hl, if_pos (List.mem_cons_of_mem c hl)]
    · rw [if_neg hl]
      by_cases hc : x = c
      · rw [if_pos hc, if_pos (hc ▸ List.mem_cons_self)]
      · rw [if_neg hc, if_neg (by simp only [List.mem_cons, hc, hl, or_self, not_false_eq_true])]

namespace Forest

theorem foldl_unlink (h : s.Forest) (l : List ElementId) :
    (l.foldl Scene.unlink s).Forest := by
  induction l generalizing s with
  | nil => exact h
  | cons c l ih => exact ih (h.unlink c)

theorem children_foldl_unlink (h : s.Forest) (l : List ElementId) (x : ElementId) :
    (l.foldl Scene.unlink s).children x = (s.children x).filter (· ∉ l) := by
  induction l generalizing s with
  | nil => exact (List.filter_eq_self.mpr fun _ _ => by simp).symm
  | cons c l ih =>
    rw [List.foldl_cons, ih (h.unlink c), h.children_unlink, List.filter_filter]
    refine List.filter_congr fun y _ => ?_
    simp only [List.mem_cons, not_or, Bool.decide_and, Bool.and_comm, ne_eq]

/-- Unlinking cuts exactly the ways up that lead through one of the
elements. -/
theorem atOrAbove_foldl_unlink (h : s.Forest) (l : List ElementId) :
    (l.foldl Scene.unlink s).AtOrAbove upper x ↔
      s.AtOrAbove upper x ∧ ∀ c ∈ l, ¬ (s.Above upper c ∧ s.AtOrAbove c x) := by
  induction l generalizing s with
  | nil =>
    refine (and_iff_left fun c hc => ?_).symm
    exact absurd hc List.not_mem_nil
  | cons c l ih =>
    rw [List.foldl_cons, ih (h.unlink c), h.atOrAbove_unlink, List.forall_mem_cons, and_assoc]
    refine and_congr_right fun ha => and_congr_right fun hcut => forall₂_congr fun d _ => ?_
    have hsub : ∀ x p, (s.unlink c).parent? x = some p → s.parent? x = some p := by
      intro x p hp
      rw [parent?_unlink] at hp
      split at hp
      next => cases hp
      next => exact hp
    refine not_congr ⟨fun ⟨hd, hx⟩ => ⟨hd.mono hsub, hx.mono hsub⟩, fun ⟨hd, hx⟩ => ⟨?_, ?_⟩⟩
    · have hd' : (s.unlink c).AtOrAbove upper d :=
        h.atOrAbove_unlink.mpr ⟨hd.atOrAbove, fun ⟨hup, hc⟩ => hcut ⟨hup, hx.trans hc⟩⟩
      rcases atOrAbove_iff.mp hd' with rfl | hd'
      · exact absurd hd (h.acyclic d)
      · exact hd'
    · exact h.atOrAbove_unlink.mpr ⟨hx, fun ⟨hdc, hc⟩ => hcut ⟨hdc.trans hd, hc⟩⟩

end Forest

/-! ## Removing several -/

theorem size_foldl_remove (s : Scene) (l : List ElementId) :
    (l.foldl remove s).slots.size = s.slots.size := by
  induction l generalizing s with
  | nil => rfl
  | cons c l ih => rw [List.foldl_cons, ih, size_remove]

theorem alone?_foldl_remove (h : (l.foldl remove s).contains x) :
    (l.foldl remove s).alone? x = s.alone? x := by
  induction l generalizing s with
  | nil => rfl
  | cons c l ih =>
    have hlive : (s.remove c).contains x := by
      rw [List.foldl_cons] at h
      rwa [contains_of_alone? (ih h)] at h
    rw [List.foldl_cons] at h ⊢
    rw [ih h, alone?_remove hlive]

namespace Forest

theorem foldl_remove (h : s.Forest) (l : List ElementId) :
    (l.foldl Scene.remove s).Forest := by
  induction l generalizing s with
  | nil => exact h
  | cons c l ih => exact ih (h.remove c)

theorem contains_foldl_remove (h : s.Forest) (l : List ElementId) :
    (l.foldl Scene.remove s).contains x ↔ s.contains x ∧ ∀ c ∈ l, ¬ s.AtOrAbove c x := by
  induction l generalizing s with
  | nil => exact (and_iff_left fun c hc => absurd hc List.not_mem_nil).symm
  | cons c l ih =>
    rw [List.foldl_cons, ih (h.remove c), h.contains_remove, List.forall_mem_cons, and_assoc]
    refine and_congr_right fun _ => and_congr_right fun hx => forall₂_congr fun d _ => ?_
    rw [h.atOrAbove_remove hx]

/-- What lies at or below none of those that are removed keeps all but
the removed ones among its children. -/
theorem readings_foldl_remove (h : s.Forest)
    (hx : ∀ c ∈ l, ¬ s.AtOrAbove c x) :
    let t := l.foldl Scene.remove s
    t.alone? x = s.alone? x ∧ t.parent? x = s.parent? x ∧
      t.children x = (s.children x).filter (· ∉ l) := by
  induction l generalizing s with
  | nil => exact ⟨rfl, rfl, (List.filter_eq_self.mpr fun _ _ => by simp).symm⟩
  | cons c l ih =>
    rw [List.forall_mem_cons] at hx
    have hrest : ∀ d ∈ l, ¬ (s.remove c).AtOrAbove d x := fun d hd ha =>
      hx.2 d hd ((h.atOrAbove_remove hx.1).mp ha)
    obtain ⟨halone, hparent, hchildren⟩ := ih (h.remove c) hrest
    refine ⟨halone.trans (h.alone?_remove hx.1), hparent.trans (h.parent?_remove hx.1), ?_⟩
    refine hchildren.trans ?_
    rw [h.children_remove hx.1, List.filter_filter]
    refine List.filter_congr fun y _ => ?_
    simp only [List.mem_cons, not_or, Bool.decide_and, Bool.and_comm, ne_eq]

end Forest

/-! ## Hanging several under one -/

/-- `t` is `s` with the elements of `l` hung under `p`, after the children
it had. -/
structure Hung (s t : Scene) (p : ElementId) (l : List ElementId) : Prop where
  size : t.slots.size = s.slots.size
  alone? : ∀ x, t.alone? x = s.alone? x
  parent? : ∀ x, t.parent? x = if x ∈ l then some p else s.parent? x
  children : ∀ x, t.children x = if x = p then s.children p ++ l else s.children x

namespace Hung

theorem refl (s : Scene) (p : ElementId) : s.Hung s p [] where
  size := rfl
  alone? _ := rfl
  parent? x := (if_neg List.not_mem_nil).symm
  children x := by
    split
    next hx => rw [hx, List.append_nil]
    next => rfl

/-- A link hangs one. -/
theorem link {s' : Scene} (hl : s.link p c = .ok s') : s.Hung s' p [c] where
  size := size_link hl
  alone? := alone?_link hl
  parent? x := by
    rw [parent?_link hl]
    simp only [List.mem_singleton]
  children x := by
    rw [children_link hl]
    split
    next hx => rw [hx]
    next => rfl

theorem trans {l' : List ElementId} {u : Scene} (h : s.Hung t p l) (h' : t.Hung u p l') :
    s.Hung u p (l ++ l') where
  size := h'.size.trans h.size
  alone? x := (h'.alone? x).trans (h.alone? x)
  parent? x := by
    rw [h'.parent?, h.parent?]
    by_cases hx : x ∈ l'
    · rw [if_pos hx, if_pos (List.mem_append_right l hx)]
    · simp only [hx, if_false, List.mem_append, or_false]
  children x := by
    rw [h'.children, h.children, h.children, if_pos rfl]
    split
    next => rw [List.append_assoc]
    next => rfl

theorem contains (h : s.Hung t p l) (x : ElementId) : t.contains x = s.contains x :=
  contains_of_alone? (h.alone? x)

/-- Ways up that meet none of the elements hung are as before. -/
theorem atOrAbove_iff (h : s.Hung t p l) (hx : ∀ c ∈ l, ¬ s.AtOrAbove c x) :
    t.AtOrAbove y x ↔ s.AtOrAbove y x := by
  refine atOrAbove_congr (P := fun z => ∀ c ∈ l, ¬ s.AtOrAbove c z)
    (fun hz hp c hc => not_atOrAbove_of_parent? (hz c hc) hp) (fun {z} hz => ?_) hx
  rw [h.parent?, if_neg fun hm => hz z hm .refl]

end Hung

end Scene

end SceneTree
