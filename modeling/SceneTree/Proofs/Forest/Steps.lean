import SceneTree.Proofs.Forest.Subtree

/-!
# Steps of a scene

Everything that ever happens to a scene is one of five things: an element
is added, an element is edited without moving it, two elements are linked,
one is unlinked, one is removed with all below it. For each of them this
module says what becomes of the look-ups, the parents and the children,
and that a forest stays a forest.

`Step` collects the five, and `Grows` is any number of steps. The stages
of a session are shown to be growths and then need no argument about trees
of their own.
-/

namespace SceneTree

/-- An edit that leaves alone which element it is, where it came from and
where it stands. -/
structure KeepsPlace (f : Element → Element) : Prop where
  id : ∀ e, (f e).id = e.id
  source : ∀ e, (f e).source = e.source
  header : ∀ e, (f e).header = e.header
  parent : ∀ e, (f e).parent = e.parent
  children : ∀ e, (f e).children = e.children

namespace Scene

variable {s s' t : Scene} {e : Element} {f : Element → Element} {id x p c upper : ElementId}
  {source : Source} {header : Header}

/-! ## Adding -/

theorem get?_nextId (s : Scene) : s.get? s.nextId = none := get?_eq_none_of_le (Nat.le_refl _)

theorem get?_push_nextId (s : Scene) (source : Source) (header : Header) :
    (s.push source header).get? s.nextId = some (.fresh s.nextId source header) := by
  rw [get?_push, if_pos rfl]

theorem get?_push_of_ne (h : x ≠ s.nextId) : (s.push source header).get? x = s.get? x := by
  rw [get?_push, if_neg h]

theorem contains_push :
    (s.push source header).contains x ↔ x = s.nextId ∨ s.contains x := by
  rw [contains, get?_push]
  split
  next hx => simp only [Option.isSome_some, hx, true_or]
  next hx => simp only [hx, false_or, contains]

/-- A new element stands alone. -/
theorem parent?_push (s : Scene) (source : Source) (header : Header) (x : ElementId) :
    (s.push source header).parent? x = s.parent? x := by
  by_cases hx : x = s.nextId
  · subst hx
    rw [parent?, get?_push_nextId, parent?, get?_nextId]
    rfl
  · rw [parent?, parent?, get?_push_of_ne hx]

theorem children_push (s : Scene) (source : Source) (header : Header) (x : ElementId) :
    (s.push source header).children x = s.children x := by
  by_cases hx : x = s.nextId
  · subst hx
    rw [children, get?_push_nextId, children, get?_nextId]
    rfl
  · rw [children, children, get?_push_of_ne hx]

theorem size_push (s : Scene) (source : Source) (header : Header) :
    (s.push source header).slots.size = s.slots.size + 1 := Array.size_push ..

/-! ## Editing -/

theorem get?_modify_self (h : s.get? id = some e) : (s.modify id f).get? id = some (f e) := by
  rw [get?_modify, if_pos rfl, h, Option.map_some]

theorem get?_modify_of_ne (h : x ≠ id) : (s.modify id f).get? x = s.get? x := by
  rw [get?_modify, if_neg h]

/-- Whatever an edit does to the element, it is there as before. -/
theorem contains_modify (s : Scene) (id : ElementId) (f : Element → Element) (x : ElementId) :
    (s.modify id f).contains x = s.contains x := by
  rw [contains, get?_modify, contains]
  split <;> simp only [Option.isSome_map]

theorem size_modify (s : Scene) (id : ElementId) (f : Element → Element) :
    (s.modify id f).slots.size = s.slots.size := Array.size_modify ..

/-- A reading that an edit leaves alone reads the same everywhere. -/
theorem map_get?_modify {α : Type} {g : Element → α} (hg : ∀ e, g (f e) = g e) (s : Scene)
    (id x : ElementId) : ((s.modify id f).get? x).map g = (s.get? x).map g := by
  rw [get?_modify]
  split
  · rw [Option.map_map]
    exact congrArg (fun k => Option.map k (s.get? x)) (funext hg)
  · rfl

theorem parent?_eq_map (s : Scene) (x : ElementId) :
    s.parent? x = ((s.get? x).map (·.parent)).join := by
  rw [parent?]
  cases s.get? x <;> rfl

theorem parent?_modify (hf : ∀ e, (f e).parent = e.parent) (s : Scene) (id x : ElementId) :
    (s.modify id f).parent? x = s.parent? x := by
  rw [parent?_eq_map, map_get?_modify hf, ← parent?_eq_map]

theorem children_modify (hf : ∀ e, (f e).children = e.children) (s : Scene) (id x : ElementId) :
    (s.modify id f).children x = s.children x := by
  rw [children, map_get?_modify hf, ← children]

theorem parent?_modify_children (s : Scene) (id : ElementId) (g : Element → List ElementId)
    (x : ElementId) :
    (s.modify id fun e => { e with children := g e }).parent? x = s.parent? x := by
  rw [parent?_modify]
  exact fun _ => rfl

theorem children_modify_parent (s : Scene) (id : ElementId) (g : Element → Option ElementId)
    (x : ElementId) :
    (s.modify id fun e => { e with parent := g e }).children x = s.children x := by
  rw [children_modify]
  exact fun _ => rfl

/-- Edits made one after another leave alone what none of them is for. -/
theorem get?_foldl_modify_of_not_mem {α : Type} (g : α → Element → Element)
    {edits : List (ElementId × α)} (hx : x ∉ edits.map (·.1)) :
    (edits.foldl (fun s (edit : ElementId × α) => s.modify edit.1 (g edit.2)) s).get? x =
      s.get? x := by
  induction edits generalizing s with
  | nil => rfl
  | cons edit edits ih =>
    rw [List.map_cons, List.mem_cons, not_or] at hx
    rw [List.foldl_cons, ih hx.2, get?_modify_of_ne hx.1]

/-- Where no two edits are for one element, each shows in the end. -/
theorem get?_foldl_modify {α : Type} (g : α → Element → Element) {edits : List (ElementId × α)}
    {a : α} (hnodup : (edits.map (·.1)).Nodup) (hm : (x, a) ∈ edits) :
    (edits.foldl (fun s (edit : ElementId × α) => s.modify edit.1 (g edit.2)) s).get? x =
      (s.get? x).map (g a) := by
  induction edits generalizing s with
  | nil => exact absurd hm List.not_mem_nil
  | cons edit edits ih =>
    rw [List.map_cons, List.nodup_cons] at hnodup
    rw [List.foldl_cons]
    rcases List.mem_cons.mp hm with rfl | hm
    · rw [get?_foldl_modify_of_not_mem g hnodup.1, get?_modify, if_pos rfl]
    · have hne : x ≠ edit.1 := fun heq =>
        hnodup.1 (heq ▸ List.mem_map.mpr ⟨(x, a), hm, rfl⟩)
      rw [ih hnodup.2 hm, get?_modify_of_ne hne]

/-- An edit that keeps ids keeps every element in the slot of its number. -/
theorem named_modify (hf : ∀ e, (f e).id = e.id)
    (hs : ∀ {x : ElementId} {e : Element}, s.get? x = some e → e.id = x)
    (h : (s.modify id f).get? x = some e) : e.id = x := by
  have hmap := map_get?_modify hf s id x
  rw [h, Option.map_some] at hmap
  obtain ⟨e₀, he₀, heq⟩ := Option.map_eq_some_iff.mp hmap.symm
  rw [← heq, hs he₀]

/-! ## Linking -/

/-- What a link that is made asks for, and the scene it leaves. -/
theorem link_eq_ok (h : s.link p c = .ok s') :
    p ≠ c ∧ s.contains c ∧ s.contains p ∧ s.parent? c = none ∧ ¬ s.isAtOrAbove c p ∧
      s' = (s.modify c fun e => { e with parent := some p }).modify p
        fun e => { e with children := e.children ++ [c] } := by
  unfold link at h
  split at h
  next => simp only [reduceCtorEq] at h
  next hne =>
    split at h
    next => simp only [reduceCtorEq] at h
    next e he =>
      split at h
      next => simp only [reduceCtorEq] at h
      next hp =>
        split at h
        next => simp only [reduceCtorEq] at h
        next hnone =>
          split at h
          next => simp only [reduceCtorEq] at h
          next hup =>
            cases h
            refine ⟨hne, contains_of_get? he, by simpa using hp, ?_, hup, rfl⟩
            rw [parent?_of_get? he, hnone]

/-- A link is made whenever nothing speaks against it. -/
theorem link_ok (hne : p ≠ c) (hc : s.contains c) (hp : s.contains p) (hnone : s.parent? c = none)
    (hup : ¬ s.isAtOrAbove c p) : ∃ t, s.link p c = .ok t := by
  obtain ⟨e, he⟩ := contains_iff.mp hc
  rw [parent?_of_get? he] at hnone
  simp only [link, if_neg hne, he, hp, Bool.not_true, Bool.false_eq_true, if_false, hnone,
    if_neg hup, Except.ok.injEq, exists_eq']

theorem contains_link (h : s.link p c = .ok s') (x : ElementId) :
    s'.contains x = s.contains x := by
  obtain ⟨-, -, -, -, -, rfl⟩ := link_eq_ok h
  rw [contains_modify, contains_modify]

theorem size_link (h : s.link p c = .ok s') : s'.slots.size = s.slots.size := by
  obtain ⟨-, -, -, -, -, rfl⟩ := link_eq_ok h
  rw [size_modify, size_modify]

theorem parent?_link (h : s.link p c = .ok s') (x : ElementId) :
    s'.parent? x = if x = c then some p else s.parent? x := by
  obtain ⟨-, hc, -, -, -, rfl⟩ := link_eq_ok h
  rw [parent?_modify_children]
  by_cases hx : x = c
  · subst hx
    obtain ⟨e, he⟩ := contains_iff.mp hc
    rw [parent?_of_get? (get?_modify_self he), if_pos rfl]
  · rw [parent?, get?_modify_of_ne hx, if_neg hx, parent?]

theorem children_link (h : s.link p c = .ok s') (x : ElementId) :
    s'.children x = if x = p then s.children x ++ [c] else s.children x := by
  obtain ⟨-, -, hp, -, -, rfl⟩ := link_eq_ok h
  by_cases hx : x = p
  · subst hx
    rw [← contains_modify s c (fun e => { e with parent := some x })] at hp
    obtain ⟨e, he⟩ := contains_iff.mp hp
    rw [children_of_get? (get?_modify_self he), if_pos rfl, ← children_of_get? he,
      children_modify_parent]
  · rw [children, get?_modify_of_ne hx, ← children, children_modify_parent, if_neg hx]

/-- A link leaves all elements alone but the two it joins. -/
theorem get?_link_of_ne (h : s.link p c = .ok s') (hp : x ≠ p) (hc : x ≠ c) :
    s'.get? x = s.get? x := by
  obtain ⟨-, -, -, -, -, rfl⟩ := link_eq_ok h
  rw [get?_modify_of_ne hp, get?_modify_of_ne hc]

/-! ## Unlinking -/

theorem unlink_of_root (h : s.parent? c = none) : s.unlink c = s := by
  simp only [unlink, h]

theorem unlink_of_parent? (h : s.parent? c = some p) :
    s.unlink c = (s.modify p fun e => { e with children := e.children.filter (· ≠ c) }).modify c
      fun e => { e with parent := none } := by
  simp only [unlink, h]

theorem contains_unlink (s : Scene) (c x : ElementId) :
    (s.unlink c).contains x = s.contains x := by
  cases hp : s.parent? c with
  | none => rw [unlink_of_root hp]
  | some p => rw [unlink_of_parent? hp, contains_modify, contains_modify]

theorem size_unlink (s : Scene) (c : ElementId) : (s.unlink c).slots.size = s.slots.size := by
  cases hp : s.parent? c with
  | none => rw [unlink_of_root hp]
  | some p => rw [unlink_of_parent? hp, size_modify, size_modify]

theorem parent?_unlink (s : Scene) (c x : ElementId) :
    (s.unlink c).parent? x = if x = c then none else s.parent? x := by
  cases hp : s.parent? c with
  | none =>
    rw [unlink_of_root hp]
    split
    next hx => rw [hx, hp]
    next => rfl
  | some p =>
    rw [unlink_of_parent? hp]
    by_cases hx : x = c
    · subst hx
      have hx := contains_of_parent? hp
      rw [← contains_modify s p (fun e => { e with children := e.children.filter (· ≠ x) })] at hx
      obtain ⟨e, he⟩ := contains_iff.mp hx
      rw [parent?_of_get? (get?_modify_self he), if_pos rfl]
    · rw [parent?, get?_modify_of_ne hx, ← parent?, parent?_modify_children, if_neg hx]

theorem filter_ne_eq_self {l : List ElementId} (h : c ∉ l) : l.filter (· ≠ c) = l :=
  List.filter_eq_self.mpr fun _ hy => decide_eq_true fun heq => h (heq ▸ hy)

theorem Forest.children_unlink (h : s.Forest) (c x : ElementId) :
    (s.unlink c).children x = (s.children x).filter (· ≠ c) := by
  have hnone (hp : s.parent? c ≠ some x) : (s.children x).filter (· ≠ c) = s.children x :=
    filter_ne_eq_self fun hm => hp (h.mirror.mp hm)
  cases hp : s.parent? c with
  | none => rw [unlink_of_root hp, hnone (by rw [hp]; nofun)]
  | some p =>
    rw [unlink_of_parent? hp, children_modify_parent]
    by_cases hx : x = p
    · subst hx
      obtain ⟨e, he⟩ := contains_iff.mp (h.contains_parent hp)
      rw [children_of_get? (get?_modify_self he), children_of_get? he]
    · rw [children, get?_modify_of_ne hx, ← children]
      exact (hnone (by rw [hp]; exact fun heq => hx (Option.some.inj heq).symm)).symm

/-- Unlinking leaves all elements alone but the one and its parent. -/
theorem get?_unlink_of_ne (hc : x ≠ c) (hp : s.parent? c ≠ some x) :
    (s.unlink c).get? x = s.get? x := by
  cases h : s.parent? c with
  | none => rw [unlink_of_root h]
  | some p =>
    have hx : x ≠ p := fun hxp => hp (by rw [h, hxp])
    rw [unlink_of_parent? h, get?_modify_of_ne hc, get?_modify_of_ne hx]

/-- Unlinking an element cuts exactly the ways up that lead through it. -/
theorem Forest.atOrAbove_unlink (h : s.Forest) :
    (s.unlink c).AtOrAbove upper x ↔
      s.AtOrAbove upper x ∧ ¬ (s.Above upper c ∧ s.AtOrAbove c x) := by
  constructor
  · intro ha
    induction ha using Relation.ReflTransGen.head_induction_on with
    | refl => exact ⟨.refl, fun ⟨hup, hc⟩ => h.acyclic _ (hup.trans_left hc)⟩
    | @head y z hyz _ ih =>
      rw [Rises, parent?_unlink] at hyz
      split at hyz
      next => simp only [reduceCtorEq] at hyz
      next hne =>
        refine ⟨.head hyz ih.1, fun ⟨hup, hc⟩ => ih.2 ⟨hup, ?_⟩⟩
        rcases atOrAbove_iff.mp hc with hyc | hcy
        · exact absurd hyc hne
        · exact (above_iff_of_parent? hyz).mp hcy
  · rintro ⟨ha, hcut⟩
    induction ha using Relation.ReflTransGen.head_induction_on with
    | refl => exact .refl
    | @head y z hyz hz ih =>
      have hyc : y ≠ c := fun hyc =>
        hcut ⟨hyc ▸ (above_iff_of_parent? hyz).mpr hz, hyc ▸ .refl⟩
      refine .head ?_ (ih fun ⟨hup, hc⟩ => hcut ⟨hup, .head hyz hc⟩)
      rw [Rises, parent?_unlink, if_neg hyc, hyz]

/-! ## Freeing -/

theorem contains_free {doomed : List ElementId} :
    (s.free doomed).contains x ↔ s.contains x ∧ x ∉ doomed := by
  rw [contains, get?_free]
  split
  next hx => simp only [Option.isSome_none, Bool.false_eq_true, hx, not_true_eq_false, and_false]
  next hx => simp only [hx, not_false_eq_true, and_true, contains]

theorem get?_free_of_not_mem {doomed : List ElementId} (hx : x ∉ doomed) :
    (s.free doomed).get? x = s.get? x := by
  rw [get?_free, if_neg hx]

theorem size_free (s : Scene) (doomed : List ElementId) :
    (s.free doomed).slots.size = s.slots.size := Array.size_mapIdx ..

theorem parent?_free (s : Scene) (doomed : List ElementId) (x : ElementId) :
    (s.free doomed).parent? x = if x ∈ doomed then none else s.parent? x := by
  rw [parent?, get?_free]
  split <;> rfl

theorem children_free (s : Scene) (doomed : List ElementId) (x : ElementId) :
    (s.free doomed).children x = if x ∈ doomed then [] else s.children x := by
  rw [children, get?_free]
  split <;> rfl

theorem size_remove (s : Scene) (id : ElementId) : (s.remove id).slots.size = s.slots.size := by
  rw [remove, size_free, size_unlink]

/-! ## Forests stay forests -/

theorem forest_empty : empty.Forest where
  named h := by simp only [get?_empty, reduceCtorEq] at h
  mirror {p c} := by
    simp only [children, parent?, get?_empty, Option.map_none, Option.getD_none,
      List.not_mem_nil, Option.bind_none, reduceCtorEq]
  children_nodup p := by
    simp only [children, get?_empty, Option.map_none, Option.getD_none, List.nodup_nil]
  acyclic id ha := by
    obtain ⟨p, hp, -⟩ := Relation.TransGen.head'_iff.mp ha
    simp only [Rises, parent?, get?_empty, Option.bind_none, reduceCtorEq] at hp

/-- Without new edges there are no new ways up. -/
theorem Above.mono (hsub : ∀ c p, t.parent? c = some p → s.parent? c = some p)
    (ha : t.Above upper id) : s.Above upper id :=
  Relation.TransGen.mono hsub _ _ ha

theorem AtOrAbove.mono (hsub : ∀ c p, t.parent? c = some p → s.parent? c = some p)
    (ha : t.AtOrAbove upper id) : s.AtOrAbove upper id :=
  Relation.ReflTransGen.mono hsub _ _ ha

theorem above_modify (hf : ∀ e, (f e).parent = e.parent) :
    (s.modify id f).Above upper x ↔ s.Above upper x := by
  constructor
  · exact Above.mono fun c p hp => (parent?_modify hf s id c).symm.trans hp
  · exact Above.mono fun c p hp => (parent?_modify hf s id c).trans hp

namespace Forest

/-- A scene with the same parents and children as a forest is a forest. -/
theorem congr (h : s.Forest) (hn : ∀ {id e}, t.get? id = some e → e.id = id)
    (hp : ∀ x, t.parent? x = s.parent? x) (hc : ∀ x, t.children x = s.children x) :
    t.Forest where
  named := hn
  mirror {p c} := by rw [hc, hp]; exact h.mirror
  children_nodup p := by rw [hc]; exact h.children_nodup p
  acyclic id ha := h.acyclic id (ha.mono fun c p hcp => (hp c).symm.trans hcp)

theorem push (h : s.Forest) (source : Source) (header : Header) :
    (s.push source header).Forest := by
  refine h.congr (fun {id e} he => ?_) (parent?_push s source header)
    (children_push s source header)
  rw [get?_push] at he
  split at he
  next hid =>
    cases he
    exact hid.symm
  next => exact h.named he

theorem modify (h : s.Forest) (hf : KeepsPlace f) (id : ElementId) : (s.modify id f).Forest :=
  h.congr (named_modify hf.id h.named) (parent?_modify hf.parent s id)
    (children_modify hf.children s id)

/-- Ways up after a link either were there before or lead through it. -/
theorem above_of_link (hl : s.link p c = .ok s') (ha : s'.Above upper x) :
    s.Above upper x ∨ s.AtOrAbove upper p ∧ s.AtOrAbove c x := by
  have hedge {y z : ElementId} (hyz : s'.Rises y z) :
      s.Rises y z ∨ y = c ∧ z = p := by
    rw [Rises, parent?_link hl] at hyz
    split at hyz
    next hy => exact .inr ⟨hy, (Option.some.inj hyz).symm⟩
    next => exact .inl hyz
  induction ha with
  | single hyz =>
    rcases hedge hyz with hyz | ⟨rfl, rfl⟩
    · exact .inl (.single hyz)
    · exact .inr ⟨.refl, .refl⟩
  | tail _ hyz ih =>
    rcases hedge hyz with hyz | ⟨rfl, rfl⟩
    · exact ih.imp (·.tail hyz) fun ⟨hup, hc⟩ => ⟨hup.tail hyz, hc⟩
    · refine .inr ⟨.refl, ?_⟩
      rcases ih with ha | ⟨-, hc⟩
      · exact ha.atOrAbove
      · exact hc

theorem link (h : s.Forest) (hl : s.link p c = .ok s') : s'.Forest where
  named {x e} he := by
    obtain ⟨-, -, -, -, -, rfl⟩ := link_eq_ok hl
    exact named_modify (by intro; rfl) (named_modify (by intro; rfl) h.named) he
  mirror {q x} := by
    obtain ⟨-, -, -, hnone, -, -⟩ := link_eq_ok hl
    rw [children_link hl, parent?_link hl]
    by_cases hx : x = c
    · subst hx
      rw [if_pos rfl, Option.some_inj]
      split
      next hq => simp only [hq, List.mem_append, List.mem_singleton, or_true]
      next hq =>
        rw [h.mirror, hnone]
        simp only [reduceCtorEq, false_iff]
        exact fun hpq => hq hpq.symm
    · rw [if_neg hx, ← h.mirror]
      split
      next => simp only [List.mem_append, List.mem_singleton, hx, or_false]
      next => rfl
  children_nodup q := by
    obtain ⟨-, -, -, hnone, -, -⟩ := link_eq_ok hl
    rw [children_link hl]
    split
    next =>
      refine List.nodup_append.mpr ⟨h.children_nodup q, List.nodup_singleton c, ?_⟩
      intro y hy z hz hyz
      rw [hyz, List.mem_singleton.mp hz] at hy
      rw [h.mirror, hnone] at hy
      exact absurd hy (by simp only [reduceCtorEq, not_false_eq_true])
    next => exact h.children_nodup q
  acyclic x ha := by
    obtain ⟨-, -, -, -, hup, -⟩ := link_eq_ok hl
    rcases above_of_link hl ha with ha | ⟨hxp, hcx⟩
    · exact h.acyclic x ha
    · exact hup (h.isAtOrAbove_iff.mpr (hxp.trans hcx))

theorem unlink (h : s.Forest) (c : ElementId) : (s.unlink c).Forest where
  named {x e} he := by
    cases hp : s.parent? c with
    | none => exact h.named (unlink_of_root hp ▸ he)
    | some p =>
      rw [unlink_of_parent? hp] at he
      exact named_modify (by intro; rfl) (named_modify (by intro; rfl) h.named) he
  mirror {q x} := by
    rw [h.children_unlink, parent?_unlink, List.mem_filter, decide_eq_true_eq, h.mirror]
    split
    next hx => simp only [hx, ne_eq, not_true_eq_false, and_false, reduceCtorEq]
    next hx => simp only [ne_eq, hx, not_false_eq_true, and_true]
  children_nodup q := by
    rw [h.children_unlink]
    exact (h.children_nodup q).filter _
  acyclic x ha := by
    refine h.acyclic x (ha.mono fun y z hyz => ?_)
    rw [parent?_unlink] at hyz
    split at hyz
    next => simp only [reduceCtorEq] at hyz
    next => exact hyz

/-- Freeing slots keeps a forest if no edge joins a freed one and one that
stays. -/
theorem free (h : s.Forest) {doomed : List ElementId}
    (hclosed : ∀ {x y}, s.parent? y = some x → (x ∈ doomed ↔ y ∈ doomed)) :
    (s.free doomed).Forest where
  named {x e} he := by
    rw [get?_free] at he
    split at he
    next => simp only [reduceCtorEq] at he
    next => exact h.named he
  mirror {q x} := by
    rw [children_free, parent?_free]
    split
    next hq =>
      simp only [List.not_mem_nil, false_iff]
      split
      next => simp only [reduceCtorEq, not_false_eq_true]
      next hx => exact fun hp => hx ((hclosed hp).mp hq)
    next hq =>
      rw [h.mirror]
      split
      next hx =>
        simp only [reduceCtorEq, iff_false]
        exact fun hp => hq ((hclosed hp).mpr hx)
      next => rfl
  children_nodup q := by
    rw [children_free]
    split
    next => exact .nil
    next => exact h.children_nodup q
  acyclic x ha := by
    refine h.acyclic x (ha.mono fun y z hyz => ?_)
    rw [parent?_free] at hyz
    split at hyz
    next => simp only [reduceCtorEq] at hyz
    next => exact hyz

/-! ## Removing -/

/-- What a removal takes away is the element and all below it. -/
theorem mem_removed (h : s.Forest) :
    x ∈ (s.unlink id).descendants id ↔ s.contains x ∧ s.AtOrAbove id x := by
  rw [(h.unlink id).mem_descendants, contains_unlink, h.atOrAbove_unlink]
  exact and_congr_right fun _ => and_iff_left fun hup => h.acyclic id hup.1

theorem remove (h : s.Forest) (id : ElementId) : (s.remove id).Forest := by
  have hcut := h.unlink id
  refine hcut.free fun {x y} hp => ?_
  rw [hcut.mem_descendants, hcut.mem_descendants]
  refine ⟨fun hx => ⟨contains_of_parent? hp, .head hp hx.2⟩,
    fun hy => ⟨hcut.contains_parent hp, ?_⟩⟩
  rcases atOrAbove_iff.mp hy.2 with rfl | ha
  · rw [parent?_unlink, if_pos rfl] at hp
    exact absurd hp (by simp only [reduceCtorEq, not_false_eq_true])
  · exact (above_iff_of_parent? hp).mp ha

theorem contains_remove (h : s.Forest) :
    (s.remove id).contains x ↔ s.contains x ∧ ¬ s.AtOrAbove id x := by
  rw [Scene.remove, contains_free, h.mem_removed, contains_unlink]
  exact and_congr_right fun hx => not_congr (and_iff_right hx)

/-- The number a removal answers is that of the elements it takes away. -/
theorem removedCount_eq (h : s.Forest) : s.removedCount id = (s.subtree id).length := by
  have hcut := h.unlink id
  rw [removedCount]
  refine List.Perm.length_eq ((List.perm_ext_iff_of_nodup ?_ (h.subtree_nodup id)).mpr fun x => ?_)
  · rw [hcut.descendants_eq]
    exact hcut.subtree_nodup id
  · rw [h.mem_removed, h.mem_subtree]

theorem parent?_remove (h : s.Forest) (hx : ¬ s.AtOrAbove id x) :
    (s.remove id).parent? x = s.parent? x := by
  rw [Scene.remove, parent?_free, if_neg fun hm => hx (h.mem_removed.mp hm).2, parent?_unlink,
    if_neg (by rintro rfl; exact hx .refl)]

theorem children_remove (h : s.Forest) (hx : ¬ s.AtOrAbove id x) :
    (s.remove id).children x = (s.children x).filter (· ≠ id) := by
  rw [Scene.remove, children_free, if_neg fun hm => hx (h.mem_removed.mp hm).2,
    h.children_unlink]

/-- A removal leaves alone all elements that stay but the parent of the
one it removes. -/
theorem get?_remove (h : s.Forest) (hx : ¬ s.AtOrAbove id x) (hp : s.parent? id ≠ some x) :
    (s.remove id).get? x = s.get? x := by
  rw [Scene.remove, get?_free_of_not_mem fun hm => hx (h.mem_removed.mp hm).2,
    get?_unlink_of_ne (by rintro rfl; exact hx .refl) hp]

end Forest

/-! ## Steps and growths -/

/-- One step of a scene. -/
inductive Step (s : Scene) : Scene → Prop
  | push (source : Source) (header : Header) : Step s (s.push source header)
  | edit {f : Element → Element} (hf : KeepsPlace f) (id : ElementId) : Step s (s.modify id f)
  | link {p c : ElementId} {s' : Scene} (h : s.link p c = .ok s') : Step s s'
  | unlink (c : ElementId) : Step s (s.unlink c)
  | remove (id : ElementId) : Step s (s.remove id)

/-- Steps of any kind, made one number of them per member of a list. What
is carried along beside the scene does not matter. -/
theorem reflTransGen_foldl {σ α : Type} {r : Scene → Scene → Prop} (scene : σ → Scene)
    {f : σ → α → σ} (hf : ∀ w a, Relation.ReflTransGen r (scene w) (scene (f w a))) (w : σ)
    (l : List α) : Relation.ReflTransGen r (scene w) (scene (l.foldl f w)) := by
  induction l generalizing w with
  | nil => exact .refl
  | cons a l ih => exact (hf w a).trans (ih (f w a))

/-- Any number of steps. -/
def Grows : Scene → Scene → Prop := Relation.ReflTransGen Step

theorem Forest.step (h : s.Forest) (hs : s.Step t) : t.Forest := by
  cases hs with
  | push source header => exact h.push source header
  | edit hf id => exact h.modify hf id
  | link hl => exact h.link hl
  | unlink c => exact h.unlink c
  | remove id => exact h.remove id

/-- Slots are only ever added. -/
theorem Step.size_le (hs : s.Step t) : s.slots.size ≤ t.slots.size := by
  cases hs with
  | push source header => rw [size_push]; exact Nat.le_succ _
  | edit hf id => exact Nat.le_of_eq (size_modify s id _).symm
  | link hl => exact Nat.le_of_eq (size_link hl).symm
  | unlink c => exact Nat.le_of_eq (size_unlink s c).symm
  | remove id => exact Nat.le_of_eq (size_remove s id).symm

/-- A slot that holds nothing holds nothing ever after, but for the one
that is to be the next. -/
theorem Step.contains_of_lt (hs : s.Step t) (hx : x.index < s.slots.size)
    (ht : t.contains x) : s.contains x := by
  cases hs with
  | push source header =>
    rcases contains_push.mp ht with rfl | hc
    · exact absurd hx (Nat.lt_irrefl _)
    · exact hc
  | edit hf id => rwa [contains_modify] at ht
  | link hl => rwa [contains_link hl] at ht
  | unlink c => rwa [contains_unlink] at ht
  | remove id =>
    rw [Scene.remove, contains_free, contains_unlink] at ht
    exact ht.1

/-- What a filled slot holds was always made from the same. -/
theorem Step.source_of_lt (hs : s.Step t) (hx : x.index < s.slots.size)
    (ht : t.get? x = some e) : ∃ e₀, s.get? x = some e₀ ∧ e₀.source = e.source := by
  have hkeep {r : Scene} {f : Element → Element} {id : ElementId}
      (hf : ∀ e, (f e).source = e.source) {e : Element} (he : (r.modify id f).get? x = some e) :
      ∃ e₀, r.get? x = some e₀ ∧ e₀.source = e.source := by
    have hmap := map_get?_modify hf r id x
    rw [he, Option.map_some] at hmap
    exact Option.map_eq_some_iff.mp hmap.symm
  have hunlink {c : ElementId} {e : Element} (he : (s.unlink c).get? x = some e) :
      ∃ e₀, s.get? x = some e₀ ∧ e₀.source = e.source := by
    cases hp : s.parent? c with
    | none => exact ⟨e, unlink_of_root hp ▸ he, rfl⟩
    | some p =>
      rw [unlink_of_parent? hp] at he
      obtain ⟨e₁, he₁, hsource⟩ := hkeep (by intro; rfl) he
      exact hsource ▸ hkeep (by intro; rfl) he₁
  cases hs with
  | push source header =>
    refine ⟨e, ?_, rfl⟩
    rwa [get?_push_of_ne] at ht
    rintro rfl
    exact Nat.lt_irrefl _ hx
  | edit hf id => exact hkeep hf.source ht
  | link hl =>
    obtain ⟨-, -, -, -, -, rfl⟩ := link_eq_ok hl
    obtain ⟨e₁, he₁, hsource⟩ := hkeep (by intro; rfl) ht
    exact hsource ▸ hkeep (by intro; rfl) he₁
  | unlink c => exact hunlink ht
  | remove id =>
    rw [Scene.remove, get?_free] at ht
    split at ht
    next => cases ht
    next => exact hunlink ht

namespace Grows

theorem refl (s : Scene) : s.Grows s := Relation.ReflTransGen.refl

theorem trans (h : s.Grows s') (h' : s'.Grows t) : s.Grows t := Relation.ReflTransGen.trans h h'

theorem of_step (h : s.Step t) : s.Grows t := Relation.ReflTransGen.single h

theorem forest (h : s.Grows t) (hs : s.Forest) : t.Forest := by
  induction h with
  | refl => exact hs
  | tail _ hstep ih => exact ih.step hstep

theorem size_le (h : s.Grows t) : s.slots.size ≤ t.slots.size := by
  induction h with
  | refl => exact Nat.le_refl _
  | tail _ hstep ih => exact Nat.le_trans ih hstep.size_le

theorem contains_of_lt (h : s.Grows t) (hx : x.index < s.slots.size) (ht : t.contains x) :
    s.contains x := by
  induction h with
  | refl => exact ht
  | tail hst hstep ih =>
    exact ih (hstep.contains_of_lt (Nat.lt_of_lt_of_le hx (size_le hst)) ht)

theorem source_of_lt (h : s.Grows t) (hx : x.index < s.slots.size) (ht : t.get? x = some e) :
    ∃ e₀, s.get? x = some e₀ ∧ e₀.source = e.source := by
  induction h generalizing e with
  | refl => exact ⟨e, ht, rfl⟩
  | tail hst hstep ih =>
    obtain ⟨e₁, he₁, hsource⟩ := hstep.source_of_lt (Nat.lt_of_lt_of_le hx (size_le hst)) ht
    exact hsource ▸ ih he₁

/-- A growth made of one growth per member of a list. -/
theorem foldl {σ α : Type} (scene : σ → Scene) {f : σ → α → σ}
    (hf : ∀ w a, (scene w).Grows (scene (f w a))) (w : σ) (l : List α) :
    (scene w).Grows (scene (l.foldl f w)) := reflTransGen_foldl scene hf w l

end Grows

end Scene

end SceneTree
