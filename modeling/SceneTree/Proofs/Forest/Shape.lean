import SceneTree.Proofs.Forest.Folds

/-!
# The shape of a scene

The shape of a scene is which slots are filled, what the elements in them
come from and stand for, and which edges there are. Most of what a session
does to a scene, from measuring it to patching it, rewrites elements where
they stand and leaves the shape alone. `SameShape` says so, and what is a
matter of shape only, such as subtrees and ids, carries over.
-/

namespace SceneTree

/-- What an element is to the tree. -/
def Element.place (e : Element) : Source × Role × Option ElementId × List ElementId :=
  (e.source, e.role, e.parent, e.children)

namespace Scene

variable {s t u : Scene} {f : Element → Element} {x : ElementId} {e : Element}

/-- The same slots are filled, each with what is the same to the tree. -/
structure SameShape (s t : Scene) : Prop where
  size : t.slots.size = s.slots.size
  place? : ∀ x, (t.get? x).map Element.place = (s.get? x).map Element.place

namespace SameShape

theorem refl (s : Scene) : s.SameShape s := ⟨rfl, fun _ => rfl⟩

theorem trans (h : s.SameShape t) (h' : t.SameShape u) : s.SameShape u where
  size := h'.size.trans h.size
  place? x := (h'.place? x).trans (h.place? x)

theorem modify (s : Scene) (id : ElementId) {f : Element → Element}
    (hf : ∀ e, (f e).place = e.place := by intro; rfl) : s.SameShape (s.modify id f) where
  size := size_modify s id f
  place? := map_get?_modify hf s id

theorem exists_get? (h : s.SameShape t) (he : t.get? x = some e) :
    ∃ e₀, s.get? x = some e₀ ∧ e₀.place = e.place := by
  have hplace := h.place? x
  rw [he, Option.map_some] at hplace
  exact Option.map_eq_some_iff.mp hplace.symm

theorem contains (h : s.SameShape t) (x : ElementId) : t.contains x = s.contains x := by
  have hsome := congrArg Option.isSome (h.place? x)
  rwa [Option.isSome_map, Option.isSome_map] at hsome

/-- What can be read off the place of an element is the same. -/
theorem reading {α : Type} (h : s.SameShape t) {g : Element → α}
    (r : Source × Role × Option ElementId × List ElementId → α) (hg : ∀ e, g e = r e.place)
    (x : ElementId) : (t.get? x).map g = (s.get? x).map g := by
  have hmap := congrArg (Option.map r) (h.place? x)
  rw [Option.map_map, Option.map_map] at hmap
  rwa [show g = r ∘ Element.place from funext hg]

theorem parent? (h : s.SameShape t) (x : ElementId) : t.parent? x = s.parent? x := by
  have hparent : (t.get? x).map (·.parent) = (s.get? x).map (·.parent) :=
    h.reading (fun p => p.2.2.1) (fun _ => rfl) x
  rw [parent?_eq_map, hparent, ← parent?_eq_map]

theorem children (h : s.SameShape t) (x : ElementId) : t.children x = s.children x := by
  have hchildren : (t.get? x).map (·.children) = (s.get? x).map (·.children) :=
    h.reading (fun p => p.2.2.2) (fun _ => rfl) x
  rw [Scene.children, hchildren, ← Scene.children]

theorem lineageWithin_eq (h : s.SameShape t) (n : Nat) (id : ElementId) :
    t.lineageWithin n id = s.lineageWithin n id := by
  induction n generalizing id with
  | zero => rfl
  | succ n ih =>
    rw [lineageWithin, lineageWithin, h.parent?]
    cases s.parent? id with
    | none => rfl
    | some p => exact congrArg (id :: ·) (ih p)

theorem lineage_eq (h : s.SameShape t) (id : ElementId) : t.lineage id = s.lineage id := by
  rw [lineage, h.size]
  exact h.lineageWithin_eq _ id

theorem atOrAbove_iff {x y : ElementId} (h : s.SameShape t) :
    t.AtOrAbove y x ↔ s.AtOrAbove y x :=
  atOrAbove_congr (P := fun _ => True) (fun _ _ => trivial) (fun {z} _ => h.parent? z) trivial

theorem above_iff {x y : ElementId} (h : s.SameShape t) : t.Above y x ↔ s.Above y x := by
  constructor
  · exact Above.mono fun c p hp => (h.parent? c).symm.trans hp
  · exact Above.mono fun c p hp => (h.parent? c).trans hp

theorem subtreeWithin_eq (h : s.SameShape t) (n : Nat) (id : ElementId) :
    t.subtreeWithin n id = s.subtreeWithin n id := by
  induction n generalizing id with
  | zero => rfl
  | succ n ih =>
    by_cases hid : s.contains id
    · have hid' : t.contains id := (h.contains id).trans hid
      obtain ⟨e, he⟩ := contains_iff.mp hid
      obtain ⟨e', he'⟩ := contains_iff.mp hid'
      rw [subtreeWithin_succ_of_get? he, subtreeWithin_succ_of_get? he', ← children_of_get? he,
        ← children_of_get? he', h.children]
      exact congrArg (id :: ·) (List.flatMap_congr fun c _ => ih c)
    · have hid' : ¬ t.contains id := by rwa [h.contains]
      rw [subtreeWithin_of_not_contains hid, subtreeWithin_of_not_contains hid']

theorem subtree_eq (h : s.SameShape t) (id : ElementId) : t.subtree id = s.subtree id := by
  rw [subtree, h.size]
  exact h.subtreeWithin_eq _ id

theorem ids_eq (h : s.SameShape t) (hs : s.Forest) (ht : t.Forest) : t.ids = s.ids := by
  rw [ht.ids_eq, hs.ids_eq, h.size]
  exact List.filter_congr fun x _ => h.contains x

theorem roots_eq (h : s.SameShape t) (hs : s.Forest) (ht : t.Forest) : t.roots = s.roots := by
  rw [ht.roots_eq, hs.roots_eq, h.size]
  exact List.filter_congr fun x _ => by rw [h.contains, h.parent?]

end SameShape

/-! ## Rewriting elements where they stand -/

/-- Any number of edits that leave each element what it is to the tree. -/
def Rewrites : Scene → Scene → Prop := Relation.ReflTransGen fun s t =>
  ∃ id f, KeepsPlace f ∧ (∀ e, (f e).role = e.role) ∧ t = s.modify id f

namespace Rewrites

theorem refl (s : Scene) : s.Rewrites s := Relation.ReflTransGen.refl

theorem trans (h : s.Rewrites t) (h' : t.Rewrites u) : s.Rewrites u :=
  Relation.ReflTransGen.trans h h'

/-- Most edits only write fields that say nothing about the place, and
then there is nothing to prove. -/
theorem modify (s : Scene) (id : ElementId) {f : Element → Element}
    (hf : KeepsPlace f := by constructor <;> intro <;> rfl)
    (hrole : ∀ e, (f e).role = e.role := by intro; rfl) : s.Rewrites (s.modify id f) :=
  .single ⟨id, f, hf, hrole, rfl⟩

theorem foldl {σ α : Type} (scene : σ → Scene) {f : σ → α → σ}
    (hf : ∀ w a, (scene w).Rewrites (scene (f w a))) (w : σ) (l : List α) :
    (scene w).Rewrites (scene (l.foldl f w)) := reflTransGen_foldl scene hf w l

theorem grows (h : s.Rewrites t) : s.Grows t := by
  induction h with
  | refl => exact .refl s
  | tail _ hstep ih =>
    obtain ⟨id, f, hf, -, rfl⟩ := hstep
    exact ih.trans (.of_step (.edit hf id))

theorem sameShape (h : s.Rewrites t) : s.SameShape t := by
  induction h with
  | refl => exact .refl s
  | tail _ hstep ih =>
    obtain ⟨id, f, hf, hrole, rfl⟩ := hstep
    refine ih.trans (.modify _ id fun e => ?_)
    rw [Element.place, Element.place, hf.source, hrole, hf.parent, hf.children]

end Rewrites

end Scene

end SceneTree
