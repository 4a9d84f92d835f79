import SceneTree.Proofs.Expand.Contract
import SceneTree.Proofs.Expand.Relocate
import SceneTree.Proofs.Forest.Alike

/-!
# Scenes that differ by names

`Renaming g f s t` says that `t` is `s` with every id `y` replaced by
`f y`, as far as `g` reads the elements: the live elements correspond one
to one, and each holds the ids that its counterpart holds, renamed. A
parent, the order of children and what an instance keeps are the same then
but for the names.

`Renewed g s t p f` is the renaming that expanding an instance again comes
to. It moves the copy of the instance `p`, in order, to ids that were not
given out before, and leaves every other id alone. What belongs to the copy
is told by the scene (`OwnCopy`): all that lies below the instance, but not
at or below its usage. Such renamings can be made one after another
(`Renewed.trans`).
-/

namespace SceneTree

namespace Element

variable {f g : ElementId → ElementId} {e : Element}

theorem rename_rename (f g : ElementId → ElementId) (e : Element) :
    (e.rename f).rename g = e.rename (g ∘ f) := by
  cases e with
  | mk _ _ role =>
    cases role with
    | plain widget =>
      simp only [rename, Role.rename, Option.map_map, List.map_map, Function.comp_apply]
    | standIn i =>
      simp only [rename, Role.rename, Instance.rename, Option.map_map, List.map_map,
        Function.comp_apply]

/-- The ids an element holds are its own, those of its neighbours and those
it keeps as an instance. -/
theorem rename_congr (hid : f e.id = g e.id) (hparent : ∀ q, e.parent = some q → f q = g q)
    (hchildren : ∀ c ∈ e.children, f c = g c)
    (hkept : ∀ i, e.instance? = some i → ∀ c, c ∈ i.usage ∨ c ∈ i.roots → f c = g c) :
    e.rename f = e.rename g := by
  have hrole : e.role.rename f = e.role.rename g := by
    cases hr : e.role with
    | plain widget => rfl
    | standIn i =>
      have hkept := hkept i (by rw [instance?, hr]; rfl)
      rw [Role.rename, Role.rename, Instance.rename, Instance.rename,
        List.map_congr_left fun c hc => hkept c (.inl hc),
        List.map_congr_left fun c hc => hkept c (.inr hc)]
  have hup : e.parent.map f = e.parent.map g := Option.map_congr hparent
  rw [rename, rename, hid, hrole, hup, List.map_congr_left hchildren]

theorem core_rename (f : ElementId → ElementId) (e : Element) :
    (e.rename f).core = e.core.rename f := rfl

theorem still_rename (f : ElementId → ElementId) (e : Element) :
    (e.rename f).still = e.still.rename f := rfl

end Element

namespace Scene

variable {g : Element → Element} {f f' : ElementId → ElementId} {s t u : Scene}
  {p q y z : ElementId} {e : Element}

/-- `t` is `s` under other names, as far as `g` reads the elements. -/
structure Renaming (g : Element → Element) (f : ElementId → ElementId) (s t : Scene) : Prop where
  exists_get? : ∀ y e, s.get? y = some e → ∃ e', t.get? (f y) = some e' ∧ g e' = g (e.rename f)
  inj : ∀ y z, s.contains y → s.contains z → f y = f z → y = z
  onto : ∀ z, t.contains z → ∃ y, s.contains y ∧ f y = z

namespace Renaming

theorem contains (h : Renaming g f s t) (hy : s.contains y) : t.contains (f y) := by
  obtain ⟨e, he⟩ := contains_iff.mp hy
  obtain ⟨e', he', -⟩ := h.exists_get? y e he
  exact contains_of_get? he'

theorem trans (h : Renaming g f s t) (h' : Renaming g f' t u)
    (hg : ∀ f e, g (e.rename f) = (g e).rename f) : Renaming g (f' ∘ f) s u where
  exists_get? y e he := by
    obtain ⟨e', he', heq⟩ := h.exists_get? y e he
    obtain ⟨e'', he'', heq'⟩ := h'.exists_get? (f y) e' he'
    refine ⟨e'', he'', ?_⟩
    rw [heq', hg, heq, hg, Element.rename_rename, hg]
  inj y z hy hz heq := h.inj y z hy hz (h'.inj (f y) (f z) (h.contains hy) (h.contains hz) heq)
  onto z hz := by
    obtain ⟨y', hy', rfl⟩ := h'.onto z hz
    obtain ⟨y, hy, rfl⟩ := h.onto y' hy'
    exact ⟨y, hy, rfl⟩

/-- There are as many elements as before. -/
theorem size_eq (h : Renaming g f s t) (hs : s.Forest) (ht : t.Forest) : t.size = s.size := by
  have hnodup : (s.ids.map f).Nodup := by
    refine hs.ids_nodup.map_on fun y hy z hz heq => ?_
    exact h.inj y z (hs.mem_ids.mp hy) (hs.mem_ids.mp hz) heq
  have hperm : (s.ids.map f).Perm t.ids := by
    refine (List.perm_ext_iff_of_nodup hnodup ht.ids_nodup).mpr fun z => ?_
    rw [List.mem_map, ht.mem_ids]
    constructor
    · rintro ⟨y, hy, rfl⟩
      exact h.contains (hs.mem_ids.mp hy)
    · intro hz
      obtain ⟨y, hy, rfl⟩ := h.onto z hz
      exact ⟨y, hs.mem_ids.mpr hy, rfl⟩
  rw [← Forest.length_ids, ← Forest.length_ids, ← hperm.length_eq, List.length_map]

end Renaming

/-! ## The copy of an instance -/

/-- Whether an element belongs to the copy of the instance `p`: it lies
below the instance, but not at or below its usage. -/
def OwnCopy (s : Scene) (p y : ElementId) : Prop :=
  s.Above p y ∧ ∀ e, s.get? p = some e → ∀ u ∈ e.usage, ¬ s.AtOrAbove u y

theorem SameShape.ownCopy_iff (h : s.SameShape t) : t.OwnCopy p y ↔ s.OwnCopy p y := by
  have husage (e e' : Element) (he : s.get? p = some e) (he' : t.get? p = some e') :
      e'.usage = e.usage := by
    obtain ⟨e₀, he₀, hplace⟩ := h.exists_get? he'
    cases he.symm.trans he₀
    exact (Element.usage_congr hplace).symm
  refine and_congr h.above_iff ⟨fun hu e he u hm => ?_, fun hu e' he' u hm => ?_⟩
  · obtain ⟨e', he'⟩ := contains_iff.mp ((h.contains p).trans (contains_of_get? he))
    exact fun ha => hu e' he' u (husage e e' he he' ▸ hm) (h.atOrAbove_iff.mpr ha)
  · obtain ⟨e, he⟩ := contains_iff.mp ((h.contains p).symm.trans (contains_of_get? he'))
    exact fun ha => hu e he u (husage e e' he he' ▸ hm) (h.atOrAbove_iff.mp ha)

/-- `t` is `s` with the copy of `p` made again, under new ids in the same
order. -/
structure Renewed (g : Element → Element) (s t : Scene) (p : ElementId)
    (f : ElementId → ElementId) : Prop extends Renaming g f s t where
  size_eq : t.size = s.size
  slots_le : s.slots.size ≤ t.slots.size
  fixes : ∀ y, s.contains y → ¬ s.OwnCopy p y → f y = y
  fresh : ∀ y, s.OwnCopy p y → s.slots.size ≤ (f y).index
  increasing : ∀ y z, s.OwnCopy p y → s.OwnCopy p z → y.index < z.index →
    (f y).index < (f z).index
  ownCopy_iff : ∀ y, s.contains y → (t.OwnCopy p (f y) ↔ s.OwnCopy p y)

namespace Renewed

theorem trans (h : Renewed g s t p f) (h' : Renewed g t u p f')
    (hg : ∀ f e, g (e.rename f) = (g e).rename f) : Renewed g s u p (f' ∘ f) where
  toRenaming := h.toRenaming.trans h'.toRenaming hg
  size_eq := h'.size_eq.trans h.size_eq
  slots_le := Nat.le_trans h.slots_le h'.slots_le
  fixes y hy hown := by
    have hfix := h.fixes y hy hown
    have hown' : ¬ t.OwnCopy p (f y) := fun ho => hown ((h.ownCopy_iff y hy).mp ho)
    exact (h'.fixes (f y) (h.contains hy) hown').trans hfix
  fresh y hown :=
    Nat.le_trans h.slots_le (h'.fresh (f y) ((h.ownCopy_iff y hown.1.contains).mpr hown))
  increasing y z hy hz hlt :=
    h'.increasing (f y) (f z) ((h.ownCopy_iff y hy.1.contains).mpr hy)
      ((h.ownCopy_iff z hz.1.contains).mpr hz) (h.increasing y z hy hz hlt)
  ownCopy_iff y hy := (h'.ownCopy_iff (f y) (h.contains hy)).trans (h.ownCopy_iff y hy)

/-- What is derived from the elements may be written anew. -/
theorem alike (h : Renewed Element.core s t p f) (ht : t.Forest) (hu : u.Forest)
    (ha : Alike Element.core t u) : Renewed Element.core s u p f := by
  have hst := ha.sameShape
  refine { h with
    exists_get? := fun y e he => ?_
    onto := fun z hz => ?_
    size_eq := ?_
    slots_le := Nat.le_trans h.slots_le (Nat.le_of_eq ha.size.symm)
    ownCopy_iff := fun y hy => ?_ }
  · obtain ⟨e', he', heq⟩ := h.exists_get? y e he
    have hmap := ha.map_get? (f y)
    rw [he', Option.map_some] at hmap
    obtain ⟨e'', he'', heq'⟩ := Option.map_eq_some_iff.mp hmap
    exact ⟨e'', he'', heq'.trans heq⟩
  · exact h.onto z (ha.contains z ▸ hz)
  · rw [← Forest.length_ids, hst.ids_eq ht hu, Forest.length_ids, h.size_eq]
  · exact hst.ownCopy_iff.trans (h.ownCopy_iff y hy)

end Renewed

end Scene

end SceneTree
