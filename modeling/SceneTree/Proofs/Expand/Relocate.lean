import SceneTree.Proofs.Forest.Folds
import SceneTree.Scene.Expand

/-!
# The same copy at another place

An expansion gives out ids from the next one on and puts what it makes
under one element, its host. Apart from the host it looks at nothing that
was there before. So two scenes in which the same was done from some id on
differ there only by the names of the elements: `Relocated` says that one
is the other with the new ids and the host renamed.

Every operation of a scene on new elements respects this. What has to be
seen each time is that the operation cannot tell the two scenes apart: an
element is there in both or in neither, has a parent in both or in
neither, and lies above another in both or in neither.
-/

namespace SceneTree

/-! ## Renaming -/

def Instance.rename (f : ElementId → ElementId) (i : Instance) : Instance :=
  { i with usage := i.usage.map f, roots := i.roots.map f }

def Role.rename (f : ElementId → ElementId) : Role → Role
  | .plain widget => .plain widget
  | .standIn i => .standIn (i.rename f)

/-- The element with other names for all ids it holds. -/
def Element.rename (f : ElementId → ElementId) (e : Element) : Element :=
  { e with
    id := f e.id
    role := e.role.rename f
    parent := e.parent.map f
    children := e.children.map f }

theorem Element.instance?_rename (f : ElementId → ElementId) (e : Element) :
    (e.rename f).instance? = e.instance?.map (·.rename f) := by
  rw [instance?, instance?, rename]
  cases e.role <;> rfl

theorem Element.isInstance_rename (f : ElementId → ElementId) (e : Element) :
    (e.rename f).isInstance = e.isInstance := by
  rw [isInstance, isInstance, instance?_rename, Option.isSome_map]

/-! ## Relocations -/

/-- Two places for one copy: for each, the first id that is given out and
the element under which the copy is put. -/
structure Relocation where
  base : Nat
  host : ElementId
  base' : Nat
  host' : ElementId

namespace Relocation

variable {r : Relocation} {x y z : ElementId}

/-- Whether an id is one of those given out. -/
def Fresh (r : Relocation) (y : ElementId) : Prop := r.base ≤ y.index

/-- The name of an element at the other place. -/
def move (r : Relocation) (y : ElementId) : ElementId :=
  if r.base ≤ y.index then ⟨r.base' + (y.index - r.base)⟩
  else if y = r.host then r.host' else y

/-- What an instance keeps is all part of the copy. -/
def Kept (r : Relocation) (i : Instance) : Prop :=
  (∀ u ∈ i.usage, r.Fresh u) ∧ ∀ y ∈ i.roots, r.Fresh y

/-- An element of the copy as an expansion leaves it: without a texture,
and keeping nothing that is not part of the copy. -/
structure Raw (r : Relocation) (e : Element) : Prop where
  texture : e.texture = none
  textureLoaded : e.textureLoaded = false
  kept : ∀ i, e.instance? = some i → r.Kept i

theorem Raw.congr {e e' : Element} (h : r.Raw e) (halone : e'.alone = e.alone) : r.Raw e' where
  texture := (congrArg Element.texture halone).trans h.texture
  textureLoaded := (congrArg Element.textureLoaded halone).trans h.textureLoaded
  kept i hi := h.kept i (by
    have hinstance := congrArg Element.instance? halone
    exact hinstance.symm.trans hi)

theorem move_of_fresh (hy : r.Fresh y) : r.move y = ⟨r.base' + (y.index - r.base)⟩ := if_pos hy

theorem move_host (h : r.host.index < r.base) : r.move r.host = r.host' := by
  rw [move, if_neg (Nat.not_le.mpr h), if_pos rfl]

theorem base_le_move (hy : r.Fresh y) : r.base' ≤ (r.move y).index := by
  rw [move_of_fresh hy]
  exact Nat.le_add_right _ _

theorem move_inj (hy : r.Fresh y) (hz : r.Fresh z) : r.move y = r.move z ↔ y = z := by
  refine ⟨fun h => ?_, fun h => congrArg r.move h⟩
  rw [move_of_fresh hy, move_of_fresh hz, ElementId.mk.injEq] at h
  have hy : r.base ≤ y.index := hy
  have hz : r.base ≤ z.index := hz
  cases y
  cases z
  simp only [ElementId.mk.injEq] at *
  omega

theorem exists_move (hz : r.base' ≤ z.index) : ∃ y, r.Fresh y ∧ r.move y = z := by
  have hfresh : r.Fresh ⟨r.base + (z.index - r.base')⟩ := Nat.le_add_right _ _
  refine ⟨_, hfresh, ?_⟩
  rw [move_of_fresh hfresh]
  cases z
  simp only [ElementId.mk.injEq] at *
  omega

end Relocation

namespace Scene

open Relocation

/-- From the bases on, `t` is `s` with the ids moved. In neither scene is
anything of the copy above what was there before, and above the copy there
is only the host. -/
structure Relocated (r : Relocation) (s t : Scene) : Prop where
  forest : s.Forest
  forest' : t.Forest
  size : s.slots.size + r.base' = t.slots.size + r.base
  size_le : r.base ≤ s.slots.size
  host : s.contains r.host
  host' : t.contains r.host'
  host_lt : r.host.index < r.base
  host_lt' : r.host'.index < r.base'
  get?_move : ∀ y, r.Fresh y → t.get? (r.move y) = (s.get? y).map (·.rename r.move)
  parent_fresh : ∀ y z, r.Fresh y → s.parent? y = some z → r.Fresh z ∨ z = r.host
  parent_old : ∀ y z, y.index < r.base → s.parent? y = some z → z.index < r.base
  parent_old' : ∀ y z, y.index < r.base' → t.parent? y = some z → z.index < r.base'
  raw : ∀ y e, r.Fresh y → s.get? y = some e → r.Raw e

namespace Relocated

variable {r : Relocation} {s t s' t' : Scene} {x y z a b c : ElementId} {e : Element}

/-! ### What the two scenes agree on -/

theorem contains_move (h : Relocated r s t) (hy : r.Fresh y) :
    t.contains (r.move y) = s.contains y := by
  rw [contains, h.get?_move y hy, Option.isSome_map, contains]

theorem move_host (h : Relocated r s t) : r.move r.host = r.host' := Relocation.move_host h.host_lt

theorem host_not_fresh (h : Relocated r s t) : ¬ r.Fresh r.host := Nat.not_le.mpr h.host_lt

theorem parent?_move (h : Relocated r s t) (hy : r.Fresh y) :
    t.parent? (r.move y) = (s.parent? y).map r.move := by
  rw [Scene.parent?, h.get?_move y hy, Scene.parent?]
  cases s.get? y <;> rfl

theorem children_move (h : Relocated r s t) (hy : r.Fresh y) :
    t.children (r.move y) = (s.children y).map r.move := by
  rw [Scene.children, h.get?_move y hy, Scene.children]
  cases s.get? y <;> rfl

/-- Whatever hangs under the copy is part of it. -/
theorem child_fresh (h : Relocated r s t) (hy : r.Fresh y) (hc : c ∈ s.children y) :
    r.Fresh c := by
  by_contra hlt
  exact Nat.not_lt.mpr hy (h.parent_old c y (Nat.not_le.mp hlt) (h.forest.mirror.mp hc))

theorem old_of_atOrAbove (h : Relocated r s t) (hy : y.index < r.base)
    (ha : s.AtOrAbove x y) : x.index < r.base := by
  induction ha with
  | refl => exact hy
  | tail _ hp ih => exact h.parent_old _ _ ih hp

theorem old_of_atOrAbove' (h : Relocated r s t) (hy : y.index < r.base')
    (ha : t.AtOrAbove x y) : x.index < r.base' := by
  induction ha with
  | refl => exact hy
  | tail _ hp ih => exact h.parent_old' _ _ ih hp

/-- Nothing of the copy lies above the host. -/
theorem not_atOrAbove_host (h : Relocated r s t) (hx : r.Fresh x) : ¬ s.AtOrAbove x r.host :=
  fun ha => Nat.not_lt.mpr hx (h.old_of_atOrAbove h.host_lt ha)

theorem not_atOrAbove_host' (h : Relocated r s t) (hx : r.Fresh x) :
    ¬ t.AtOrAbove (r.move x) r.host' := fun ha =>
  Nat.not_lt.mpr (base_le_move hx) (h.old_of_atOrAbove' h.host_lt' ha)

/-- Ways up within the copy are the same at both places. -/
theorem atOrAbove_move (h : Relocated r s t) (hx : r.Fresh x) (hy : r.Fresh y) :
    t.AtOrAbove (r.move x) (r.move y) ↔ s.AtOrAbove x y := by
  constructor
  · intro ha
    generalize hw : r.move y = w at ha
    induction ha using Relation.ReflTransGen.head_induction_on generalizing y with
    | refl => exact (move_inj hy hx).mp hw ▸ .refl
    | head hp hup ih =>
      subst hw
      have hp : t.parent? (r.move y) = _ := hp
      rw [h.parent?_move hy, Option.map_eq_some_iff] at hp
      obtain ⟨z, hz, rfl⟩ := hp
      rcases h.parent_fresh y z hy hz with hfresh | rfl
      · exact .head hz (ih hfresh rfl)
      · rw [h.move_host] at hup
        exact absurd hup (h.not_atOrAbove_host' hx)
  · intro ha
    induction ha using Relation.ReflTransGen.head_induction_on with
    | refl => exact .refl
    | head hp hup ih =>
      rcases h.parent_fresh _ _ hy hp with hfresh | rfl
      · refine .head ?_ (ih hfresh)
        rw [Rises, h.parent?_move hy, show s.parent? _ = some _ from hp, Option.map_some]
      · exact absurd hup (h.not_atOrAbove_host hx)

/-- The element at the other place, if `y` is part of the copy or the host. -/
theorem contains_inside (h : Relocated r s t) (hy : r.Fresh y ∨ y = r.host) :
    t.contains (r.move y) = s.contains y := by
  rcases hy with hy | rfl
  · exact h.contains_move hy
  · rw [h.move_host, h.host, h.host']

theorem atOrAbove_inside (h : Relocated r s t) (hx : r.Fresh x) (hy : r.Fresh y ∨ y = r.host) :
    t.AtOrAbove (r.move x) (r.move y) ↔ s.AtOrAbove x y := by
  rcases hy with hy | rfl
  · exact h.atOrAbove_move hx hy
  · rw [h.move_host]
    exact iff_of_false (h.not_atOrAbove_host' hx) (h.not_atOrAbove_host hx)

theorem move_inj_inside (h : Relocated r s t) (hx : r.Fresh x) (hy : r.Fresh y ∨ y = r.host) :
    r.move y = r.move x ↔ y = x := by
  rcases hy with hy | rfl
  · exact move_inj hy hx
  · rw [h.move_host]
    refine iff_of_false (fun heq => ?_) fun heq => h.host_not_fresh (heq ▸ hx)
    exact Nat.not_lt.mpr (base_le_move hx) (heq ▸ h.host_lt')

/-- Moving a list of new ids commutes with leaving one out. -/
theorem map_filter_ne (hc : r.Fresh c) {l : List ElementId} (hl : ∀ y ∈ l, r.Fresh y) :
    (l.filter (· ≠ c)).map r.move = (l.map r.move).filter (· ≠ r.move c) := by
  rw [List.filter_map]
  refine congrArg (List.map r.move) (List.filter_congr fun y hy => ?_)
  simp only [Function.comp_apply, ne_eq, move_inj (hl y hy) hc]

/-- The copies at the other place are the copies moved. -/
theorem move_copyId (h : Relocated r s t) (k : Nat) : r.move (s.copyId k) = t.copyId k := by
  have hsize := h.size
  have hle := h.size_le
  have hfresh : r.Fresh (s.copyId k) := Nat.le_trans h.size_le (Nat.le_add_right _ _)
  rw [move_of_fresh hfresh]
  simp only [copyId, nextId, ElementId.mk.injEq]
  omega

theorem fresh_copyId (h : Relocated r s t) (k : Nat) : r.Fresh (s.copyId k) :=
  Nat.le_trans h.size_le (Nat.le_add_right _ _)

theorem map_copyId (h : Relocated r s t) (l : List Nat) :
    l.map t.copyId = (l.map s.copyId).map r.move := by
  rw [List.map_map]
  exact List.map_congr_left fun k _ => (h.move_copyId k).symm

theorem fresh_of_mem_copies (h : Relocated r s t) {l : List Nat} :
    ∀ c ∈ l.map s.copyId, r.Fresh c := fun c hc => by
  obtain ⟨k, -, rfl⟩ := List.mem_map.mp hc
  exact h.fresh_copyId k

/-! ### Operations that add nothing -/

/-- What has to be seen of an operation that adds no element: the copies
agree again, and every edge that is new belongs to the copy. -/
theorem step (h : Relocated r s t) (hs : s'.Forest) (ht : t'.Forest)
    (hsize : s'.slots.size = s.slots.size) (hsize' : t'.slots.size = t.slots.size)
    (hhost : s'.contains r.host) (hhost' : t'.contains r.host')
    (hget : ∀ y, r.Fresh y → t'.get? (r.move y) = (s'.get? y).map (·.rename r.move))
    (hparent : ∀ y z, s'.parent? y = some z →
      s.parent? y = some z ∨ r.Fresh y ∧ (r.Fresh z ∨ z = r.host))
    (hparent' : ∀ y z, t'.parent? y = some z → t.parent? y = some z ∨ r.base' ≤ y.index)
    (hraw : ∀ y e, r.Fresh y → s'.get? y = some e → r.Raw e) :
    Relocated r s' t' where
  forest := hs
  forest' := ht
  size := by rw [hsize, hsize', h.size]
  size_le := hsize ▸ h.size_le
  host := hhost
  host' := hhost'
  host_lt := h.host_lt
  host_lt' := h.host_lt'
  get?_move := hget
  parent_fresh y z hy hp := (hparent y z hp).elim (h.parent_fresh y z hy) (·.2)
  parent_old y z hy hp := by
    rcases hparent y z hp with hp | ⟨hfresh, -⟩
    · exact h.parent_old y z hy hp
    · exact absurd hy (Nat.not_lt.mpr hfresh)
  parent_old' y z hy hp := by
    rcases hparent' y z hp with hp | hfresh
    · exact h.parent_old' y z hy hp
    · exact absurd hy (Nat.not_lt.mpr hfresh)
  raw := hraw

/-- An element of the copy is edited in the same way at both places. -/
theorem modify (h : Relocated r s t) (hx : r.Fresh x) {f g : Element → Element}
    (hf : KeepsPlace f) (hg : KeepsPlace g) (hfg : ∀ e, (f e).rename r.move = g (e.rename r.move))
    (hraw : ∀ e, r.Raw e → r.Raw (f e)) :
    Relocated r (s.modify x f) (t.modify (r.move x) g) := by
  refine h.step (h.forest.modify hf x) (h.forest'.modify hg _) (size_modify ..) (size_modify ..)
    ?_ ?_ (fun y hy => ?_) (fun y z hp => .inl ?_) (fun y z hp => .inl ?_)
    fun y e hy he => ?_
  · rw [contains_modify, h.host]
  · rw [contains_modify, h.host']
  · rw [get?_modify, get?_modify, h.get?_move y hy]
    simp only [move_inj hy hx]
    split
    · rw [Option.map_map, Option.map_map]
      exact congrArg (Option.map · (s.get? y)) (funext fun e => (hfg e).symm)
    · rfl
  · rwa [parent?_modify hf.parent] at hp
  · rwa [parent?_modify hg.parent] at hp
  · rw [get?_modify] at he
    split at he
    next =>
      obtain ⟨e₀, he₀, rfl⟩ := Option.map_eq_some_iff.mp he
      exact hraw e₀ (h.raw y e₀ hy he₀)
    next => exact h.raw y e hy he

/-- An edit of the place in the tree only. -/
theorem raw_of_map (h : Relocated r s t) {f : Element → Element} (hy : r.Fresh y)
    (he : (s.get? y).map f = some e) (hf : ∀ e, (f e).alone = e.alone := by intro; rfl) :
    r.Raw e := by
  obtain ⟨e₀, he₀, rfl⟩ := Option.map_eq_some_iff.mp he
  exact (h.raw y e₀ hy he₀).congr (hf e₀)

/-- A link that is made at one place is made at the other. -/
theorem link_of_ok (h : Relocated r s t) (hc : r.Fresh c) (ha : r.Fresh a ∨ a = r.host)
    (hl : s.link a c = .ok s') :
    ∃ t', t.link (r.move a) (r.move c) = .ok t' ∧ Relocated r s' t' := by
  obtain ⟨hne, hlive, hup, hnone, hcycle, -⟩ := link_eq_ok hl
  obtain ⟨t', hl'⟩ : ∃ t', t.link (r.move a) (r.move c) = .ok t' := by
    refine link_ok (fun heq => hne ((h.move_inj_inside hc ha).mp heq)) ?_ ?_ ?_ fun hcycle' => ?_
    · rw [h.contains_move hc, hlive]
    · rw [h.contains_inside ha, hup]
    · rw [h.parent?_move hc, hnone, Option.map_none]
    · refine hcycle (h.forest.isAtOrAbove_iff.mpr ?_)
      exact (h.atOrAbove_inside hc ha).mp (h.forest'.isAtOrAbove_iff.mp hcycle')
  refine ⟨t', hl', h.step (h.forest.link hl) (h.forest'.link hl') (size_link hl) (size_link hl')
    ?_ ?_ (fun y hy => ?_) (fun y z hp => ?_) (fun y z hp => ?_) fun y e hy he => ?_⟩
  · rw [contains_link hl, h.host]
  · rw [contains_link hl', h.host']
  · rw [get?_link hl, get?_link hl', h.get?_move y hy, Option.map_map, Option.map_map]
    refine congrArg (Option.map · (s.get? y)) (funext fun e => ?_)
    have hya : r.move y = r.move a ↔ y = a := by
      rw [eq_comm, h.move_inj_inside hy ha, eq_comm]
    simp only [Function.comp_apply, Element.rename, move_inj hy hc, hya]
    congr 1
    · split <;> rfl
    · split
      · rw [List.map_append, List.map_singleton]
      · rfl
  · rw [parent?_link hl] at hp
    split at hp
    next hyc =>
      cases hp
      exact .inr ⟨hyc ▸ hc, ha⟩
    next => exact .inl hp
  · rw [parent?_link hl'] at hp
    split at hp
    next hyc => exact .inr (hyc ▸ base_le_move hc)
    next => exact .inl hp
  · rw [get?_link hl] at he
    exact h.raw_of_map hy he

/-- Nor is it made there when it is refused here. -/
theorem link_refused (h : Relocated r s t) (hc : r.Fresh c) (ha : r.Fresh a ∨ a = r.host)
    (hl' : t.link (r.move a) (r.move c) = .ok t') : ∃ s', s.link a c = .ok s' := by
  obtain ⟨hne, hlive, hup, hnone, hcycle, -⟩ := link_eq_ok hl'
  rw [h.contains_move hc] at hlive
  rw [h.contains_inside ha] at hup
  rw [h.parent?_move hc, Option.map_eq_none_iff] at hnone
  refine link_ok (fun heq => hne (congrArg r.move heq)) hlive hup hnone fun hcycle' => ?_
  refine hcycle (h.forest'.isAtOrAbove_iff.mpr ?_)
  exact (h.atOrAbove_inside hc ha).mpr (h.forest.isAtOrAbove_iff.mp hcycle')

theorem splicingLink {w w' : Splicing} (h : Relocated r w.scene w'.scene) (hc : r.Fresh c)
    (ha : r.Fresh a ∨ a = r.host) (refusal refusal' : LinkFault → Notice) :
    Relocated r (w.link refusal a c).scene (w'.link refusal' (r.move a) (r.move c)).scene := by
  cases hl : w.scene.link a c with
  | ok s' =>
    obtain ⟨t', hl', hnext⟩ := h.link_of_ok hc ha hl
    simpa only [Splicing.link, hl, hl'] using hnext
  | error cause =>
    cases hl' : w'.scene.link (r.move a) (r.move c) with
    | ok t' =>
      obtain ⟨s', hs'⟩ := h.link_refused hc ha hl'
      cases hl.symm.trans hs'
    | error cause' => simpa only [Splicing.link, hl, hl', Splicing.note] using h

theorem unlink (h : Relocated r s t) (hc : r.Fresh c) :
    Relocated r (s.unlink c) (t.unlink (r.move c)) := by
  have hsub {s : Scene} {c y z : ElementId} (hp : (s.unlink c).parent? y = some z) :
      s.parent? y = some z := by
    rw [parent?_unlink] at hp
    split at hp
    next => cases hp
    next => exact hp
  refine h.step (h.forest.unlink c) (h.forest'.unlink _) (size_unlink ..) (size_unlink ..)
    ?_ ?_ (fun y hy => ?_) (fun y z hp => .inl (hsub hp)) (fun y z hp => .inl (hsub hp))
    fun y e hy he => ?_
  · rw [contains_unlink, h.host]
  · rw [contains_unlink, h.host']
  · rw [h.forest.get?_unlink, h.forest'.get?_unlink, h.get?_move y hy]
    cases he : s.get? y with
    | none => rfl
    | some e =>
      have hchildren : ∀ d ∈ e.children, r.Fresh d := fun d hd =>
        h.child_fresh hy (by rwa [children_of_get? he])
      simp only [Option.map_some, Element.rename, move_inj hy hc, map_filter_ne hc hchildren]
      congr 2
      split <;> rfl
  · rw [h.forest.get?_unlink] at he
    exact h.raw_of_map hy he

theorem remove (h : Relocated r s t) (hc : r.Fresh c) :
    Relocated r (s.remove c) (t.remove (r.move c)) := by
  have hsub {s : Scene} (hs : s.Forest) {c y z : ElementId}
      (hp : (s.remove c).parent? y = some z) : s.parent? y = some z := by
    by_cases hup : s.AtOrAbove c y
    · rw [Scene.parent?, hs.get?_remove_of_atOrAbove hup] at hp
      cases hp
    · rwa [hs.parent?_remove hup] at hp
  refine h.step (h.forest.remove c) (h.forest'.remove _) (size_remove ..) (size_remove ..)
    (h.forest.contains_remove.mpr ⟨h.host, h.not_atOrAbove_host hc⟩)
    (h.forest'.contains_remove.mpr ⟨h.host', h.not_atOrAbove_host' hc⟩) (fun y hy => ?_)
    (fun y z hp => .inl (hsub h.forest hp)) (fun y z hp => .inl (hsub h.forest' hp))
    fun y e hy he => ?_
  · by_cases hup : s.AtOrAbove c y
    · rw [h.forest.get?_remove_of_atOrAbove hup,
        h.forest'.get?_remove_of_atOrAbove ((h.atOrAbove_move hc hy).mpr hup), Option.map_none]
    · rw [h.forest.get?_remove_of_not_atOrAbove hup, h.forest'.get?_remove_of_not_atOrAbove
        fun hup' => hup ((h.atOrAbove_move hc hy).mp hup'), h.get?_move y hy]
      cases he : s.get? y with
      | none => rfl
      | some e =>
        have hchildren : ∀ d ∈ e.children, r.Fresh d := fun d hd =>
          h.child_fresh hy (by rwa [children_of_get? he])
        simp only [Option.map_some, Element.rename, map_filter_ne hc hchildren]
  · by_cases hup : s.AtOrAbove c y
    · rw [h.forest.get?_remove_of_atOrAbove hup] at he
      cases he
    · rw [h.forest.get?_remove_of_not_atOrAbove hup] at he
      exact h.raw_of_map hy he

/-- One after another, for what is listed at the two places. -/
theorem foldl {σ τ α β : Type} (scene : σ → Scene) (scene' : τ → Scene)
    {f : σ → α → σ} {g : τ → β → τ} (k : α → β) (l : List α) {w : σ} {w' : τ}
    (h : Relocated r (scene w) (scene' w'))
    (hf : ∀ w w', ∀ a ∈ l, Relocated r (scene w) (scene' w') →
      Relocated r (scene (f w a)) (scene' (g w' (k a)))) :
    Relocated r (scene (l.foldl f w)) (scene' ((l.map k).foldl g w')) := by
  induction l generalizing w w' with
  | nil => exact h
  | cons a l ih =>
    exact ih (hf w w' a List.mem_cons_self h) fun w w' a ha =>
      hf w w' a (List.mem_cons_of_mem _ ha)

/-- One after another, for what is the same at both places. -/
theorem foldl_same {σ τ α : Type} (scene : σ → Scene) (scene' : τ → Scene) {f : σ → α → σ}
    {g : τ → α → τ} (l : List α) {w : σ} {w' : τ} (h : Relocated r (scene w) (scene' w'))
    (hf : ∀ w w', ∀ a ∈ l, Relocated r (scene w) (scene' w') →
      Relocated r (scene (f w a)) (scene' (g w' a))) :
    Relocated r (scene (l.foldl f w)) (scene' (l.foldl g w')) := by
  have hfold := foldl scene scene' id l h hf
  rwa [List.map_id] at hfold

theorem foldl_unlink (h : Relocated r s t) {l : List ElementId} (hl : ∀ c ∈ l, r.Fresh c) :
    Relocated r (l.foldl Scene.unlink s) ((l.map r.move).foldl Scene.unlink t) :=
  foldl id id r.move l h fun _ _ c hc hw => Relocated.unlink hw (hl c hc)

theorem foldl_remove (h : Relocated r s t) {l : List ElementId} (hl : ∀ c ∈ l, r.Fresh c) :
    Relocated r (l.foldl Scene.remove s) ((l.map r.move).foldl Scene.remove t) :=
  foldl id id r.move l h fun _ _ c hc hw => Relocated.remove hw (hl c hc)

end Relocated

end Scene

end SceneTree
