import Mathlib.Data.List.Find
import SceneTree.Paint
import SceneTree.Pointer
import SceneTree.Proofs.Forest.Runs
import SceneTree.Proofs.Forest.Subtree

/-!
# What shows

Painting and finding the element at a point both walk down from the roots
and leave out what is hidden together with all below it. In a forest such
a walk meets the live elements in their order, less those that are hidden
or lie below a hidden one (`Forest.visitWithin_eq`). So what is painted
and what can be hit are the same elements in the same order
(`Forest.paints_what_it_hits`), and the element at a point is the last one
painted over it.

The walk keeps a list of pending ids and looks at one element at a time.
The invariant that carries it is that everything above a pending id was
entered: then the element alone decides whether it is.
-/

namespace SceneTree

namespace Scene

variable {s : Scene} {e : Element} {id p c : ElementId} {enter : Element → Bool}

/-! ## Coming to an element -/

/-- Whether a walk from the roots comes to an element: it is let in there
and everywhere above. -/
def isEntered (s : Scene) (enter : Element → Bool) (id : ElementId) : Bool :=
  (s.lineage id).all fun upper => (s.get? upper).any enter

/-- An element shows if it is visible along with all above it. -/
def isShown (s : Scene) (id : ElementId) : Bool := s.isEntered (·.isVisible) id

/-- The live ids: roots in the order of their ids, and each element before
its children and they in their order. -/
def preorder (s : Scene) : List ElementId := s.roots.flatMap s.subtree

/-- A live id whose parent, if it has one, was entered. -/
def Pends (s : Scene) (enter : Element → Bool) (id : ElementId) : Prop :=
  s.contains id ∧ ∀ p, s.parent? id = some p → s.isEntered enter p

namespace Forest

theorem isEntered_iff (h : s.Forest) :
    s.isEntered enter id ↔ ∀ upper, s.AtOrAbove upper id → (s.get? upper).any enter := by
  simp only [isEntered, List.all_eq_true, h.mem_lineage_iff]

theorem isEntered_child (h : s.Forest) (hc : s.parent? c = some p) :
    s.isEntered enter c = ((s.get? c).any enter && s.isEntered enter p) := by
  simp only [isEntered, h.lineage_of_parent? hc, List.all_cons]

/-- Below an element that is not let in there is nothing to come to. -/
theorem filter_isEntered_subtree (h : s.Forest) (he : s.get? id = some e)
    (hout : enter e = false) : (s.subtree id).filter (s.isEntered enter) = [] := by
  refine List.filter_eq_nil_iff.mpr fun x hx hin => ?_
  have hid := h.isEntered_iff.mp hin id (h.mem_subtree.mp hx).2
  rw [he, Option.any_some, hout] at hid
  exact absurd hid Bool.false_ne_true

/-! ## The walk -/

/-- Where everything above was entered, the element itself decides. -/
theorem isEntered_eq (h : s.Forest) (hid : s.Pends enter id) (he : s.get? id = some e) :
    s.isEntered enter id = enter e := by
  cases hp : s.parent? id with
  | none =>
    rw [Bool.eq_iff_iff, h.isEntered_iff]
    refine ⟨fun hall => by simpa [he] using hall id .refl, fun hin upper hup => ?_⟩
    obtain rfl := eq_of_atOrAbove_root hp hup
    rwa [he, Option.any_some]
  | some p => rw [h.isEntered_child hp, he, Option.any_some, hid.2 p hp, Bool.and_true]

/-- Given as many steps as there are elements to meet, a walk down from
pending ids meets what it is let in to of their subtrees, one after
another. -/
theorem visitWithin_eq (h : s.Forest) {n : Nat} {pending : List ElementId}
    (hpending : ∀ x ∈ pending, s.Pends enter x) (hn : (pending.flatMap s.subtree).length ≤ n) :
    s.visitWithin enter n pending =
      ((pending.flatMap s.subtree).filter (s.isEntered enter)).filterMap s.get? := by
  induction n generalizing pending with
  | zero =>
    rw [Nat.le_zero, List.length_eq_zero_iff] at hn
    rw [hn]
    cases pending <;> rfl
  | succ n ih =>
    cases pending with
    | nil => rfl
    | cons id rest =>
      have hid := hpending id List.mem_cons_self
      have hrest : ∀ x ∈ rest, s.Pends enter x := fun x hx =>
        hpending x (List.mem_cons_of_mem _ hx)
      obtain ⟨e, he⟩ := contains_iff.mp hid.1
      have hsub := h.subtree_of_get? he
      rw [List.flatMap_cons, List.length_append] at hn
      rw [List.flatMap_cons, List.filter_append, List.filterMap_append]
      cases hin : enter e with
      | false =>
        have hpos : 0 < (s.subtree id).length := by rw [hsub]; exact Nat.succ_pos _
        rw [h.filter_isEntered_subtree he hin, List.filterMap_nil, List.nil_append,
          ← ih hrest (by omega)]
        simp only [visitWithin, he, hin, Bool.false_eq_true, if_false]
      | true =>
        have hself : s.isEntered enter id := (h.isEntered_eq hid he).trans hin
        have hnext : ∀ x ∈ e.children ++ rest, s.Pends enter x := by
          intro x hx
          rcases List.mem_append.mp hx with hc | hr
          · have hparent := h.mirror.mp (children_of_get? he ▸ hc)
            refine ⟨contains_of_parent? hparent, fun p hp => ?_⟩
            rwa [← rises_unique hparent hp]
          · exact hrest x hr
        rw [hsub, List.length_cons] at hn
        have hlen : ((e.children ++ rest).flatMap s.subtree).length ≤ n := by
          rw [List.flatMap_append, List.length_append]
          omega
        rw [hsub, List.filter_cons_of_pos hself, List.filterMap_cons_some he, List.cons_append,
          ← List.filterMap_append, ← List.filter_append, ← List.flatMap_append, ← ih hnext hlen]
        simp only [visitWithin, he, hin, if_true]

/-! ## From the roots -/

theorem preorder_nodup (h : s.Forest) : s.preorder.Nodup :=
  h.subtrees_perm.nodup_iff.mpr h.ids_nodup

theorem mem_preorder (h : s.Forest) : id ∈ s.preorder ↔ s.contains id :=
  h.subtrees_perm.mem_iff.trans h.mem_ids

theorem shown_eq (h : s.Forest) : s.shown = (s.preorder.filter s.isShown).filterMap s.get? := by
  refine h.visitWithin_eq (fun r hr => ?_) ?_
  · obtain ⟨hlive, hp⟩ := h.mem_roots.mp hr
    refine ⟨hlive, fun p hp' => ?_⟩
    rw [hp] at hp'
    exact absurd hp' (by simp only [reduceCtorEq, not_false_eq_true])
  · exact h.length_le_of_live h.preorder_nodup fun _ hx => h.mem_preorder.mp hx

theorem get?_of_mem_shown (h : s.Forest) (he : e ∈ s.shown) : s.get? e.id = some e := by
  rw [h.shown_eq] at he
  obtain ⟨id, -, hid⟩ := List.mem_filterMap.mp he
  rwa [h.named hid]

theorem map_shown (h : s.Forest) : s.shown.map (·.id) = s.preorder.filter s.isShown := by
  have hself : ∀ x ∈ s.preorder.filter s.isShown, (s.get? x).map (·.id) = some x := by
    intro x hx
    obtain ⟨ex, hex⟩ := contains_iff.mp (h.mem_preorder.mp (List.mem_filter.mp hx).1)
    rw [hex, Option.map_some, h.named hex]
  rw [h.shown_eq, List.map_filterMap, List.filterMap_congr hself, List.filterMap_some]

/-- Painting and hit testing see the same elements in the same order: the
forest from its first root to its last, each element before what is below
it, without what is hidden or lies below something hidden. The count is
theirs, the regions are their rectangles, and a point belongs to the last
one that contains it. What is drawn is what each of them draws, its
background, its border, and its text or texture. -/
theorem paints_what_it_hits (h : s.Forest) :
    let order := s.preorder.filter s.isShown
    (∀ id, id ∈ order ↔
      s.contains id ∧ ∀ upper, s.AtOrAbove upper id → (s.get? upper).any (·.isVisible)) ∧
    (s.preorder = s.roots.flatMap s.subtree ∧
      (s.roots = ((List.range s.slots.size).map ElementId.mk).filter
        fun id => s.contains id && (s.parent? id).isNone) ∧
      ∀ id e, s.get? id = some e → s.subtree id = id :: e.children.flatMap s.subtree) ∧
    (s.shown.map (·.id) = order ∧ s.paintedCount = order.length) ∧
    s.regions = order.filterMap (fun id => (s.get? id).map fun e => (id, e.rect)) ∧
    (∀ x y, s.elementAt? x y =
      (order.filter fun id => (s.get? id).any fun e => e.rect.contains x y).getLast?) ∧
    s.paint = order.flatMap fun id => (s.get? id).elim [] fun e =>
      e.backgroundCommands ++ e.borderCommands ++ e.contentCommands := by
  intro order
  have horder : order = s.shown.map (·.id) := h.map_shown.symm
  have hget : ∀ e ∈ s.shown, s.get? e.id = some e := fun e he => h.get?_of_mem_shown he
  refine ⟨fun id => ?_, ⟨rfl, h.roots_eq, fun id e he => h.subtree_of_get? he⟩,
    ⟨horder.symm, ?_⟩, ?_, fun x y => ?_, ?_⟩
  · rw [List.mem_filter, h.mem_preorder]
    exact and_congr_right fun _ => h.isEntered_iff
  · rw [horder, List.length_map, paintedCount]
  · rw [horder, List.filterMap_map, regions, ← List.filterMap_eq_map]
    refine List.filterMap_congr fun e he => ?_
    simp only [Function.comp_apply, hget e he, Option.map_some]
  · rw [List.getLast?_eq_head?_reverse, ← List.filter_reverse, List.head?_filter, horder,
      ← List.map_reverse, List.find?_map, elementAt?, regions, ← List.map_reverse, List.find?_map,
      Option.map_map]
    refine congrArg (Option.map _) (List.find?_congr fun e he => ?_)
    simp only [Function.comp_apply, hget e (List.mem_reverse.mp he), Option.any_some]
  · rw [horder, List.flatMap_map, paint]
    refine List.flatMap_congr fun e he => ?_
    rw [hget e he]
    rfl

end Forest

/-- A root with three children over one another. The first is hidden, and
its child with it. -/
def curtained : Scene :=
  let bare := empty.after
    [.push (.document 0) (.ofWidget .app), .push (.document 1) (.ofWidget .container),
      .push (.document 2) (.ofWidget .container), .push (.document 3) (.ofWidget .container),
      .push (.document 4) (.ofWidget .container), .link ⟨0⟩ ⟨1⟩, .link ⟨1⟩ ⟨2⟩, .link ⟨0⟩ ⟨3⟩,
      .link ⟨0⟩ ⟨4⟩]
  let placed := [⟨0⟩, ⟨1⟩, ⟨2⟩, ⟨3⟩].foldl
    (fun s id => s.modify id fun e => { e with rect := ⟨0, 0, 9, 9⟩ }) bare
  (placed.modify ⟨4⟩ fun e => { e with rect := ⟨5, 5, 9, 9⟩ }).modify ⟨1⟩
    fun e => { e with look := { e.look with visible := false } }

theorem forest_curtained : curtained.Forest := by
  refine Forest.modify (Forest.modify ?_ ?_ _) ?_ _
  · simp only [List.foldl_cons, List.foldl_nil]
    refine ((((forest_after _).modify ?_ _).modify ?_ _).modify ?_ _).modify ?_ _ <;>
      constructor <;> intro <;> rfl
  all_goals constructor <;> intro <;> rfl

/-- The hidden two are neither painted nor hit, and where the others lie
over one another the last is hit. -/
theorem curtained_paints : curtained.shown.map (·.id) = [⟨0⟩, ⟨3⟩, ⟨4⟩] ∧
    curtained.paintedCount = 3 ∧ curtained.elementAt? 6 6 = some ⟨4⟩ ∧
    curtained.elementAt? 2 2 = some ⟨3⟩ ∧ curtained.elementAt? 20 20 = none := by
  obtain ⟨-, -, ⟨hshown, hcount⟩, -, hhit, -⟩ := forest_curtained.paints_what_it_hits
  have horder : curtained.preorder.filter curtained.isShown = [⟨0⟩, ⟨3⟩, ⟨4⟩] := by
    decide +kernel
  rw [horder] at hshown hcount
  simp only [horder] at hhit
  refine ⟨hshown, hcount, (hhit 6 6).trans ?_, (hhit 2 2).trans ?_, (hhit 20 20).trans ?_⟩ <;>
    decide +kernel

end Scene

end SceneTree
