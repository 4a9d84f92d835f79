import SceneTree.Proofs.Forest.Folds
import SceneTree.Proofs.Forest.Runs

/-!
# Links

A link is made as a whole or not at all (`Forest.link_all_or_nothing`).

What can speak against it is asked in a fixed order, and the first fault
that applies is the one told. Whether a link would close a circle is asked
last, by a walk up from the parent. The walk meets the ids above the
parent and the parent itself, which is known by then not to be the child.
So in a forest the answer is whether the child lies above the parent.

All questions come before the first write. `linkInPlace` writes to the
scene it is given and has nothing to go back to, and still a fault leaves
that scene as it was.

A link that is made is undone by unlinking the child. The child is taken
from every place it has among the children of the parent, so this asks
that it had none before. A link does not look there: it only sees that the
child has no parent. That the two come to the same is what the records of
a forest agree on.
-/

namespace SceneTree

/-- What a fault says against hanging `child` under `parent`. -/
def LinkFault.Applies (s : Scene) (parent child : ElementId) : LinkFault → Prop
  | .selfLink _ => parent = child
  | .missing id => ¬ s.contains id
  | .alreadyParented _ p => s.parent? child = some p
  | .wouldCycle _ _ => s.Above child parent

/-- A link made in place. A fault takes nothing back: what is written
before it stays. -/
def linkInPlace (parent child : ElementId) : EStateM LinkFault Scene Unit := do
  let s ← get
  if parent = child then throw (.selfLink child)
  let some c := s.get? child | throw (.missing child)
  if !s.contains parent then throw (.missing parent)
  if let some p := c.parent then throw (.alreadyParented child p)
  if s.isAtOrAbove child parent then throw (.wouldCycle parent child)
  modify (·.modify child fun e => { e with parent := some parent })
  modify (·.modify parent fun e => { e with children := e.children ++ [child] })

namespace Scene

variable {s t : Scene} {p c : ElementId}

/-- What may be told of a link, in the order in which it is asked. -/
def linkFaults (s : Scene) (parent child : ElementId) : List LinkFault :=
  [.selfLink child, .missing child, .missing parent] ++
    (s.parent? child).toList.map (.alreadyParented child) ++ [.wouldCycle parent child]

/-- In place, too, there is the linked scene or the one there was. -/
theorem linkInPlace_eq (s : Scene) (p c : ElementId) :
    linkInPlace p c s =
      match s.link p c with
      | .ok linked => .ok () linked
      | .error fault => .error fault s := by
  have hread (k : Scene → EStateM LinkFault Scene Unit) : (get >>= k) s = k s s := rfl
  rw [linkInPlace, hread, Scene.link]
  by_cases hself : p = c
  · rw [if_pos hself, if_pos hself]
    rfl
  rw [if_neg hself, if_neg hself]
  cases s.get? c with
  | none => rfl
  | some e =>
    cases s.contains p with
    | false => rfl
    | true =>
      dsimp only
      cases e.parent with
      | some q => rfl
      | none => cases s.isAtOrAbove c p <;> rfl

namespace Forest

theorem isAtOrAbove_iff_above (h : s.Forest) (hne : p ≠ c) :
    s.isAtOrAbove c p ↔ s.Above c p := by
  rw [h.isAtOrAbove_iff, atOrAbove_iff, or_iff_right hne]

theorem exists_link_iff (h : s.Forest) :
    (∃ t, s.link p c = .ok t) ↔
      p ≠ c ∧ (s.contains p ∧ s.contains c) ∧ s.parent? c = none ∧ ¬ s.Above c p := by
  constructor
  · rintro ⟨t, hl⟩
    obtain ⟨hne, hc, hp, hroot, hup, -⟩ := link_eq_ok hl
    exact ⟨hne, ⟨hp, hc⟩, hroot, fun ha => hup ((h.isAtOrAbove_iff_above hne).mpr ha)⟩
  · rintro ⟨hne, ⟨hp, hc⟩, hroot, hup⟩
    exact link_ok hne hc hp hroot fun ha => hup ((h.isAtOrAbove_iff_above hne).mp ha)

open scoped Classical in
/-- The first fault that applies is told, and if none does there is none
to tell. -/
theorem find?_linkFaults (h : s.Forest) (p c : ElementId) :
    (s.linkFaults p c).find? (fun f => f.Applies s p c) =
      match s.link p c with
      | .ok _ => none
      | .error fault => some fault := by
  by_cases hself : p = c
  · simp [linkFaults, LinkFault.Applies, Scene.link, hself]
  cases hc : s.get? c with
  | none => simp [linkFaults, LinkFault.Applies, Scene.link, hself, hc, contains]
  | some e =>
    have hlive := contains_of_get? hc
    have hparent := parent?_of_get? hc
    by_cases hp : s.contains p
    · cases hq : e.parent with
      | some q =>
        simp [linkFaults, LinkFault.Applies, Scene.link, hself, hc, hlive, hp, hparent, hq]
      | none =>
        have hup := h.isAtOrAbove_iff_above hself
        by_cases ha : s.Above c p <;>
          simp [linkFaults, LinkFault.Applies, Scene.link, hself, hc, hlive, hp, hparent, hq, hup,
            ha]
    · simp [linkFaults, LinkFault.Applies, Scene.link, hself, hc, hlive, hp]

theorem unlink_link (h : s.Forest) (hl : s.link p c = .ok t) : t.unlink c = s := by
  obtain ⟨-, -, -, hroot, -, -⟩ := link_eq_ok hl
  refine ext_get? ((size_unlink t c).trans (size_link hl)) fun x => get?_eq_of_alone? ?_ ?_ ?_
  · rw [alone?_unlink, alone?_link hl]
  · rw [parent?_unlink, parent?_link hl]
    split
    next hx => rw [hx, hroot]
    next => rfl
  · have hfree : c ∉ s.children x := by
      rw [h.mirror, hroot]
      nofun
    rw [(h.link hl).children_unlink, children_link hl]
    split
    next =>
      rw [List.filter_append, filter_ne_eq_self hfree]
      simp
    next => exact filter_ne_eq_self hfree

open scoped Classical in
/-- A link is made exactly if the two are different and live, the child
has no parent, and it does not lie above the one it is to have. If not, the
first fault that applies is told, and the scene stays as it was. If it is
made, the child has the parent, the parent has one child more at the end,
and nothing else is different. To unlink the child then restores the scene
there was. -/
theorem link_all_or_nothing (h : s.Forest) (p c : ElementId) :
    ((∃ t, s.link p c = .ok t) ↔
      p ≠ c ∧ (s.contains p ∧ s.contains c) ∧ s.parent? c = none ∧ ¬ s.Above c p) ∧
    (∀ fault, s.link p c = .error fault ↔
      (s.linkFaults p c).find? (fun f => f.Applies s p c) = some fault) ∧
    (∀ fault, s.link p c = .error fault → linkInPlace p c s = .error fault s) ∧
    ∀ t, s.link p c = .ok t →
      linkInPlace p c s = .ok () t ∧ t.slots.size = s.slots.size ∧
      (∀ x, t.get? x = (s.get? x).map fun e =>
        { e with
          parent := if x = c then some p else e.parent
          children := if x = p then e.children ++ [c] else e.children }) ∧
      t.unlink c = s := by
  refine ⟨h.exists_link_iff, fun fault => ?_, fun fault hl => ?_, fun t hl => ⟨?_, ?_⟩⟩
  · rw [h.find?_linkFaults]
    cases s.link p c <;> simp
  · rw [linkInPlace_eq, hl]
  · rw [linkInPlace_eq, hl]
  · exact ⟨size_link hl, get?_link hl, h.unlink_link hl⟩

end Forest

/-- A chain of three, an element by itself, and the id of one that is
gone. -/
def chained : Scene := empty.after
  [.push (.document 0) (.ofWidget .app), .push (.document 1) (.ofWidget .container),
    .push (.document 2) (.ofWidget .container), .push (.document 3) (.ofWidget .container),
    .push (.document 4) (.ofWidget .container), .link ⟨0⟩ ⟨1⟩, .link ⟨1⟩ ⟨2⟩, .remove ⟨4⟩]

/-- The element by itself goes in and out again. Where more than one thing
speaks against a link, the first is told. -/
theorem chained_links :
    chained.Forest ∧
    (∃ t, chained.link ⟨1⟩ ⟨3⟩ = .ok t ∧ t.children ⟨1⟩ = [⟨2⟩, ⟨3⟩] ∧ t.unlink ⟨3⟩ = chained) ∧
    linkInPlace ⟨4⟩ ⟨4⟩ chained = .error (.selfLink ⟨4⟩) chained ∧
    linkInPlace ⟨9⟩ ⟨4⟩ chained = .error (.missing ⟨4⟩) chained ∧
    linkInPlace ⟨4⟩ ⟨1⟩ chained = .error (.missing ⟨4⟩) chained ∧
    linkInPlace ⟨2⟩ ⟨1⟩ chained = .error (.alreadyParented ⟨1⟩ ⟨0⟩) chained ∧
    linkInPlace ⟨2⟩ ⟨0⟩ chained = .error (.wouldCycle ⟨2⟩ ⟨0⟩) chained := by
  have hforest : chained.Forest := forest_after _
  have hrefused (p c : ElementId) := (hforest.link_all_or_nothing p c).2.2.1
  have hapart : ¬ chained.Above ⟨3⟩ ⟨1⟩ := fun ha =>
    absurd (hforest.isAtOrAbove_iff.mpr ha.atOrAbove) (by decide +kernel)
  obtain ⟨hmade, -, -, hleft⟩ := hforest.link_all_or_nothing ⟨1⟩ ⟨3⟩
  obtain ⟨t, ht⟩ := hmade.mpr ⟨by decide, by decide +kernel, by decide +kernel, hapart⟩
  obtain ⟨-, -, -, hundone⟩ := hleft t ht
  have hchildren : t.children ⟨1⟩ = [⟨2⟩, ⟨3⟩] := by
    rw [children_link ht, if_pos rfl]
    decide +kernel
  exact ⟨hforest, ⟨t, ht, hchildren, hundone⟩, hrefused _ _ _ (by rfl), hrefused _ _ _ (by rfl),
    hrefused _ _ _ (by rfl), hrefused _ _ _ (by rfl), hrefused _ _ _ (by rfl)⟩

end Scene

end SceneTree
