import SceneTree.Proofs.Session.Styles

/-!
# Text styles by the nearest element that sets them

Handing styles down passes one style from element to element and puts what
each sets over it. Seen from an element that is a search: of each of the
five attributes it gets what is set on the nearest element on its way up,
and where nothing is set what the settings say
(`Forest.inherit_nearest`). The five are searched for apart, and may be
found on five different elements.

The styles that the elements had before are not looked at, and nothing
else is written. So the pass can be made again, on everything or below one
element only, and gives what the first one gave.
-/

namespace SceneTree

/-- The element without its text style. -/
def Element.unstyled (e : Element) : Element := { e with textStyle := .unset }

namespace Scene

variable {s t : Scene} {st : Settings} {e : Element} {id x y p : ElementId} {style : TextStyle}

/-! ## The search -/

/-- What is set on the nearest element on the way up from `id`, itself
first, that has the attribute set. -/
def nearest? {α : Type} (s : Scene) (field : Look → Option α) (id : ElementId) : Option α :=
  (s.lineage id).findSome? fun y => (s.get? y).bind fun e => field e.look

/-- The style that is found on the way up from an element. -/
def nearestStyle (s : Scene) (st : Settings) (id : ElementId) : TextStyle :=
  { color := (s.nearest? (·.foreground) id).getD st.foreground
    fontSize := (s.nearest? (·.fontSize) id).getD st.fontSize
    fontFamily := (s.nearest? (·.fontFamily) id).getD st.fontFamily
    fontWeight := (s.nearest? (·.fontWeight) id).getD st.fontWeight
    align := (s.nearest? (·.textAlign) id).getD st.textAlign }

/-- The style that is found on the way up from the parent of an element. -/
def nearestAbove (s : Scene) (st : Settings) (id : ElementId) : TextStyle :=
  ((s.parent? id).map (s.nearestStyle st)).getD st.textStyle

/-- The search begins at the element and goes on at its parent. -/
theorem Forest.nearest?_eq (h : s.Forest) {α : Type} (field : Look → Option α)
    (he : s.get? id = some e) : s.nearest? field id =
      ((field e.look).or ((s.parent? id).bind (s.nearest? field))) := by
  have hfirst : (s.get? id).bind (fun e => field e.look) = field e.look := by
    rw [he, Option.bind_some]
  cases hp : s.parent? id with
  | none => rw [nearest?, lineage_of_root hp, List.findSome?_singleton, hfirst]; simp
  | some p =>
    rw [nearest?, h.lineage_of_parent? hp, List.findSome?_cons, hfirst]
    cases field e.look <;> rfl

theorem Forest.nearestStyle_eq (h : s.Forest) (st : Settings) (he : s.get? id = some e) :
    s.nearestStyle st id = (s.nearestAbove st id).under e.look := by
  simp only [nearestStyle, nearestAbove, TextStyle.under, h.nearest?_eq _ he, Option.getD_or]
  cases s.parent? id <;> rfl

/-! ## What the search depends on -/

namespace Alike

theorem unstyled_core (h : Alike Element.unstyled s t) : Alike Element.core s t :=
  h.reading Element.core

theorem nearestStyle_eq (h : Alike Element.unstyled s t) (st : Settings) (id : ElementId) :
    t.nearestStyle st id = s.nearestStyle st id := by
  have hlook : Alike (·.look) s t := h.reading (·.look)
  have hnearest {α : Type} (field : Look → Option α) :
      t.nearest? field id = s.nearest? field id := by
    rw [nearest?, nearest?, h.unstyled_core.sameShape.lineage_eq]
    refine congrArg (List.findSome? · _) (funext fun y => ?_)
    have hbind := congrArg (Option.bind · field) (hlook.map_get? y)
    rwa [Option.bind_map, Option.bind_map] at hbind
  simp only [nearestStyle, hnearest]

end Alike

/-! ## The pass finds what the search finds -/

/-- The walk hands out what the search finds, if that is what its first
elements start from. -/
theorem Forest.handed_nearest (h : s.Forest) {n : Nat} {pending : List (ElementId × TextStyle)}
    (hpending : ∀ next ∈ pending, next.2 = s.nearestAbove st next.1)
    (hm : (y, style) ∈ s.stylesWithin n pending) : style = s.nearestStyle st y := by
  -- from the roots down: what an element is handed comes from its parent
  refine h.roots_down (P := fun y => ∀ style, (y, style) ∈ s.stylesWithin n pending →
    style = s.nearestStyle st y) (fun y ih style hm => ?_) y style hm
  obtain ⟨e, he, inherited, rfl, hfrom⟩ := h.of_mem_stylesWithin hm
  rw [h.nearestStyle_eq st he]
  refine congrArg (TextStyle.under · e.look) ?_
  rcases hfrom with hfirst | ⟨p, hp, hmp⟩
  · exact hpending _ hfirst
  · have hparent : s.parent? y = some p := (parent?_of_get? he).trans hp
    rw [ih p hparent _ hmp, nearestAbove, hparent]
    rfl

/-- After the pass every element has the style that the search finds. -/
theorem Forest.get?_inherit (h : s.Forest) (st : Settings) (x : ElementId) :
    (s.inherit st).get? x =
      (s.get? x).map fun e => { e with textStyle := s.nearestStyle st x } := by
  by_cases hx : s.contains x
  · obtain ⟨hnodup, hall⟩ := h.handed_down st
    obtain ⟨style, hm⟩ := hall x hx
    have hstyle : style = s.nearestStyle st x := by
      refine h.handed_nearest (fun next hnext => ?_) hm
      obtain ⟨r, hr, rfl⟩ := List.mem_map.mp hnext
      rw [nearestAbove, (h.mem_roots.mp hr).2]
      rfl
    rw [inherit, get?_withStyles hnodup hm, hstyle]
  · have hx' : ¬ (s.inherit st).contains x := by rwa [(alike_inherit s st).contains]
    rw [Option.not_isSome_iff_eq_none.mp hx, Option.not_isSome_iff_eq_none.mp hx']
    rfl

/-- What an element starts from after the pass is what the search finds
from its parent on. -/
theorem Forest.styleAbove_inherit (h : s.Forest) (st : Settings) (he : s.get? id = some e) :
    (s.inherit st).styleAbove st e = s.nearestAbove st id := by
  rw [styleAbove, nearestAbove, parent?_of_get? he]
  cases hp : e.parent with
  | none => rfl
  | some p =>
    obtain ⟨ep, hep⟩ := contains_iff.mp (h.contains_parent ((parent?_of_get? he).trans hp))
    rw [Option.bind_some, h.get?_inherit, hep]
    rfl

/-- Below one element the pass writes what the pass over everything writes,
and elsewhere nothing. -/
theorem Forest.get?_inheritFrom (h : s.Forest) (st : Settings) (id x : ElementId) :
    (s.inheritFrom id (s.nearestAbove st id)).get? x =
      if s.isAtOrAbove id x then (s.inherit st).get? x else s.get? x := by
  have hids := h.map_stylesWithin s.slots.size [(id, s.nearestAbove st id)]
  rw [List.map_singleton, h.map_visitWithin_singleton (Nat.le_refl _)] at hids
  have hmem : x ∈ s.subtree id ↔ s.contains x ∧ s.AtOrAbove id x := h.mem_subtree
  rw [← hids] at hmem
  split
  next hx =>
    have hup := h.isAtOrAbove_iff.mp hx
    by_cases hlive : s.contains x
    · obtain ⟨⟨y, style⟩, hm, rfl⟩ := List.mem_map.mp (hmem.mpr ⟨hlive, hup⟩)
      have hstyle : style = s.nearestStyle st y :=
        h.handed_nearest (fun next hnext => by rw [List.mem_singleton.mp hnext]) hm
      rw [inheritFrom, get?_withStyles (hids ▸ h.subtree_nodup id) hm, hstyle, h.get?_inherit]
    · rw [inheritFrom, get?_withStyles_of_not_mem (fun hm => hlive (hmem.mp hm).1),
        h.get?_inherit, Option.not_isSome_iff_eq_none.mp hlive]
      rfl
  next hx =>
    exact get?_withStyles_of_not_mem fun hm => hx (h.isAtOrAbove_iff.mpr (hmem.mp hm).2)

/-- After text styles were handed down, each of the five attributes of
each element is what is set on the nearest element on its way up, or else
what the settings say, and nothing else was written. The text styles from
before have no part in it: whatever they are, the pass gives the same
scene, and so does the pass below one element, given what that element
starts from. -/
theorem Forest.inherit_nearest (h : s.Forest) (st : Settings) :
    ((s.inherit st).slots.size = s.slots.size ∧
      ∀ x, (s.inherit st).get? x =
        (s.get? x).map fun e => { e with textStyle := s.nearestStyle st x }) ∧
    ∀ t, Alike Element.unstyled s t →
      t.inherit st = s.inherit st ∧
      ∀ id e, s.get? id = some e → ∀ x,
        (t.inheritFrom id ((s.inherit st).styleAbove st e)).get? x =
          if s.isAtOrAbove id x then (s.inherit st).get? x else t.get? x := by
  refine ⟨⟨(alike_inherit s st).size, h.get?_inherit st⟩, fun t ht => ?_⟩
  have htf : t.Forest := ht.unstyled_core.forest h
  have heq : t.inherit st = s.inherit st := by
    refine Alike.eq ⟨?_, fun x => ?_⟩
    · exact ((alike_inherit t st).size.trans ht.size).trans (alike_inherit s st).size.symm
    · have hmap := congrArg (Option.map fun e => { e with textStyle := s.nearestStyle st x })
        (ht.map_get? x)
      rw [Option.map_map, Option.map_map] at hmap
      rw [Option.map_id_apply, Option.map_id_apply, htf.get?_inherit, h.get?_inherit,
        ht.nearestStyle_eq]
      exact hmap
  refine ⟨heq, fun id e he x => ?_⟩
  have habove : s.nearestAbove st id = t.nearestAbove st id := by
    rw [nearestAbove, nearestAbove, ht.unstyled_core.sameShape.parent?]
    cases s.parent? id with
    | none => rfl
    | some p => exact (ht.nearestStyle_eq st p).symm
  have hup : s.isAtOrAbove id x = t.isAtOrAbove id x := by
    rw [isAtOrAbove, isAtOrAbove, ht.unstyled_core.sameShape.lineage_eq]
  rw [h.styleAbove_inherit st he, habove, htf.get?_inheritFrom, heq, hup]

theorem alike_unstyled_inherit (s : Scene) (st : Settings) :
    Alike Element.unstyled s (s.inherit st) :=
  Alike.foldl id (fun s (id, _) => .modify s id) s _

/-- A child below an element with a color. The color is found from the
child, the size of the font is not, and the pass made twice is the pass. -/
theorem child_inherits : ∃ s : Scene, s.Forest ∧
    s.nearest? (·.foreground) ⟨1⟩ = some .pureRed ∧ s.nearest? (·.fontSize) ⟨1⟩ = none ∧
      (∀ x, (s.inherit .standard).get? x = (s.get? x).map fun e =>
        { e with textStyle := s.nearestStyle .standard x }) ∧
      (s.inherit .standard).inherit .standard = s.inherit .standard := by
  let made := ((empty.push (.document 0) (.ofWidget .app)).push (.document 1) (.ofWidget .text)).modify
    ⟨0⟩ fun e => { e with look := { e.look with foreground := some .pureRed } }
  have hmade : made.Forest :=
    ((forest_empty.push _ _).push _ _).modify (by constructor <;> intro <;> rfl) _
  have hlink : made.link ⟨0⟩ ⟨1⟩ = .ok _ := rfl
  have hnearest := (hmade.link hlink).inherit_nearest .standard
  exact ⟨_, hmade.link hlink, rfl, rfl, hnearest.1.2,
    (hnearest.2 _ (alike_unstyled_inherit _ _)).1⟩

end Scene

end SceneTree
