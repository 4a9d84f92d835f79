import SceneTree.Proofs.Forest.Alike
import SceneTree.Proofs.Forest.Subtree
import SceneTree.Scene.Inherit

/-!
# Every text style is handed down

After styles were handed down, an element draws with what is set on it,
over what its parent draws with, and a root over what the settings give
(`Forest.styled_inherit`). That determines all text styles: an element is
told its own by the looks on the way up from it.

The walk that hands styles down visits what the walk down from the roots
visits (`Forest.map_stylesWithin`), and what it hands to an element is what
it has handed to the parent (`Forest.of_mem_stylesWithin`).
-/

namespace SceneTree

namespace Scene

variable {s t : Scene} {st : Settings} {e : Element} {id y p : ElementId} {style : TextStyle}

/-- The style an element starts from: that of its parent, or that of the
settings. -/
def styleAbove (s : Scene) (st : Settings) (e : Element) : TextStyle :=
  ((e.parent.bind s.get?).map (·.textStyle)).getD st.textStyle

/-- Every element draws with the style of its parent under its own look. -/
def Styled (st : Settings) (s : Scene) : Prop :=
  ∀ y e, s.get? y = some e → e.textStyle = (s.styleAbove st e).under e.look

/-! ## The walk -/

theorem Forest.map_stylesWithin (h : s.Forest) (n : Nat)
    (pending : List (ElementId × TextStyle)) : (s.stylesWithin n pending).map (·.1) =
      (s.visitWithin (fun _ => true) n (pending.map (·.1))).map (·.id) := by
  induction n generalizing pending with
  | zero => cases pending <;> rfl
  | succ n ih =>
    cases pending with
    | nil => rfl
    | cons next rest =>
      cases he : s.get? next.1 with
      | none => simp only [stylesWithin, visitWithin, he, List.map_cons, ih]
      | some e =>
        simp only [stylesWithin, visitWithin, he, List.map_cons, if_true, ih, h.named he,
          List.map_append, List.map_map, Function.comp_def, List.map_id']

/-- What is handed to an element is over what it was pending with, or over
what its parent was handed. -/
theorem Forest.of_mem_stylesWithin (h : s.Forest) {n : Nat}
    {pending : List (ElementId × TextStyle)} (hm : (y, style) ∈ s.stylesWithin n pending) :
    ∃ e, s.get? y = some e ∧ ∃ inherited, style = inherited.under e.look ∧
      ((y, inherited) ∈ pending ∨
        ∃ p, e.parent = some p ∧ (p, inherited) ∈ s.stylesWithin n pending) := by
  induction n generalizing pending with
  | zero => cases pending <;> exact absurd hm List.not_mem_nil
  | succ n ih =>
    cases pending with
    | nil => exact absurd hm List.not_mem_nil
    | cons next rest =>
      obtain ⟨id, above⟩ := next
      cases hid : s.get? id with
      | none =>
        simp only [stylesWithin, hid] at hm ⊢
        obtain ⟨e, he, inherited, hstyle, hfrom⟩ := ih hm
        exact ⟨e, he, inherited, hstyle, hfrom.imp_left (List.mem_cons_of_mem _)⟩
      | some e₀ =>
        simp only [stylesWithin, hid] at hm ⊢
        rcases List.mem_cons.mp hm with heq | hm
        · cases heq
          exact ⟨e₀, hid, above, rfl, .inl List.mem_cons_self⟩
        · obtain ⟨e, he, inherited, hstyle, hfrom⟩ := ih hm
          refine ⟨e, he, inherited, hstyle, ?_⟩
          rcases hfrom with hpending | ⟨p, hp, hm⟩
          · rcases List.mem_append.mp hpending with hchild | hrest
            · -- it was made pending by its parent
              obtain ⟨c, hc, heq⟩ := List.mem_map.mp hchild
              cases heq
              rw [← children_of_get? hid] at hc
              refine .inr ⟨id, ?_, List.mem_cons_self⟩
              rw [← parent?_of_get? he, h.mirror.mp hc]
            · exact .inl (List.mem_cons_of_mem _ hrest)
          · exact .inr ⟨p, hp, List.mem_cons_of_mem _ hm⟩

/-! ## Writing the styles -/

theorem get?_withStyles_of_not_mem {styles : List (ElementId × TextStyle)}
    (hm : y ∉ styles.map (·.1)) : (s.withStyles styles).get? y = s.get? y :=
  get?_foldl_modify_of_not_mem (fun style e => { e with textStyle := style }) hm

theorem get?_withStyles {styles : List (ElementId × TextStyle)}
    (hnodup : (styles.map (·.1)).Nodup) (hm : (y, style) ∈ styles) :
    (s.withStyles styles).get? y = (s.get? y).map fun e => { e with textStyle := style } :=
  get?_foldl_modify (fun style e => { e with textStyle := style }) hnodup hm

theorem given_inherit (s : Scene) (st : Settings) : Alike Element.given s (s.inherit st) :=
  Alike.foldl id (fun s (id, _) => .modify s id) s _

theorem alike_inherit (s : Scene) (st : Settings) : Alike Element.core s (s.inherit st) :=
  (given_inherit s st).reading Element.still

/-- The styles that are handed down are those of all live elements. -/
theorem Forest.handed_down (h : s.Forest) (st : Settings) :
    let styles := s.stylesWithin s.slots.size (s.roots.map (·, st.textStyle))
    (styles.map (·.1)).Nodup ∧ ∀ y, s.contains y → ∃ style, (y, style) ∈ styles := by
  have hroots : (s.roots.map (·, st.textStyle)).map (·.1) = s.roots := by
    rw [List.map_map]
    exact List.map_id _
  have hlen : (s.roots.flatMap s.subtree).length ≤ s.slots.size := by
    refine h.length_le_of_live (h.subtrees_perm.nodup_iff.mpr h.ids_nodup) fun x hx => ?_
    exact h.mem_ids.mp (h.subtrees_perm.mem_iff.mp hx)
  have hids := h.map_stylesWithin s.slots.size (s.roots.map (·, st.textStyle))
  rw [hroots, h.map_visitWithin (fun x hx => (h.mem_roots.mp hx).1) hlen] at hids
  refine ⟨?_, fun y hy => ?_⟩
  · rw [hids]
    exact h.subtrees_perm.nodup_iff.mpr h.ids_nodup
  · have hm := h.subtrees_perm.mem_iff.mpr (h.mem_ids.mpr hy)
    rw [← hids] at hm
    obtain ⟨entry, hentry, rfl⟩ := List.mem_map.mp hm
    exact ⟨entry.2, hentry⟩

/-- Handing styles down gives every element its style. -/
theorem Forest.styled_inherit (h : s.Forest) (st : Settings) : Styled st (s.inherit st) := by
  obtain ⟨hnodup, hall⟩ := h.handed_down st
  intro y e' he'
  have hy : s.contains y := by
    rw [← (alike_inherit s st).contains]
    exact contains_of_get? he'
  obtain ⟨style, hm⟩ := hall y hy
  obtain ⟨e, he, inherited, hstyle, hfrom⟩ := h.of_mem_stylesWithin hm
  have hget := get?_withStyles (s := s) hnodup hm
  rw [he, Option.map_some] at hget
  cases he'.symm.trans hget
  refine hstyle.trans (congrArg (TextStyle.under · e.look) ?_)
  rcases hfrom with hroot | ⟨p, hp, hmp⟩
  · obtain ⟨r, hr, heq⟩ := List.mem_map.mp hroot
    cases heq
    have hnone : e.parent = none := (parent?_of_get? he).symm.trans (h.mem_roots.mp hr).2
    rw [styleAbove, show ({ e with textStyle := style } : Element).parent = none from hnone]
    rfl
  · obtain ⟨ep, hep, -⟩ := h.of_mem_stylesWithin hmp
    have hgetp := get?_withStyles (s := s) hnodup hmp
    rw [hep, Option.map_some] at hgetp
    rw [styleAbove, show ({ e with textStyle := style } : Element).parent = some p from hp,
      Option.bind_some, inherit, hgetp]
    rfl

/-! ## What the styles depend on -/

/-- The geometry is no part of it. -/
theorem Styled.alike (h : Styled st s) (ha : Alike Element.still s t) : Styled st t := by
  intro y e' he'
  obtain ⟨e, he, hstill⟩ := ha.exists_get? he'
  have hstyle : e.textStyle = e'.textStyle := congrArg (·.textStyle) hstill
  have hlook : e.look = e'.look := congrArg (·.look) hstill
  have hparent : e.parent = e'.parent := congrArg (·.parent) hstill
  have habove : s.styleAbove st e = t.styleAbove st e' := by
    rw [styleAbove, styleAbove, hparent]
    cases e'.parent with
    | none => rfl
    | some p =>
      have hread : Alike (·.textStyle) s t := ha.reading (·.textStyle)
      rw [Option.bind_some, Option.bind_some, hread.map_get?]
  rw [← hstyle, h y e he, habove, hlook]

/-- The looks on the way up determine the style, under whatever names. It
is enough to know them for a set that is closed upwards. -/
theorem Styled.unique (h : Styled st s) (h' : Styled st t) (hs : s.Forest)
    {f : ElementId → ElementId} {P : ElementId → Prop}
    (hup : ∀ {y p}, P y → s.parent? y = some p → P p)
    (hsame : ∀ y e, P y → s.get? y = some e → ∃ e', t.get? (f y) = some e' ∧ e'.look = e.look ∧
      e'.parent = e.parent.map f) (hy : P y) {e e' : Element} (he : s.get? y = some e)
    (he' : t.get? (f y) = some e') : e'.textStyle = e.textStyle := by
  have hstep {y : ElementId} {e e' : Element} (hy : P y) (he : s.get? y = some e)
      (he' : t.get? (f y) = some e')
      (habove : ∀ p ep ep', e.parent = some p → s.get? p = some ep → t.get? (f p) = some ep' →
        ep'.textStyle = ep.textStyle) : e'.textStyle = e.textStyle := by
    obtain ⟨e₁, he₁, hlook, hparent⟩ := hsame y e hy he
    cases he'.symm.trans he₁
    rw [h y e he, h' (f y) e' he', hlook, styleAbove, styleAbove, hparent]
    cases hp : e.parent with
    | none => rfl
    | some p =>
      have hp' := (parent?_of_get? he).trans hp
      obtain ⟨ep, hep⟩ := contains_iff.mp (hs.contains_parent hp')
      obtain ⟨ep', hep', -⟩ := hsame p ep (hup hy hp') hep
      simp only [Option.map_some, Option.bind_some, hep, hep', habove p ep ep' hp hep hep']
  obtain ⟨root, hroot, hway⟩ := hs.exists_root_atOrAbove (contains_of_get? he)
  -- from the root down
  induction hway using Relation.ReflTransGen.head_induction_on generalizing e e' with
  | refl =>
    refine hstep hy he he' fun p _ _ hp _ _ => ?_
    rw [← parent?_of_get? he, (hs.mem_roots.mp hroot).2] at hp
    cases hp
  | head hp _ ih =>
    refine hstep hy he he' fun q ep ep' hq hep hep' => ?_
    have hpq := ((parent?_of_get? he).symm.trans hp).symm.trans hq
    cases hpq
    exact ih (hup hy hp) hep hep'

end Scene

end SceneTree
