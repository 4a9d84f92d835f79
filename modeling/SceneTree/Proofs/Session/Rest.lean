import SceneTree.Proofs.Session.Usage

/-!
# A session at rest

Between two calls a session has nothing left to expand. Every instance is
marked as expanded, whether or not it got a copy, and the roots of its copy
are its first children. The roots of the scene are those that linking the
document left, and an id tells where an element comes from: a record's
element has the number of the record, and what was made by expansion comes
after all of them (`Scene.AtRest`).

The induction over a session is that of `Reachable.tidy`. What is carried
along beside tidiness is `Standing`, which speaks of sources and roots. An
expansion keeps it by its contract: no root lies below an instance, and
whatever is new does.
-/

namespace SceneTree

/-- Whether an element of this source can have the id, in a document of
`count` records. -/
def Source.Fits (count : Nat) (id : ElementId) : Source → Prop
  | .document record => id = ⟨record⟩ ∧ record < count
  | .template _ _ => count ≤ id.index

/-- What is not of the document fits any later id. -/
theorem Source.fits_of_not_isDocument {source : Source} {count : Nat} {id : ElementId}
    (h : ¬ source.isDocument) (hle : count ≤ id.index) : source.Fits count id := by
  cases source with
  | document record => exact absurd rfl h
  | template component node => exact hle

namespace Scene

variable {d : Document} {st : Settings} {s t : Scene} {id y : ElementId} {e : Element}
  {i : Instance} {x : Expansion} {todo : List ElementId} {roots : List ElementId}

/-! ## Roots -/

/-- A root stays where it is, and nothing new is one. -/
theorem Expanded.roots_eq (h : Expanded d s id e i x) : x.scene.roots = s.roots := by
  obtain ⟨more, hsize⟩ := Nat.exists_eq_add_of_le h.size_le
  have hnew : (((List.range more).map (s.slots.size + ·)).map ElementId.mk).filter
      (fun y => x.scene.contains y && (x.scene.parent? y).isNone) = [] := by
    refine List.filter_eq_nil_iff.mpr fun y hy hroot => ?_
    simp only [List.map_map, List.mem_map, Function.comp_apply] at hy
    obtain ⟨k, -, rfl⟩ := hy
    rw [Bool.and_eq_true] at hroot
    obtain ⟨p, hp, -⟩ := Relation.TransGen.head'_iff.mp
      (h.fresh_below ⟨s.slots.size + k⟩ (Nat.le_add_right _ _) hroot.1)
    rw [show x.scene.parent? _ = some p from hp] at hroot
    exact absurd hroot.2 Bool.false_ne_true
  rw [h.forest.roots_eq, h.before.roots_eq, hsize, List.range_add, List.map_append,
    List.filter_append, hnew, List.append_nil]
  refine List.filter_congr fun y hy => ?_
  obtain ⟨k, hk, rfl⟩ := List.mem_map.mp hy
  rw [List.mem_range] at hk
  rw [Bool.eq_iff_iff, Bool.and_eq_true, Bool.and_eq_true, Option.isNone_iff_eq_none,
    Option.isNone_iff_eq_none]
  -- an element without a parent is no rescued usage, before or after
  have hout (hu : (⟨k⟩ : ElementId) ∈ x.rescued s e) :
      s.parent? ⟨k⟩ ≠ none ∧ x.scene.parent? ⟨k⟩ ≠ none := by
    obtain ⟨p, hp, -⟩ := Relation.TransGen.head'_iff.mp (h.rescued_below hu)
    obtain ⟨target, -, htarget⟩ := h.rescued_parent? hu
    exact ⟨fun hn => Option.some_ne_none p (hp.symm.trans hn),
      fun hn => Option.some_ne_none target (htarget.symm.trans hn)⟩
  constructor
  · rintro ⟨hlive, hnone⟩
    refine ⟨h.contains_old hk hlive, ?_⟩
    rw [← h.old_parent? hk (fun hu => (hout hu).2 hnone) hlive, hnone]
  · rintro ⟨hlive, hnone⟩
    have hx : x.scene.contains ⟨k⟩ := by
      refine h.contains_of_not_below hlive fun hup => ?_
      obtain ⟨p, hp, -⟩ := Relation.TransGen.head'_iff.mp hup
      exact Option.some_ne_none p (hp.symm.trans hnone)
    exact ⟨hx, (h.old_parent? hk (fun hu => (hout hu).1 hnone) hx).trans hnone⟩

/-! ## Sources and ids -/

/-- Every source fits its id, and the roots are the given ones. -/
structure Standing (d : Document) (roots : List ElementId) (s : Scene) : Prop where
  size_le : d.records.length ≤ s.slots.size
  fits : ∀ y e, s.get? y = some e → e.source.Fits d.records.length y
  roots_eq : s.roots = roots

theorem Standing.rewrites (h : Standing d roots s) (hs : s.Forest) (hr : s.Rewrites t) :
    Standing d roots t := by
  have hst := hr.sameShape
  refine ⟨hst.size ▸ h.size_le, fun y e he => ?_, ?_⟩
  · obtain ⟨e₀, he₀, hplace⟩ := hst.exists_get? he
    have hsource : e₀.source = e.source := congrArg (·.1) hplace
    exact hsource ▸ h.fits y e₀ he₀
  · rw [hst.roots_eq hs (hr.grows.forest hs), h.roots_eq]

theorem Standing.expanded (h : Standing d roots s) (hx : Expanded d s id e i x) :
    Standing d roots x.scene := by
  refine ⟨Nat.le_trans h.size_le hx.size_le, fun y ey hy => ?_, hx.roots_eq.trans h.roots_eq⟩
  by_cases hlt : y.index < s.slots.size
  · obtain ⟨e₀, he₀, hsource⟩ := hx.old_source hlt hy
    exact hsource ▸ h.fits y e₀ he₀
  · have hfresh := Nat.not_lt.mp hlt
    exact Source.fits_of_not_isDocument (hx.fresh_made y ey hfresh hy)
      (Nat.le_trans h.size_le hfresh)

/-! ### A linked document -/

theorem standing_linkedScene (d : Document) (st : Settings) :
    Standing d (Session.linkedScene d st).1.roots (Session.linkedScene d st).1 := by
  refine ⟨Nat.le_of_eq (linkedScene_alone? d st).1.symm, fun y e he => ?_, rfl⟩
  obtain ⟨r, hr, halone⟩ := of_linkedScene he
  have hsource : e.source = .document y.index := (congrArg Element.source halone :)
  rw [hsource]
  exact ⟨rfl, (List.getElem?_eq_some_iff.mp hr).1⟩

theorem rootsOf_linkedScene {found : List ElementId}
    (h : (Session.linkedScene d st).1.rootsOf d = .ok found) :
    found = (Session.linkedScene d st).1.roots := by
  rw [rootsOf, documentRoots_linkedScene] at h
  split at h
  next => cases h
  next =>
    split at h
    next => cases h
    next =>
      cases h
      rfl

/-! ## Nothing to expand -/

/-- Without a pending instance there is nothing to expand. -/
theorem expandAll_of_settled (h : ∀ y e i, s.get? y = some e → e.instance? = some i → i.expanded)
    (hs : s.Forest) (st : Settings) :
    s.expandAll d st = { scene := s, notices := [], count := 0 } := by
  have hnone : s.elements.filter (·.isPending) = [] :=
    List.filter_eq_nil_iff.mpr fun e he hpend => by
      obtain ⟨i, hi, hx⟩ := (Option.any_eq_true _ e.instance?).mp hpend
      rw [h e.id e i (hs.mem_elements.mp he) hi] at hx
      exact absurd hx Bool.false_ne_true
  rw [expandAll, hnone, List.map_nil, List.foldl_nil]

/-- What holds of the scene of a session between two calls. -/
structure AtRest (d : Document) (s : Scene) : Prop where
  /-- The number of its record is the id of an element, and what was made
  from a template comes after all records. -/
  fits : ∀ y e, s.get? y = some e → e.id = y ∧ e.source.Fits d.records.length y
  expanded : ∀ y e i, s.get? y = some e → e.instance? = some i →
    i.expanded ∧ i.roots <+: e.children
  /-- The roots are those of the linked document. -/
  rootsOf_eq : (Session.linkedScene d (Settings.ofDocument d)).1.rootsOf d = .ok s.roots
  expandAll_eq : ∀ st, s.expandAll d st = { scene := s, notices := [], count := 0 }

end Scene

namespace Session

open Scene (Standing AtRest)

variable {d : Document} {s : Session}

theorem Reachable.standing (h : Reachable d s) :
    Standing d (linkedScene d (Settings.ofDocument d)).1.roots s.scene := by
  refine h.keeps (Scene.standing_linkedScene d _) (fun {st t _ id _ _} htidy he hi hst => ?_)
    fun ht hr hst => hst.rewrites ht hr
  exact hst.expanded (Scene.expands_expand d st htidy.forest he hi (htidy.ready he hi))

/-- A session exists only for a document that has roots. -/
theorem Reachable.rootsOf_ok (h : Reachable d s) :
    ∃ roots, (linkedScene d (Settings.ofDocument d)).1.rootsOf d = .ok roots := by
  induction h with
  | load h =>
    simp only [Session.load] at h
    split at h
    next => cases h
    next roots hroots => exact ⟨roots, hroots⟩
  | frame _ ih => exact ih
  | resize _ _ ih => exact ih
  | reexpand _ _ ih => exact ih
  | point _ _ _ _ ih => exact ih
  | equip _ _ ih => exact ih

/-- However a session is used, between two calls ids and sources agree,
every instance is expanded and led by the roots of its copy, the roots are
those of the linked document, and expanding everything does nothing. -/
theorem Reachable.atRest (h : Reachable d s) : AtRest d s.scene := by
  have htidy := h.tidy
  have hstanding := h.standing
  refine ⟨fun y e he => ⟨htidy.forest.named he, hstanding.fits y e he⟩, fun y e i he hi => ?_,
    ?_, Scene.expandAll_of_settled (fun y e i he hi => (h.settled he hi).expanded) htidy.forest⟩
  · have hset := h.settled he hi
    exact ⟨hset.expanded, hset.roots_lead hset.expanded⟩
  · obtain ⟨roots, hroots⟩ := h.rootsOf_ok
    rw [hroots, Scene.rootsOf_linkedScene hroots, hstanding.roots_eq]

/-- A component in a component, used with a text, after the instance that
was made by expansion was expanded again. -/
theorem nested_atRest : ∃ s notices, load .nested .none .standard = (.ok s, notices) ∧
    (s.reexpand ⟨3⟩).1.scene.ids = [⟨0⟩, ⟨1⟩, ⟨3⟩, ⟨5⟩] ∧
      AtRest .nested (s.reexpand ⟨3⟩).1.scene := by
  have hload : load .nested .none .standard = (.ok _, _) := rfl
  exact ⟨_, _, hload, rfl, Reachable.atRest (.reexpand (.load hload) ⟨3⟩)⟩

end Session

end SceneTree
