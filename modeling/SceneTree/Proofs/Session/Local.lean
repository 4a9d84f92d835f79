import SceneTree.Proofs.Layout.Afresh
import SceneTree.Proofs.Session.Lasting
import SceneTree.Proofs.Session.Styles

/-!
# Expanding again stays local

When an instance is expanded again, textures are loaded and styles handed
down in the whole scene. What does not lie at or below the instance is left
as it is all the same, in every field.

An expansion touches nothing outside the instance: its stored usage and its
roots lie below it, whatever was expanded before (`Expanded.same`). The
other two steps write everywhere, but in a session every element shows the
texture that the store has for its resource and draws with the style that
its ancestors hand down (`Current`), and both are the same as before: the
store only learns (`outcome?_loadTextures_of_known`), and the way up from an
element outside leads past the instance (`Styled.unique`).
-/

namespace SceneTree

namespace Scene

open Element (given)

variable {s t : Scene} {st : Settings} {store : TextureStore} {y : ElementId} {e : Element}

theorem shows_inherit (s : Scene) (st : Settings) : Alike Element.shows s (s.inherit st) :=
  Alike.foldl id (fun s (id, _) => .modify s id) s _

/-- Where textures and styles are up to date, loading and handing down again
leaves a set of elements that is closed upwards as it is, if nothing else
has happened to them. -/
theorem Forest.get?_brought_up (hs : s.Forest) (ht : t.Forest) (htextured : Textured store s)
    (hstyled : Styled st s) (hload : Loadable store t) {P : ElementId → Prop}
    (hup : ∀ {y p}, P y → s.parent? y = some p → P p)
    (hkept : ∀ y e, P y → s.get? y = some e → t.get? y = some e) (hy : P y)
    (he : s.get? y = some e) (d : Document) (loader : Loader) :
    ((t.loadTextures store d loader).scene.inherit st).get? y = some e := by
  have hgiven : Alike given t ((t.loadTextures store d loader).scene.inherit st) :=
    (given_loadTextures t store d loader).trans (given_inherit _ st)
  have hloaded : (t.loadTextures store d loader).scene.Forest :=
    (rewrites_loadTextures t store d loader).grows.forest ht
  have htextured' := (ht.textured_loadTextures hload d loader).alike (shows_inherit _ st)
  have hstyled' := hloaded.styled_inherit st
  obtain ⟨e', he', hsame⟩ := hgiven.symm.exists_get? (hkept y e hy he)
  have hshown := (htextured y e he).mono
    fun _ _ hknown => outcome?_loadTextures_of_known hknown t d loader
  have hresource : e'.resource = e.resource := (congrArg Element.resource hsame :)
  rw [he']
  refine congrArg some (Element.eq_of_given hsame ?_ ?_ ?_)
  · rw [(htextured' y e' he').texture, hresource, ← hshown.texture]
  · rw [(htextured' y e' he').textureLoaded, hresource, ← hshown.textureLoaded]
  · refine hstyled.unique hstyled' hs (f := id) hup (fun z ez hz hez => ?_) hy he he'
    obtain ⟨ez', hez', hz'⟩ := hgiven.symm.exists_get? (hkept z ez hz hez)
    refine ⟨ez', hez', (congrArg Element.look hz' :), ?_⟩
    rw [Option.map_id]
    exact (congrArg Element.parent hz' :)

end Scene

namespace Session

open Scene (Alike Loadable Styled Textured)

variable {d : Document} {s : Session} {id y : ElementId} {e : Element}

/-! ## Sessions are up to date -/

/-- Every element shows its texture and draws with its style. -/
structure Current (s : Session) : Prop where
  textured : Textured s.textures s.scene
  styled : Styled s.settings s.scene

/-- Loading textures and handing styles down bring a session up to date. -/
theorem current_of_loadable {scene : Scene} {store : TextureStore} (hs : scene.Forest)
    (hload : Loadable store scene) (d : Document) (loader : Loader)
    (hscene : s.scene = (scene.loadTextures store d loader).scene.inherit s.settings)
    (hstore : s.textures = (scene.loadTextures store d loader).store) : Current s := by
  have hloaded : (scene.loadTextures store d loader).scene.Forest :=
    (Scene.rewrites_loadTextures scene store d loader).grows.forest hs
  constructor
  · rw [hstore, hscene]
    exact (hs.textured_loadTextures hload d loader).alike (Scene.shows_inherit _ _)
  · rw [hscene]
    exact hloaded.styled_inherit s.settings

theorem current_load {handlers : Handlers} {options : SessionOptions} {notices : List Notice}
    (h : load d handlers options = (.ok s, notices)) : Current s := by
  have hlinked := Scene.tidy_linkedScene d (Settings.ofDocument d)
  obtain ⟨htidy, hloadable⟩ := hlinked.expandAll_keeps (P := fun t => Loadable .empty t)
    (fun ht _ _ _ hload => hload.expand ht (Settings.ofDocument d) _)
    (Scene.loadable_linkedScene d _ .empty)
  simp only [load] at h
  split at h
  next => cases h
  next =>
    cases h
    refine current_of_loadable htidy.forest hloadable d options.loader ?_ ?_
    · dsimp only
    · dsimp only

theorem Current.loadable (h : Current s) : Loadable s.textures s.scene := fun y e he =>
  .inl (h.textured y e he)

theorem Current.frame (h : Current s) : Current s.frame.1 := by
  have ha : Alike Element.still s.scene s.frame.1.scene :=
    (Scene.alike_layOut s.rules s.scene s.viewport).trans (Scene.alike_adjust s.rules _ _ _)
  exact ⟨h.textured.alike (ha.reading Element.shows), h.styled.alike ha⟩

theorem Current.reexpand (h : Current s) (hr : Reachable d s) (id : ElementId) :
    Current (s.reexpand id).1 := by
  have htidy := hr.tidy
  rw [← hr.document_eq] at htidy
  exact current_of_loadable (htidy.expand s.settings id).forest
    (h.loadable.expand htidy s.settings id) s.document s.loader rfl rfl

/-- A session is up to date at any time, whatever was expanded again. -/
theorem Reachable.current (h : Reachable d s) : Current s := by
  induction h with
  | load h => exact current_load h
  | frame _ ih => exact ih.frame
  | @resize s _ viewport ih =>
    obtain ⟨dirty, heq⟩ := s.resize_eq viewport
    exact heq ▸ ⟨ih.textured, ih.styled⟩
  | reexpand h id ih => exact ih.reexpand h id
  | point _ _ _ _ ih => exact ⟨ih.textured, ih.styled⟩
  | equip _ _ ih => exact ⟨ih.textured, ih.styled⟩

/-! ## Outside the instance -/

/-- The expansion itself leaves alone what is outside, and what it makes
has a later id than anything before. -/
theorem Reachable.expand_local (h : Reachable d s) (id : ElementId) :
    let t := (s.scene.expand s.document s.settings id).scene
    (∀ y e, ¬ s.scene.AtOrAbove id y → s.scene.get? y = some e → t.get? y = some e) ∧
      ∀ y, t.contains y → ¬ s.scene.contains y → s.scene.nextId.index ≤ y.index := by
  intro t
  by_cases hinst : ∃ e i, s.scene.get? id = some e ∧ e.instance? = some i
  · obtain ⟨e₀, i, he₀, hi⟩ := hinst
    have hx := Scene.expands_expand s.document s.settings h.forest he₀ hi (h.settled he₀ hi).toReady
    refine ⟨fun y e hy he => ?_, fun y hy hnew => ?_⟩
    · have hlive := Scene.contains_of_get? he
      have hbelow : ¬ s.scene.Above id y := fun ha => hy ha.atOrAbove
      have hrest : y ∉ (s.scene.expand s.document s.settings id).rescued s.scene e₀ := fun hm =>
        hbelow (hx.rescued_below hm)
      have hne : y ≠ id := by
        rintro rfl
        exact hy .refl
      rw [← he]
      exact hx.same y (Scene.index_lt_of_contains hlive) hne hrest
        (hx.contains_of_not_below hlive hbelow)
    · by_contra hlt
      exact hnew ((hx.outlives_iff y (Nat.not_le.mp hlt)).mp hy).1
  · have hsame : t = s.scene := Scene.scene_expand_of_not_instance hinst
    rw [hsame]
    exact ⟨fun y e _ he => he, fun y hy hnew => absurd hy hnew⟩

/-- Expanding again, whether that succeeds or fails, leaves every element
that is not at or below the id as it is, in every field. Whatever is there
afterwards and was not before has an id that was not given out before. -/
theorem Reachable.reexpand_local (h : Reachable d s) (id : ElementId) :
    (∀ y e, s.scene.get? y = some e → ¬ s.scene.AtOrAbove id y →
        (s.reexpand id).1.scene.get? y = some e) ∧
      ∀ y, (s.reexpand id).1.scene.contains y → ¬ s.scene.contains y →
        s.scene.nextId.index ≤ y.index := by
  obtain ⟨hkept, hlater⟩ := h.expand_local id
  have htidy := h.tidy
  rw [← h.document_eq] at htidy
  have hcurrent := h.current
  have hforest := (htidy.expand s.settings id).forest
  have hload := hcurrent.loadable.expand htidy s.settings id
  refine ⟨fun y e he hy => ?_, fun y hy hnew => hlater y ?_ hnew⟩
  · exact h.forest.get?_brought_up hforest hcurrent.textured hcurrent.styled hload
      Scene.not_atOrAbove_of_parent? hkept hy he s.document s.loader
  · rwa [(s.rewrites_reexpand id).sameShape.contains] at hy

/-- The instance in the copy is expanded again, with another outcome for
the text below it. The instance around it stays as it is, and what is new
has the id that came next. -/
theorem nested_local : ∃ s notices e, load .nested .none .standard = (.ok s, notices) ∧
    s.scene.get? ⟨1⟩ = some e ∧ (s.reexpand ⟨3⟩).1.scene.get? ⟨1⟩ = some e ∧
      s.scene.nextId = ⟨5⟩ ∧ (s.reexpand ⟨3⟩).1.scene.ids = [⟨0⟩, ⟨1⟩, ⟨3⟩, ⟨5⟩] := by
  obtain ⟨s, notices, e, hload, he, hroot, hnext, hids⟩ : ∃ s notices e,
      load .nested .none .standard = (.ok s, notices) ∧ s.scene.get? ⟨1⟩ = some e ∧
        s.scene.isAtOrAbove ⟨3⟩ ⟨1⟩ = false ∧ s.scene.nextId = ⟨5⟩ ∧
          (s.reexpand ⟨3⟩).1.scene.ids = [⟨0⟩, ⟨1⟩, ⟨3⟩, ⟨5⟩] :=
    ⟨_, _, _, rfl, rfl, rfl, rfl, by decide +kernel⟩
  have hr := Reachable.load hload
  have hout : ¬ s.scene.AtOrAbove ⟨3⟩ ⟨1⟩ := fun ha =>
    Bool.false_ne_true (hroot.symm.trans (hr.forest.isAtOrAbove_iff.mpr ha))
  exact ⟨s, notices, e, hload, he, (hr.reexpand_local ⟨3⟩).1 ⟨1⟩ e he hout, hnext, hids⟩

end Session

end SceneTree
