import SceneTree.Proofs.Expand.Again
import SceneTree.Proofs.Expand.Stack
import SceneTree.Proofs.Session.Local

/-!
# Expanding again gives the same tree

In a session in which only instances of the document were expanded again,
expanding such an instance again changes nothing but names: its copy is
made anew, under later ids in the same order, and every other element stays
where it is and what it is (`Calm.reexpand_renews`). So it may be done any
number of times.

That textures and text styles come out the same has two reasons. A texture
is told by the resource, and the store has its outcome already, so no
loader is asked. A text style is told by the looks on the way up, and those
are the same.

Instances inside copies are left out. When one of them is expanded again,
usage that was hung under it is lost, and what lies around it is not looked
at, so its copy need not be the one the instance around it would get.
-/

namespace SceneTree

namespace Scene

open Element (core still)

variable {s t : Scene} {st : Settings} {store : TextureStore} {p : ElementId}
  {f : ElementId → ElementId}

/-! ## Textures and styles -/

/-- Under other names the resources are the same, so their outcomes are
known. -/
theorem Renaming.outcome_known (h : Renaming core f s t) (htex : Textured store s)
    {y : ElementId} {e' : Element} {index : UInt8} (he' : t.get? y = some e')
    (hresource : e'.resource = some index) :
    ∃ outcome, store.outcome? index = some outcome := by
  obtain ⟨z, hz, rfl⟩ := h.onto y (contains_of_get? he')
  obtain ⟨e, he⟩ := contains_iff.mp hz
  obtain ⟨e'', he'', hcore⟩ := h.exists_get? z e he
  cases he'.symm.trans he''
  have hsame : e'.resource = e.resource := (congrArg Element.resource hcore :)
  exact (htex z e he).known index (hsame ▸ hresource)

/-- Where the same texture and the same styles are shown, renamed cores
are renamed elements. -/
theorem Renewed.still_of_core (h : Renewed core s t p f) (hs : s.Forest) (htex : Textured store s)
    (htex' : Textured store t) (hstyled : Styled st s) (hstyled' : Styled st t) :
    Renewed still s t p f where
  exists_get? y e he := by
    obtain ⟨e', he', hcore⟩ := h.exists_get? y e he
    have hresource : e'.resource = e.resource := (congrArg Element.resource hcore :)
    refine ⟨e', he', Element.still_eq_of_core hcore ?_ ?_ ?_⟩
    · rw [(htex' _ e' he').texture, hresource, ← (htex y e he).texture]
      rfl
    · rw [(htex' _ e' he').textureLoaded, hresource, ← (htex y e he).textureLoaded]
      rfl
    · have hstyle : e'.textStyle = e.textStyle := by
        refine hstyled.unique hstyled' hs (P := fun _ => True) (fun _ _ => trivial)
          (fun y e _ he => ?_) trivial he he'
        obtain ⟨e', he', hcore⟩ := h.exists_get? y e he
        exact ⟨e', he', (congrArg Element.look hcore :), (congrArg Element.parent hcore :)⟩
      exact hstyle
  inj := h.inj
  onto := h.onto
  size_eq := h.size_eq
  slots_le := h.slots_le
  fixes := h.fixes
  fresh := h.fresh
  increasing := h.increasing
  ownCopy_iff := h.ownCopy_iff

/-- The instance itself keeps its name. -/
theorem Renewed.exists_host (h : Renewed still s t p f) (hs : s.Forest) {e : Element}
    (he : s.get? p = some e) : ∃ e', t.get? p = some e' ∧ e'.still = (e.rename f).still := by
  obtain ⟨e', he', hstill⟩ := h.exists_get? p e he
  rw [h.fixes p (contains_of_get? he) fun hown => hs.acyclic p hown.1] at he'
  exact ⟨e', he', hstill⟩

end Scene

namespace Session

open Element (core still)
open Scene (Again Alike Lasting Loadable Renewed Styled Textured)

variable {d : Document} {s : Session} {id p : ElementId} {e : Element}

/-! ## Calm sessions -/

/-- The sessions in which no instance inside a copy was expanded again: those
that were just loaded, and what any other use makes of them. -/
inductive Calm (d : Document) : Session → Prop
  | load {handlers : Handlers} {options : SessionOptions} {s : Session} {notices : List Notice}
      (h : Session.load d handlers options = (.ok s, notices)) : Calm d s
  | frame {s : Session} (h : Calm d s) : Calm d s.frame.1
  | resize {s : Session} (h : Calm d s) (viewport : Size) : Calm d (s.resize viewport)
  | reexpand {s : Session} (h : Calm d s) (id : ElementId)
      (hid : ∀ e, s.scene.get? id = some e → e.isInstance → e.source.isDocument) :
      Calm d (s.reexpand id).1
  | point {s : Session} (h : Calm d s) (action : PointerAction) (x y : Int) :
      Calm d (s.point action x y).1
  | equip {s : Session} (h : Calm d s) (handlers : Handlers) : Calm d { s with handlers }

theorem Calm.reachable (h : Calm d s) : Reachable d s := by
  induction h with
  | load h => exact .load h
  | frame _ ih => exact .frame ih
  | resize _ viewport ih => exact .resize ih viewport
  | reexpand _ id _ ih => exact .reexpand ih id
  | point _ action x y ih => exact .point ih action x y
  | equip _ handlers ih => exact .equip ih handlers

/-- What holds of a calm session between two calls. -/
structure Steady (d : Document) (s : Session) : Prop where
  lasting : Lasting d s.settings s.scene
  textured : Textured s.textures s.scene
  styled : Styled s.settings s.scene
  asked : s.textures.AskedOnce d

/-- Loading textures and handing styles down make a session steady. -/
theorem steady_of_lasting {scene : Scene} {store : TextureStore} (hs : scene.Forest)
    (hlasting : Lasting d s.settings scene) (hload : Loadable store scene)
    (hasked : store.AskedOnce d) (loader : Loader)
    (hscene : s.scene = (scene.loadTextures store d loader).scene.inherit s.settings)
    (hstore : s.textures = (scene.loadTextures store d loader).store) : Steady d s := by
  have hcore : Alike core scene s.scene := by
    rw [hscene]
    exact (Scene.alike_loadTextures scene store d loader).trans (Scene.alike_inherit _ _)
  have hcurrent := current_of_loadable hs hload d loader hscene hstore
  refine ⟨hlasting.alike hcore, hcurrent.textured, hcurrent.styled, ?_⟩
  rw [hstore]
  exact Scene.askedOnce_loadTextures hasked scene loader

theorem steady_load {handlers : Handlers} {options : SessionOptions} {notices : List Notice}
    (h : load d handlers options = (.ok s, notices)) : Steady d s := by
  have hlinked := Scene.tidy_linkedScene d (Settings.ofDocument d)
  obtain ⟨htidy, hlasting, hloadable⟩ := hlinked.expandAll_keeps
    (P := fun t => Lasting d (Settings.ofDocument d) t ∧ Loadable .empty t)
    (fun ht he hi hpend hP =>
      ⟨hP.1.expanded ht he hi (hP.1.waiting _ _ _ he hi hpend).source, hP.2.expand ht _ _⟩)
    ⟨Scene.lasting_linkedScene d _, Scene.loadable_linkedScene d _ .empty⟩
  simp only [load] at h
  split at h
  next => cases h
  next =>
    cases h
    refine steady_of_lasting htidy.forest hlasting hloadable (TextureStore.askedOnce_empty d)
      options.loader ?_ ?_
    · dsimp only
    · dsimp only

theorem Steady.frame (h : Steady d s) : Steady d s.frame.1 := by
  have ha : Alike still s.scene s.frame.1.scene :=
    (Scene.alike_layOut s.rules s.scene s.viewport).trans (Scene.alike_adjust s.rules _ _ _)
  exact ⟨h.lasting.alike ha.core, h.textured.alike (ha.reading Element.shows), h.styled.alike ha,
    h.asked⟩

theorem Steady.reexpand (h : Steady d s) (hr : Reachable d s)
    (hid : ∀ e, s.scene.get? id = some e → e.isInstance → e.source.isDocument) :
    Steady d (s.reexpand id).1 := by
  have htidy := hr.tidy
  have hkept : Lasting d s.settings (s.scene.expand d s.settings id).scene := by
    by_cases hinst : ∃ e i, s.scene.get? id = some e ∧ e.instance? = some i
    · obtain ⟨e, i, he, hi⟩ := hinst
      refine h.lasting.expanded htidy he hi (hid e he ?_)
      rw [Element.isInstance, hi, Option.isSome_some]
    · rw [Scene.scene_expand_of_not_instance hinst]
      exact h.lasting
  have hloadable : Loadable s.textures s.scene := fun y e he => .inl (h.textured y e he)
  refine steady_of_lasting (htidy.expand s.settings id).forest hkept
    (hloadable.expand htidy s.settings id) h.asked s.loader ?_ ?_
  · rw [Session.reexpand, hr.document_eq]
  · rw [Session.reexpand, hr.document_eq]

theorem Calm.steady (h : Calm d s) : Steady d s := by
  induction h with
  | load h => exact steady_load h
  | frame _ ih => exact ih.frame
  | @resize s _ viewport ih =>
    obtain ⟨dirty, heq⟩ := s.resize_eq viewport
    exact heq ▸ ⟨ih.lasting, ih.textured, ih.styled, ih.asked⟩
  | reexpand h id hid ih => exact ih.reexpand h.reachable hid
  | point _ _ _ _ ih => exact ⟨ih.lasting, ih.textured, ih.styled, ih.asked⟩
  | equip _ _ ih => exact ⟨ih.lasting, ih.textured, ih.styled, ih.asked⟩

/-! ## Expanding again -/

/-- Expanding an instance of the document again renews its copy, and asks
the loader nothing. -/
theorem Calm.renews (h : Calm d s) (he : s.scene.get? p = some e) (hinst : e.isInstance)
    (hd : e.source.isDocument) : (s.reexpand p).1.textures = s.textures ∧
      ∃ f, Renewed still s.scene (s.reexpand p).1.scene p f := by
  have hr := h.reachable
  have htidy := hr.tidy
  have hsteady := h.steady
  have hsteady' : Steady d (s.reexpand p).1 := hsteady.reexpand hr fun e' he' _ => by
    cases he.symm.trans he'
    exact hd
  -- the copy of the instance stands, so it is renewed
  obtain ⟨i, hi⟩ := Option.isSome_iff_exists.mp hinst
  have hset := hr.settled he hi
  obtain ⟨s₀, e₀, i₀, hstands⟩ := hsteady.lasting.stands p e i he hi hd hset.expanded
  have hx := Scene.expands_expand d s.settings htidy.forest he hi hset.toReady
  have hagain : Again d s.settings s₀ p e₀ i₀ _ s.scene e i _ := ⟨hstands, rfl, rfl, hx, hi⟩
  have hnew := hagain.renewed (hsteady.lasting.keepsMade htidy)
  have hstore : (s.reexpand p).1.textures = s.textures := by
    rw [Session.reexpand, hr.document_eq]
    exact Scene.loadTextures_store (fun _ _ _ he' hresource =>
      hnew.outcome_known hsteady.textured he' hresource) hx.forest d s.loader
  have hcore : Alike core (s.scene.expand d s.settings p).scene (s.reexpand p).1.scene := by
    rw [Session.reexpand, hr.document_eq]
    exact (Scene.alike_loadTextures _ _ _ _).trans (Scene.alike_inherit _ _)
  have htextured' : Textured s.textures (s.reexpand p).1.scene := hstore ▸ hsteady'.textured
  exact ⟨hstore, _, (hnew.alike hx.forest (hr.reexpand p).forest hcore).still_of_core htidy.forest
    hsteady.textured htextured' hsteady.styled hsteady'.styled⟩

/-- Expands an instance again a number of times. -/
def reexpandTimes (id : ElementId) : Nat → Session → Session
  | 0, s => s
  | n + 1, s => reexpandTimes id n (s.reexpand id).1

/-- However often an instance of the document is expanded again in a calm
session, the tree is the one before under a renaming: it moves the copy of
the instance, in order, to ids that were not given out before, and no other
id. The loader was asked once for each index, and not again. -/
theorem Calm.reexpand_renews (h : Calm d s) (he : s.scene.get? p = some e) (hinst : e.isInstance)
    (hd : e.source.isDocument) (n : Nat) :
    let t := reexpandTimes p (n + 1) s
    t.textures = s.textures ∧ t.textures.AskedOnce d ∧ ∃ f, Renewed still s.scene t.scene p f := by
  dsimp only
  induction n generalizing s e with
  | zero =>
    obtain ⟨hstore, hrenewed⟩ := h.renews he hinst hd
    exact ⟨hstore, hstore ▸ h.steady.asked, hrenewed⟩
  | succ n ih =>
    obtain ⟨hstore, f, hrenewed⟩ := h.renews he hinst hd
    obtain ⟨e', he', hstill⟩ := hrenewed.exists_host h.reachable.forest he
    have hsource : e'.source = e.source := (congrArg Element.source hstill :)
    have hinstance : e'.isInstance = e.isInstance :=
      (congrArg Element.isInstance hstill :).trans (e.isInstance_rename f)
    have hcalm : Calm d (s.reexpand p).1 := h.reexpand p fun e' he' _ => by
      cases he.symm.trans he'
      exact hd
    obtain ⟨hstore', hasked, f', hrenewed'⟩ :=
      ih hcalm he' (hinstance ▸ hinst) (hsource ▸ hd)
    exact ⟨hstore'.trans hstore, hasked, _, hrenewed.trans hrenewed' Element.still_rename⟩

/-- A component in a component, used with a text. -/
theorem nested_renews : ∃ s notices e, load .nested .none .standard = (.ok s, notices) ∧
    s.scene.get? ⟨1⟩ = some e ∧ e.isInstance ∧ e.source.isDocument ∧
    s.scene.ids = [⟨0⟩, ⟨1⟩, ⟨2⟩, ⟨3⟩, ⟨4⟩] ∧
    (reexpandTimes ⟨1⟩ 2 s).scene.ids = [⟨0⟩, ⟨1⟩, ⟨2⟩, ⟨7⟩, ⟨8⟩] ∧
    (reexpandTimes ⟨1⟩ 2 s).textures = s.textures ∧
      (reexpandTimes ⟨1⟩ 2 s).textures.AskedOnce .nested ∧
        ∃ f, Renewed still s.scene (reexpandTimes ⟨1⟩ 2 s).scene ⟨1⟩ f := by
  have hload : load .nested .none .standard = (.ok _, _) := rfl
  exact ⟨_, _, _, hload, rfl, rfl, rfl, by decide +kernel, by decide +kernel,
    Calm.reexpand_renews (.load hload) rfl rfl rfl 1⟩

/-- Not every session is calm. Here the instance in the copy got a copy of
its own when it was expanded again, and it gets none when the instance
around it is. -/
theorem loop_not_renewed : ∃ s notices, load .loop .none .standard = (.ok s, notices) ∧
    Reachable .loop (s.reexpand ⟨2⟩).1 ∧
      ¬ ∃ f, Renewed still (s.reexpand ⟨2⟩).1.scene
        ((s.reexpand ⟨2⟩).1.reexpand ⟨1⟩).1.scene ⟨1⟩ f := by
  have hload : load .loop .none .standard = (.ok _, _) := rfl
  refine ⟨_, _, hload, .reexpand (.load hload) ⟨2⟩, fun ⟨f, h⟩ => ?_⟩
  exact absurd h.size_eq (by decide +kernel)

end Session

end SceneTree
