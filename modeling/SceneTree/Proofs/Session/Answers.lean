import SceneTree.Proofs.Session.Local

/-!
# What the loader is asked, and what becomes of its answers

A loader may answer the same question differently each time, so it matters
when it is asked. It is asked for an index the first time an element wants
it, after the other indices that were wanted before, and what it answers
then stands for good (`TextureStore.Answered`). An index outside the
resource table never reaches it.

This holds of a session however it is used (`Reachable.answered`). Elements
come and go when instances are expanded again, and one whose resource
failed is tried again each time. Still every element shows what was
answered for its resource, and nothing else (`Reachable.shows_answer`).
-/

namespace SceneTree

namespace Loader

/-- What comes out for an index after others were asked for. -/
def answer (loader : Loader) (d : Document) (earlier : List UInt8) (index : UInt8) :
    Except TextureFault Texture :=
  match d.resource? index with
  | some path => loader.load (earlier.filterMap d.resource?) path
  | .none => .error (.unknownResource index)

end Loader

namespace TextureStore

variable {store : TextureStore} {d : Document} {loader : Loader} {index : UInt8}
  {outcome : Except TextureFault Texture}

/-- The indices that were asked for, in order. -/
def indices (store : TextureStore) : List UInt8 := store.outcomes.map (·.1)

/-- Those of them the loader was asked for. -/
def askedFor (store : TextureStore) (d : Document) : List UInt8 :=
  store.indices.filter fun index => (d.resource? index).isSome

/-- The outcome of each index is what comes out for it after those before
it, and the loader was asked once for each in the resource table. -/
structure Answered (d : Document) (loader : Loader) (store : TextureStore) : Prop where
  once : AskedOnce d store
  answer : ∀ n index outcome, store.outcomes[n]? = some (index, outcome) →
    outcome = loader.answer d (store.indices.take n) index

theorem answered_empty (d : Document) (loader : Loader) : Answered d loader .empty :=
  ⟨askedOnce_empty d, fun _ _ _ h => by cases h⟩

/-- An index without an outcome gets one, after all others. -/
theorem outcomes_get (h : AskedOnce d store) (loader : Loader) (hnew : store.outcome? index = none) :
    (store.get d loader index).2.outcomes =
      store.outcomes ++ [(index, loader.answer d store.indices index)] := by
  rw [get, hnew, Loader.answer, indices, ← h.asked]
  cases d.resource? index <;> rfl

theorem Answered.get (h : Answered d loader store) (index : UInt8) :
    Answered d loader (store.get d loader index).2 := by
  cases hknown : store.outcome? index with
  | some known =>
    rw [get_of_known hknown]
    exact h
  | none =>
    have houtcomes := outcomes_get h.once loader hknown
    refine ⟨h.once.get loader index, fun n other outcome hn => ?_⟩
    have hlength : store.indices.length = store.outcomes.length := List.length_map _
    rw [indices, houtcomes, List.map_append, List.map_singleton, ← indices]
    rw [houtcomes] at hn
    have hbound : n < store.outcomes.length + 1 := by
      have hn' := (List.getElem?_eq_some_iff.mp hn).1
      rwa [List.length_append] at hn'
    rcases Nat.lt_succ_iff_lt_or_eq.mp hbound with hlt | rfl
    · rw [List.getElem?_append_left hlt] at hn
      rw [List.take_append_of_le_length (hlength ▸ Nat.le_of_lt hlt)]
      exact h.answer n other outcome hn
    · rw [List.getElem?_append_right (Nat.le_refl _), Nat.sub_self] at hn
      cases hn
      rw [← hlength, List.take_left]

/-- Nothing that was learned is forgotten, and nothing comes before it. -/
theorem prefix_get (store : TextureStore) (d : Document) (loader : Loader) (index : UInt8) :
    store.outcomes <+: (store.get d loader index).2.outcomes ∧
      store.asked <+: (store.get d loader index).2.asked := by
  unfold get
  split
  next => exact ⟨List.prefix_rfl, List.prefix_rfl⟩
  next =>
    split
    next => exact ⟨List.prefix_append .., List.prefix_append ..⟩
    next => exact ⟨List.prefix_append .., List.prefix_rfl⟩

namespace AskedOnce

theorem nodup_askedFor (h : AskedOnce d store) : (store.askedFor d).Nodup := h.nodup.filter _

/-- The loader was asked for the paths of those indices, in that order. -/
theorem map_asked (h : AskedOnce d store) :
    store.asked.map some = (store.askedFor d).map d.resource? := by
  rw [h.asked, askedFor, indices]
  induction store.outcomes.map (·.1) with
  | nil => rfl
  | cons index rest ih =>
    cases hpath : d.resource? index with
    | none =>
      simp only [List.filterMap_cons, List.filter_cons, hpath, Option.isSome_none,
        Bool.false_eq_true, if_false, ih]
    | some path =>
      simp only [List.filterMap_cons, List.filter_cons, hpath, Option.isSome_some, if_true,
        List.map_cons, ih]

/-- The outcome of an index is the only one that was recorded for it. -/
theorem mem_outcomes_iff (h : AskedOnce d store) (hknown : store.outcome? index = some outcome)
    (o : Except TextureFault Texture) : (index, o) ∈ store.outcomes ↔ o = outcome := by
  obtain ⟨earlier, later, hsplit, -⟩ := List.lookup_eq_some_iff.mp hknown
  have hm : (index, outcome) ∈ store.outcomes := by
    rw [hsplit]
    exact List.mem_append_right _ List.mem_cons_self
  constructor
  · intro ho
    exact (Prod.mk.inj (List.inj_on_of_nodup_map h.nodup ho hm rfl)).2
  · rintro rfl
    exact hm

end AskedOnce

end TextureStore

namespace Scene

open TextureStore (Answered)

variable {store : TextureStore} {d : Document} {loader : Loader}

theorem answered_loadTextures (s : Scene) (h : Answered d loader store) :
    Answered d loader (s.loadTextures store d loader).store :=
  s.loadTextures_keeps h fun index hstore => hstore.get index

theorem prefix_loadTextures (s : Scene) (store : TextureStore) (d : Document) (loader : Loader) :
    store.outcomes <+: (s.loadTextures store d loader).store.outcomes ∧
      store.asked <+: (s.loadTextures store d loader).store.asked := by
  refine s.loadTextures_keeps
    (P := fun later => store.outcomes <+: later.outcomes ∧ store.asked <+: later.asked)
    ⟨List.prefix_rfl, List.prefix_rfl⟩ fun {later} index hlater => ?_
  obtain ⟨houtcomes, hasked⟩ := later.prefix_get d loader index
  exact ⟨hlater.1.trans houtcomes, hlater.2.trans hasked⟩

end Scene

/-- The record of an image with its resource. -/
def Record.picture (resource : UInt8) : Record :=
  { Record.ofHeader (.ofWidget .image) with properties := [⟨.imageSource, .resource resource⟩] }

/-- Images from inside and outside the resource table, and one in a
component. -/
def Document.pictured : Document :=
  { Document.blank with
    strings := ["", componentKey, "Badge"]
    records :=
      [{ Record.ofHeader (.ofWidget .app) with childRefs := [24, 44, 64, 84] },
        .picture 0, .picture 1, .picture 9, .standIn 2 []]
    offsets := [0, 24, 44, 64, 84]
    components := [{ name := "Badge", parameters := [], template := (Record.picture 0).toBytes }]
    resources := ["logo.png", "gone.png"] }

/-- With a loader that has the first image and not the second. -/
def SessionOptions.gallery : SessionOptions :=
  { SessionOptions.standard with loader := .ofEntries [("logo.png", .ok ⟨7, 2, 1⟩)] }

namespace Session

open TextureStore (Answered)

variable {d : Document} {s : Session}

/-- Whatever the loader answers and whatever was expanded again, the store
holds its answers. -/
theorem Reachable.answered (h : Reachable d s) : Answered d s.loader s.textures := by
  induction h with
  | load h =>
    simp only [Session.load] at h
    split at h
    next => cases h
    next =>
      cases h
      exact Scene.answered_loadTextures _ (TextureStore.answered_empty d _)
  | frame _ ih => exact ih
  | @resize s _ viewport ih =>
    obtain ⟨dirty, heq⟩ := s.resize_eq viewport
    exact heq ▸ ih
  | @reexpand s h id ih =>
    rw [← h.document_eq] at ih ⊢
    exact Scene.answered_loadTextures _ ih
  | point _ _ _ _ ih => exact ih
  | equip _ _ ih => exact ih

/-- However a session is used, and however the loader answers, it has been
asked for the paths of distinct indices, all of them in the resource table.
Expanding again may ask for more, and changes no outcome. Every element
with a resource shows the one outcome that was recorded for it, and it has
a texture exactly if that is one. -/
theorem Reachable.shows_answer (h : Reachable d s) :
    Answered d s.loader s.textures ∧
    (∃ indices : List UInt8, indices.Nodup ∧ (∀ i ∈ indices, i.toNat < d.resources.length) ∧
      s.textures.asked.map some = indices.map d.resource?) ∧
    (∀ id, s.textures.outcomes <+: (s.reexpand id).1.textures.outcomes ∧
      s.textures.asked <+: (s.reexpand id).1.textures.asked) ∧
    ∀ y e, s.scene.get? y = some e →
      match e.resource with
      | none => e.texture = none ∧ e.textureLoaded = false
      | some index => ∃ outcome,
          (∀ o, (index, o) ∈ s.textures.outcomes ↔ o = outcome) ∧
          (∀ t, (e.texture = some t ∧ e.textureLoaded = true) ↔ outcome = .ok t) ∧
          ((∀ t, outcome ≠ .ok t) → e.texture = none ∧ e.textureLoaded = false) := by
  have hanswered := h.answered
  refine ⟨hanswered, ⟨s.textures.askedFor d, hanswered.once.nodup_askedFor, fun i hi => ?_,
    hanswered.once.map_asked⟩, fun id => Scene.prefix_loadTextures _ _ _ _, fun y e he => ?_⟩
  · obtain ⟨path, hpath⟩ := Option.isSome_iff_exists.mp (List.mem_filter.mp hi).2
    exact (List.getElem?_eq_some_iff.mp hpath).1
  · have htextured := h.current.textured y e he
    have htexture := htextured.texture
    have hloaded := htextured.textureLoaded
    cases hr : e.resource with
    | none =>
      rw [hr] at htexture hloaded
      exact ⟨htexture, hloaded⟩
    | some index =>
      obtain ⟨outcome, hknown⟩ := htextured.known index hr
      have hshown : s.textures.shown e.resource = outcome.toOption := by
        rw [hr, TextureStore.shown, Option.bind_some, hknown, Option.bind_some]
      rw [htexture, hloaded, hshown]
      refine ⟨outcome, hanswered.once.mem_outcomes_iff hknown, fun t => ?_, fun hfailed => ?_⟩
      · cases outcome with
        | ok t' => simp [Except.toOption]
        | error cause => simp [Except.toOption]
      · cases outcome with
        | ok t => exact absurd rfl (hfailed t)
        | error cause => exact ⟨rfl, rfl⟩

/-- The second image is not found and the third is not in the table. When
the instance is expanded again, the loader is not asked again, and the new
image shows the texture of the first. -/
theorem pictured_answered : ∃ s notices, load .pictured .none .gallery = (.ok s, notices) ∧
    let t := (s.reexpand ⟨4⟩).1
    t.scene.ids = [⟨0⟩, ⟨1⟩, ⟨2⟩, ⟨3⟩, ⟨4⟩, ⟨6⟩] ∧ t.textures.asked = ["logo.png", "gone.png"] ∧
      ∃ e, t.scene.get? ⟨6⟩ = some e ∧ e.resource = some 0 ∧ e.texture = some ⟨7, 2, 1⟩ ∧
        (0, .ok ⟨7, 2, 1⟩) ∈ t.textures.outcomes := by
  have hload : load .pictured .none .gallery = (.ok _, _) := rfl
  refine ⟨_, _, hload, by decide +kernel, by decide +kernel, _, rfl, rfl, rfl, ?_⟩
  obtain ⟨outcome, honly, hshows, -⟩ :=
    (Reachable.shows_answer (.reexpand (.load hload) ⟨4⟩)).2.2.2 ⟨6⟩ _ rfl
  exact (honly _).mpr ((hshows ⟨7, 2, 1⟩).mp ⟨rfl, rfl⟩).symm

end Session

end SceneTree
