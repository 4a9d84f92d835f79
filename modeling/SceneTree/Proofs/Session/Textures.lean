import SceneTree.Proofs.Forest.Alike
import SceneTree.Scene.Textures

/-!
# Every texture is that of its resource

After textures were loaded, what an element shows is told by its resource
and the store alone (`Forest.textured_loadTextures`). So it does not matter
how often textures are loaded, or in what order the elements were made.
The store keeps every outcome it has, and where all outcomes that are
wanted are known no loader is asked (`loadTextures_store`).

`TextureStore.AskedOnce` says what the loader was asked: for each index
that has an outcome its path, once.
-/

namespace SceneTree

/-! ## The store -/

namespace TextureStore

variable {store : TextureStore} {d : Document} {loader : Loader} {index other : UInt8}
  {outcome : Except TextureFault Texture}

theorem get_of_known (h : store.outcome? index = some outcome) :
    store.get d loader index = (outcome, store) := by
  rw [get, h]

theorem outcome?_append (outcomes more : List (UInt8 × Except TextureFault Texture))
    (asked : List String) (index : UInt8) :
    outcome? ⟨outcomes ++ more, asked⟩ index = (outcomes.lookup index).or (more.lookup index) :=
  List.lookup_append

/-- What is asked for is known afterwards. -/
theorem outcome?_get (store : TextureStore) (d : Document) (loader : Loader) (index : UInt8) :
    (store.get d loader index).2.outcome? index = some (store.get d loader index).1 := by
  unfold get
  split
  next known hknown => exact hknown
  next hnone =>
    have hnone : store.outcomes.lookup index = none := hnone
    split
    next => rw [outcome?_append, hnone, Option.none_or, List.lookup_cons_self]
    next => rw [outcome?_append, hnone, Option.none_or, List.lookup_cons_self]

/-- What is known stays. -/
theorem outcome?_get_of_known (h : store.outcome? other = some outcome) :
    (store.get d loader index).2.outcome? other = some outcome := by
  have h' : store.outcomes.lookup other = some outcome := h
  unfold get
  split
  next => exact h
  next =>
    split
    next => rw [outcome?_append, h', Option.some_or]
    next => rw [outcome?_append, h', Option.some_or]

/-- No index has two outcomes, and the loader was asked for the path of
each index that has one, in that order. -/
structure AskedOnce (d : Document) (store : TextureStore) : Prop where
  nodup : (store.outcomes.map (·.1)).Nodup
  asked : store.asked = (store.outcomes.map (·.1)).filterMap d.resource?

theorem askedOnce_empty (d : Document) : AskedOnce d .empty := ⟨.nil, rfl⟩

theorem AskedOnce.get (h : AskedOnce d store) (loader : Loader) (index : UInt8) :
    AskedOnce d (store.get d loader index).2 := by
  unfold TextureStore.get
  split
  next => exact h
  next hnone =>
    have hnew : index ∉ store.outcomes.map (·.1) := fun hm => by
      obtain ⟨known, hknown, rfl⟩ := List.mem_map.mp hm
      have hne := List.lookup_eq_none_iff.mp hnone known hknown
      rw [bne_self_eq_false] at hne
      exact absurd hne Bool.false_ne_true
    have hnodup (outcome : Except TextureFault Texture) :
        ((store.outcomes ++ [(index, outcome)]).map (·.1)).Nodup := by
      rw [List.map_append, List.map_singleton]
      refine List.nodup_append.mpr ⟨h.nodup, List.nodup_singleton _, fun i hi j hj hij => ?_⟩
      have heq : i = index := hij.trans (List.mem_singleton.mp hj)
      exact hnew (heq ▸ hi)
    split
    next path hpath =>
      refine ⟨hnodup _, ?_⟩
      simp only [List.map_append, List.filterMap_append, ← h.asked, List.map_singleton,
        List.filterMap_cons, hpath, List.filterMap_nil]
    next hpath =>
      refine ⟨hnodup _, ?_⟩
      simp only [List.map_append, List.filterMap_append, ← h.asked, List.map_singleton,
        List.filterMap_cons, hpath, List.filterMap_nil, List.append_nil]

/-- The texture of a resource, once it was loaded. -/
def shown (store : TextureStore) (resource : Option UInt8) : Option Texture :=
  resource.bind fun index => (store.outcome? index).bind (·.toOption)

end TextureStore

/-! ## The elements -/

/-- An element that shows what the store has for its resource. -/
structure Element.Textured (store : TextureStore) (e : Element) : Prop where
  known : ∀ index, e.resource = some index → ∃ outcome, store.outcome? index = some outcome
  texture : e.texture = store.shown e.resource
  textureLoaded : e.textureLoaded = (store.shown e.resource).isSome

/-- A store that knows more changes nothing for those that show theirs. -/
theorem Element.Textured.mono {store store' : TextureStore} {e : Element}
    (h : e.Textured store)
    (hmono : ∀ index outcome, store.outcome? index = some outcome →
      store'.outcome? index = some outcome) : e.Textured store' := by
  have hshown : store'.shown e.resource = store.shown e.resource := by
    cases hr : e.resource with
    | none => rfl
    | some index =>
      obtain ⟨outcome, hknown⟩ := h.known index hr
      simp only [TextureStore.shown, Option.bind_some, hknown, hmono index outcome hknown]
  refine ⟨fun index hr => ?_, hshown ▸ h.texture, hshown ▸ h.textureLoaded⟩
  obtain ⟨outcome, hknown⟩ := h.known index hr
  exact ⟨outcome, hmono index outcome hknown⟩

/-- What an element shows, and why. -/
def Element.shows (e : Element) : Option UInt8 × Option Texture × Bool :=
  (e.resource, e.texture, e.textureLoaded)

theorem Element.Textured.congr {store : TextureStore} {e e' : Element} (h : e.Textured store)
    (hshows : e'.shows = e.shows) : e'.Textured store := by
  have hresource : e'.resource = e.resource := congrArg (·.1) hshows
  have htexture : e'.texture = e.texture := congrArg (·.2.1) hshows
  have hloaded : e'.textureLoaded = e.textureLoaded := congrArg (·.2.2) hshows
  exact ⟨by rw [hresource]; exact h.known, by rw [hresource, htexture]; exact h.texture,
    by rw [hresource, hloaded]; exact h.textureLoaded⟩

/-- An element that was not yet given a texture. -/
structure Element.Untextured (e : Element) : Prop where
  texture : e.texture = none
  textureLoaded : e.textureLoaded = false

theorem Element.Untextured.congr {e e' : Element} (h : e.Untextured)
    (hshows : e'.shows = e.shows) : e'.Untextured := by
  have htexture : e'.texture = e.texture := congrArg (·.2.1) hshows
  have hloaded : e'.textureLoaded = e.textureLoaded := congrArg (·.2.2) hshows
  exact ⟨htexture.trans h.texture, hloaded.trans h.textureLoaded⟩

namespace Scene

variable {store : TextureStore} {d : Document} {loader : Loader} {s t : Scene}
  {y : ElementId} {e : Element}

/-- Every element shows its texture. -/
def Textured (store : TextureStore) (s : Scene) : Prop :=
  ∀ y e, s.get? y = some e → e.Textured store

theorem Textured.alike (h : Textured store s) (ha : Alike Element.shows s t) :
    Textured store t := by
  intro y e' he'
  obtain ⟨e, he, hshows⟩ := ha.exists_get? he'
  exact (h y e he).congr hshows.symm

/-- Loading textures under way: those of `todo` are still to get one. -/
structure Texturing (run : TextureRun) (todo : List (ElementId × UInt8)) : Prop where
  wanted : ∀ w ∈ todo, ∀ e, run.scene.get? w.1 = some e → e.resource = some w.2
  textured : ∀ y e, run.scene.get? y = some e →
    e.Textured run.store ∨ ∃ index, (y, index) ∈ todo

/-- One element gets the outcome of its resource, whatever that is. -/
theorem take_eq (run : TextureRun) (d : Document) (loader : Loader) (id : ElementId)
    (index : UInt8) :
    let texture := (run.store.get d loader index).1.toOption
    (run.take d loader (id, index)).scene =
        run.scene.modify id (fun e => { e with texture, textureLoaded := texture.isSome }) ∧
      (run.take d loader (id, index)).store = (run.store.get d loader index).2 := by
  simp only [TextureRun.take]
  cases (run.store.get d loader index).1 with
  | ok texture => exact ⟨rfl, rfl⟩
  | error cause => exact ⟨rfl, rfl⟩

/-- One element gets its texture. -/
theorem Texturing.take {run : TextureRun} {id : ElementId} {index : UInt8}
    {todo : List (ElementId × UInt8)} (h : Texturing run ((id, index) :: todo)) :
    Texturing (run.take d loader (id, index)) todo := by
  obtain ⟨hscene, hstore⟩ := take_eq run d loader id index
  have hresource (y : ElementId) {e : Element}
      (he : (run.take d loader (id, index)).scene.get? y = some e) :
      ∃ e₀, run.scene.get? y = some e₀ ∧ e₀.resource = e.resource := by
    have hmap : ((run.take d loader (id, index)).scene.get? y).map (·.resource) =
        (run.scene.get? y).map (·.resource) := by
      rw [hscene]
      exact map_get?_modify (by intro; rfl) run.scene id y
    rw [he, Option.map_some] at hmap
    exact Option.map_eq_some_iff.mp hmap.symm
  refine ⟨fun w hw e he => ?_, fun y e he => ?_⟩
  · obtain ⟨e₀, he₀, heq⟩ := hresource w.1 he
    exact heq ▸ h.wanted w (List.mem_cons_of_mem _ hw) e₀ he₀
  · rw [hstore]
    by_cases hy : y = id
    · obtain ⟨e₀, he₀, hsame⟩ := hresource y he
      have hr : e.resource = some index := hsame ▸ h.wanted _ List.mem_cons_self e₀ (hy ▸ he₀)
      have hknown := run.store.outcome?_get d loader index
      rw [hscene, hy, get?_modify_self (hy ▸ he₀)] at he
      cases he
      have hshown : (run.store.get d loader index).2.shown (some index) =
          (run.store.get d loader index).1.toOption := by
        rw [TextureStore.shown, Option.bind_some, hknown, Option.bind_some]
      refine .inl ⟨fun j hj => ?_, ?_, ?_⟩
      · cases hr.symm.trans hj
        exact ⟨_, hknown⟩
      · dsimp only at hr ⊢
        rw [hr, hshown]
      · dsimp only at hr ⊢
        rw [hr, hshown]
    · rw [hscene, get?_modify_of_ne hy] at he
      refine (h.textured y e he).imp (fun htex => ?_) fun ⟨j, hj⟩ => ⟨j, ?_⟩
      · exact htex.mono fun _ _ => TextureStore.outcome?_get_of_known
      · exact (List.mem_cons.mp hj).resolve_left fun heq => hy (Prod.mk.inj heq).1

/-- No element has a texture but that of its resource. -/
def Loadable (store : TextureStore) (s : Scene) : Prop :=
  ∀ y e, s.get? y = some e → e.Textured store ∨ e.Untextured

/-- Loading gives every element its texture, if none has another. -/
theorem Forest.textured_loadTextures (h : s.Forest) (hs : Loadable store s) (d : Document)
    (loader : Loader) :
    Textured (s.loadTextures store d loader).store (s.loadTextures store d loader).scene := by
  suffices hfold : ∀ (todo : List (ElementId × UInt8)) (run : TextureRun), Texturing run todo →
      Textured (todo.foldl (TextureRun.take d loader) run).store
        (todo.foldl (TextureRun.take d loader) run).scene by
    refine hfold s.wanting ⟨s, store, 0, 0, []⟩ ⟨fun w hw e he => ?_, fun y e he => ?_⟩
    · obtain ⟨e₀, hm, hw⟩ := List.mem_filterMap.mp hw
      obtain ⟨index, hr, rfl⟩ := Option.map_eq_some_iff.mp hw
      have he₀ := h.mem_elements.mp (List.mem_filter.mp hm).1
      cases he₀.symm.trans he
      exact hr
    · rcases hs y e he with htex | hraw
      · exact .inl htex
      · cases hr : e.resource with
        | none =>
          refine .inl ⟨fun index hindex => ?_, ?_, ?_⟩
          · cases hr.symm.trans hindex
          · rw [hr, hraw.texture]; rfl
          · rw [hr, hraw.textureLoaded]; rfl
        | some index =>
          refine .inr ⟨index, List.mem_filterMap.mpr ⟨e, List.mem_filter.mpr ⟨?_, ?_⟩, ?_⟩⟩
          · exact mem_elements_of_get? he
          · rw [hraw.textureLoaded]; rfl
          · rw [hr, h.named he]; rfl
  intro todo
  induction todo with
  | nil => exact fun run hrun y e he => (hrun.textured y e he).resolve_right fun ⟨_, hm⟩ =>
      absurd hm List.not_mem_nil
  | cons w todo ih => exact fun run hrun => ih _ hrun.take

/-- Where all that is wanted is known, no loader is asked. -/
theorem loadTextures_store
    (h : ∀ y e index, s.get? y = some e → e.resource = some index →
      ∃ outcome, store.outcome? index = some outcome) (hs : s.Forest) (d : Document)
    (loader : Loader) : (s.loadTextures store d loader).store = store := by
  have hwanting : ∀ w ∈ s.wanting, ∃ outcome, store.outcome? w.2 = some outcome := fun w hw => by
    obtain ⟨e, hm, hw⟩ := List.mem_filterMap.mp hw
    obtain ⟨index, hr, rfl⟩ := Option.map_eq_some_iff.mp hw
    exact h e.id e index (hs.mem_elements.mp (List.mem_filter.mp hm).1) hr
  rw [loadTextures]
  refine List.foldlRecOn (motive := fun run : TextureRun => run.store = store) s.wanting _ rfl
    fun run hrun w hw => ?_
  obtain ⟨outcome, hknown⟩ := hwanting w hw
  simp only [TextureRun.take, hrun, TextureStore.get_of_known hknown]
  cases outcome <;> rfl

/-- What asking for one index keeps of the store, loading textures keeps. -/
theorem loadTextures_keeps {P : TextureStore → Prop} (s : Scene) (h : P store)
    (hget : ∀ {store} index, P store → P (store.get d loader index).2) :
    P (s.loadTextures store d loader).store := by
  rw [loadTextures]
  refine List.foldlRecOn (motive := fun run : TextureRun => P run.store) s.wanting _ h
    fun run hrun w _ => ?_
  rw [(take_eq run d loader w.1 w.2).2]
  exact hget w.2 hrun

/-- What is known stays known. -/
theorem outcome?_loadTextures_of_known {index : UInt8} {outcome : Except TextureFault Texture}
    (h : store.outcome? index = some outcome) (s : Scene) (d : Document) (loader : Loader) :
    (s.loadTextures store d loader).store.outcome? index = some outcome :=
  s.loadTextures_keeps (P := fun store => store.outcome? index = some outcome) h
    fun _ => TextureStore.outcome?_get_of_known

theorem askedOnce_loadTextures (h : store.AskedOnce d) (s : Scene) (loader : Loader) :
    (s.loadTextures store d loader).store.AskedOnce d :=
  s.loadTextures_keeps h fun index hstore => hstore.get loader index

theorem given_loadTextures (s : Scene) (store : TextureStore) (d : Document) (loader : Loader) :
    Alike Element.given s (s.loadTextures store d loader).scene := by
  refine Alike.foldl TextureRun.scene (fun run w => ?_) ⟨s, store, 0, 0, []⟩ s.wanting
  unfold TextureRun.take
  dsimp only
  split
  next => exact .modify run.scene w.1
  next => exact .modify run.scene w.1

theorem alike_loadTextures (s : Scene) (store : TextureStore) (d : Document) (loader : Loader) :
    Alike Element.core s (s.loadTextures store d loader).scene :=
  (given_loadTextures s store d loader).reading Element.still

end Scene

end SceneTree
