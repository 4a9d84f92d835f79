import SceneTree.Proofs.Forest.Shape

/-!
# Scenes that agree on a reading

Most stages of a session write some fields of the elements and leave the
others as they are. `Alike g` says of two scenes that they have the same
slots filled, with elements of which `g` reads the same. Two readings are
used most: `Element.still` is all but the geometry, which layout and patches
write, and `Element.core` is what is left of that without texture and text
style, which are written after every expansion. `Element.given` is all but
these two.
-/

namespace SceneTree

namespace Element

/-- The element without its geometry. -/
def still (e : Element) : Element := { e with intrinsic := .zero, rect := .zero }

/-- The element without what is written after every expansion. -/
def given (e : Element) : Element :=
  { e with texture := none, textureLoaded := false, textStyle := .unset }

/-- The element without what is derived from it and from what is around
it. -/
def core (e : Element) : Element :=
  { e.still with texture := none, textureLoaded := false, textStyle := .unset }

/-- The texture and the text style complete what is given. -/
theorem eq_of_given {e e' : Element} (hgiven : e'.given = e.given)
    (htexture : e'.texture = e.texture) (hloaded : e'.textureLoaded = e.textureLoaded)
    (hstyle : e'.textStyle = e.textStyle) : e' = e :=
  calc e'
      = { e'.given with
          texture := e'.texture
          textureLoaded := e'.textureLoaded
          textStyle := e'.textStyle } := rfl
    _ = e := by rw [hgiven, htexture, hloaded, hstyle]; rfl

/-- With the geometry left out, they complete the core. -/
theorem still_eq_of_core {e e' : Element} (hcore : e'.core = e.core)
    (htexture : e'.texture = e.texture) (hloaded : e'.textureLoaded = e.textureLoaded)
    (hstyle : e'.textStyle = e.textStyle) : e'.still = e.still :=
  eq_of_given hcore htexture hloaded hstyle

end Element

namespace Scene

variable {α : Type} {g : Element → α} {s t u : Scene} {x : ElementId} {e : Element}

/-- The same slots are filled, with what `g` reads the same of. -/
structure Alike (g : Element → α) (s t : Scene) : Prop where
  size : t.slots.size = s.slots.size
  map_get? : ∀ x, (t.get? x).map g = (s.get? x).map g

namespace Alike

theorem refl (g : Element → α) (s : Scene) : Alike g s s := ⟨rfl, fun _ => rfl⟩

theorem trans (h : Alike g s t) (h' : Alike g t u) : Alike g s u where
  size := h'.size.trans h.size
  map_get? x := (h'.map_get? x).trans (h.map_get? x)

theorem symm (h : Alike g s t) : Alike g t s := ⟨h.size.symm, fun x => (h.map_get? x).symm⟩

theorem modify (s : Scene) (id : ElementId) {f : Element → Element}
    (hf : ∀ e, g (f e) = g e := by intro; rfl) : Alike g s (s.modify id f) where
  size := size_modify s id f
  map_get? := map_get?_modify hf s id

theorem foldl {σ β : Type} (scene : σ → Scene) {f : σ → β → σ}
    (hf : ∀ w b, Alike g (scene w) (scene (f w b))) (w : σ) (l : List β) :
    Alike g (scene w) (scene (l.foldl f w)) := by
  induction l generalizing w with
  | nil => exact .refl g _
  | cons b l ih => exact (hf w b).trans (ih (f w b))

/-- Scenes agree on whatever can be read off what they agree on. -/
theorem reading {β : Type} {k : Element → β} (h : Alike g s t) (r : α → β)
    (hk : ∀ e, k e = r (g e) := by intro; rfl) : Alike k s t where
  size := h.size
  map_get? x := by
    have hmap := congrArg (Option.map r) (h.map_get? x)
    rw [Option.map_map, Option.map_map] at hmap
    rwa [show k = r ∘ g from funext hk]

theorem exists_get? (h : Alike g s t) (he : t.get? x = some e) :
    ∃ e₀, s.get? x = some e₀ ∧ g e₀ = g e := by
  have hmap := h.map_get? x
  rw [he, Option.map_some] at hmap
  exact Option.map_eq_some_iff.mp hmap.symm

/-- What can be told from `g` of an element remains true of it. -/
theorem forall_get? {P : Element → Prop} (h : Alike g s t)
    (hP : ∀ e e', g e' = g e → P e → P e') (hx : ∀ e, s.get? x = some e → P e) :
    ∀ e, t.get? x = some e → P e := by
  intro e he
  obtain ⟨e₀, he₀, hsame⟩ := h.exists_get? he
  exact hP e₀ e hsame.symm (hx e₀ he₀)

/-- At each id both scenes have an element or neither has one. -/
theorem cases (h : Alike g s t) (x : ElementId) : s.get? x = none ∧ t.get? x = none ∨
    ∃ e e', s.get? x = some e ∧ t.get? x = some e' ∧ g e' = g e := by
  have hmap := h.map_get? x
  cases ht : t.get? x with
  | none =>
    rw [ht, Option.map_none] at hmap
    exact .inl ⟨Option.map_eq_none_iff.mp hmap.symm, rfl⟩
  | some e' =>
    obtain ⟨e, he, hg⟩ := h.exists_get? ht
    exact .inr ⟨e, e', he, rfl, hg.symm⟩

theorem contains (h : Alike g s t) (x : ElementId) : t.contains x = s.contains x := by
  have hsome := congrArg Option.isSome (h.map_get? x)
  rwa [Option.isSome_map, Option.isSome_map] at hsome

theorem core (h : Alike Element.still s t) : Alike Element.core s t := h.reading Element.core

theorem sameShape (h : Alike Element.core s t) : s.SameShape t :=
  have hplace : Alike Element.place s t := h.reading Element.place
  ⟨hplace.size, hplace.map_get?⟩

theorem forest (h : Alike Element.core s t) (hs : s.Forest) : t.Forest := by
  refine hs.congr (fun {x e} he => ?_) h.sameShape.parent? h.sameShape.children
  obtain ⟨e₀, he₀, hcore⟩ := h.exists_get? he
  have hid : e₀.id = e.id := congrArg (·.id) hcore
  rw [← hid, hs.named he₀]

/-- Scenes that agree on everything are one. -/
theorem eq (h : Alike id s t) : t = s := by
  cases s with
  | mk slots =>
    cases t with
    | mk slots' =>
      refine congrArg Scene.mk (Array.ext h.size fun i hi hi' => ?_)
      have hget := h.map_get? ⟨i⟩
      simp only [get?, Option.map_id, id, Array.getElem?_eq_getElem hi,
        Array.getElem?_eq_getElem hi', Option.join_some] at hget
      exact hget

end Alike

end Scene

end SceneTree
