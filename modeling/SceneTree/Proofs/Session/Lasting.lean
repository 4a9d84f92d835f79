import SceneTree.Proofs.Expand.Stands
import SceneTree.Proofs.Session.Textures

/-!
# Copies last

Loading a document expands its instances one by one. Each expansion leaves
the copies standing that earlier ones have made, but for those that it
takes along (`Lasting.expanded`). So once a document is loaded the copies
of all its instances stand, and they go on standing while only instances of
the document are expanded again.

An instance that is still pending is one of the document and keeps no ids.
So it is in a linked document, where every instance is pending.
-/

namespace SceneTree

namespace Scene

open Element (core)

variable {d : Document} {st : Settings} {s t : Scene} {id p y : ElementId} {e : Element}
  {i : Instance} {x : Expansion} {todo : List ElementId} {store : TextureStore}

/-! ## Standing and pending -/

/-- An instance that waits for its first expansion. -/
structure Waiting (e : Element) (i : Instance) : Prop where
  source : e.source.isDocument
  usage : i.usage = []
  roots : i.roots = []

/-- The copies of the instances of the document stand, and no other
instance is pending. -/
structure Lasting (d : Document) (st : Settings) (s : Scene) : Prop where
  stands : ∀ p e i, s.get? p = some e → e.instance? = some i → e.source.isDocument → i.expanded →
    ∃ s₀ e₀ i₀, Stands d s₀ p e₀ i₀ (s₀.expand d st p) s
  waiting : ∀ p e i, s.get? p = some e → e.instance? = some i → ¬ i.expanded → Waiting e i

namespace Lasting

theorem keepsMade (h : Lasting d st s) (ht : Tidy d s todo) : KeepsMade s := by
  intro y e i he hi c hc
  by_cases hx : i.expanded
  · have hset := (ht.settled y e i he hi).resolve_right fun hm => hm.1 hx
    rcases hc with hc | hc
    · exact hset.usage_made c (Element.usage_of_expanded hi hx ▸ hc)
    · have hm := (hset.roots_lead hx).subset hc
      rw [← children_of_get? he] at hm
      exact index_lt_of_contains (ht.forest.contains_child hm)
  · have hwait := h.waiting y e i he hi hx
    rw [hwait.usage, hwait.roots] at hc
    exact absurd hc (by simp only [List.not_mem_nil, or_self, not_false_eq_true])

/-- The copy of an instance that is expanded stands, and so do the others. -/
theorem expanded (h : Lasting d st s) (ht : Tidy d s todo) (he : s.get? id = some e)
    (hi : e.instance? = some i) (hd : e.source.isDocument) :
    Lasting d st (s.expand d st id).scene := by
  have hr := ht.ready he hi
  have hx : Expanded d s id e i (s.expand d st id) := expands_expand d st ht.forest he hi hr
  refine ⟨fun p ep ip hep hip hpd hpx => ?_, fun y ey iy hey hiy hpend => ?_⟩
  · by_cases hp : p = id
    · subst hp
      exact ⟨s, e, i, .of_expanded hx hi (h.keepsMade ht)⟩
    · have hlt := hx.index_lt_of_isDocument hep hpd
      obtain ⟨parent, hget⟩ := hx.old_get? hlt hp hep
      obtain ⟨s₀, e₀, i₀, hstands⟩ := h.stands p _ ip hget hip hpd hpx
      refine ⟨s₀, e₀, i₀, hstands.expanded ht hi hx ⟨e, he, hd⟩ (Ne.symm hp)
        (contains_of_get? hep) fun y ey hy hey => ?_⟩
      exact raw_expand st ht.forest he hi hr hy hey
  · by_cases hlt : y.index < s.slots.size
    · by_cases hy : y = id
      · obtain ⟨e', i', he', hi', -, -, hset⟩ := hx.self_settled
        rw [hy] at hey
        cases hey.symm.trans he'
        cases hiy.symm.trans hi'
        exact absurd hset.expanded hpend
      · obtain ⟨parent, hget⟩ := hx.old_get? hlt hy hey
        have hwait := h.waiting y _ iy hget hiy hpend
        exact ⟨hwait.source, hwait.usage, hwait.roots⟩
    · exact absurd (hx.fresh_settled y ey iy (Nat.not_lt.mp hlt) hey hiy).expanded hpend

theorem alike (h : Lasting d st s) (ha : Alike core s t) : Lasting d st t := by
  have hback {y : ElementId} {e : Element} (he : t.get? y = some e) :
      ∃ e₀, s.get? y = some e₀ ∧ e₀.source = e.source ∧ e₀.instance? = e.instance? := by
    obtain ⟨e₀, he₀, hcore⟩ := ha.exists_get? he
    exact ⟨e₀, he₀, (congrArg Element.source hcore :), (congrArg Element.instance? hcore :)⟩
  refine ⟨fun p e i he hi hd hx => ?_, fun y e i he hi hpend => ?_⟩
  · obtain ⟨e₀, he₀, hsource, hinstance⟩ := hback he
    obtain ⟨s₀, e₁, i₁, hstands⟩ := h.stands p e₀ i he₀ (hinstance.trans hi) (hsource ▸ hd) hx
    exact ⟨s₀, e₁, i₁, hstands.alike ha⟩
  · obtain ⟨e₀, he₀, hsource, hinstance⟩ := hback he
    have hwait := h.waiting y e₀ i he₀ (hinstance.trans hi) hpend
    exact ⟨hsource ▸ hwait.source, hwait.usage, hwait.roots⟩

end Lasting

/-- In a linked document all instances wait. -/
theorem lasting_linkedScene (d : Document) (st : Settings) :
    Lasting d st (Session.linkedScene d st).1 := by
  have hwaiting {y : ElementId} {e : Element}
      (he : (Session.linkedScene d st).1.get? y = some e) :
      ∀ i, e.instance? = some i → ¬ i.expanded ∧ Waiting e i := by
    intro i hi
    obtain ⟨r, -, halone⟩ := of_linkedScene he
    have hinstance := congrArg Element.instance? halone
    obtain ⟨hx, husage, hroots, -⟩ := Role.bare_of_ofRecord (hinstance.symm.trans hi)
    exact ⟨hx, (unexpanded_of_linkedScene he).source, husage, hroots⟩
  refine ⟨fun p e i he hi _ hx => ?_, fun p e i he hi _ => (hwaiting he i hi).2⟩
  exact absurd hx (hwaiting he i hi).1

/-! ## Textures to be loaded -/

/-- What an expansion makes has no texture yet. -/
theorem Loadable.expand (h : Loadable store s) (ht : Tidy d s todo) (st : Settings)
    (id : ElementId) : Loadable store (s.expand d st id).scene := by
  by_cases hinst : ∃ e i, s.get? id = some e ∧ e.instance? = some i
  · obtain ⟨e, i, he, hi⟩ := hinst
    have hr := ht.ready he hi
    have hx : Expanded d s id e i (s.expand d st id) := expands_expand d st ht.forest he hi hr
    intro y ey hey
    by_cases hlt : y.index < s.slots.size
    · have hshows : ∃ e₀, s.get? y = some e₀ ∧ ey.shows = e₀.shows := by
        by_cases hy : y = id
        · obtain ⟨look, decoration, hself⟩ := hx.self
          rw [hy] at hey
          cases hey.symm.trans hself
          exact ⟨e, hy ▸ he, rfl⟩
        · obtain ⟨parent, hget⟩ := hx.old_get? hlt hy hey
          exact ⟨_, hget, rfl⟩
      obtain ⟨e₀, he₀, hshows⟩ := hshows
      exact (h y e₀ he₀).imp (·.congr hshows) (·.congr hshows)
    · have hraw := raw_expand st ht.forest he hi hr (Nat.not_lt.mp hlt) hey
      exact .inr ⟨hraw.texture, hraw.textureLoaded⟩
  · rwa [scene_expand_of_not_instance hinst]

theorem loadable_linkedScene (d : Document) (st : Settings) (store : TextureStore) :
    Loadable store (Session.linkedScene d st).1 := fun y e he => by
  obtain ⟨r, -, halone⟩ := of_linkedScene he
  have hbare : (Element.ofRecord d st y r).Untextured := ⟨rfl, rfl⟩
  exact .inr (hbare.congr (congrArg Element.shows halone :))

end Scene

end SceneTree
