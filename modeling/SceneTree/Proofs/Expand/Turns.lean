import SceneTree.Proofs.Expand.Dress

/-!
# The turn of a copy

The instances inside a copy are expanded one after another, each in the
scene that the one before it left. Until its turn comes an instance of the
copy is left alone but for its parent: it may be gone by then, or hang
somewhere else, but it was never expanded, so it keeps no decoration
(`Queued`). So whatever its place in the copy, it can be expanded when its
turn comes, and it comes to it as it was made (`Begun.turn`).
-/

namespace SceneTree

namespace Scene

variable {d : Document} {st : Settings} {s t bare : Scene} {id c : ElementId} {e inst : Element}
  {i : Instance} {component : ComponentId} {tmpl : Template} {det : Detached} {x : Expansion}
  {nest : Scene → ElementId → Expansion} {todo done rest roots : List ElementId}

/-- The elements of `todo` have been made, and those that are instances
keep nothing yet. -/
structure Queued (todo : List ElementId) (t : Scene) : Prop where
  made : ∀ c ∈ todo, c.index < t.slots.size
  bare : ∀ c ∈ todo, ∀ e i, t.get? c = some e → e.instance? = some i → i.decoration = .none

namespace Queued

theorem tail (h : Queued (c :: todo) t) : Queued todo t where
  made y hy := h.made y (List.mem_cons_of_mem c hy)
  bare y hy := h.bare y (List.mem_cons_of_mem c hy)

/-- The expansion of another instance leaves at most the parent to be
written. -/
theorem expanded (h : Queued todo t) (hx : Expanded d t id e i x) (hid : id ∉ todo) :
    Queued todo x.scene where
  made c hc := Nat.lt_of_lt_of_le (h.made c hc) hx.size_le
  bare c hc e' i' he' hi' := by
    have hne : c ≠ id := fun heq => hid (heq ▸ hc)
    obtain ⟨parent, hold⟩ := hx.old_get? (h.made c hc) hne he'
    exact h.bare c hc _ i' hold hi'

end Queued

/-- In a copy that was just made all copies are queued. -/
theorem Copied.queued
    (h : s.Copied det.id component tmpl (rooted d st component tmpl s det inst).scene) :
    Queued ((List.range tmpl.nodes.length).map s.copyId)
      (rooted d st component tmpl s det inst).scene where
  made c hc := by
    obtain ⟨k, hk, rfl⟩ := List.mem_map.mp hc
    rw [h.size]
    exact Nat.add_lt_add_left (List.mem_range.mp hk) _
  bare c hc e i he hi := by
    obtain ⟨k, n, -, -, -, hmade⟩ := h.exists_node (le_index_of_mem_map_copyId hc) he
    have hinstance := congrArg Element.instance? hmade
    exact (copyElement_bare_instance _ k n.record (hinstance.symm.trans hi)).2

/-- After the turns of some, the rest is still queued. -/
theorem Filled.turn {w : Splicing} (h : Filled d s id roots (done ++ rest) w.scene) (hs : s.Forest)
    (hid : s.contains id) (hcopies : ∀ c ∈ done ++ rest, s.slots.size ≤ c.index)
    (hnodup : (done ++ rest).Nodup) (hnest : Expands d nest) (component : String)
    (hqueued : Queued (done ++ rest) w.scene) :
    let turned := (done.foldl (Scene.expandNested nest component) w).scene
    Filled d s id roots rest turned ∧ Queued rest turned := by
  induction done generalizing w with
  | nil => exact ⟨h, hqueued⟩
  | cons c done ih =>
    rw [List.cons_append, List.forall_mem_cons] at hcopies
    obtain ⟨hc, hnodup⟩ := List.nodup_cons.mp hnodup
    refine ih (h.expandNested hs hid hcopies.1 hnest component rfl) hcopies.2 hnodup ?_
    exact Filled.expandNested_keeps h hcopies.1 (P := Queued (done ++ rest))
      (fun ht hec hic hready hqueued => hqueued.expanded (hnest ht hec hic hready) hc) component
      hqueued.tail

/-- The scene in which the next copy has its turn, when those of `done` have
had theirs. -/
def atTurn (d : Document) (st : Settings) (nest : Scene → ElementId → Expansion)
    (component : ComponentId) (tmpl : Template) (s : Scene) (det : Detached) (inst : Element)
    (done : List ElementId) : Scene :=
  (done.foldl (expandNested nest det.component) (rooted d st component tmpl s det inst)).scene

/-- When the turn of a copy comes the scene is a forest, and if the copy is
an instance, it is ready and keeps nothing. -/
theorem Begun.turn (h : Begun s id e i bare inst) (hsound : tmpl.Sound) (hnest : Expands d nest)
    (st : Settings) (component : ComponentId)
    (hcopies : (List.range tmpl.nodes.length).map bare.copyId = done ++ c :: rest) :
    let t := atTurn d st nest component tmpl bare (taken id e i) inst done
    t.Forest ∧ ∀ ec ic, t.get? c = some ec → ec.instance? = some ic →
      Ready t c ec ic ∧ ic.decoration = .none := by
  have hcopied := h.copied d st component hsound
  have hfresh : ∀ y ∈ done ++ c :: rest, bare.slots.size ≤ y.index := fun y hy =>
    le_index_of_mem_map_copyId (hcopies ▸ hy)
  have hnodup : (done ++ c :: rest).Nodup :=
    hcopies ▸ List.nodup_range.map fun _ _ => copyId_inj.mp
  obtain ⟨hfilled, hqueued⟩ := Filled.turn (hcopies ▸ hcopied.filled (d := d)) h.parted.forest
    h.parted.contains_self hfresh hnodup hnest (taken id e i).component (hcopies ▸ hcopied.queued)
  have hc : bare.slots.size ≤ c.index := hfresh c (List.mem_append_right done List.mem_cons_self)
  exact ⟨hfilled.forest, fun ec ic hec hic =>
    ⟨hfilled.ready hc hec hic, hqueued.bare c List.mem_cons_self ec ic hec hic⟩⟩

end Scene

end SceneTree
