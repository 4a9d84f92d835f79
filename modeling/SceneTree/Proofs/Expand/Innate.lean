import SceneTree.Proofs.Expand.Dress

/-!
# What an element has by itself

Some properties of an element are about its role and its look alone, and
wherever it hangs does not matter. If an element has one of them whenever
it keeps no decoration, and an instance that got a copy has it too, then
an expansion gives it to the instance and to all that is new
(`Scene.leaving_expandWithin`): a copy keeps nothing when it is made, linking and
placing write no more than edges, and what becomes of the instance itself
is known. The proof goes by `expandWithin_induction`.

Two properties are of this kind. An instance gives its decoration away:
while it keeps one to hand it down it shows none, so what it shows is
never laid over what it keeps (`Element.Doffed`). And it keeps one only
if it has got a copy, so its component is defined and has a template that
can be read (`Element.Merited`).
-/

namespace SceneTree

variable {d : Document} {st : Settings}

/-- A property that an expansion gives to the instance and to its copy. -/
structure Innate (d : Document) (Q : Element → Prop) : Prop where
  congr : ∀ {e e' : Element}, Q e → e'.role = e.role → e'.look = e.look → Q e'
  /-- What keeps no decoration has it. -/
  bare : ∀ {e : Element}, (∀ i, e.instance? = some i → i.decoration = .none) → Q e
  /-- So has an instance that got a copy and shows no decoration. -/
  copied : ∀ {e : Element} {i : Instance}, e.instance? = some i → (i.template? d).isSome →
    e.look.decoration = .none → Q e

namespace Element

variable {e e' : Element}

/-- An instance that keeps a decoration shows none. -/
def Doffed (e : Element) : Prop :=
  ∀ i, e.instance? = some i → i.decoration = .none ∨ e.look.decoration = .none

theorem innate_doffed (d : Document) : Innate d Doffed where
  congr h hrole hlook i hi := by
    rw [hlook]
    exact h i (by rwa [instance?, ← hrole])
  bare h i hi := .inl (h i hi)
  copied _ _ hlook _ _ := .inr hlook

/-- What an instance shows is all or nothing of what it has. -/
theorem Doffed.decoration_eq (h : e.Doffed) (hinst : e.isInstance) :
    e.look.decoration = .none ∨ e.look.decoration = e.ownDecoration := by
  obtain ⟨i, hi⟩ := Option.isSome_iff_exists.mp hinst
  rcases h i hi with hnone | hbare
  · right
    rw [ownDecoration, hi]
    exact (if_pos hnone).symm
  · exact .inl hbare

/-- An instance that keeps a decoration has a template. -/
def Merited (d : Document) (e : Element) : Prop :=
  ∀ i, e.instance? = some i → i.decoration = .none ∨ (i.template? d).isSome

theorem innate_merited (d : Document) : Innate d (Merited d) where
  congr h hrole _ i hi := h i (by rwa [instance?, ← hrole])
  bare h i hi := .inl (h i hi)
  copied hi htemplate _ i' hi' := by
    cases hi.symm.trans hi'
    exact .inr htemplate

end Element

namespace Innate

variable {Q : Element → Prop} {e e' : Element}

theorem alone (hQ : Innate d Q) (h : Q e) (halone : e'.alone = e.alone) : Q e' :=
  hQ.congr h (congrArg Element.role halone :) (congrArg Element.look halone :)

theorem core (hQ : Innate d Q) (h : Q e) (hcore : e'.core = e.core) : Q e' :=
  hQ.congr h (congrArg Element.role hcore :) (congrArg Element.look hcore :)

end Innate

namespace Scene

variable {s bare t : Scene} {id y : ElementId} {e inst : Element} {i : Instance} {x : Expansion}
  {component : ComponentId} {tmpl : Template} {cause : ExpandFault} {Q : Element → Prop}
  {nest : Scene → ElementId → Expansion}

/-- After an expansion the instance has the property, and so has whatever
is new. -/
structure Leaves (Q : Element → Prop) (s : Scene) (id : ElementId) (x : Expansion) : Prop where
  self : ∀ e', x.scene.get? id = some e' → Q e'
  fresh : ∀ y e', s.slots.size ≤ y.index → x.scene.get? y = some e' → Q e'

/-- `expand` leaves every instance that is ready with the property. -/
def Leaving (Q : Element → Prop) (expand : Scene → ElementId → Expansion) : Prop :=
  ∀ {s id e i}, s.Forest → s.get? id = some e → e.instance? = some i → Ready s id e i →
    Leaves Q s id (expand s id)

/-- From an id on, all that had the property keeps it. -/
theorem Leaves.expanded (hQ : Innate d Q) (base : Nat) (h : Leaves Q t id x)
    (hold : ∀ y e, base ≤ y.index → t.get? y = some e → Q e) (hx : Expanded d t id e i x) :
    ∀ y e', base ≤ y.index → x.scene.get? y = some e' → Q e' := by
  intro y e' hy he'
  by_cases hlt : y.index < t.slots.size
  · by_cases hne : y = id
    · subst hne
      exact h.self e' he'
    · obtain ⟨parent, hget⟩ := hx.old_get? hlt hne he'
      exact hQ.congr (hold y _ hy hget) rfl rfl
  · exact h.fresh y e' (Nat.not_lt.mp hlt) he'

/-- In a filled copy everything has the property. -/
theorem innate_fill (hQ : Innate d Q) (st : Settings) (component : ComponentId) {det : Detached}
    (hs : s.Forest) (hinst : s.get? det.id = some inst) (hbare : inst.children = [])
    (hsound : tmpl.Sound) (hnest : Expands d nest) (hleave : Leaving Q nest) :
    ∀ y e', s.slots.size ≤ y.index →
      (fill d st nest component tmpl s det inst).scene.get? y = some e' → Q e' := by
  have hcopied := copied_rooted d st component hs hsound hinst hbare
  refine (hcopied.filled (d := d)).foldl_keeps
    (P := fun t => ∀ y e', s.slots.size ≤ y.index → t.get? y = some e' → Q e') hs
    (contains_of_get? hinst) (fun _ => le_index_of_mem_map_copyId) hnest
    (fun {t c ec ic} _ ht hec hic hready hold => ?_) det.component fun y e' hy he' => ?_
  · exact (hleave ht hec hic hready).expanded hQ _ hold (hnest ht hec hic hready)
  · obtain ⟨k, n, -, -, -, hmade⟩ := hcopied.exists_node hy he'
    exact hQ.alone (hQ.bare fun i hi => (copyElement_bare_instance _ k n.record hi).2) hmade

namespace Begun

variable {put : Scene → Detached → Expansion} {roots : List ElementId} {e' e₁ : Element}

/-- An instance that is refused keeps nothing. -/
theorem leaves_of_refusal (h : Begun s id e i bare inst) (hQ : Innate d Q)
    (hput : put bare (taken id e i) = { scene := bare, notices := [], outcome := .error cause }) :
    Leaves Q s id (expandWith put s id) := by
  have hsize := h.size_of_refusal hput
  refine ⟨fun e' he' => hQ.bare fun i' hi' => ?_, fun y e' hy he' => ?_⟩
  · cases he'.symm.trans (h.self_of_refusal hput)
    cases hi'
    rfl
  · exact absurd (hsize ▸ index_lt_of_contains (contains_of_get? he')) (Nat.not_lt.mpr hy)

/-- An instance that gets a copy shows nothing. -/
theorem innate_of_ok (h : Begun s id e i bare inst) (hQ : Innate d Q)
    (htemplate : i.template? d = some tmpl) (hout : (put bare (taken id e i)).outcome = .ok roots)
    (he₁ : (put bare (taken id e i)).scene.get? id = some e₁)
    (hlook : e₁.look = e.look.undecorated) (hi₁ : e₁.instance? = some i)
    (he' : (expandWith put s id).scene.get? id = some e') : Q e' := by
  rw [expandWith_of_ok h.detach? hout] at he'
  cases he'.symm.trans (get?_settleInstance he₁ hi₁ _ roots _)
  refine hQ.copied rfl ?_ ?_
  · exact Option.isSome_iff_exists.mpr ⟨tmpl, htemplate⟩
  · dsimp only
    rw [hlook, Look.decoration_undecorated]

/-- Without a node there is nothing new. -/
theorem leaves_of_nil (h : Begun s id e i bare inst) (hQ : Innate d Q) (hsound : tmpl.Sound)
    (htemplate : i.template? d = some tmpl) (hnodes : tmpl.nodes = []) :
    Leaves Q s id (expandWith (splice d st nest component tmpl) s id) := by
  obtain ⟨hscene, hout⟩ : (splice d st nest component tmpl bare (taken id e i)).scene =
      e.usage.foldl remove bare ∧ (splice d st nest component tmpl bare (taken id e i)).outcome =
        .ok [] := splice_of_nil hsound hnodes h.self
  have hsize := h.size_of_nodeless d st nest component hsound hnodes
  refine ⟨fun e' he' => ?_, fun y e' hy he' => ?_⟩
  · have hdropped := h.get?_drop
    rw [← hscene] at hdropped
    exact h.innate_of_ok hQ htemplate hout hdropped h.look h.instance? he'
  · exact absurd (hsize ▸ index_lt_of_contains (contains_of_get? he')) (Nat.not_lt.mpr hy)

theorem leaves_of_copy (h : Begun s id e i bare inst) (hQ : Innate d Q) (hsound : tmpl.Sound)
    (htemplate : i.template? d = some tmpl) (hnodes : tmpl.nodes ≠ []) (hnest : Expands d nest)
    (hleave : Leaving Q nest) (component : ComponentId) :
    Leaves Q s id (expandWith (splice d st nest component tmpl) s id) := by
  obtain ⟨hout, -, target, -, hplaced⟩ := placed_splice st h.before h.there h.ready h.parted hnest
    hsound hnodes component (show (taken id e i).id = id from rfl) rfl h.self
  have hbare : inst.children = [] := congrArg Element.children h.inst_eq
  have hfilled := innate_fill hQ st component h.parted.forest
    (show bare.get? (taken id e i).id = some inst from h.self) hbare hsound hnest hleave
  refine ⟨fun e' he' => ?_, fun y e' hy he' => ?_⟩
  · obtain ⟨look, hself⟩ := hplaced.self
    have hlook := (hplaced.look h.self hself).trans h.look
    exact h.innate_of_ok hQ htemplate hout hself hlook h.instance? he'
  · rw [expandWith_of_ok h.detach? hout, hplaced.get?_settled hy] at he'
    obtain ⟨e₀, he₀, rfl⟩ := Option.map_eq_some_iff.mp he'
    exact hQ.congr (hfilled y e₀ (h.parted.size ▸ hy) he₀) rfl rfl

end Begun

/-- Whatever the components are, and however many levels are left, an
expansion leaves the instance and its copy with the property. -/
theorem leaving_expandWithin (hQ : Innate d Q) (st : Settings) (levels : Nat)
    (enclosing : List ComponentId) : Leaving Q (expandWithin d st levels enclosing) := by
  refine expandWithin_induction (P := fun s id _ x => Leaves Q s id x)
    (fun h hput => h.leaves_of_refusal hQ hput)
    (fun {_ _ _ _ _ _ nest component c tmpl} h hasked hcomponent hread hnest hleave => ?_)
    levels enclosing
  have hsound := Template.read_sound hread
  have htemplate := h.template?_eq hasked hcomponent hread
  by_cases hnodes : tmpl.nodes = []
  · exact h.leaves_of_nil hQ hsound htemplate hnodes
  · exact h.leaves_of_copy hQ hsound htemplate hnodes hnest hleave component

end Scene

end SceneTree
