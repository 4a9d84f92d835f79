import SceneTree.Proofs.Expand.Turns

/-!
# What an element was made as

Source, header, text and role of an element are settled when it is made.
An expansion writes how far an instance got, but not which component it
stands for and with which arguments (`Role.pending`), and it writes no
text. So these four are the imprint of an element: whatever is expanded
later, an element that is still there has the imprint it was made with
(`Expanded.recalls`).

The role is that of the record the element comes from
(`Element.Original`), so the arguments of an instance are always those
that its own record was resolved to. And a copy has the imprints that the
nodes of its template get from the instance it was made for
(`Scene.Renders`): the text of a node is filled with the arguments of that
instance. Both are so for everything that is there, the copies within
copies too, and an expansion keeps it (`Authentic.expanded`).
-/

namespace SceneTree

/-- What is settled for good when an element is made. -/
structure Imprint where
  source : Source
  header : Header
  text : Option String
  role : Role

/-- An instance before anything was put in its place. -/
def Instance.pending (i : Instance) : Instance :=
  { i with expanded := false, usage := [], roots := [], decoration := .none }

namespace Role

def pending : Role → Role
  | .plain widget => .plain widget
  | .standIn i => .standIn i.pending

theorem pending_ofRecord (d : Document) (r : Record) : (ofRecord d r).pending = ofRecord d r := by
  unfold ofRecord
  split
  next => rfl
  next => rfl

/-- What an instance stands for is not lost. -/
theorem map_instance?_pending {α : Type} (role : Role) {f : Instance → α}
    (hf : ∀ i, f i.pending = f i) :
    role.pending.instance?.map f = role.instance?.map f := by
  cases role with
  | plain widget => rfl
  | standIn i => exact congrArg some (hf i)

end Role

namespace Element

variable {d : Document} {e e' : Element}

def imprint (e : Element) : Imprint :=
  { source := e.source, header := e.header, text := e.text, role := e.role.pending }

theorem imprint_of_alone (h : e'.alone = e.alone) : e'.imprint = e.imprint :=
  (congrArg imprint h :)

theorem imprint_of_core (h : e'.core = e.core) : e'.imprint = e.imprint :=
  (congrArg imprint h :)

theorem map_instance?_of_imprint {α : Type} {f : Instance → α} (h : e'.imprint = e.imprint)
    (hf : ∀ i, f i.pending = f i) :
    e'.instance?.map f = e.instance?.map f := by
  have hrole : e'.role.pending = e.role.pending := congrArg Imprint.role h
  rw [instance?, instance?, ← e'.role.map_instance?_pending hf, hrole,
    e.role.map_instance?_pending hf]

theorem definition?_of_imprint (h : e'.imprint = e.imprint) : e'.definition? = e.definition? := by
  have hjoin (e : Element) : e.definition? = (e.instance?.map (·.definition)).join := by
    rw [definition?]
    cases e.instance? <;> rfl
  rw [hjoin, hjoin, map_instance?_of_imprint h fun _ => rfl]

theorem arguments_of_imprint (h : e'.imprint = e.imprint) :
    e'.pattern.arguments = e.pattern.arguments :=
  congrArg (Option.getD · []) (map_instance?_of_imprint h fun _ => rfl)

/-- The role is the one that the record gives which the element comes
from. -/
def Original (d : Document) (e : Element) : Prop :=
  ∃ r, d.recordOf? e.source = some r ∧ e.role.pending = Role.ofRecord d r

theorem Original.of_imprint (h : e.Original d) (heq : e'.imprint = e.imprint) : e'.Original d := by
  obtain ⟨r, hr, hrole⟩ := h
  refine ⟨r, ?_, ?_⟩
  · rw [show e'.source = e.source from congrArg Imprint.source heq, hr]
  · rw [show e'.role.pending = e.role.pending from congrArg Imprint.role heq, hrole]

end Element

namespace Imprint

variable {d : Document} {st : Settings} {inst inst' : Element}

/-- What a node of a template is made as for an instance. -/
def ofNode (d : Document) (st : Settings) (inst : Element) (component : ComponentId) (node : Nat)
    (r : Record) : Imprint :=
  let header := Scene.copyHeader inst node r.header
  { source := .template component node
    header
    text := (Attributes.ofRecord d st header r).text.map
      (Scene.fillText d inst.pattern.arguments)
    role := .ofRecord d r }

theorem ofNode_congr (h : inst'.imprint = inst.imprint) (component : ComponentId) (node : Nat)
    (r : Record) : ofNode d st inst' component node r = ofNode d st inst component node r := by
  have hheader : inst'.header = inst.header := congrArg Imprint.header h
  simp only [ofNode, Scene.copyHeader, hheader, Element.arguments_of_imprint h]

end Imprint

namespace Scene

variable {d : Document} {st : Settings} {s t bare : Scene} {id p y : ElementId}
  {e e' inst giver giver' : Element} {i : Instance} {component : ComponentId} {c : Component}
  {tmpl : Template} {det : Detached} {x : Expansion} {base first : Nat}
  {nest : Scene → ElementId → Expansion}

theorem copyElement_imprint (id : ElementId) (node : Nat) (r : Record) {decoration : Decoration} :
    (copyElement d st inst component decoration id node r).imprint =
      .ofNode d st inst component node r := by
  have hrole := Role.pending_ofRecord d r
  unfold copyElement
  split
  next => exact congrArg (Imprint.mk _ _ _) hrole
  next => exact congrArg (Imprint.mk _ _ _) hrole

/-! ## What is not rewritten -/

/-- From an id on, what is left of a scene was made as it was. -/
structure Recalls (base : Nat) (s t : Scene) : Prop where
  size_le : s.slots.size ≤ t.slots.size
  same : ∀ y e', base ≤ y.index → y.index < s.slots.size → t.get? y = some e' →
    ∃ e, s.get? y = some e ∧ e'.imprint = e.imprint

/-- An expansion writes no imprint. -/
theorem Expanded.recalls (h : Expanded d s id e i x) (hi : e.instance? = some i) (base : Nat) :
    Recalls base s x.scene where
  size_le := h.size_le
  same y e' _ hy he' := by
    by_cases hne : y = id
    · subst hne
      obtain ⟨look, decoration, hself⟩ := h.self
      cases he'.symm.trans hself
      refine ⟨e, h.there, ?_⟩
      simp only [Element.imprint, Element.role_of_instance? hi]
      rfl
    · obtain ⟨parent, hold⟩ := h.old_get? hy hne he'
      exact ⟨_, hold, rfl⟩

/-! ## Copies -/

/-- The elements from `first` on, as far as they are there, were made of the
nodes of a template for the instance `giver`. -/
def Renders (d : Document) (st : Settings) (s : Scene) (giver : Element)
    (component : ComponentId) (tmpl : Template) (first : Nat) : Prop :=
  ∀ k n e, tmpl.nodes[k]? = some n → s.get? ⟨first + k⟩ = some e →
    e.imprint = .ofNode d st giver component k n.record

theorem Renders.recalls (h : Renders d st s giver component tmpl first) (hr : Recalls base s t)
    (hbase : base ≤ first) (hmade : first + tmpl.nodes.length ≤ s.slots.size)
    (hgiver : giver'.imprint = giver.imprint) : Renders d st t giver' component tmpl first := by
  intro k n e' hk he'
  have hlt : k < tmpl.nodes.length := (List.getElem?_eq_some_iff.mp hk).1
  obtain ⟨e, he, heq⟩ := hr.same ⟨first + k⟩ e' (Nat.le_trans hbase (Nat.le_add_right _ _))
    (Nat.lt_of_lt_of_le (Nat.add_lt_add_left hlt first) hmade) he'
  rw [heq, h k n e hk he, Imprint.ofNode_congr hgiver]

/-- The roots of an instance are those of a copy that was made for it. -/
structure HasCopy (d : Document) (st : Settings) (s : Scene) (p : ElementId) (e : Element)
    (component : ComponentId) (tmpl : Template) (first : Nat) : Prop where
  definition : e.definition? = some component
  template : ∃ c, d.component? component = some c ∧ Template.read c.template = .ok tmpl
  roots : e.oldRoots = tmpl.roots.map fun r => ⟨first + r⟩
  later : p.index < first
  made : first + tmpl.nodes.length ≤ s.slots.size
  renders : Renders d st s e component tmpl first

theorem HasCopy.recalls (h : HasCopy d st s p e component tmpl first) (hr : Recalls base s t)
    (hp : base ≤ p.index) (he : e'.imprint = e.imprint) (hroots : e'.oldRoots = e.oldRoots) :
    HasCopy d st t p e' component tmpl first where
  definition := (Element.definition?_of_imprint he).trans h.definition
  template := h.template
  roots := hroots.trans h.roots
  later := h.later
  made := Nat.le_trans h.made hr.size_le
  renders := h.renders.recalls hr (Nat.le_trans hp (Nat.le_of_lt h.later)) h.made he

/-- From an id on, every element has the role of its record, and what an
instance has for roots are those of a copy that was made for it. -/
structure Authentic (d : Document) (st : Settings) (base : Nat) (s : Scene) : Prop where
  original : ∀ y e, base ≤ y.index → s.get? y = some e → e.Original d
  copied : ∀ p e, base ≤ p.index → s.get? p = some e → e.oldRoots ≠ [] →
    ∃ component tmpl first, HasCopy d st s p e component tmpl first

/-- Where nothing is, nothing is made up. -/
theorem Authentic.of_size (h : s.slots.size ≤ base) : Authentic d st base s :=
  have hnone {y : ElementId} {e : Element} (hy : base ≤ y.index) : s.get? y ≠ some e := fun he =>
    Nat.not_lt.mpr (Nat.le_trans h hy) (index_lt_of_contains (contains_of_get? he))
  ⟨fun _ _ hy he => absurd he (hnone hy), fun _ _ hp he => absurd he (hnone hp)⟩

/-- It depends on the imprints and the roots. -/
theorem Authentic.congr (h : Authentic d st base s) (hsize : t.slots.size = s.slots.size)
    (hsame : ∀ y e', base ≤ y.index → t.get? y = some e' →
      ∃ e, s.get? y = some e ∧ e'.imprint = e.imprint ∧ e'.oldRoots = e.oldRoots) :
    Authentic d st base t := by
  have hr : Recalls base s t := ⟨Nat.le_of_eq hsize.symm, fun y e' hy _ he' => by
    obtain ⟨e, he, heq, -⟩ := hsame y e' hy he'
    exact ⟨e, he, heq⟩⟩
  refine ⟨fun y e' hy he' => ?_, fun p e' hp he' hroots => ?_⟩
  · obtain ⟨e, he, heq, -⟩ := hsame y e' hy he'
    exact (h.original y e hy he).of_imprint heq
  · obtain ⟨e, he, heq, hold⟩ := hsame p e' hp he'
    obtain ⟨component, tmpl, first, hcopy⟩ := h.copied p e hp he (hold ▸ hroots)
    exact ⟨component, tmpl, first, hcopy.recalls hr hp heq hold⟩

/-- After an expansion the instance has a copy that was made for it, or
none, and so has whatever is new. -/
structure Authors (d : Document) (st : Settings) (s : Scene) (id : ElementId) (x : Expansion) :
    Prop where
  self : ∀ e', x.scene.get? id = some e' → e'.oldRoots ≠ [] →
    ∃ component tmpl first, HasCopy d st x.scene id e' component tmpl first
  fresh : Authentic d st s.slots.size x.scene

/-- So an expansion leaves nothing that was made otherwise. -/
theorem Authentic.expanded (h : Authentic d st base s) (hx : Expanded d s id e i x)
    (hi : e.instance? = some i) (ha : Authors d st s id x) : Authentic d st base x.scene := by
  have hr := hx.recalls hi base
  refine ⟨fun y e' hy he' => ?_, fun p e' hp he' hroots => ?_⟩
  · by_cases hlt : y.index < s.slots.size
    · obtain ⟨e₀, he₀, heq⟩ := hr.same y e' hy hlt he'
      exact (h.original y e₀ hy he₀).of_imprint heq
    · exact ha.fresh.original y e' (Nat.not_lt.mp hlt) he'
  · by_cases hlt : p.index < s.slots.size
    · by_cases hne : p = id
      · subst hne
        exact ha.self e' he' hroots
      · obtain ⟨parent, hold⟩ := hx.old_get? hlt hne he'
        obtain ⟨component, tmpl, first, hcopy⟩ := h.copied p _ hp hold hroots
        exact ⟨component, tmpl, first, hcopy.recalls hr hp rfl rfl⟩
    · exact ha.fresh.copied p e' (Nat.not_lt.mp hlt) he' hroots

end Scene

end SceneTree
