import SceneTree.Proofs.Expand.Detach
import SceneTree.Proofs.Forest.Alike

/-!
# What an element wears

An element looks as its record says, with two exceptions. The first node
of a copy has the decoration of the instance laid over what its own record
gives it. And an instance does not show its decoration but keeps it, to
hand it down. Both can be told from a scene at any time, without looking
at how it came about: `Element.AsMade` speaks of an element that nothing
was handed to, `Element.LedBy` of one that leads the copy of an instance.

`Attired` says so of all elements from some id on, and that the instance
of which a first node leads the copy is there. Expanding another instance
does not part the two: only usage ever moves or outlives what is above it,
and no first node is usage. So an expansion keeps a scene attired
(`Attired.expanded`), if it does what it should for the instance and for
what is new (`Dresses`).
-/

namespace SceneTree

/-! ## Where an element comes from -/

/-- The record an element was made from. -/
def Document.recordOf? (d : Document) : Source → Option Record
  | .document index => d.records[index]?
  | .template component node =>
    (d.component? component).bind fun c =>
      (Template.read c.template).toOption.bind fun t => (t.nodes[node]?).map (·.record)

/-- Whether an element was made from the first node of a template. -/
def Source.isLead : Source → Bool
  | .template _ node => node == 0
  | .document _ => false

/-! ## Decorations -/

namespace Decoration

variable {a b c : Decoration}

/-- No look tells the two apart: what one of them sets the other sets to
the same. -/
def Same (a b : Decoration) : Prop := ∀ l, a.applyTo l = b.applyTo l

theorem Same.refl (a : Decoration) : a.Same a := fun _ => rfl

theorem Same.trans (h : a.Same b) (h' : b.Same c) : a.Same c := fun l => (h l).trans (h' l)

/-- Putting a decoration on and taking it off again loses only what does
not show. -/
theorem same_decoration_applyTo (a : Decoration) (l : Look) :
    (a.applyTo l.undecorated).decoration.Same a := fun m => by
  have hclear : Color.clear.isClear = true := rfl
  have hzero : Edges.zero.isZero = true := rfl
  cases hb : a.background.isClear <;> cases hz : a.border.isZero <;> cases hp : a.padding.isZero <;>
    cases hc : a.borderColor <;>
    simp [applyTo, Look.decoration, Look.undecorated, hb, hz, hp, hc, hclear, hzero]

end Decoration

/-! ## What is worn -/

namespace Element

variable {d : Document} {st : Settings} {e e' giver giver' : Element} {l l' : Look}

/-- A plain element looks like `l`, and an instance hands on the decoration
of `l`. -/
structure Wears (e : Element) (l : Look) : Prop where
  plain : ¬ e.isInstance → e.look = l
  handed : e.isInstance → e.ownDecoration.Same l.decoration

/-- What the record of an element makes of it, under its header. -/
def ownLook (d : Document) (st : Settings) (e : Element) (r : Record) : Look :=
  (Attributes.ofRecord d st e.header r).look

/-- The element is as its record alone makes it. -/
def AsMade (d : Document) (st : Settings) (e : Element) : Prop :=
  ∃ r, d.recordOf? e.source = some r ∧ e.header = r.header ∧ e.Wears (e.ownLook d st r)

/-- The component an instance stands for. -/
def definition? (e : Element) : Option ComponentId := e.instance?.bind (·.definition)

/-- The element was made from the first node of the component of an
instance, and is as its record makes it under the style and the decoration
that the instance hands down. -/
structure LedBy (d : Document) (st : Settings) (giver e : Element) : Prop where
  source : ∃ component, giver.definition? = some component ∧ e.source = .template component 0
  made : ∃ r, d.recordOf? e.source = some r ∧ e.header = Scene.copyHeader giver 0 r.header ∧
    e.Wears (giver.ownDecoration.applyTo (e.ownLook d st r))

/-- What the two wear cannot be told apart. -/
structure DressedAlike (e e' : Element) : Prop where
  source : e'.source = e.source
  header : e'.header = e.header
  isInstance : e'.isInstance = e.isInstance
  definition? : e'.definition? = e.definition?
  look : ¬ e.isInstance → e'.look = e.look
  decoration : e'.ownDecoration.Same e.ownDecoration

namespace DressedAlike

theorem of_eq (hsource : e'.source = e.source) (hheader : e'.header = e.header)
    (hrole : e'.role = e.role) (hlook : e'.look = e.look) : e.DressedAlike e' where
  source := hsource
  header := hheader
  isInstance := by rw [Element.isInstance, Element.isInstance, instance?, instance?, hrole]
  definition? := by rw [Element.definition?, Element.definition?, instance?, instance?, hrole]
  look _ := hlook
  decoration := by
    rw [ownDecoration, ownDecoration, instance?, instance?, hrole, hlook]
    exact .refl _

theorem refl (e : Element) : e.DressedAlike e := .of_eq rfl rfl rfl rfl

theorem of_alone (h : e'.alone = e.alone) : e.DressedAlike e' :=
  .of_eq (congrArg Element.source h :) (congrArg Element.header h :)
    (congrArg Element.role h :) (congrArg Element.look h :)

theorem of_core (h : e'.core = e.core) : e.DressedAlike e' :=
  .of_eq (congrArg Element.source h :) (congrArg Element.header h :)
    (congrArg Element.role h :) (congrArg Element.look h :)

end DressedAlike

/-- What was never expanded has no copy, and its usage are its children. -/
theorem kept_of_pending (h : ∀ i, e.instance? = some i → ¬ i.expanded) :
    e.oldRoots = [] ∧ e.usage = e.children := by
  rw [oldRoots, usage]
  cases hi : e.instance? with
  | none => exact ⟨rfl, rfl⟩
  | some i => exact ⟨if_neg (h i hi), if_neg (h i hi)⟩

theorem Wears.congr (h : e.Wears l) (hd : e.DressedAlike e') : e'.Wears l where
  plain hplain := by
    rw [hd.isInstance] at hplain
    rw [hd.look hplain, h.plain hplain]
  handed hinst := hd.decoration.trans (h.handed (hd.isInstance ▸ hinst))

theorem AsMade.congr (h : e.AsMade d st) (hd : e.DressedAlike e') : e'.AsMade d st := by
  obtain ⟨r, hr, hheader, hwears⟩ := h
  refine ⟨r, hd.source ▸ hr, hd.header.trans hheader, ?_⟩
  rw [ownLook, hd.header]
  exact hwears.congr hd

theorem LedBy.congr (h : LedBy d st giver e) (hg : giver.DressedAlike giver')
    (hd : e.DressedAlike e') : LedBy d st giver' e' := by
  obtain ⟨⟨component, hcomponent, hsource⟩, r, hr, hheader, hwears⟩ := h
  refine ⟨⟨component, hg.definition?.trans hcomponent, hd.source.trans hsource⟩, r,
    hd.source ▸ hr, ?_, ?_⟩
  · rw [hd.header, hheader, Scene.copyHeader, Scene.copyHeader, hg.header]
  · rw [ownLook, hd.header, hg.decoration]
    exact hwears.congr hd

end Element

/-! ## In a scene -/

namespace Scene

open Element (core)

variable {d : Document} {st : Settings} {s t u : Scene} {id c f g y : ElementId}
  {e e' eg : Element} {i : Instance} {x : Expansion} {base : Nat}

/-- What is at `f` leads the copy of the instance `giver`, as long as it is
there. -/
def LeadsFor (d : Document) (st : Settings) (s : Scene) (f : ElementId) (giver : Element) : Prop :=
  f.index < s.slots.size ∧ ∀ ef, s.get? f = some ef → Element.LedBy d st giver ef

/-- What is at `u` leads no copy, as long as it is there. -/
def Follows (s : Scene) (u : ElementId) : Prop :=
  u.index < s.slots.size ∧ ∀ eu, s.get? u = some eu → ¬ eu.source.isLead

/-- The copy that the instance `g` has begins with `y`. -/
def Heads (s : Scene) (g y : ElementId) : Prop :=
  s.parent? y = some g ∧ ∃ eg, s.get? g = some eg ∧ eg.oldRoots.head? = some y

/-- From the id `base` on, what is no first node of a copy is as its record
makes it, and what is one is as the instance hands down. The instance is
there, but for that of `lead`. -/
structure Attired (d : Document) (st : Settings) (base : Nat) (lead : Option ElementId)
    (s : Scene) : Prop where
  made : ∀ y e, base ≤ y.index → s.get? y = some e → ¬ e.source.isLead → e.AsMade d st
  led : ∀ g eg f, base ≤ g.index → s.get? g = some eg → eg.oldRoots.head? = some f →
    base ≤ f.index ∧ LeadsFor d st s f eg
  headed : ∀ y e, base ≤ y.index → s.get? y = some e → e.source.isLead →
    lead = some y ∨ ∃ g, base ≤ g.index ∧ s.Heads g y
  usage : ∀ p ep u, base ≤ p.index → s.get? p = some ep → ep.isInstance → u ∈ ep.usage →
    base ≤ u.index ∧ s.Follows u

/-- Where there is nothing, nothing is wrong. -/
theorem Attired.of_size {lead : Option ElementId} (h : s.slots.size ≤ base) :
    Attired d st base lead s := by
  have hnone {y : ElementId} {e : Element} (hy : base ≤ y.index) (he : s.get? y = some e) :
      False :=
    Nat.not_lt.mpr (Nat.le_trans h hy) (index_lt_of_contains (contains_of_get? he))
  exact ⟨fun y e hy he _ => (hnone hy he).elim, fun g eg f hg he _ => (hnone hg he).elim,
    fun y e hy he _ => (hnone hy he).elim, fun p ep u hp he _ _ => (hnone hp he).elim⟩

/-- What an expansion of the instance `id` of `s` does for it and for what
is new. -/
structure Dresses (d : Document) (st : Settings) (s : Scene) (id : ElementId) (e : Element)
    (x : Expansion) : Prop where
  self : ∀ e', x.scene.get? id = some e' → e'.ownDecoration.Same e.ownDecoration
  fresh : Attired d st s.slots.size x.roots.head? x.scene
  lead : ∀ f, x.roots.head? = some f → s.slots.size ≤ f.index ∧ LeadsFor d st x.scene f e

namespace Dresses

/-- What was there before wears what it wore, and but for the instance
itself keeps its copy and its usage. -/
theorem exists_old (h : Dresses d st s id e x) (hx : Expanded d s id e i x)
    (hi : e.instance? = some i) (hy : y.index < s.slots.size) (he' : x.scene.get? y = some e') :
    ∃ e₀, s.get? y = some e₀ ∧ e₀.DressedAlike e' ∧
      (y ≠ id → e'.oldRoots = e₀.oldRoots ∧ e'.usage = e₀.usage) := by
  by_cases hne : y = id
  · subst hne
    obtain ⟨look, decoration, hself⟩ := hx.self
    cases he'.symm.trans hself
    have hinst : e.isInstance = true := by rw [Element.isInstance, hi, Option.isSome_some]
    have hdefinition : i.definition = e.definition? := by
      rw [Element.definition?, hi, Option.bind_some]
    exact ⟨e, hx.there, ⟨rfl, rfl, hinst.symm, hdefinition, fun hplain => absurd hinst hplain,
      h.self _ hself⟩, fun hne => absurd rfl hne⟩
  · obtain ⟨parent, hold⟩ := hx.old_get? hy hne he'
    exact ⟨_, hold, .of_eq rfl rfl rfl rfl, fun _ => ⟨rfl, rfl⟩⟩

/-- After its expansion the instance has the roots of the new copy, and
what of its usage was rescued. -/
theorem kept_self (hx : Expanded d s id e i x) (he' : x.scene.get? id = some e') :
    e'.oldRoots = x.roots ∧ e'.usage = x.rescued s e := by
  obtain ⟨look, decoration, hself⟩ := hx.self
  cases he'.symm.trans hself
  exact ⟨rfl, rfl⟩

end Dresses

/-- What leads a copy goes on leading it. -/
theorem LeadsFor.expanded (h : LeadsFor d st s f eg) (hx : Expanded d s id e i x)
    (hi : e.instance? = some i) (hd : Dresses d st s id e x) (hg : eg.DressedAlike e') :
    LeadsFor d st x.scene f e' := by
  refine ⟨Nat.lt_of_lt_of_le h.1 hx.size_le, fun ef hef => ?_⟩
  obtain ⟨e₀, he₀, halike, -⟩ := hd.exists_old hx hi h.1 hef
  exact (h.2 e₀ he₀).congr hg halike

theorem Follows.expanded (h : s.Follows y) (hx : Expanded d s id e i x)
    (hi : e.instance? = some i) (hd : Dresses d st s id e x) : x.scene.Follows y := by
  refine ⟨Nat.lt_of_lt_of_le h.1 hx.size_le, fun ey hey => ?_⟩
  obtain ⟨e₀, he₀, halike, -⟩ := hd.exists_old hx hi h.1 hey
  rw [halike.source]
  exact h.2 e₀ he₀

/-- The new copy begins with the first of its roots. -/
theorem Dresses.heads (hx : Expanded d s id e i x) (hf : x.roots.head? = some f) :
    x.scene.Heads id f := by
  obtain ⟨look, decoration, hself⟩ := hx.self
  refine ⟨hx.forest.mirror.mp ?_, _, hself, ?_⟩
  · rw [children_of_get? hself]
    exact List.mem_of_mem_head? hf
  · rw [(Dresses.kept_self hx hself).1]
    exact hf

/-- A first node that outlives the expansion, and is no usage of the
instance, goes on to head the copy it headed. The instance is not the one
that has this copy, for nothing of its old copy is left. -/
theorem Heads.expanded (h : s.Heads c y) (hx : Expanded d s id e i x) (hi : e.instance? = some i)
    (hd : Dresses d st s id e x) (hy : y ∉ e.usage) (hlive : x.scene.contains y) :
    x.scene.Heads c y := by
  obtain ⟨hp, ec, hec, hroots⟩ := h
  have hlt := index_lt_of_contains (contains_of_parent? hp)
  have hrescued : y ∉ x.rescued s e := fun hm => hy (Expanded.mem_rescued hm).1
  have hp' := (hx.old_parent? hlt hrescued hlive).trans hp
  have hne : c ≠ id := by
    rintro rfl
    obtain ⟨u, hu, huy⟩ := ((hx.outlives_iff y hlt).mp hlive).2 (.single hp)
    rcases atOrAbove_iff.mp huy with rfl | huy
    · exact hrescued hu
    · have huc := (above_iff_of_parent? hp).mp huy
      exact hx.before.acyclic u ((hx.rescued_below hu).trans_left huc)
  obtain ⟨ec', hec'⟩ := contains_iff.mp (hx.forest.contains_parent hp')
  obtain ⟨e₀, he₀, -, hkept⟩ :=
    hd.exists_old hx hi (index_lt_of_contains (contains_of_get? hec)) hec'
  cases hec.symm.trans he₀
  exact ⟨hp', ec', hec', by rw [(hkept hne).1]; exact hroots⟩

/-- An expansion keeps everything attired. -/
theorem Attired.expanded {lead : Option ElementId} (h : Attired d st base lead s)
    (hx : Expanded d s id e i x) (hi : e.instance? = some i) (hd : Dresses d st s id e x)
    (hid : base ≤ id.index) : Attired d st base lead x.scene := by
  have hinst : e.isInstance = true := by rw [Element.isInstance, hi, Option.isSome_some]
  have hbase : base ≤ s.slots.size :=
    Nat.le_of_lt (Nat.lt_of_le_of_lt hid (index_lt_of_contains hx.contains_id))
  refine ⟨fun y ey hy hey hlead => ?_, fun g eg f hg heg hf => ?_, fun y ey hy hey hlead => ?_,
    fun p ep u hp hep hpinst hu => ?_⟩
  · by_cases hlt : y.index < s.slots.size
    · obtain ⟨e₀, he₀, halike, -⟩ := hd.exists_old hx hi hlt hey
      exact (h.made y e₀ hy he₀ (halike.source ▸ hlead)).congr halike
    · exact hd.fresh.made y ey (Nat.not_lt.mp hlt) hey hlead
  · by_cases hlt : g.index < s.slots.size
    · obtain ⟨e₀, he₀, halike, hkept⟩ := hd.exists_old hx hi hlt heg
      by_cases hne : g = id
      · -- it has another copy now, and what is new leads it
        subst hne
        cases hx.there.symm.trans he₀
        rw [(Dresses.kept_self hx heg).1] at hf
        obtain ⟨hle, hmade, hled⟩ := hd.lead f hf
        exact ⟨Nat.le_trans hbase hle, hmade, fun ef hef => (hled ef hef).congr halike (.refl ef)⟩
      · obtain ⟨hle, hled⟩ := h.led g e₀ f hg he₀ ((hkept hne).1 ▸ hf)
        exact ⟨hle, hled.expanded hx hi hd halike⟩
    · obtain ⟨hle, hled⟩ := hd.fresh.led g eg f (Nat.not_lt.mp hlt) heg hf
      exact ⟨Nat.le_trans hbase hle, hled⟩
  · by_cases hlt : y.index < s.slots.size
    · obtain ⟨e₀, he₀, halike, -⟩ := hd.exists_old hx hi hlt hey
      have hlead₀ : e₀.source.isLead := halike.source ▸ hlead
      refine (h.headed y e₀ hy he₀ hlead₀).imp_right fun ⟨g, hg, hheads⟩ => ⟨g, hg, ?_⟩
      refine hheads.expanded hx hi hd (fun hm => ?_) (contains_of_get? hey)
      exact (h.usage id e y hid hx.there hinst hm).2.2 e₀ he₀ hlead₀
    · right
      rcases hd.fresh.headed y ey (Nat.not_lt.mp hlt) hey hlead with hf | ⟨g, hg, hheads⟩
      · exact ⟨id, hid, Dresses.heads hx hf⟩
      · exact ⟨g, Nat.le_trans hbase hg, hheads⟩
  · by_cases hlt : p.index < s.slots.size
    · obtain ⟨e₀, he₀, halike, hkept⟩ := hd.exists_old hx hi hlt hep
      obtain ⟨hle, hfollows⟩ : base ≤ u.index ∧ s.Follows u := by
        by_cases hne : p = id
        · subst hne
          rw [(Dresses.kept_self hx hep).2] at hu
          exact h.usage p e u hp hx.there hinst (Expanded.mem_rescued hu).1
        · exact h.usage p e₀ u hp he₀ (halike.isInstance ▸ hpinst) ((hkept hne).2 ▸ hu)
      exact ⟨hle, hfollows.expanded hx hi hd⟩
    · obtain ⟨hle, hfollows⟩ := hd.fresh.usage p ep u (Nat.not_lt.mp hlt) hep hpinst hu
      exact ⟨Nat.le_trans hbase hle, hfollows⟩

/-- What textures, text styles and geometry are does not matter. -/
theorem Attired.alike {lead : Option ElementId} (h : Attired d st base lead s)
    (ha : Alike core s t) : Attired d st base lead t := by
  refine ⟨fun y e' hy he' hlead => ?_, fun g eg f hg heg hf => ?_, fun y e' hy he' hlead => ?_,
    fun p ep u hp hep hinst hu => ?_⟩
  · obtain ⟨e, he, hcore⟩ := ha.exists_get? he'
    have halike : e.DressedAlike e' := .of_core hcore.symm
    exact (h.made y e hy he (halike.source ▸ hlead)).congr halike
  · obtain ⟨e₀, he₀, hcore⟩ := ha.exists_get? heg
    have hroots : e₀.oldRoots = eg.oldRoots := (congrArg Element.oldRoots hcore :)
    obtain ⟨hle, hlt, hled⟩ := h.led g e₀ f hg he₀ (hroots ▸ hf)
    refine ⟨hle, ha.size ▸ hlt, fun ef hef => ?_⟩
    obtain ⟨e₁, he₁, hcore₁⟩ := ha.exists_get? hef
    exact (hled e₁ he₁).congr (.of_core hcore.symm) (.of_core hcore₁.symm)
  · obtain ⟨e, he, hcore⟩ := ha.exists_get? he'
    have halike : e.DressedAlike e' := .of_core hcore.symm
    refine (h.headed y e hy he (halike.source ▸ hlead)).imp_right fun ⟨g, hg, hp, eg, heg, hf⟩ =>
      ⟨g, hg, (ha.sameShape.parent? y).trans hp, ?_⟩
    obtain ⟨eg', heg'⟩ := contains_iff.mp ((ha.contains g).trans (contains_of_get? heg))
    obtain ⟨e₁, he₁, hcore₁⟩ := ha.exists_get? heg'
    cases heg.symm.trans he₁
    have hroots : eg.oldRoots = eg'.oldRoots := (congrArg Element.oldRoots hcore₁ :)
    exact ⟨eg', heg', hroots ▸ hf⟩
  · obtain ⟨e₀, he₀, hcore⟩ := ha.exists_get? hep
    have husage : e₀.usage = ep.usage := (congrArg Element.usage hcore :)
    have hinst₀ : e₀.isInstance = ep.isInstance := (congrArg Element.isInstance hcore :)
    obtain ⟨hle, hlt, hfollows⟩ := h.usage p e₀ u hp he₀ (hinst₀ ▸ hinst) (husage ▸ hu)
    refine ⟨hle, ha.size ▸ hlt, fun eu heu => ?_⟩
    obtain ⟨e₁, he₁, hcore₁⟩ := ha.exists_get? heu
    have hsource : e₁.source = eu.source := (congrArg Element.source hcore₁ :)
    exact hsource ▸ hfollows e₁ he₁

end Scene

end SceneTree
