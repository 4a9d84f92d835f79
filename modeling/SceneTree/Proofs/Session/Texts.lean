import SceneTree.Proofs.Expand.Authentic
import SceneTree.Proofs.Resolve.Arguments
import SceneTree.Proofs.Session.Calls
import SceneTree.Proofs.Session.Inert

/-!
# Texts that name an argument

A text of a template that is a dollar sign and a name asks for an
argument. When a copy is made its instance fills in the argument of that
name, if it has one, and every other text stays as it was resolved
(`Instance.Fills`).

What an instance has for arguments was settled when its record was
resolved, and nothing rewrites it: not what it is a part of, and not its
own expansions. So a copy always reads what the record of its own instance
says, and an instance inside a copy does not pass on what the copy was
given (`Scene.CopyReads`). This is so at the end of every expansion, and
in a session at any time (`Session.arguments_fill_texts`).
-/

namespace SceneTree

variable {d : Document} {st : Settings}

/-- Of the text `own` the instance makes `text`: the argument that it asks
for, or else the same. -/
def Instance.Fills (d : Document) (i : Instance) (own text : Option String) : Prop :=
  (∀ name v, own = some ("$" ++ name) → i.argument? name = some v → text = some (d.textOf v)) ∧
  ((∀ name v, own = some ("$" ++ name) → i.argument? name ≠ some v) → text = own)

namespace Scene

variable {s t : Scene} {id y : ElementId} {e inst : Element} {i : Instance} {name text : String}
  {v : Value} {arguments : List (String × Value)} {todo : List ElementId}
  {component : ComponentId} {tmpl : Template} {first base : Nat}

/-! ## One text -/

theorem fillText_of_argument (h : arguments.lookup name = some v) :
    fillText d arguments ("$" ++ name) = d.textOf v := by
  have hlist : ("$" ++ name).toList = '$' :: name.toList := by
    simp [String.toList_append]
  simp only [fillText, hlist, String.ofList_toList, h, Option.map_some, Option.getD_some]

theorem fillText_eq_self (h : ∀ name v, text = "$" ++ name → arguments.lookup name ≠ some v) :
    fillText d arguments text = text := by
  rw [fillText]
  split
  next name hlist =>
    have htext : text = "$" ++ String.ofList name := by
      apply String.toList_injective
      simp [String.toList_append, hlist]
    have hnone : arguments.lookup (String.ofList name) = none :=
      Option.eq_none_iff_forall_ne_some.mpr fun v => h _ v htext
    rw [hnone]
    rfl
  next => rfl

theorem fills_map_fillText (d : Document) (i : Instance) (own : Option String) :
    i.Fills d own (own.map (fillText d i.arguments)) := by
  refine ⟨fun name v hown hv => ?_, fun hstays => ?_⟩
  · rw [hown, Option.map_some]
    exact congrArg some (fillText_of_argument hv)
  · cases own with
    | none => rfl
    | some text =>
      exact congrArg some (fillText_eq_self fun name v htext => hstays name v (congrArg some htext))

/-! ## One copy -/

/-- In `t` stands a copy for the instance `i` of the element `e`, as far as
it is still there, and the copy of a node is `copyOf` it. The arguments
are those of the record of `e`, and they fill the text that the record of
the node was resolved to. -/
def CopyReads (d : Document) (st : Settings) (t : Scene) (e : Element) (i : Instance)
    (roots : List ElementId) (copyOf : Nat → ElementId) : Prop :=
  ∃ r component c tmpl, d.recordOf? e.source = some r ∧ i.definition = some component ∧
    d.component? component = some c ∧ Template.read c.template = .ok tmpl ∧
    i.arguments = Role.argumentsOf d r (some c) ∧ roots = tmpl.roots.map copyOf ∧
    ∀ k n y, tmpl.nodes[k]? = some n → t.get? (copyOf k) = some y →
      let header := copyHeader e k n.record.header
      y.source = .template component k ∧ y.header = header ∧
        i.Fills d (Attributes.ofRecord d st header n.record).text y.text

/-- An instance that was made of its record has the arguments of it. -/
theorem arguments_of_original (h : e.Original d) (hi : e.instance? = some i) :
    ∃ r, d.recordOf? e.source = some r ∧
      i.arguments = Role.argumentsOf d r (i.definition.bind d.component?) := by
  obtain ⟨r, hr, hrole⟩ := h
  refine ⟨r, hr, ?_⟩
  rw [Element.role_of_instance? hi] at hrole
  unfold Role.ofRecord at hrole
  split at hrole
  next => cases hrole
  next =>
    have hpending := Role.standIn.inj hrole
    have hdefinition : i.definition = _ := (congrArg Instance.definition hpending :)
    rw [hdefinition]
    exact (congrArg Instance.arguments hpending :)

theorem Renders.copyReads (h : Renders d st t e component tmpl first) (ho : e.Original d)
    (hi : e.instance? = some i) {c : Component} (hdefinition : i.definition = some component)
    (hcomponent : d.component? component = some c)
    (hread : Template.read c.template = .ok tmpl) :
    CopyReads d st t e i (tmpl.roots.map fun k => ⟨first + k⟩) fun k => ⟨first + k⟩ := by
  obtain ⟨r, hr, harguments⟩ := arguments_of_original ho hi
  rw [hdefinition, Option.bind_some, hcomponent] at harguments
  refine ⟨r, component, c, tmpl, hr, hdefinition, hcomponent, hread, harguments, rfl,
    fun k n y hk hy => ?_⟩
  have himprint := h k n y hk hy
  refine ⟨congrArg Imprint.source himprint, congrArg Imprint.header himprint, ?_⟩
  have hgiven : e.pattern.arguments = i.arguments := by
    rw [Element.pattern, hi]
    rfl
  have htext := congrArg Imprint.text himprint
  rw [show y.text = _ from htext, Imprint.ofNode, hgiven]
  exact fills_map_fillText d i _

/-! ## In a session -/

theorem authentic_linkedScene (d : Document) (st : Settings) :
    Authentic d st 0 (Session.linkedScene d st).1 := by
  refine ⟨fun y e _ he => ?_, fun p e _ he hroots => ?_⟩
  · obtain ⟨r, hr, halone⟩ := of_linkedScene he
    have himprint := Element.imprint_of_alone halone
    refine ⟨r, ?_, ?_⟩
    · rw [show e.source = .document y.index from congrArg Imprint.source himprint]
      exact hr
    · exact (congrArg Imprint.role himprint).trans (Role.pending_ofRecord d r)
  · exact absurd (Element.kept_of_pending (unexpanded_of_linkedScene he).pending).1 hroots

/-- Expanding an instance, or trying to expand anything else. -/
theorem Authentic.expand (h : Authentic d st 0 s) (ht : Tidy d s todo) :
    Authentic d st 0 (s.expand d st id).scene := by
  by_cases hinst : ∃ e i, s.get? id = some e ∧ e.instance? = some i
  · obtain ⟨e, i, he, hi⟩ := hinst
    have hr := ht.ready he hi
    have hx : Expanded d s id e i (s.expand d st id) := expands_expand d st ht.forest he hi hr
    exact h.expanded hx hi (authoring_expandWithin d st maxDepth [] ht.forest he hi hr)
  · rwa [scene_expand_of_not_instance hinst]

theorem Authentic.alike (h : Authentic d st base s) (ha : Alike Element.core s t) :
    Authentic d st base t :=
  h.congr ha.size fun y e' _ he' => by
    obtain ⟨e, he, hcore⟩ := ha.exists_get? he'
    exact ⟨e, he, Element.imprint_of_core hcore.symm, (congrArg Element.oldRoots hcore.symm :)⟩

end Scene

/-- A card that holds a label. The label asks for its caption, and is given
two by names that read the same; the card is given another one. -/
def Document.relabelled : Document :=
  { Document.blank with
    strings := ["", componentKey, "Label", "caption", "caption", "$caption", "outer", "first",
      "second", "Card", "none"]
    records :=
      [{ Record.ofHeader (.ofWidget .app) with childRefs := [18] },
        { Record.blank with customs := [⟨1, .string 9⟩, ⟨3, .string 6⟩] }]
    offsets := [0, 18]
    components :=
      [{ name := "Label", parameters := [⟨"caption", .string 10⟩]
         template := (Record.label 5).toBytes },
        { name := "Card", parameters := []
          template := ({ Record.blank with
            customs := [⟨1, .string 2⟩, ⟨3, .string 7⟩, ⟨4, .string 8⟩] } : Record).toBytes }] }

namespace Session

open Scene (Authentic CopyReads expandWithin)

variable {s : Session} {p : ElementId} {e : Element} {i : Instance}

/-- At any time everything is made of its record, and the copies are made
for their instances. -/
theorem Reachable.authentic (h : Reachable d s) : Authentic d s.settings 0 s.scene :=
  h.keeps_core (fun st => Scene.authentic_linkedScene d st)
    (fun ht _ _ hauthentic => Authentic.expand hauthentic ht)
    fun ha hauthentic => Authentic.alike hauthentic ha

/-- So is the instance that an expansion is called for. -/
theorem Called.original {levels : Nat} {enclosing : List ComponentId} {s : Scene} {y : ElementId}
    (h : Called d st levels enclosing s y) (he : s.get? y = some e) : e.Original d := by
  cases h with
  | load turns =>
    obtain ⟨-, hauthentic⟩ := (Scene.tidy_linkedScene d (Settings.ofDocument d)).turns_keep
      (P := Authentic d (Settings.ofDocument d) 0) ⟨_, [], 0⟩
      (fun ht hauthentic => Authentic.expand hauthentic ht)
      (Scene.authentic_linkedScene d (Settings.ofDocument d)) turns
    exact hauthentic.original y e (Nat.zero_le _) he
  | reexpand h => exact h.authentic.original y e (Nat.zero_le _) he
  | @nested _ levels enclosing s bare id _ det component c tmpl inst done rest h hdet hfind hread
      hinst hcopies =>
    obtain ⟨eh, ih, heh, hih, -, rfl⟩ := Scene.eq_of_detach? hdet
    obtain ⟨bare', inst', hbegun, -⟩ := h.begun heh hih
    cases hdet.symm.trans hbegun.detach?
    cases hinst.symm.trans hbegun.self
    obtain ⟨-, hcomponent⟩ := Scene.component?_of_findComponent hfind
    have hy : bare.slots.size ≤ y.index := Scene.le_index_of_mem_map_copyId
      (hcopies ▸ List.mem_append_right done List.mem_cons_self)
    obtain ⟨-, hauthentic, -⟩ := hbegun.authentic_atTurn hcomponent hread
      (Scene.expands_expandWithin d st levels (component :: enclosing))
      (Scene.authoring_expandWithin d st levels (component :: enclosing)) hcopies
    exact hauthentic.original y e hy he

/-- An expansion that succeeds puts a copy below the instance that reads what
the record of the instance says. -/
theorem Called.copyReads {levels : Nat} {enclosing : List ComponentId} {s : Scene} {id : ElementId}
    {roots : List ElementId} (h : Called d st levels enclosing s id)
    (hout : (expandWithin d st levels enclosing s id).outcome = .ok roots) :
    let t := (expandWithin d st levels enclosing s id).scene
    ∃ e i, s.get? id = some e ∧ e.instance? = some i ∧ t.children id = roots ∧
      CopyReads d st t e i roots s.copyId := by
  obtain ⟨e, i, bare, inst, fewer, component, c, tmpl, hbegun, hasked, hcomponent, hread, rfl,
    heq⟩ := h.exists_splice hout
  have hnest : Scene.Expands d (expandWithin d st fewer (component :: enclosing)) :=
    Scene.expands_expandWithin d st fewer (component :: enclosing)
  obtain ⟨-, hrenders, -⟩ := hbegun.authentic_of_splice hcomponent hread hnest
    (Scene.authoring_expandWithin d st fewer (component :: enclosing))
  have hfurnished := hbegun.furnished st hasked hcomponent hread hnest
    (Scene.grows_expandWithin d st fewer (component :: enclosing))
  rw [Element.definition?, hbegun.instance?, Option.bind_some] at hasked
  rw [heq]
  exact ⟨e, i, hbegun.there, hbegun.instance?, hfurnished.children,
    hrenders.copyReads (h.original hbegun.there) hbegun.instance? hasked hcomponent hread⟩

/-- At any time an instance has the arguments of its record, and if it has a
copy, that reads what the record says. -/
theorem Reachable.copyReads (h : Reachable d s) (he : s.scene.get? p = some e)
    (hi : e.instance? = some i) :
    (∃ r, d.recordOf? e.source = some r ∧
      i.arguments = Role.argumentsOf d r (i.definition.bind d.component?)) ∧
    (i.roots ≠ [] →
      ∃ first, CopyReads d s.settings s.scene e i i.roots fun k => ⟨first + k⟩) := by
  have horiginal := h.authentic.original p e (Nat.zero_le _) he
  refine ⟨Scene.arguments_of_original horiginal hi, fun hroots => ?_⟩
  have hold : e.oldRoots = i.roots := by
    rw [Element.oldRoots, hi]
    exact if_pos (h.settled he hi).expanded
  obtain ⟨component, tmpl, first, hcopy⟩ :=
    h.authentic.copied p e (Nat.zero_le _) he (hold ▸ hroots)
  obtain ⟨c, hcomponent, hread⟩ := hcopy.template
  have hdefinition := hcopy.definition
  rw [Element.definition?, hi, Option.bind_some] at hdefinition
  refine ⟨first, ?_⟩
  rw [← hold, hcopy.roots]
  exact hcopy.renders.copyReads horiginal hi hdefinition hcomponent hread

/-- The argument of a name is the value of the last custom property for it,
or else the first default of that name. The names are those of the
parameters, and then the others as they are first used; none is there
twice unless a parameter is. With these arguments, those of the record of
the instance, every copy is filled: when the expansion that made it ends,
and as long as it stands in a session. -/
theorem arguments_fill_texts (d : Document) :
    (∀ (r : Record) (component : Option Component) (i : Instance),
      i.arguments = Role.argumentsOf d r component →
      let declared := Component.defaults component
      (∀ key, i.argument? key =
        ((r.customs.filter fun c => Role.argumentKey? d c = some key).getLast?.map (·.value)).or
          (declared.lookup key)) ∧
      i.arguments.map (·.1) = declared.map (·.1) ++
        ((r.customs.filterMap (Role.argumentKey? d)).filter
          (· ∉ declared.map (·.1))).eraseDups ∧
      ((declared.map (·.1)).Nodup → (i.arguments.map (·.1)).Nodup)) ∧
    (∀ {st levels enclosing s id roots}, Called d st levels enclosing s id →
      (expandWithin d st levels enclosing s id).outcome = .ok roots →
      let t := (expandWithin d st levels enclosing s id).scene
      ∃ e i, s.get? id = some e ∧ e.instance? = some i ∧ t.children id = roots ∧
        CopyReads d st t e i roots s.copyId) ∧
    (∀ {s p e i}, Reachable d s → s.scene.get? p = some e → e.instance? = some i →
      (∃ r, d.recordOf? e.source = some r ∧
        i.arguments = Role.argumentsOf d r (i.definition.bind d.component?)) ∧
      (i.roots ≠ [] →
        ∃ first, CopyReads d s.settings s.scene e i i.roots fun k => ⟨first + k⟩)) :=
  ⟨fun r component i harguments => by
      simp only [Instance.argument?, harguments]
      exact ⟨Role.lookup_argumentsOf d r component, Role.keys_argumentsOf d r component,
        Role.nodup_argumentsOf r⟩,
    Called.copyReads, Reachable.copyReads⟩

/-- The label in the card shows the last of the captions that it is given
itself, and nothing of what the card is given. -/
theorem relabelled_filled :
    (∃ s e i y, let st := Settings.ofDocument .relabelled
      let x := expandWithin .relabelled st 31 [⟨1⟩] s ⟨2⟩
      Called .relabelled st 31 [⟨1⟩] s ⟨2⟩ ∧ x.outcome = .ok [⟨3⟩] ∧
      s.get? ⟨2⟩ = some e ∧ e.instance? = some i ∧ i.argument? "caption" = some (.string 8) ∧
      (i.arguments.map (·.1)).Nodup ∧ x.scene.get? ⟨3⟩ = some y ∧ y.text = some "second") ∧
    ∃ s notices e i, load .relabelled .none .standard = (.ok s, notices) ∧
      s.scene.get? ⟨2⟩ = some e ∧ e.instance? = some i ∧ i.roots = [⟨3⟩] ∧
      ∃ first, CopyReads .relabelled s.settings s.scene e i i.roots fun k => ⟨first + k⟩ := by
  obtain ⟨hmerged, hexpanded, hsession⟩ := arguments_fill_texts .relabelled
  refine ⟨?_, ?_⟩
  · have hcalled : Called .relabelled (Settings.ofDocument .relabelled) 31 [⟨1⟩] _ ⟨2⟩ :=
      @Called.nested _ _ _ _ _ _ _ _ _ _ _ _ _ [] [] (.load [] ⟨1⟩) rfl rfl rfl rfl rfl
    obtain ⟨e, i, he, hi, -, r, component, c, tmpl, -, hdefinition, hcomponent, hread, harguments,
      -, hreads⟩ := hexpanded hcalled rfl
    have hmerged := hmerged r (some c) i harguments
    cases he
    cases hi
    cases hdefinition
    cases hcomponent
    cases hread
    obtain ⟨-, -, hfills, -⟩ := hreads 0 _ _ rfl rfl
    exact ⟨_, _, _, _, hcalled, rfl, rfl, rfl, rfl, hmerged.2.2 (by decide), rfl,
      hfills "caption" (.string 8) rfl rfl⟩
  · have hload : load .relabelled .none .standard = (.ok _, _) := rfl
    have hcopy := (@hsession _ ⟨2⟩ _ _ (.load hload) rfl rfl).2 (List.cons_ne_nil _ _)
    exact ⟨_, _, _, _, hload, rfl, rfl, rfl, hcopy⟩

end Session

end SceneTree
