import SceneTree.Proofs.Expand.Outcome
import SceneTree.Proofs.Expand.Turns
import SceneTree.Proofs.Session.Decorated

/-!
# Every call of an expansion

An expansion is asked for when a document is loaded, for one pending
instance after another, when an instance of a session is expanded again,
and from within another expansion, for the instances of the copy it is
filling (`Called`). In all of these the scene is a forest and the instance
can be taken apart. And an instance that keeps a decoration has a copy, so
it is expanded for itself, with all levels left, and will not be refused
(`Called.fit`).

So a call that fails leaves no trace but at and below the instance
(`Called.fails_clean`), and one that succeeds has put all of the usage that
is there into the copy, in the order it had (`Called.houses_usage`).
-/

namespace SceneTree

variable {d : Document} {st : Settings}

namespace Scene

variable {todo : List ElementId}

/-- Whichever elements had their turn, the scene is tidy, and what every
expansion keeps is kept. -/
theorem Tidy.turns_keep {P : Scene → Prop} (run : ExpansionRun) (h : Tidy d run.scene todo)
    (hexpand : ∀ {t id}, Tidy d t todo → P t → P (t.expand d st id).scene) (hrun : P run.scene)
    (turns : List ElementId) :
    let t := (turns.foldl (expandPending d st) run).scene
    Tidy d t todo ∧ P t := by
  induction turns generalizing run with
  | nil => exact ⟨h, hrun⟩
  | cons id turns ih =>
    rcases scene_expandPending d st run id with hscene | hscene
    · refine ih _ ?_ ?_
      · rw [hscene]
        exact h.expand st id
      · rw [hscene]
        exact hexpand h hrun
    · exact ih _ (hscene ▸ h) (hscene ▸ hrun)

/-- So is what every expansion gives. -/
theorem Tidy.foldl_expandPending {Q : Element → Prop} (run : ExpansionRun)
    (h : Tidy d run.scene todo) (hQ : Innate d Q) (st : Settings)
    (hold : ∀ y e, run.scene.get? y = some e → Q e) (turns : List ElementId) :
    let t := (turns.foldl (expandPending d st) run).scene
    Tidy d t todo ∧ ∀ y e, t.get? y = some e → Q e :=
  h.turns_keep (P := fun t => ∀ y e, t.get? y = some e → Q e) run
    (fun ht hold => innate_expand hQ st ht _ hold) hold turns

end Scene

/-- A frame around two texts. It has a slot, and before that a slot in a
frame of its own. -/
def Document.recessed : Document :=
  let slot : Record := { Record.blank with customs := [{ key := 3, value := .byte 1 }] }
  { Document.blank with
    strings := ["", componentKey, "Frame", slotKey]
    records :=
      [{ Record.ofHeader (.ofWidget .app) with childRefs := [18] }, .standIn 2 [24, 40],
        .ofHeader (.ofWidget .text), .ofHeader (.ofWidget .text)]
    offsets := [0, 18, 42, 58]
    components :=
      [{ name := "Frame", parameters := []
         template := ({ Record.blank with childRefs := [20, 66] } : Record).toBytes ++
           ({ Record.standIn 2 [26] with properties := [⟨.borderWidth, .byte 3⟩] } :
             Record).toBytes ++ slot.toBytes ++ slot.toBytes }] }

namespace Session

open Scene (ExpansionRun expandWithin expandPending findComponent atTurn Begun Ready Spent
  Furnished)

/-- A linked document in which the elements of `turns` had their turn to be
expanded. -/
def turnedScene (d : Document) (turns : List ElementId) : Scene :=
  let st := Settings.ofDocument d
  let run : ExpansionRun := { scene := (linkedScene d st).1, notices := [], count := 0 }
  (turns.foldl (expandPending d st) run).scene

/-- The calls of `expandWithin` that come about while a document is loaded
and used, with the levels that are left, the components around the
instance, and the scene. Which elements loading has expanded before, and
whether what has its turn is an instance at all, is left open. -/
inductive Called (d : Document) : Settings → Nat → List ComponentId → Scene → ElementId → Prop
  | load (turns : List ElementId) (id : ElementId) :
      Called d (Settings.ofDocument d) maxDepth [] (turnedScene d turns) id
  | reexpand {s : Session} (h : Reachable d s) (id : ElementId) :
      Called d s.settings maxDepth [] s.scene id
  | nested {st : Settings} {levels : Nat} {enclosing : List ComponentId} {s bare : Scene}
      {id k : ElementId} {det : Detached} {component : ComponentId} {c : Component}
      {tmpl : Template} {inst : Element} {done rest : List ElementId}
      (h : Called d st (levels + 1) enclosing s id) (hdet : s.detach? id = some (bare, det))
      (hfind : findComponent d enclosing det = .ok (component, c))
      (hread : Template.read c.template = .ok tmpl) (hinst : bare.get? id = some inst)
      (hcopies : (List.range tmpl.nodes.length).map bare.copyId = done ++ k :: rest) :
      Called d st levels (component :: enclosing)
        (atTurn d st (expandWithin d st levels (component :: enclosing)) component tmpl bare det
          inst done) k

namespace Called

variable {levels : Nat} {enclosing : List ComponentId} {s : Scene} {id : ElementId} {e : Element}
  {i : Instance} {cause : ExpandFault} {roots : List ElementId}

/-- Whenever an instance is expanded it is ready, and it keeps no decoration
unless it is expanded for itself and has a template. -/
theorem fit (h : Called d st levels enclosing s id) :
    s.Forest ∧ ∀ e i, s.get? id = some e → e.instance? = some i → Ready s id e i ∧
      (i.decoration = .none ∨
        enclosing = [] ∧ levels = maxDepth ∧ (i.template? d).isSome) := by
  induction h with
  | load turns id =>
    obtain ⟨htidy, hmerited⟩ := Scene.Tidy.foldl_expandPending ⟨_, [], 0⟩
      (Scene.tidy_linkedScene d (Settings.ofDocument d)) (Element.innate_merited d)
      (Settings.ofDocument d) (Scene.innate_linkedScene (Element.innate_merited d) _) turns
    exact ⟨htidy.forest, fun e i he hi => ⟨htidy.ready he hi,
      (hmerited id e he i hi).imp_right fun hsome => ⟨rfl, rfl, hsome⟩⟩⟩
  | reexpand h id =>
    exact ⟨h.forest, fun e i he hi => ⟨h.tidy.ready he hi,
      (h.innate (Element.innate_merited d) id e he i hi).imp_right fun hsome => ⟨rfl, rfl, hsome⟩⟩⟩
  | @nested st levels enclosing s bare id k det component c tmpl inst done rest h hdet hfind hread
      hinst hcopies ih =>
    obtain ⟨e, i, he, hi, -, rfl⟩ := Scene.eq_of_detach? hdet
    obtain ⟨bare', inst', hbegun⟩ := Scene.exists_begun ih.1 he hi (ih.2 e i he hi).1
    cases hdet.symm.trans hbegun.detach?
    cases hinst.symm.trans hbegun.self
    obtain ⟨hforest, hturn⟩ := hbegun.turn (Template.read_sound hread)
      (Scene.expands_expandWithin d st levels (component :: enclosing)) st component hcopies
    exact ⟨hforest, fun ek ik hek hik => (hturn ek ik hek hik).imp_right .inl⟩

/-- So an instance can be taken apart whenever it is expanded. -/
theorem begun (h : Called d st levels enclosing s id) (he : s.get? id = some e)
    (hi : e.instance? = some i) : ∃ bare inst, Begun s id e i bare inst ∧
      (i.decoration = .none ∨ enclosing = [] ∧ levels = maxDepth ∧ (i.template? d).isSome) := by
  obtain ⟨hs, hfit⟩ := h.fit
  obtain ⟨hr, hkept⟩ := hfit e i he hi
  obtain ⟨bare, inst, hbegun⟩ := Scene.exists_begun hs he hi hr
  exact ⟨bare, inst, hbegun, hkept⟩

/-- A call fails for what is no instance, and then changes nothing, or it
leaves the instance with no child and no copy, and everything else that
was not below it as it was. -/
theorem fails_clean (h : Called d st levels enclosing s id)
    (hout : (expandWithin d st levels enclosing s id).outcome = .error cause) :
    let t := (expandWithin d st levels enclosing s id).scene
    (cause = .notAnInstance id ∧ t = s) ∨
      (∀ y, cause ≠ .notAnInstance y) ∧
        ∃ e i, s.get? id = some e ∧ e.instance? = some i ∧ Spent s id e i t := by
  by_cases hinst : ∃ e i, s.get? id = some e ∧ e.instance? = some i
  · obtain ⟨e, i, he, hi⟩ := hinst
    obtain ⟨bare, inst, hbegun, hkept⟩ := h.begun he hi
    have hx := Scene.expands_expandWithin d st levels enclosing hbegun.before he hi hbegun.ready
    rcases hbegun.expandWithin_cases d st levels enclosing with
      ⟨put, cause', heq, hput, hcause, hplain⟩ | ⟨fewer, component, c, tmpl, -, -, -, -, heq⟩
    · rw [heq] at hx hout ⊢
      rw [(Scene.told_expandWith hbegun.detach?).2, hput] at hout
      cases hout
      have hnone : i.decoration = .none := hkept.resolve_right fun ⟨hnil, hmax, hsome⟩ => by
        rw [hplain hnil (by rw [hmax]; decide)] at hsome
        exact Bool.false_ne_true hsome
      exact .inr ⟨hcause, e, i, he, hi, hbegun.spent hx hput hnone⟩
    · rw [heq, (Scene.told_expandWith hbegun.detach?).2, Scene.outcome_splice hbegun.self] at hout
      cases hout
  · rw [Scene.expandWithin_of_not_instance hinst] at hout ⊢
    cases hout
    exact .inl ⟨rfl, rfl⟩

/-- A call that succeeds puts a copy of a template that can be read into an
instance, with a level less for what is inside. -/
theorem exists_splice (h : Called d st levels enclosing s id)
    (hout : (expandWithin d st levels enclosing s id).outcome = .ok roots) :
    ∃ e i bare inst fewer component c tmpl, Begun s id e i bare inst ∧
      e.definition? = some component ∧ d.component? component = some c ∧
      Template.read c.template = .ok tmpl ∧ roots = tmpl.roots.map s.copyId ∧
      expandWithin d st levels enclosing s id = Scene.expandWith (Scene.splice d st
        (expandWithin d st fewer (component :: enclosing)) component tmpl) s id := by
  by_cases hinst : ∃ e i, s.get? id = some e ∧ e.instance? = some i
  · obtain ⟨e, i, he, hi⟩ := hinst
    obtain ⟨bare, inst, hbegun, -⟩ := h.begun he hi
    rcases hbegun.expandWithin_cases d st levels enclosing with
      ⟨put, cause, heq, hput, -⟩ | ⟨fewer, component, c, tmpl, -, hasked, hcomponent, hread, heq⟩
    · rw [heq, (Scene.told_expandWith hbegun.detach?).2, hput] at hout
      cases hout
    · rw [heq, (Scene.told_expandWith hbegun.detach?).2, Scene.outcome_splice hbegun.self,
        hbegun.copyId_eq] at hout
      cases hout
      exact ⟨e, i, bare, inst, fewer, component, c, tmpl, hbegun, hasked, hcomponent, hread, rfl,
        heq⟩
  · rw [Scene.expandWithin_of_not_instance hinst] at hout
    cases hout

/-- A call that succeeds gives the copies of the template's roots, which are
now the children of the instance, and has its usage in the copy, if there
is one. On the way no link was refused to what was there. -/
theorem houses_usage (h : Called d st levels enclosing s id)
    (hout : (expandWithin d st levels enclosing s id).outcome = .ok roots) :
    let x := expandWithin d st levels enclosing s id
    ∃ e component c tmpl, s.get? id = some e ∧ e.definition? = some component ∧
      d.component? component = some c ∧ Template.read c.template = .ok tmpl ∧
      roots = tmpl.roots.map s.copyId ∧
      Furnished s id e component tmpl x.scene ∧ ∀ n ∈ x.notices, n.Excused := by
  obtain ⟨e, i, bare, inst, fewer, component, c, tmpl, hbegun, hasked, hcomponent, hread, hroots,
    heq⟩ := h.exists_splice hout
  have hexcused := Scene.excusing_expandWithin d st levels enclosing hbegun.before hbegun.there
    hbegun.instance? hbegun.ready
  refine ⟨e, component, c, tmpl, hbegun.there, hasked, hcomponent, hread, hroots, ?_, hexcused⟩
  rw [heq]
  exact hbegun.furnished st hasked hcomponent hread
    (Scene.expands_expandWithin d st fewer (component :: enclosing))
    (Scene.grows_expandWithin d st fewer (component :: enclosing))

end Called

/-- Inside the frame, the frame is refused when its turn comes, and the slot
below it goes. -/
theorem recessed_fails_clean :
    let st := Settings.ofDocument .recessed
    ∃ s e i, Called .recessed st 31 [⟨0⟩] s ⟨5⟩ ∧
      (expandWithin .recessed st 31 [⟨0⟩] s ⟨5⟩).outcome = .error (.recursive "Frame") ∧
      s.get? ⟨5⟩ = some e ∧ e.instance? = some i ∧ e.children = [⟨6⟩] ∧
      e.look.border = .uniform 3 ∧
      Spent s ⟨5⟩ e i (expandWithin .recessed st 31 [⟨0⟩] s ⟨5⟩).scene := by
  have hcalled : Called .recessed (Settings.ofDocument .recessed) 31 [⟨0⟩] _ ⟨5⟩ :=
    @Called.nested _ _ _ _ _ _ _ _ _ _ _ _ _ [⟨4⟩] [⟨6⟩, ⟨7⟩] (.load [] ⟨1⟩) rfl rfl rfl rfl rfl
  obtain ⟨h, -⟩ | ⟨-, e, i, he, hi, hspent⟩ := Called.fails_clean hcalled rfl
  · cases h
  · cases he
    exact ⟨_, _, i, hcalled, rfl, rfl, hi, rfl, rfl, hspent⟩

/-- So the usage of the outer frame goes into the other slot. -/
theorem recessed_houses_usage :
    let st := Settings.ofDocument .recessed
    let x := expandWithin .recessed st maxDepth [] (turnedScene .recessed []) ⟨1⟩
    ∃ e tmpl, Called .recessed st maxDepth [] (turnedScene .recessed []) ⟨1⟩ ∧
      x.outcome = .ok [⟨4⟩] ∧ x.scene.children ⟨1⟩ = [⟨4⟩] ∧
      ¬ x.scene.contains ⟨6⟩ ∧ x.scene.children ⟨7⟩ = [⟨2⟩, ⟨3⟩] ∧
      Furnished (turnedScene .recessed []) ⟨1⟩ e ⟨0⟩ tmpl x.scene ∧
      ∀ n ∈ x.notices, n.Excused := by
  have hcalled : Called .recessed (Settings.ofDocument .recessed) maxDepth []
    (turnedScene .recessed []) ⟨1⟩ := .load [] ⟨1⟩
  have hout : (expandWithin .recessed (Settings.ofDocument .recessed) maxDepth []
    (turnedScene .recessed []) ⟨1⟩).outcome = .ok [⟨4⟩] := rfl
  obtain ⟨e, component, c, tmpl, he, hasked, -, -, hroots, hfurnished, hexcused⟩ :=
    Called.houses_usage hcalled hout
  cases he
  cases hasked
  refine ⟨_, tmpl, hcalled, rfl, ?_, by decide +kernel, by decide +kernel, hfurnished, hexcused⟩
  rw [hfurnished.children, ← hroots]

end Session

end SceneTree
