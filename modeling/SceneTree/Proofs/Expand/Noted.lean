import SceneTree.Proofs.Expand.Dress

/-!
# What an expansion notes

Whatever a link is refused for while a copy is made and filled, the scene
is left as it is and the refusal is noted. So the notices tell whether
something was lost on the way. What they may tell of is a piece of usage
that was not there to be linked any more, and no other refusal
(`Notice.Excused`): the edges of a template go forward and claim a node
once, its roots are free, and usage was unlinked before and lies around
nothing that is new.

Every stage says what it adds to the notices; the proof for all of an
expansion goes by `expandWithin_induction`.
-/

namespace SceneTree

variable {d : Document} {st : Settings}

/-- The notice is not of a link, or of one to a piece of usage that was not
there. -/
def Notice.Excused : Notice → Prop
  | .templateLinkRejected _ _ => False
  | .templateRootRejected _ _ => False
  | .usageRejected _ child cause => cause = .missing child
  | _ => True

/-- Making an element of a record links nothing. -/
theorem Record.excused_notices (r : Record) (d : Document) (id : ElementId) (h : Header) :
    ∀ n ∈ r.notices d id h, n.Excused := by
  intro n hn
  simp only [Record.notices, Element.resolveNotices, List.mem_append] at hn
  obtain (hstyle | htrigger) | hrole := hn
  · split at hstyle
    next =>
      cases List.mem_singleton.mp hstyle
      trivial
    next => exact absurd hstyle List.not_mem_nil
  · obtain ⟨trigger, -, hnotice⟩ := List.mem_filterMap.mp htrigger
    unfold Trigger.notice? at hnotice
    split at hnotice <;> cases hnotice <;> trivial
  · unfold Role.noticesOf at hrole
    split at hrole
    next => exact absurd hrole List.not_mem_nil
    next =>
      split at hrole
      next =>
        cases List.mem_singleton.mp hrole
        trivial
      next =>
        obtain ⟨custom, -, hnotice⟩ := List.mem_filterMap.mp hrole
        split at hnotice <;> cases hnotice
        trivial

namespace Scene

variable {s t bare : Scene} {id c : ElementId} {e inst : Element} {i : Instance}
  {component : ComponentId} {tmpl : Template} {det : Detached} {cause : ExpandFault}
  {nest : Scene → ElementId → Expansion} {put : Scene → Detached → Expansion}
  {todo roots : List ElementId}

/-- What is noted of an instance is what is noted while something is put
into it, and the same goes for the outcome. -/
theorem told_expandWith (h : s.detach? id = some (bare, det)) :
    (expandWith put s id).notices = (put bare det).notices ∧
      (expandWith put s id).outcome = (put bare det).outcome := by
  simp only [expandWith, h]
  split <;> exact ⟨rfl, rfl⟩

/-- `expand` notes nothing of an instance that is ready but what is
excused. -/
def Excusing (expand : Scene → ElementId → Expansion) : Prop :=
  ∀ {s id e i}, s.Forest → s.get? id = some e → e.instance? = some i → Ready s id e i →
    ∀ n ∈ (expand s id).notices, n.Excused

/-! ## The stages -/

theorem excused_addTemplate (d : Document) (st : Settings) (inst : Element)
    (component : ComponentId) (decoration : Decoration) (tmpl : Template) (s : Scene) :
    ∀ n ∈ (addTemplate d st inst component decoration tmpl s).notices, n.Excused := by
  refine List.foldlRecOn (motive := fun w : Splicing => ∀ n ∈ w.notices, n.Excused)
    tmpl.nodes.zipIdx _ (fun n hn => absurd hn List.not_mem_nil) fun w hw node _ n hn => ?_
  rcases List.mem_append.mp hn with hn | hn
  · exact hw n hn
  · exact Record.excused_notices _ d _ _ n hn

theorem excused_rooted (st : Settings) (component : ComponentId) (hs : s.Forest)
    (hsound : tmpl.Sound) (hinst : s.get? det.id = some inst) (hbare : inst.children = []) :
    ∀ n ∈ (rooted d st component tmpl s det inst).notices, n.Excused := by
  intro n hn
  rw [rooted, (copied_attachRoots d st inst component det.decoration hs hsound hinst hbare).2] at hn
  rcases List.mem_append.mp hn with hn | hn
  · exact excused_addTemplate d st inst component det.decoration tmpl s n hn
  · obtain ⟨ref, -, rfl⟩ := List.mem_map.mp hn
    trivial

/-- A turn adds the notices of the expansion, and that it failed. -/
theorem Filled.excused_expandNested {w : Splicing} (h : Filled d s id roots (c :: todo) w.scene)
    (hc : s.slots.size ≤ c.index) (hexcuse : Excusing nest) (component : String)
    (hw : ∀ n ∈ w.notices, n.Excused) :
    ∀ n ∈ (Scene.expandNested nest component w c).notices, n.Excused := by
  rcases expandNested_cases nest component w c with
    ⟨ec, ic, failure, hec, hic, hfailure, hturn⟩ | ⟨-, hturn⟩
  · rw [hturn]
    intro n hn
    simp only [List.mem_append] at hn
    obtain (hn | hn) | hn := hn
    · exact hw n hn
    · exact hexcuse h.forest hec hic (h.ready hc hec hic) n hn
    · obtain ⟨cause, rfl⟩ := hfailure n hn
      trivial
  · rwa [hturn]

theorem Filled.excused_foldl {w : Splicing} (h : Filled d s id roots todo w.scene) (hs : s.Forest)
    (hid : s.contains id) (htodo : ∀ c ∈ todo, s.slots.size ≤ c.index) (hnest : Expands d nest)
    (hexcuse : Excusing nest) (component : String) (hw : ∀ n ∈ w.notices, n.Excused) :
    ∀ n ∈ (todo.foldl (Scene.expandNested nest component) w).notices, n.Excused := by
  induction todo generalizing w with
  | nil => exact hw
  | cons c todo ih =>
    rw [List.forall_mem_cons] at htodo
    exact ih (h.expandNested hs hid htodo.1 hnest component rfl) htodo.2
      (h.excused_expandNested htodo.1 hexcuse component hw)

theorem excused_fill (st : Settings) (component : ComponentId) (hs : s.Forest)
    (hsound : tmpl.Sound) (hinst : s.get? det.id = some inst) (hbare : inst.children = [])
    (hnest : Expands d nest) (hexcuse : Excusing nest) :
    ∀ n ∈ (fill d st nest component tmpl s det inst).notices, n.Excused := by
  have hcopied := copied_rooted d st component hs hsound hinst hbare
  exact (hcopied.filled (d := d)).excused_foldl hs (contains_of_get? hinst)
    (fun _ => le_index_of_mem_map_copyId) hnest hexcuse det.component
    (excused_rooted st component hs hsound hinst hbare)

/-- Without a place the usage is dropped, and that is noted. -/
theorem excused_placeUsage_none {w : Splicing} (hw : ∀ n ∈ w.notices, n.Excused) :
    ∀ n ∈ (placeUsage det none w).notices, n.Excused := by
  unfold placeUsage
  dsimp only
  split
  next => exact hw
  next =>
    refine List.forall_mem_append.mpr ⟨hw, fun n hn => ?_⟩
    cases List.mem_singleton.mp hn
    trivial

/-! ## Every expansion -/

theorem Begun.excused_of_splice (h : Begun s id e i bare inst) (st : Settings)
    (component : ComponentId) (hsound : tmpl.Sound) (hnest : Expands d nest)
    (hexcuse : Excusing nest) :
    ∀ n ∈ (expandWith (splice d st nest component tmpl) s id).notices, n.Excused := by
  have hself : bare.get? (taken id e i).id = some inst := h.self
  have hbare : inst.children = [] := congrArg Element.children h.inst_eq
  have hfilled := excused_fill st component h.parted.forest hsound hself hbare hnest hexcuse
  rw [(told_expandWith h.detach?).1]
  by_cases hnodes : tmpl.nodes = []
  · have hroots : tmpl.roots = [] := Template.roots_of_nil hnodes
    have htarget (t : Scene) : t.usageTarget? ((List.range tmpl.nodes.length).map bare.copyId)
        (tmpl.roots.map bare.copyId) = none := by
      rw [hroots, hnodes]
      rfl
    simp only [splice_eq_fill hself, htarget]
    exact excused_placeUsage_none hfilled
  · obtain ⟨-, hnotices, -⟩ := placed_splice st h.before h.there h.ready h.parted hnest
      hsound hnodes component (show (taken id e i).id = id from rfl) rfl h.self
    rw [hnotices]
    refine List.forall_mem_append.mpr ⟨hfilled, fun n hn => ?_⟩
    obtain ⟨u, -, rfl⟩ := List.mem_map.mp hn
    rfl

/-- Whatever the components are, and however many levels are left, an
expansion loses nothing on the way that is there. -/
theorem excusing_expandWithin (d : Document) (st : Settings) (levels : Nat)
    (enclosing : List ComponentId) : Excusing (expandWithin d st levels enclosing) := by
  refine expandWithin_induction (P := fun _ _ _ x => ∀ n ∈ x.notices, n.Excused)
    (fun h hput => ?_) (fun {_ _ _ _ _ _ nest component c tmpl} h _ _ hread hnest hexcuse =>
      h.excused_of_splice st component (Template.read_sound hread) hnest hexcuse)
    levels enclosing
  rw [(told_expandWith h.detach?).1, hput]
  exact fun n hn => absurd hn List.not_mem_nil

end Scene

end SceneTree
