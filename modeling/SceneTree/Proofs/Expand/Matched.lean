import SceneTree.Proofs.Expand.Elsewhere
import SceneTree.Proofs.Forest.Alike
import SceneTree.Proofs.Resolve.Strings

/-!
# Expanding under another string

A document and the same document with another string at an index nothing
points at are loaded side by side. At every stage the two scenes have the
same elements, but for the text: `Matched` says so, and what the texts have
to do with each other (`Document.Retold`).

No stage looks at the text of an element. So whatever links, moves or
removes elements does the same to both scenes. Only the copies of a
template need more: a text that names an argument becomes that argument,
and an argument is a value that some record or parameter passes. That is
kept along with the pairs of elements.
-/

namespace SceneTree

variable {d : Document} {i : Nat} {text : String}

/-! ## Texts and elements -/

/-- Two texts are the same, or each is what its document has for a resource
of the number `i` that is passed to a component. -/
def Document.Retold (d : Document) (i : Nat) (text : String) (a b : Option String) : Prop :=
  b = a ∨ ∃ j : UInt8, j.toNat = i ∧ d.Passes (.resource j) ∧
    a = some (d.textOf (.resource j)) ∧ b = some ((d.withString i text).textOf (.resource j))

namespace Element

/-- The element with another text. -/
def withText (e : Element) (text : Option String) : Element := { e with text }

/-- Two elements that differ in their texts only, which are retold. -/
structure Paired (d : Document) (i : Nat) (text : String) (e e' : Element) : Prop where
  same : e' = e.withText e'.text
  retold : d.Retold i text e.text e'.text
  passed : ∀ a ∈ e.pattern.arguments, d.Passes a.2

namespace Paired

variable {e e' : Element}

theorem refl (hpassed : ∀ a ∈ e.pattern.arguments, d.Passes a.2) : Paired d i text e e :=
  ⟨rfl, .inl rfl, hpassed⟩

/-- What does not look at the text is the same of both. -/
theorem reading {α : Type} (h : Paired d i text e e') {g : Element → α}
    (hg : ∀ e text, g (e.withText text) = g e := by intro _ _; rfl) : g e' = g e := by
  rw [h.same, hg]

/-- An edit that leaves text and arguments alone. -/
theorem edit (h : Paired d i text e e') {f : Element → Element}
    (hf : ∀ e text, f (e.withText text) = (f e).withText text := by intro _ _; rfl)
    (harguments : ∀ e, (f e).pattern.arguments = e.pattern.arguments := by intro _; rfl) :
    Paired d i text (f e) (f e') := by
  have htext (e : Element) : (f e).text = e.text := by
    have hsame := congrArg Element.text (hf e e.text)
    exact hsame
  refine ⟨?_, ?_, fun a ha => h.passed a (harguments e ▸ ha)⟩
  · rw [htext e', ← hf, ← h.same]
  · rw [htext, htext]
    exact h.retold

end Paired

end Element

namespace Scene

open Element (Paired)

variable {st : Settings} {s t : Scene} {x y : ElementId}

/-! ## Scenes -/

/-- The same slots are filled, with elements that differ in their texts
only. -/
structure Matched (d : Document) (i : Nat) (text : String) (s t : Scene) : Prop where
  size : t.slots.size = s.slots.size
  paired : ∀ y, Option.Rel (Paired d i text) (s.get? y) (t.get? y)

namespace Matched

variable {s₁ t₁ : Scene} {e : Element}

/-- At each id both scenes have an element or neither has one. -/
theorem cases (h : Matched d i text s t) (y : ElementId) :
    s.get? y = none ∧ t.get? y = none ∨
      ∃ e e', s.get? y = some e ∧ t.get? y = some e' ∧ Paired d i text e e' := by
  have hpaired := h.paired y
  generalize hs : s.get? y = a at hpaired
  generalize ht : t.get? y = b at hpaired
  cases hpaired with
  | none => exact .inl ⟨rfl, rfl⟩
  | some hp => exact .inr ⟨_, _, rfl, rfl, hp⟩

theorem map_get? {α : Type} (h : Matched d i text s t) {g : Element → α} (y : ElementId)
    (hg : ∀ e text, g (e.withText text) = g e := by intro _ _; rfl) :
    (t.get? y).map g = (s.get? y).map g := by
  rcases h.cases y with ⟨hs, ht⟩ | ⟨e, e', hs, ht, hp⟩
  · rw [hs, ht]
  · rw [hs, ht, Option.map_some, Option.map_some, hp.reading hg]

theorem alike {α : Type} (h : Matched d i text s t) {g : Element → α}
    (hg : ∀ e text, g (e.withText text) = g e := by intro _ _; rfl) : Alike g s t :=
  ⟨h.size, fun y => h.map_get? y hg⟩

theorem sameShape (h : Matched d i text s t) : s.SameShape t := by
  have hplace : Alike Element.place s t := h.alike
  exact ⟨hplace.size, hplace.map_get?⟩

theorem nextId_eq (h : Matched d i text s t) : t.nextId = s.nextId := by
  rw [nextId, nextId, h.size]

theorem copyId_eq (h : Matched d i text s t) : t.copyId = s.copyId := by
  funext node
  rw [copyId, copyId, h.nextId_eq]

/-- What is asked of an element without looking at its text has one answer. -/
theorem any_get? (h : Matched d i text s t) {g : Element → Bool} (y : ElementId)
    (hg : ∀ e text, g (e.withText text) = g e := by intro _ _; rfl) :
    (t.get? y).any g = (s.get? y).any g := by
  rcases h.cases y with ⟨hs, ht⟩ | ⟨e, e', hs, ht, hp⟩
  · rw [hs, ht]
  · rw [hs, ht, Option.any_some, Option.any_some, hp.reading hg]

/-! ### One element -/

theorem modify (h : Matched d i text s t) (id : ElementId) {f f' : Element → Element}
    (hf : ∀ e e', Paired d i text e e' → Paired d i text (f e) (f' e')) :
    Matched d i text (s.modify id f) (t.modify id f') := by
  refine ⟨by rw [size_modify, size_modify, h.size], fun y => ?_⟩
  rw [get?_modify, get?_modify]
  split
  next =>
    rcases h.cases y with ⟨hs, ht⟩ | ⟨e, e', hs, ht, hp⟩
    · rw [hs, ht]
      exact .none
    · rw [hs, ht]
      exact .some (hf e e' hp)
  next => exact h.paired y

/-- The same edit on both sides, of anything but text and arguments. -/
theorem edit (h : Matched d i text s t) (id : ElementId) {f : Element → Element}
    (hf : ∀ e text, f (e.withText text) = (f e).withText text := by intro _ _; rfl)
    (harguments : ∀ e, (f e).pattern.arguments = e.pattern.arguments := by intro _; rfl) :
    Matched d i text (s.modify id f) (t.modify id f) :=
  h.modify id fun _ _ hp => hp.edit hf harguments

theorem free (h : Matched d i text s t) (doomed : List ElementId) :
    Matched d i text (s.free doomed) (t.free doomed) := by
  refine ⟨?_, fun y => ?_⟩
  · simp only [Scene.free, Array.size_mapIdx, h.size]
  · rw [get?_free, get?_free]
    split
    next => exact .none
    next => exact h.paired y

/-! ### Edges -/

theorem unlink (h : Matched d i text s t) (c : ElementId) :
    Matched d i text (s.unlink c) (t.unlink c) := by
  rw [Scene.unlink, Scene.unlink, h.sameShape.parent?]
  cases s.parent? c with
  | none => exact h
  | some p => exact (h.edit p).edit c

/-- A link is made on both sides or refused for the same reason. -/
theorem link (h : Matched d i text s t) (p c : ElementId) :
    (∃ fault, s.link p c = .error fault ∧ t.link p c = .error fault) ∨
      ∃ s₁ t₁, s.link p c = .ok s₁ ∧ t.link p c = .ok t₁ ∧ Matched d i text s₁ t₁ := by
  have hup : t.isAtOrAbove c p = s.isAtOrAbove c p := by
    rw [isAtOrAbove, isAtOrAbove, h.sameShape.lineage_eq]
  rw [Scene.link, Scene.link]
  split
  next => exact .inl ⟨_, rfl, rfl⟩
  next =>
    rcases h.cases c with ⟨hs, ht⟩ | ⟨e, e', hs, ht, hp⟩
    · rw [hs, ht]
      exact .inl ⟨_, rfl, rfl⟩
    · have hparent : e'.parent = e.parent := hp.reading
      rw [hs, ht, h.sameShape.contains, hup]
      dsimp only
      rw [hparent]
      split
      next => exact .inl ⟨_, rfl, rfl⟩
      next =>
        split
        next => exact .inl ⟨_, rfl, rfl⟩
        next =>
          split
          next => exact .inl ⟨_, rfl, rfl⟩
          next => exact .inr ⟨_, _, rfl, rfl, (h.edit c).edit p⟩

theorem visitWithin_ids (h : Matched d i text s t) (n : Nat) (start : List ElementId) :
    (t.visitWithin (fun _ => true) n start).map (·.id) =
      (s.visitWithin (fun _ => true) n start).map (·.id) := by
  induction n generalizing start with
  | zero => rfl
  | succ n ih =>
    cases start with
    | nil => rfl
    | cons y rest =>
      rw [visitWithin, visitWithin]
      rcases h.cases y with ⟨hs, ht⟩ | ⟨e, e', hs, ht, hp⟩
      · rw [hs, ht]
        exact ih rest
      · have hid : e'.id = e.id := hp.reading
        have hchildren : e'.children = e.children := hp.reading
        rw [hs, ht]
        simp only [if_true, List.map_cons, hid, hchildren, ih]

theorem remove (h : Matched d i text s t) (id : ElementId) :
    Matched d i text (s.remove id) (t.remove id) := by
  have hcut := h.unlink id
  rw [Scene.remove, Scene.remove, descendants, descendants, visit, visit, hcut.size,
    hcut.visitWithin_ids]
  exact hcut.free _

/-- What is done to both sides one after another keeps them matched. -/
theorem foldl {α : Type} (h : Matched d i text s t) {f : Scene → α → Scene}
    (hf : ∀ {s t} a, Matched d i text s t → Matched d i text (f s a) (f t a)) (l : List α) :
    Matched d i text (l.foldl f s) (l.foldl f t) :=
  List.foldl_rel h fun a _ _ _ hst => hf a hst

/-! ### Lists of elements -/

/-- The elements come in pairs. -/
theorem map_elements {α : Type} (h : Matched d i text s t) {g : Element → α}
    (hg : ∀ e text, g (e.withText text) = g e := by intro _ _; rfl) :
    t.elements.map g = s.elements.map g := by
  have hslots : t.slots.toList.map (Option.map g) = s.slots.toList.map (Option.map g) := by
    refine List.ext_getElem (by simp only [List.length_map, Array.length_toList, h.size])
      fun k hk hk' => ?_
    rw [List.length_map, Array.length_toList] at hk hk'
    have hget := h.map_get? ⟨k⟩ hg
    simp only [get?, Array.getElem?_eq_getElem hk, Array.getElem?_eq_getElem hk',
      Option.join_some] at hget
    simpa only [List.getElem_map, Array.getElem_toList] using hget
  have hmap (l : List (Option Element)) :
      (l.filterMap id).map g = (l.map (Option.map g)).filterMap id := by
    rw [List.map_filterMap, List.filterMap_map]
    rfl
  rw [elements, elements, hmap, hmap, hslots]

/-- The elements of which something is asked, and what is read off them. -/
theorem map_filter_elements {α : Type} (h : Matched d i text s t) {p : Element → Bool}
    {g : Element → α} (hp : ∀ e text, p (e.withText text) = p e := by intro _ _; rfl)
    (hg : ∀ e text, g (e.withText text) = g e := by intro _ _; rfl) :
    (t.elements.filter p).map g = (s.elements.filter p).map g := by
  have hread (l : List Element) : (l.filter p).map g =
      ((l.map (Element.withText · none)).filter p).map g := by
    have hp' : p ∘ (Element.withText · none) = p := funext fun e => hp e none
    have hg' : g ∘ (Element.withText · none) = g := funext fun e => hg e none
    rw [List.filter_map, hp', List.map_map, hg']
  rw [hread, hread s.elements, h.map_elements]

theorem roots_eq (h : Matched d i text s t) : t.roots = s.roots := h.map_filter_elements

end Matched

end Scene

/-! ## Making elements -/

namespace Element

variable {st : Settings} {e e' : Element} {r : Record}

theorem passes_become (hr : d.Uses r) (st : Settings) (e : Element) :
    ∀ a ∈ (e.become d st r).pattern.arguments, d.Passes a.2 := by
  intro a ha
  have ha : a ∈ ((Role.ofRecord d r).instance?.map (·.arguments)).getD [] := ha
  cases hi : (Role.ofRecord d r).instance? with
  | none =>
    rw [hi] at ha
    exact absurd ha List.not_mem_nil
  | some inst =>
    rw [hi] at ha
    exact Role.passes_of_ofRecord hr hi a ha

/-- Another text on each side, as long as it is retold. -/
theorem Paired.refill (h : Paired d i text e e') {a b : Option String}
    (hab : d.Retold i text a b) : Paired d i text (e.withText a) (e'.withText b) := by
  refine ⟨?_, hab, h.passed⟩
  rw [h.same]
  rfl

end Element

namespace Scene

open Element (Paired)

variable {st : Settings} {s t s' t' : Scene} {y : ElementId} {inst inst' : Element}
  {component : ComponentId} {decoration : Decoration} {r : Record}

/-- A text that names an argument is retold. -/
theorem retold_fillText (h : d.Unreferenced i) (text : String) {arguments : List (String × Value)}
    (hpassed : ∀ a ∈ arguments, d.Passes a.2) (template : Option String) :
    d.Retold i text (template.map (fillText d arguments))
      (template.map (fillText (d.withString i text) arguments)) := by
  cases template with
  | none => exact .inl rfl
  | some template =>
    rw [Option.map_some, Option.map_some, fillText, fillText]
    split
    next name _ =>
      cases hv : arguments.lookup (String.ofList name) with
      | none => exact .inl rfl
      | some v =>
        obtain ⟨l₁, l₂, hsplit, -⟩ := List.lookup_eq_some_iff.mp hv
        have hpasses : d.Passes v := by
          refine hpassed (String.ofList name, v) ?_
          rw [hsplit]
          exact List.mem_append_right _ List.mem_cons_self
        have hspares : v.Spares i := fun j hj => h.value j (.inr (hj ▸ hpasses))
        rw [Option.map_some, Option.map_some, Option.getD_some, Option.getD_some]
        rcases d.textOf_withString text hspares with hsame | ⟨j, hj, rfl⟩
        · rw [hsame]
          exact .inl rfl
        · exact .inr ⟨j, hj, hpasses, rfl, rfl⟩
    next => exact .inl rfl

theorem copyHeader_eq (hinst : Paired d i text inst inst') (node : Nat) (header : Header) :
    copyHeader inst' node header = copyHeader inst node header :=
  hinst.reading (g := fun e => copyHeader e node header)

/-- What is made of the node of a template. -/
theorem paired_copyElement (h : d.Unreferenced i) (hr : d.Uses r)
    (hinst : Paired d i text inst inst') (st : Settings) (component : ComponentId)
    (decoration : Decoration) (id : ElementId) (node : Nat) :
    Paired d i text (copyElement d st inst component decoration id node r)
      (copyElement (d.withString i text) st inst' component decoration id node r) := by
  have hadopt : adoptInstance inst' decoration = adoptInstance inst decoration :=
    hinst.reading (g := fun e => adoptInstance e decoration)
  have harguments : inst'.pattern.arguments = inst.pattern.arguments :=
    hinst.reading (g := fun e => e.pattern.arguments)
  have hname : (copyHeader inst node r.header).nameIndex.toNat ≠ i := by
    rw [copyHeader]
    split <;> exact (h.record hr).name
  have hmade := Element.become_withString text h (h.record hr) st
    (e := .fresh id (.template component node) (copyHeader inst node r.header)) hname
  have hpassed := Element.passes_become hr st
    (.fresh id (.template component node) (copyHeader inst node r.header))
  rw [copyElement, copyElement, copyHeader_eq hinst, hadopt, harguments, hmade]
  generalize Element.become d st _ r = made at hpassed
  have hfilled : Paired d i text
      (made.withText (made.text.map (fillText d inst.pattern.arguments)))
      (made.withText (made.text.map (fillText (d.withString i text) inst.pattern.arguments))) :=
    (Paired.refl hpassed).refill (retold_fillText h text hinst.passed made.text)
  split
  next => exact hfilled.edit
  next => exact hfilled

namespace Matched

/-- One more element on both sides. -/
theorem extend (h : Matched d i text s t) {e e' : Element}
    (hsize : s'.slots.size = s.slots.size + 1) (hsize' : t'.slots.size = t.slots.size + 1)
    (hget : ∀ y, s'.get? y = if y = s.nextId then some e else s.get? y)
    (hget' : ∀ y, t'.get? y = if y = t.nextId then some e' else t.get? y)
    (hp : Paired d i text e e') : Matched d i text s' t' := by
  refine ⟨by rw [hsize, hsize', h.size], fun y => ?_⟩
  rw [hget, hget', h.nextId_eq]
  split
  next => exact .some hp
  next => exact h.paired y

theorem addNode (h : Matched d i text s t) (hun : d.Unreferenced i) (hr : d.Uses r)
    (hinst : Paired d i text inst inst') (st : Settings) (component : ComponentId)
    (decoration : Decoration) (node : Nat) :
    Matched d i text (addNode d st inst component decoration s node r)
      (addNode (d.withString i text) st inst' component decoration t node r) := by
  refine h.extend (size_addNode s node r) (size_addNode t node r) (get?_addNode s node r)
    (get?_addNode t node r) ?_
  rw [h.nextId_eq]
  exact paired_copyElement hun hr hinst st component decoration s.nextId node

end Matched

/-! ## Putting the copy together -/

/-- The same was noted while matched scenes were made. -/
structure Splicing.Matched (d : Document) (i : Nat) (text : String) (w w' : Splicing) : Prop where
  scene : w.scene.Matched d i text w'.scene
  notices : w'.notices = w.notices

namespace Splicing.Matched

variable {w w' : Splicing}

theorem note (h : Splicing.Matched d i text w w') (ns : List Notice) :
    Splicing.Matched d i text (w.note ns) (w'.note ns) :=
  ⟨h.scene, congrArg (· ++ ns) h.notices⟩

theorem link (h : Splicing.Matched d i text w w') (refusal : LinkFault → Notice)
    (p c : ElementId) :
    Splicing.Matched d i text (w.link refusal p c) (w'.link refusal p c) := by
  rw [Splicing.link, Splicing.link]
  rcases h.scene.link p c with ⟨fault, hs, ht⟩ | ⟨s₁, t₁, hs, ht, hlinked⟩
  · rw [hs, ht]
    exact h.note _
  · rw [hs, ht]
    exact ⟨hlinked, h.notices⟩

theorem foldl {α : Type} (h : Splicing.Matched d i text w w') {f g : Splicing → α → Splicing}
    (l : List α) (hf : ∀ a ∈ l, ∀ w w', Splicing.Matched d i text w w' →
      Splicing.Matched d i text (f w a) (g w' a)) :
    Splicing.Matched d i text (l.foldl f w) (l.foldl g w') :=
  List.foldl_rel h hf

theorem linkCopies (h : Splicing.Matched d i text w w') (component : String)
    (copyOf : Nat → ElementId) (tmpl : Template) :
    Splicing.Matched d i text (linkCopies component copyOf tmpl w)
      (linkCopies component copyOf tmpl w') := by
  have hlinked := h.foldl tmpl.edges fun e _ _ _ hw =>
    hw.link (.templateLinkRejected component) (copyOf e.parent) (copyOf e.child)
  exact hlinked.note _

theorem attachRoots (h : Splicing.Matched d i text w w') (det : Detached)
    (roots : List ElementId) :
    Splicing.Matched d i text (attachRoots det roots w) (attachRoots det roots w') :=
  h.foldl roots fun _ _ _ _ hw => hw.link _ _ _

theorem placeUsage (h : Splicing.Matched d i text w w') (det : Detached)
    (target : Option ElementId) :
    Splicing.Matched d i text (placeUsage det target w) (placeUsage det target w') := by
  cases target with
  | some target => exact h.foldl det.usage fun _ _ _ _ hw => hw.link _ _ _
  | none =>
    rw [Scene.placeUsage, Scene.placeUsage]
    split
    next => exact h
    next =>
      exact ⟨h.scene.foldl (fun id hst => hst.remove id) det.usage, congrArg (· ++ _) h.notices⟩

end Splicing.Matched

theorem Matched.addTemplate (h : Matched d i text s t) (hun : d.Unreferenced i)
    (hinst : Paired d i text inst inst') {tmpl : Template}
    (hused : ∀ n ∈ tmpl.nodes, d.Uses n.record) (st : Settings) (component : ComponentId)
    (decoration : Decoration) :
    Splicing.Matched d i text (addTemplate d st inst component decoration tmpl s)
      (addTemplate (d.withString i text) st inst' component decoration tmpl t) := by
  have hstart : Splicing.Matched d i text ⟨s, []⟩ ⟨t, []⟩ := ⟨h, rfl⟩
  refine hstart.foldl tmpl.nodes.zipIdx fun a ha w w' hw => ?_
  obtain ⟨n, node⟩ := a
  have hr : d.Uses n.record := hused n (List.fst_mem_of_mem_zipIdx ha)
  refine ⟨hw.scene.addNode hun hr hinst st component decoration node, ?_⟩
  dsimp only
  rw [hw.notices, hw.scene.nextId_eq, copyHeader_eq hinst,
    Record.notices_withString text (hun.record hr)]

/-- The usage goes to the same place. -/
theorem Matched.usageTarget?_eq (h : Matched d i text s t) (copies roots : List ElementId) :
    t.usageTarget? copies roots = s.usageTarget? copies roots := by
  rw [usageTarget?, usageTarget?]
  have hslot : (fun y => (t.get? y).any (·.slot)) = fun y => (s.get? y).any (·.slot) :=
    funext fun y => h.any_get? y
  rw [hslot]

end Scene

/-! ## Expanding -/

/-- The same came out while matched scenes were made. -/
structure Expansion.Matched (d : Document) (i : Nat) (text : String) (x x' : Expansion) : Prop where
  scene : x.scene.Matched d i text x'.scene
  notices : x'.notices = x.notices
  outcome : x'.outcome = x.outcome

namespace Scene

open Element (Paired)

variable {st : Settings} {s t : Scene} {nest nest' : Scene → ElementId → Expansion}
  {put put' : Scene → Detached → Expansion}

/-- The two expand every element alike. -/
def ExpandAlike (d : Document) (i : Nat) (text : String)
    (nest nest' : Scene → ElementId → Expansion) : Prop :=
  ∀ {s t}, Matched d i text s t → ∀ id, Expansion.Matched d i text (nest s id) (nest' t id)

theorem Splicing.Matched.expandNested {w w' : Splicing} (h : Splicing.Matched d i text w w')
    (hnest : ExpandAlike d i text nest nest') (component : String) (id : ElementId) :
    Splicing.Matched d i text (expandNested nest component w id)
      (expandNested nest' component w' id) := by
  have hinstance : (w'.scene.get? id).any (·.isInstance) = (w.scene.get? id).any (·.isInstance) :=
    h.scene.any_get? id
  rw [Scene.expandNested, Scene.expandNested, hinstance]
  split
  next =>
    have hx := hnest h.scene id
    dsimp only
    rw [hx.outcome, hx.notices, h.notices]
    exact ⟨hx.scene, rfl⟩
  next => exact h

namespace Matched

theorem splice (h : Matched d i text s t) (hun : d.Unreferenced i)
    (hnest : ExpandAlike d i text nest nest') {tmpl : Template}
    (hused : ∀ n ∈ tmpl.nodes, d.Uses n.record) (st : Settings) (component : ComponentId)
    (det : Detached) :
    Expansion.Matched d i text (splice d st nest component tmpl s det)
      (splice (d.withString i text) st nest' component tmpl t det) := by
  rw [Scene.splice, Scene.splice]
  rcases h.cases det.id with ⟨hs, ht⟩ | ⟨inst, inst', hs, ht, hinst⟩
  · rw [hs, ht]
    exact ⟨h, rfl, rfl⟩
  · rw [hs, ht, h.copyId_eq]
    have hmade := h.addTemplate hun hinst hused st component det.decoration
    have hrooted := (hmade.linkCopies det.component s.copyId tmpl).attachRoots det
      (tmpl.roots.map s.copyId)
    have hnested := hrooted.foldl (f := expandNested nest det.component)
      (g := expandNested nest' det.component) ((List.range tmpl.nodes.length).map s.copyId)
      fun id _ _ _ hw => hw.expandNested hnest det.component id
    dsimp only
    rw [hnested.scene.usageTarget?_eq]
    have hplaced := hnested.placeUsage det
    exact ⟨(hplaced _).scene, (hplaced _).notices, rfl⟩

theorem strip (h : Matched d i text s t) (id : ElementId) (usage roots : List ElementId) :
    Matched d i text (s.strip id usage roots) (t.strip id usage roots) := by
  have hfreed := (h.foldl (fun y hst => hst.unlink y) usage).foldl (fun y hst => hst.remove y) roots
  rw [Scene.strip, Scene.strip, hfreed.sameShape.children]
  exact hfreed.foldl (fun y hst => hst.remove y) _

/-- An instance is taken apart on both sides. -/
theorem detach? (h : Matched d i text s t) (id : ElementId) :
    s.detach? id = none ∧ t.detach? id = none ∨ ∃ bare bare' det, s.detach? id = some (bare, det) ∧
      t.detach? id = some (bare', det) ∧ Matched d i text bare bare' := by
  by_cases hinst : ∃ e inst, s.get? id = some e ∧ e.instance? = some inst
  · obtain ⟨e, inst, he, hi⟩ := hinst
    obtain ⟨e', he', hp⟩ : ∃ e', t.get? id = some e' ∧ Paired d i text e e' := by
      rcases h.cases id with ⟨hs, -⟩ | ⟨e₁, e', hs, ht, hp⟩
      · cases he.symm.trans hs
      · cases he.symm.trans hs
        exact ⟨e', ht, hp⟩
    have hi' : e'.instance? = some inst := (hp.reading (g := Element.instance?)).trans hi
    have husage : e'.usage = e.usage := hp.reading
    have hroots : e'.oldRoots = e.oldRoots := hp.reading
    have htaken : taken id e' inst = taken id e inst :=
      hp.reading (g := fun e => taken id e inst)
    refine .inr ⟨_, _, _, detach?_of_instance he hi, ?_, (h.edit id).strip id e.usage e.oldRoots⟩
    rw [detach?_of_instance he' hi', husage, hroots, htaken]
    rfl
  · refine .inl ⟨detach?_of_not_instance hinst, detach?_of_not_instance ?_⟩
    rintro ⟨e', inst, he', hi'⟩
    rcases h.cases id with ⟨-, ht⟩ | ⟨e, e₁, hs, ht, hp⟩
    · cases he'.symm.trans ht
    · cases he'.symm.trans ht
      exact hinst ⟨e, inst, hs, (hp.reading (g := Element.instance?)).symm.trans hi'⟩

theorem settleInstance (h : Matched d i text s t) (id : ElementId) (usage roots : List ElementId)
    (decoration : Decoration) :
    Matched d i text (s.settleInstance id usage roots decoration)
      (t.settleInstance id usage roots decoration) := by
  refine h.edit id (fun _ _ => rfl) fun e => ?_
  cases hrole : e.role <;>
    simp only [Element.pattern, Element.instance?, hrole, Role.instance?, Option.map_some,
      Option.map_none]

theorem expandWith (h : Matched d i text s t) (id : ElementId)
    (hput : ∀ {s t} det, Matched d i text s t → Expansion.Matched d i text (put s det) (put' t det)) :
    Expansion.Matched d i text (expandWith put s id) (expandWith put' t id) := by
  rw [Scene.expandWith, Scene.expandWith]
  rcases h.detach? id with ⟨hs, ht⟩ | ⟨bare, bare', det, hs, ht, hbare⟩
  · rw [hs, ht]
    exact ⟨h, rfl, rfl⟩
  · rw [hs, ht]
    have hx := hput det hbare
    dsimp only
    rw [hx.outcome]
    split
    next roots hout =>
      have hkept : det.usage.filter (put' bare' det).scene.contains =
          det.usage.filter (put bare det).scene.contains :=
        List.filter_congr fun y _ => hx.scene.sameShape.contains y
      rw [hkept]
      exact ⟨hx.scene.settleInstance id _ roots det.decoration, hx.notices, rfl⟩
    next cause hout =>
      have hcleared := hx.scene.foldl (fun y hst => hst.remove y) det.usage
      exact ⟨(hcleared.edit id).settleInstance id [] [] .none, hx.notices, rfl⟩

end Matched

/-- Whatever the components are, and however many levels are left, every
element is expanded alike. -/
theorem expandAlike_expandWithin (h : d.Unreferenced i) (text : String) (st : Settings)
    (levels : Nat) (enclosing : List ComponentId) :
    ExpandAlike d i text (expandWithin d st levels enclosing)
      (expandWithin (d.withString i text) st levels enclosing) := by
  have hfind (enclosing : List ComponentId) (det : Detached) :
      findComponent (d.withString i text) enclosing det = findComponent d enclosing det := rfl
  induction levels generalizing enclosing with
  | zero =>
    intro s t hst id
    exact hst.expandWith id fun det hbare => ⟨hbare, rfl, rfl⟩
  | succ levels ih =>
    intro s t hst id
    rw [expandWithin, expandWithin]
    refine hst.expandWith id fun {s t} det hbare => ?_
    rw [hfind]
    cases hfound : findComponent d enclosing det with
    | error cause => exact ⟨hbare, rfl, rfl⟩
    | ok found =>
      obtain ⟨component, c⟩ := found
      dsimp only
      cases hread : Template.read c.template with
      | error cause => exact ⟨hbare, rfl, rfl⟩
      | ok tmpl =>
        have hmem : c ∈ d.components := by
          obtain ⟨id, -, hc⟩ := Option.bind_eq_some_iff.mp (findComponent_eq_ok hfound)
          exact List.mem_of_getElem? hc
        exact hbare.splice h (ih (component :: enclosing))
          (fun n hn => .inr ⟨c, hmem, tmpl, hread, n, hn, rfl⟩) st component det

/-- The same was done so far in expanding matched scenes. -/
structure ExpansionRun.Matched (d : Document) (i : Nat) (text : String) (run run' : ExpansionRun) :
    Prop where
  scene : run.scene.Matched d i text run'.scene
  notices : run'.notices = run.notices
  count : run'.count = run.count

theorem ExpansionRun.Matched.expandPending {run run' : ExpansionRun}
    (h : ExpansionRun.Matched d i text run run') (hun : d.Unreferenced i) (st : Settings)
    (id : ElementId) :
    ExpansionRun.Matched d i text (expandPending d st run id)
      (expandPending (d.withString i text) st run' id) := by
  have hpending : (run'.scene.get? id).any (·.isPending) = (run.scene.get? id).any (·.isPending) :=
    h.scene.any_get? id
  rw [Scene.expandPending, Scene.expandPending, hpending]
  split
  next =>
    have hx : Expansion.Matched d i text (run.scene.expand d st id)
        (run'.scene.expand (d.withString i text) st id) :=
      expandAlike_expandWithin hun text st maxDepth [] h.scene id
    dsimp only
    rw [hx.outcome, hx.notices, h.notices, h.count]
    split
    next => exact ⟨hx.scene, rfl, rfl⟩
    next => exact ⟨hx.scene, rfl, rfl⟩
  next => exact h

/-- Expanding everything that is pending does the same on both sides. -/
theorem Matched.expandAll (h : Matched d i text s t) (hun : d.Unreferenced i) (st : Settings) :
    ExpansionRun.Matched d i text (s.expandAll d st) (t.expandAll (d.withString i text) st) := by
  have hids : (t.elements.filter (·.isPending)).map (·.id) =
      (s.elements.filter (·.isPending)).map (·.id) := h.map_filter_elements
  rw [Scene.expandAll, Scene.expandAll, hids]
  have hstart : ExpansionRun.Matched d i text ⟨s, [], 0⟩ ⟨t, [], 0⟩ := ⟨h, rfl, rfl⟩
  exact List.foldl_rel hstart fun id _ _ _ hrun => hrun.expandPending hun st id

end Scene

end SceneTree
