import SceneTree.Proofs.Expand.Matched
import SceneTree.Proofs.Session.Linked

/-!
# A string nothing points at

Two documents that differ in one string are loaded, and nothing points at
that string. Then the settings are the same, loading notes the same and
fails with the same fault or not at all, and the two scenes differ in the
texts of elements at most (`load_withString`).

The texts themselves are the same too, unless a resource of that number is
passed to a component. Where a template asks for it as text, the string
stands in for the path of the resource: the number is looked up in the
table of the strings (`tagged_told`).
-/

namespace SceneTree

variable {d : Document} {i : Nat} {text : String}

namespace Scene

/-! ## Linked documents -/

theorem matched_ofDocument (h : d.Unreferenced i) (st : Settings) (text : String) :
    Matched d i text (ofDocument d st) (ofDocument (d.withString i text) st) := by
  obtain ⟨hsize, hget⟩ := get?_ofDocument d st
  obtain ⟨hsize', hget'⟩ := get?_ofDocument (d.withString i text) st
  refine ⟨hsize'.trans hsize.symm, fun y => ?_⟩
  rw [hget, hget', show (d.withString i text).records = d.records from rfl]
  cases hr : d.records[y.index]? with
  | none => exact .none
  | some r =>
    have huse : d.Uses r := .inl (List.mem_of_getElem? hr)
    have hmade := Element.become_withString text h (h.record huse) st
      (e := .fresh y (.document y.index) r.header) (h.name r huse)
    rw [Option.map_some, Option.map_some, Element.ofRecord, Element.ofRecord, hmade]
    exact .some (.refl (Element.passes_become huse st _))

theorem populateNotices_withString (h : d.Unreferenced i) (text : String) :
    (d.withString i text).populateNotices = d.populateNotices := by
  rw [Document.populateNotices, Document.populateNotices]
  refine List.flatMap_congr fun a ha => ?_
  have huse : d.Uses a.1 := .inl (List.fst_mem_of_mem_zipIdx ha)
  exact Record.notices_withString text (h.record huse) _ _

end Scene

/-- The same references were skipped in linking matched scenes. -/
structure Linking.Matched (d : Document) (i : Nat) (text : String) (l l' : Linking) : Prop where
  scene : l.scene.Matched d i text l'.scene
  skipped : l'.skipped = l.skipped

theorem Linking.Matched.take {l l' : Linking} (h : Linking.Matched d i text l l')
    (ref : ElementId × Nat) :
    Linking.Matched d i text (l.take d ref) (l'.take (d.withString i text) ref) := by
  rw [Linking.take, Linking.take, show (d.withString i text).recordAt? ref.2 = d.recordAt? ref.2
    from rfl]
  cases d.recordAt? ref.2 with
  | none => exact ⟨h.scene, congrArg (· ++ _) h.skipped⟩
  | some child =>
    dsimp only
    rcases h.scene.link ref.1 child with ⟨fault, hs, ht⟩ | ⟨s₁, t₁, hs, ht, hlinked⟩
    · rw [hs, ht]
      exact ⟨h.scene, congrArg (· ++ _) h.skipped⟩
    · rw [hs, ht]
      exact ⟨hlinked, h.skipped⟩

namespace Scene

variable {st : Settings} {s t : Scene}

theorem Matched.connect (h : Matched d i text s t) :
    Linking.Matched d i text (s.connect d) (t.connect (d.withString i text)) := by
  have hstart : Linking.Matched d i text ⟨s, []⟩ ⟨t, []⟩ := ⟨h, rfl⟩
  rw [Scene.connect, Scene.connect, show (d.withString i text).offsets = d.offsets from rfl,
    show (d.withString i text).records = d.records from rfl,
    show (d.withString i text).refs = d.refs from rfl]
  by_cases hcount : d.offsets.length = d.records.length
  · rw [if_pos hcount, if_pos hcount]
    exact List.foldl_rel hstart fun ref _ _ _ hl => hl.take ref
  · rw [if_neg hcount, if_neg hcount]
    exact hstart

/-- A document is linked alike under the other string. -/
theorem matched_linkedScene (h : d.Unreferenced i) (st : Settings) (text : String) :
    Matched d i text (Session.linkedScene d st).1 (Session.linkedScene (d.withString i text) st).1 ∧
      (Session.linkedScene (d.withString i text) st).2 = (Session.linkedScene d st).2 := by
  have hlinking := (matched_ofDocument h st text).connect
  refine ⟨hlinking.scene, ?_⟩
  rw [Session.linkedScene, Session.linkedScene]
  dsimp only
  rw [hlinking.skipped, populateNotices_withString h]

theorem Matched.rootsOf_eq (h : Matched d i text s t) :
    t.rootsOf (d.withString i text) = s.rootsOf d := by
  rw [rootsOf, rootsOf, documentRoots, documentRoots, h.roots_eq]
  rfl

end Scene

/-! ## Textures and styles -/

/-- Loading textures for matched scenes has come as far on both sides. -/
structure TextureRun.Matched (d : Document) (i : Nat) (text : String) (run run' : TextureRun) :
    Prop where
  scene : run.scene.Matched d i text run'.scene
  store : run'.store = run.store
  loaded : run'.loaded = run.loaded
  failed : run'.failed = run.failed
  notices : run'.notices = run.notices

theorem TextureRun.Matched.take {run run' : TextureRun} (h : TextureRun.Matched d i text run run')
    (loader : Loader) (wanted : ElementId × UInt8) :
    TextureRun.Matched d i text (run.take d loader wanted)
      (run'.take (d.withString i text) loader wanted) := by
  obtain ⟨id, index⟩ := wanted
  have hget : run'.store.get (d.withString i text) loader index = run.store.get d loader index := by
    rw [h.store]
    rfl
  simp only [TextureRun.take, hget]
  cases (run.store.get d loader index).1 with
  | ok texture => exact ⟨h.scene.edit id, rfl, congrArg (· + 1) h.loaded, h.failed, h.notices⟩
  | error cause =>
    exact ⟨h.scene.edit id, rfl, h.loaded, congrArg (· + 1) h.failed, congrArg (· ++ _) h.notices⟩

namespace Scene

variable {s t : Scene}

theorem Matched.loadTextures (h : Matched d i text s t) (store : TextureStore) (loader : Loader) :
    TextureRun.Matched d i text (s.loadTextures store d loader)
      (t.loadTextures store (d.withString i text) loader) := by
  have hwanting : t.wanting = s.wanting := by
    have hmap := h.map_filter_elements (p := fun e => !e.textureLoaded)
      (g := fun e => e.resource.map (e.id, ·))
    have hread (s : Scene) : s.wanting = ((s.elements.filter (!·.textureLoaded)).map
        fun e => e.resource.map (e.id, ·)).filterMap id := by
      rw [List.filterMap_map]
      rfl
    rw [hread, hread, hmap]
  rw [Scene.loadTextures, Scene.loadTextures, hwanting]
  have hstart : TextureRun.Matched d i text ⟨s, store, 0, 0, []⟩ ⟨t, store, 0, 0, []⟩ :=
    ⟨h, rfl, rfl, rfl, rfl⟩
  exact List.foldl_rel hstart fun wanted _ _ _ hrun => hrun.take loader wanted

theorem Matched.stylesWithin_eq (h : Matched d i text s t) (n : Nat)
    (start : List (ElementId × TextStyle)) : t.stylesWithin n start = s.stylesWithin n start := by
  induction n generalizing start with
  | zero => rfl
  | succ n ih =>
    cases start with
    | nil => rfl
    | cons a rest =>
      obtain ⟨y, inherited⟩ := a
      rw [stylesWithin, stylesWithin]
      rcases h.cases y with ⟨hs, ht⟩ | ⟨e, e', hs, ht, hp⟩
      · rw [hs, ht]
        exact ih rest
      · have hlook : e'.look = e.look := hp.reading
        have hchildren : e'.children = e.children := hp.reading
        rw [hs, ht]
        simp only [hlook, hchildren, ih]

theorem Matched.inherit (h : Matched d i text s t) (st : Settings) :
    Matched d i text (s.inherit st) (t.inherit st) := by
  rw [Scene.inherit, Scene.inherit, h.roots_eq, h.size, h.stylesWithin_eq]
  exact h.foldl (fun a hst => hst.edit a.1) _

/-! ## Texts -/

/-- Where no resource of that number is passed, the texts are the same
too. -/
theorem Matched.eq (h : Matched d i text s t)
    (hpasses : ∀ j : UInt8, j.toNat = i → ¬ d.Passes (.resource j)) : t = s := by
  refine Alike.eq ⟨h.size, fun y => ?_⟩
  rcases h.cases y with ⟨hs, ht⟩ | ⟨e, e', hs, ht, hp⟩
  · rw [hs, ht]
  · have htext : e'.text = e.text := by
      rcases hp.retold with hsame | ⟨j, hj, hpassed, -⟩
      · exact hsame
      · exact absurd hpassed (hpasses j hj)
    have hsame : e' = e := by
      rw [hp.same, htext]
      rfl
    rw [hs, ht, hsame]

end Scene

/-- The record of a text. -/
def Record.label (text : UInt8) : Record :=
  { Record.ofHeader (.ofWidget .text) with properties := [⟨.textContent, .string text⟩] }

/-- A tag that asks for its icon as text, and an instance that passes a
resource for it. Nothing points at the second string. -/
def Document.tagged : Document :=
  { Document.blank with
    strings := ["", "unused", "$icon", componentKey, "Tag", "icon"]
    records :=
      [{ Record.ofHeader (.ofWidget .app) with childRefs := [18] },
        { Record.blank with customs := [⟨3, .string 4⟩, ⟨5, .resource 1⟩] }]
    offsets := [0, 18]
    components := [{ name := "Tag", parameters := [], template := (Record.label 2).toBytes }]
    resources := ["background.png", "logo.png"] }

namespace Session

open Scene (Matched)

/-- If nothing points at a string, then with another string in its place
the settings are the same, what loading notes is the same, and loading
fails with the same fault or gives a session with a scene that differs in
texts only. Where they differ, each is the string of its document, passed
as a resource. If no resource of that number is passed, the scenes are the
same. -/
theorem load_withString (h : d.Unreferenced i) (text : String) (handlers : Handlers)
    (options : SessionOptions) :
    let d' := d.withString i text
    Settings.ofDocument d' = Settings.ofDocument d ∧
    (load d' handlers options).2 = (load d handlers options).2 ∧
    ((∃ fault, (load d handlers options).1 = .error fault ∧
        (load d' handlers options).1 = .error fault) ∨
      ∃ s scene, (load d handlers options).1 = .ok s ∧
        (load d' handlers options).1 = .ok { s with document := d', scene } ∧
        Matched d i text s.scene scene ∧
        ((∀ j : UInt8, j.toNat = i → ¬ d.Passes (.resource j)) → scene = s.scene)) := by
  intro d'
  have hsettings : Settings.ofDocument d' = Settings.ofDocument d :=
    Settings.ofDocument_withString text h
  obtain ⟨hlinked, hnotices⟩ := Scene.matched_linkedScene h (Settings.ofDocument d) text
  refine ⟨hsettings, ?_⟩
  simp only [load, hsettings]
  rw [hlinked.rootsOf_eq, hnotices]
  cases hroots : (linkedScene d (Settings.ofDocument d)).1.rootsOf d with
  | error fault => exact ⟨rfl, .inl ⟨fault, rfl, rfl⟩⟩
  | ok roots =>
    have hexpanded := hlinked.expandAll h (Settings.ofDocument d)
    have htextured := hexpanded.scene.loadTextures .empty options.loader
    have hscene := htextured.scene.inherit (Settings.ofDocument d)
    dsimp only
    rw [hexpanded.notices, htextured.notices, htextured.store]
    refine ⟨rfl, .inr ⟨_, _, rfl, rfl, ?_⟩⟩
    dsimp only
    exact ⟨hscene, hscene.eq⟩

theorem tagged_unreferenced : Document.tagged.Unreferenced 1 := by
  have huses {r : Record} (hr : Document.tagged.Uses r) :
      r ∈ Document.tagged.records ++ [Record.label 2] := by
    rcases hr with hr | ⟨c, hc, t, ht, n, hn, rfl⟩
    · exact List.mem_append_left _ hr
    · obtain rfl := List.mem_singleton.mp hc
      cases ht.symm.trans (show Template.read (Record.label 2).toBytes =
        .ok ⟨[⟨0, Record.label 2⟩], [], []⟩ from rfl)
      obtain rfl := List.mem_singleton.mp hn
      exact List.mem_append_right _ List.mem_cons_self
  have hvalues : ∀ r ∈ Document.tagged.records ++ [Record.label 2],
      (∀ p ∈ r.properties, p.value ≠ .string 1) ∧ ∀ c ∈ r.customs, c.value ≠ .string 1 := by
    decide
  refine ⟨fun r hr => ?_, fun r hr => ?_, fun r hr => ?_, fun j hj hone => ?_⟩
  · exact (by decide : ∀ r ∈ Document.tagged.records ++ [Record.label 2],
      r.header.nameIndex.toNat ≠ 1) r (huses hr)
  · exact (by decide : ∀ r ∈ Document.tagged.records ++ [Record.label 2],
      ∀ c ∈ r.customs, c.key.toNat ≠ 1) r (huses hr)
  · exact (by decide : ∀ r ∈ Document.tagged.records ++ [Record.label 2],
      ∀ t ∈ r.triggers, t.callback.toNat ≠ 1) r (huses hr)
  · obtain rfl : j = 1 := UInt8.toNat.inj hone
    rcases hj with (⟨r, hr, p, hp, hv⟩ | ⟨style, hs, -⟩) | (⟨r, hr, c, hc, hv⟩ | ⟨c, hc, p, hp, -⟩)
    · exact (hvalues r (huses hr)).1 p hp hv
    · exact absurd hs List.not_mem_nil
    · exact (hvalues r (huses hr)).2 c hc hv
    · obtain rfl := List.mem_singleton.mp hc
      exact absurd hp List.not_mem_nil

/-- The tag shows the second string, and that is all that changes with
it. -/
theorem tagged_told : ∃ s scene e, (load .tagged .none .standard).1 = .ok s ∧
    (load (Document.tagged.withString 1 "other") .none .standard).1 =
      .ok { s with document := Document.tagged.withString 1 "other", scene } ∧
    s.scene.get? ⟨2⟩ = some e ∧ e.text = some "unused" ∧
    scene.get? ⟨2⟩ = some (e.withText (some "other")) ∧
      Matched .tagged 1 "other" s.scene scene := by
  obtain ⟨-, -, ⟨fault, hfault, -⟩ | ⟨s, scene, hs, hs', hmatched, -⟩⟩ :=
    load_withString tagged_unreferenced "other" .none .standard
  · cases hfault
  · cases hs
    cases hs'
    exact ⟨_, _, _, rfl, rfl, rfl, rfl, rfl, hmatched⟩

/-- So a string that nothing points at is not always without effect. -/
theorem tagged_not_inert : Document.tagged.Unreferenced 1 ∧ ∃ s s',
    (load .tagged .none .standard).1 = .ok s ∧
    (load (Document.tagged.withString 1 "other") .none .standard).1 = .ok s' ∧
      s'.scene ≠ s.scene := by
  refine ⟨tagged_unreferenced, _, _, rfl, rfl, fun hsame => ?_⟩
  have htext := congrArg (fun t : Scene => (t.get? ⟨2⟩).bind (·.text)) hsame
  exact absurd htext (by decide)

end Session

end SceneTree
