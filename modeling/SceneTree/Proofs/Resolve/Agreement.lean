import SceneTree.Proofs.Resolve.Precedence
import SceneTree.Scene.Inherit

/-!
# The settings and the application

The style and the properties of the application record are read twice:
for the settings of the document, and for the element that is made of the
record, which starts from these settings. Two readers go over the same
values, and each takes some attributes and leaves the others. Where both
take an attribute they have to take the same values of it, or the
application shows other colours than it handed to everything below it.

That they do is said of one property (`Look.Agrees.set`), and then of a
run. The runs do not start alike: the settings start from the standard
ones, the element from settings that have all this in them already. So
the settings are read a second time, from their own result, which changes
nothing (`Settings.after_after`), and this reading goes side by side with
that of the element.
-/

namespace SceneTree

variable {d : Document}

namespace Settings

/-! ## A run of writes -/

/-- Settings with the last fitting value of each attribute in a list of
properties put over them. -/
def overlay (d : Document) (ps : List Property) (s : Settings) : Settings :=
  { background := (given? ps .backgroundColor Value.toColor?).getD s.background
    foreground := (given? ps .foregroundColor Value.toColor?).getD s.foreground
    borderColor := (given? ps .borderColor Value.toColor?).getD s.borderColor
    borderWidth := (given? ps .borderWidth Value.toNumber?).getD s.borderWidth
    textAlign := ((given? ps .textAlignment Value.toNumber?).map
      fun n => TextAlign.ofByte n.toUInt8).getD s.textAlign
    visible := ((given? ps .visibility Value.toNumber?).map (· != 0)).getD s.visible
    fontSize := (given? ps .fontSize positive?).getD s.fontSize
    fontFamily := (given? ps .fontFamily d.stringOf?).getD s.fontFamily
    fontWeight := ((given? ps .fontWeight Value.toNumber?).map
      FontWeight.ofScaledNumber).getD s.fontWeight
    scale := (given? ps .scaleFactor scaleOf?).getD s.scale
    windowWidth := (given? ps .windowWidth positive?).getD s.windowWidth
    windowHeight := (given? ps .windowHeight positive?).getD s.windowHeight
    title := (given? ps .windowTitle d.stringOf?).getD s.title }

variable {s : Settings} {ps qs : List Property}

theorem overlay_append : overlay d (ps ++ qs) s = overlay d qs (overlay d ps s) := by
  simp only [overlay, given?_append, Option.map_or, Option.getD_or]

theorem set_eq_overlay (p : Property) : set d s p = overlay d [p] s := by
  obtain ⟨target, v⟩ := p
  simp only [overlay, given?_singleton, Property.offers?, set]
  cases target with
  | backgroundColor | foregroundColor | borderColor => cases v.toColor? <;> rfl
  | fontSize | windowWidth | windowHeight => cases positive? v <;> rfl
  | fontFamily | windowTitle => cases d.stringOf? v <;> rfl
  | scaleFactor => cases scaleOf? v <;> rfl
  | borderWidth | textAlignment | visibility | fontWeight => cases v.toNumber? <;> rfl
  | _ => rfl

theorem foldl_set (ps : List Property) (s : Settings) : ps.foldl (set d) s = overlay d ps s := by
  induction ps generalizing s with
  | nil => rfl
  | cons p ps ih =>
    rw [List.foldl_cons, ih, set_eq_overlay, ← overlay_append, List.singleton_append]

/-! ## The settings of a document -/

/-- Settings after all that the style, the header and the properties of a
record say about them. -/
def after (d : Document) (app : Record) (s : Settings) : Settings :=
  app.properties.foldl (set d)
    (setWindow app.header ((Attributes.styledBy d app.header).foldl (set d) s))

theorem ofDocument_eq {app : Record} (happ : d.app? = some app) :
    ofDocument d = after d app standard := by
  simp only [ofDocument, happ, after, Attributes.styledBy]
  cases d.style? app.header.styleId <;> rfl

section Again

variable {α : Type} (own styled : Option α) (v w : α) (c : Prop) [Decidable c]

theorem getD_again :
    own.getD (styled.getD (own.getD (styled.getD v))) = own.getD (styled.getD v) := by
  cases own <;> cases styled <;> rfl

/-- Also where a header stands between the two. -/
theorem getD_ite_again :
    own.getD (if c then styled.getD (own.getD (if c then styled.getD v else w)) else w) =
      own.getD (if c then styled.getD v else w) := by
  by_cases h : c
  · simp only [if_pos h, getD_again]
  · simp only [if_neg h]

end Again

/-- To read a record a second time changes nothing. -/
theorem after_after (app : Record) (s : Settings) :
    after d app (after d app s) = after d app s := by
  simp only [after, foldl_set, overlay, setWindow, getD_again, getD_ite_again]

end Settings

/-! ## Side by side -/

/-- Over a text style a look comes to the same as the settings. -/
structure Look.Agrees (base : TextStyle) (s : Settings) (l : Look) : Prop where
  background : l.background = s.background
  visible : l.visible = s.visible
  textStyle : base.under l = s.textStyle

namespace Look.Agrees

variable {α : Type} {base : TextStyle} {s : Settings} {a : Attributes} {o : Option α}
  {f : α → Settings} {g : α → Attributes}

/-- A value that the settings alone take. -/
theorem settings (h : Agrees base s a.look) (hf : ∀ v, Agrees base (f v) a.look) :
    Agrees base (o.elim s f) a.look := by
  cases o with
  | none => exact h
  | some v => exact hf v

/-- A value that the element alone takes. -/
theorem look (h : Agrees base s a.look) (hg : ∀ v, Agrees base s (g v).look) :
    Agrees base s (o.elim a g).look := by
  cases o with
  | none => exact h
  | some v => exact hg v

/-- A value that both take. -/
theorem both (h : Agrees base s a.look) (hfg : ∀ v, Agrees base (f v) (g v).look) :
    Agrees base (o.elim s f) (o.elim a g).look := by
  cases o with
  | none => exact h
  | some v => exact hfg v

/-- What one property changes it changes on both sides. Of a border the
settings want a number and the element four edges, but a border is none of
what is compared. -/
theorem set (h : Agrees base s a.look) (p : Property) :
    Agrees base (s.set d p) (a.set d p).look := by
  have ⟨hbackground, hvisible, htext⟩ := h
  obtain ⟨target, v⟩ := p
  cases target with
  | backgroundColor => exact both h fun c => ⟨rfl, hvisible, htext⟩
  | visibility => exact both h fun n => ⟨hbackground, rfl, htext⟩
  | foregroundColor =>
    exact both h fun c => ⟨hbackground, hvisible, congrArg ({ · with color := c }) htext⟩
  | fontSize =>
    exact both h fun n => ⟨hbackground, hvisible, congrArg ({ · with fontSize := n }) htext⟩
  | fontFamily =>
    exact both h fun t => ⟨hbackground, hvisible, congrArg ({ · with fontFamily := t }) htext⟩
  | fontWeight =>
    exact both h fun n =>
      ⟨hbackground, hvisible, congrArg ({ · with fontWeight := .ofScaledNumber n }) htext⟩
  | textAlignment =>
    exact both h fun n =>
      ⟨hbackground, hvisible, congrArg ({ · with align := .ofByte n.toUInt8 }) htext⟩
  | borderColor => exact both h fun c => ⟨hbackground, hvisible, htext⟩
  | borderWidth =>
    have hs : Agrees base (s.set d ⟨.borderWidth, v⟩) a.look :=
      settings h fun n => ⟨hbackground, hvisible, htext⟩
    exact look hs fun e => ⟨hs.background, hs.visible, hs.textStyle⟩
  | windowWidth | windowHeight | windowTitle | scaleFactor =>
    exact settings h fun n => ⟨hbackground, hvisible, htext⟩
  | other => exact h
  | _ => exact look h fun n => ⟨hbackground, hvisible, htext⟩

/-- So does a run of properties. -/
theorem foldl (h : Agrees base s a.look) (ps : List Property) :
    Agrees base (ps.foldl (Settings.set d) s) (ps.foldl (Attributes.set d) a).look := by
  induction ps generalizing s a with
  | nil => exact h
  | cons p ps ih => exact ih (h.set p)

/-- A style that is missing is one without properties. -/
theorem setStyle (h : Agrees base s a.look) (hd : Header) :
    Agrees base ((Attributes.styledBy d hd).foldl (Settings.set d) s) (a.setStyle d hd).look := by
  rw [Attributes.setStyle_eq, ← Attributes.foldl_set]
  exact h.foldl _

theorem setWindow (h : Agrees base s a.look) (hd : Header) :
    Agrees base (s.setWindow hd) (a.setHeader hd).look :=
  ⟨h.background, h.visible, h.textStyle⟩

theorem settleBorder (h : Agrees base s a.look) (st : Settings) :
    Agrees base s (a.settleBorder st).look := by
  unfold Attributes.settleBorder
  split
  next =>
    split
    next => exact ⟨h.background, h.visible, h.textStyle⟩
    next => exact h
  next =>
    split
    next => exact h
    next => exact ⟨h.background, h.visible, h.textStyle⟩

/-- An application agrees from the start with the settings it is resolved
under. -/
theorem initial (st : Settings) :
    Agrees st.textStyle st (Attributes.initial st .app).look :=
  ⟨rfl, rfl, rfl⟩

end Look.Agrees

/-! ## The application -/

/-- The header of the application record is that of an application. -/
theorem Document.widget_of_app? {app : Record} (happ : d.app? = some app) :
    app.header.widget = .app := by
  simpa using List.find?_some happ

/-- The element of the application record looks as the settings that were
read from the same record say: it has their background and is visible as
they say, and what is set on it in the text style of the settings is what
the settings set themselves. This is so for all styles and properties, with
values that fit or do not. -/
theorem Element.resolve_app_agrees {app : Record} (e : Element) (happ : d.app? = some app)
    (hheader : e.header = app.header) :
    let st := Settings.ofDocument d
    let own := (e.resolve d st app).look
    own.background = st.background ∧ own.visible = st.visible ∧
      st.textStyle.under own = st.textStyle := by
  intro st own
  have hlayers : st.after d app = st := by
    simp only [st, Settings.ofDocument_eq happ, Settings.after_after]
  have hown : own = (Attributes.ofRecord d st app.header app).look := by
    simp only [own, resolve, hheader]
  have hstart : Look.Agrees st.textStyle st (Attributes.initial st app.header.widget).look := by
    rw [Document.widget_of_app? happ]
    exact .initial st
  have hagrees : Look.Agrees st.textStyle (st.after d app) own := by
    rw [hown]
    exact ((hstart.setStyle app.header).setWindow app.header).foldl app.properties
      |>.settleBorder st
  rw [hlayers] at hagrees
  exact ⟨hagrees.background, hagrees.visible, hagrees.textStyle⟩

/-- An application with a style: a colour and a font size that fit, then
values that do not, one of them the index of a string that is not there. -/
def Document.fronted : Document :=
  { Document.blank with
    strings := ["", "serif"]
    records :=
      [{ Record.ofHeader { Header.ofWidget .app with styleId := 1, width := 320 } with
          properties :=
            [⟨.fontSize, .short 0⟩, ⟨.fontFamily, .string 9⟩, ⟨.backgroundColor, .byte 7⟩,
              ⟨.visibility, .byte 0⟩] }]
    offsets := [0]
    styles :=
      [{ id := 1, name := "front"
         properties :=
          [⟨.backgroundColor, .color .gray⟩, ⟨.fontSize, .short 20⟩, ⟨.fontFamily, .string 1⟩] }] }

theorem Element.resolve_app_agrees_fronted : ∃ app,
    Document.fronted.app? = some app ∧
      let st := Settings.ofDocument Document.fronted
      let e := Element.fresh ⟨0⟩ (.document 0) app.header
      let own := (e.resolve Document.fronted st app).look
      st.background = .gray ∧ st.visible = false ∧ st.fontSize = 20 ∧ st.fontFamily = "serif" ∧
        own.background = st.background ∧ own.visible = st.visible ∧
        st.textStyle.under own = st.textStyle := by
  refine ⟨_, rfl, ?_⟩
  refine ⟨by decide +kernel, by decide +kernel, by decide +kernel, by decide +kernel, ?_⟩
  exact resolve_app_agrees _ rfl rfl

end SceneTree
