import SceneTree.Resolve

/-!
# Which layer wins

An attribute has the value of the last property that aims at it and fits:
the record's own properties come after those of the style, and a property
whose value does not fit counts for nothing. What no property gives stays
as the settings and the widget have it. The header stands between style
and record, but only for the width, the height and the layout byte
(`Attributes.layered`).

The code says none of this. It writes one property after another over the
same fields. The bridge is `Attributes.foldl_set`: a run of writes leaves,
in every field at once, the last value that fits over what was there.
That runs can be put together (`Attributes.overlay_append`) then carries two
layers over the start, and the header between them.
-/

namespace SceneTree

variable {α β : Type} {d : Document} {s : Settings}

/-! ## The last value that fits -/

/-- What a property says about an attribute, if its value reads as one. -/
def Property.offers? (p : Property) (target : Attribute) (read : Value → Option α) : Option α :=
  if p.target = target then read p.value else none

/-- The last value for an attribute in a list of properties. -/
def given? (ps : List Property) (target : Attribute) (read : Value → Option α) : Option α :=
  ps.reverse.findSome? (·.offers? target read)

section Given

variable {ps qs : List Property} {p : Property} {target : Attribute} {read : Value → Option α}

theorem given?_append : given? (ps ++ qs) target read
    = (given? qs target read).or (given? ps target read) := by
  simp [given?, List.findSome?_append]

theorem given?_singleton : given? [p] target read = p.offers? target read := by
  simp [given?]

theorem Property.offers?_eq_some {v : α} :
    p.offers? target read = some v ↔ p.target = target ∧ read p.value = some v := by
  simp [offers?]

/-- A value is given by one property, and no later one for the same
attribute fits. -/
theorem given?_eq_some_iff {v : α} : given? ps target read = some v ↔
    ∃ before p after, ps = before ++ p :: after ∧ p.target = target ∧ read p.value = some v ∧
      ∀ q ∈ after, q.offers? target read = none := by
  rw [given?, List.findSome?_eq_some_iff]
  constructor
  · rintro ⟨after, p, before, hps, hv, hlater⟩
    obtain ⟨htarget, hread⟩ := Property.offers?_eq_some.mp hv
    refine ⟨before.reverse, p, after.reverse, ?_, htarget, hread, ?_⟩
    · rw [← List.reverse_reverse ps, hps]
      simp
    · intro q hq
      exact hlater q (List.mem_reverse.mp hq)
  · rintro ⟨before, p, after, rfl, htarget, hread, hlater⟩
    refine ⟨after.reverse, p, before.reverse, by simp, ?_, ?_⟩
    · exact Property.offers?_eq_some.mpr ⟨htarget, hread⟩
    · intro q hq
      exact hlater q (List.mem_reverse.mp hq)

end Given

/-- Whether the value of a property fits the attribute it aims at. -/
def Property.fits (d : Document) (p : Property) : Bool :=
  match p.target with
  | .backgroundColor | .foregroundColor | .borderColor => p.value.toColor?.isSome
  | .borderWidth | .padding => p.value.toEdges?.isSome
  | .textContent | .fontFamily => (d.stringOf? p.value).isSome
  | .fontSize => (Settings.positive? p.value).isSome
  | .imageSource => p.value.toResourceIndex?.isSome
  | .opacity => (Attributes.opacityOf? p.value).isSome
  | .fontWeight | .textAlignment | .visibility | .gap | .maxWidth | .maxHeight | .width | .height
  | .layoutFlags | .cursor | .crossAlignment => p.value.toNumber?.isSome
  | .windowWidth | .windowHeight | .windowTitle | .scaleFactor | .other _ => false

namespace Attributes

/-! ## A run of writes -/

/-- Attributes with the last fitting value of each in a list of
properties put over them. -/
def overlay (d : Document) (ps : List Property) (a : Attributes) : Attributes :=
  { look :=
      { background := (given? ps .backgroundColor Value.toColor?).getD a.look.background
        foreground := (given? ps .foregroundColor Value.toColor?).or a.look.foreground
        borderColor := (given? ps .borderColor Value.toColor?).or a.look.borderColor
        border := (given? ps .borderWidth Value.toEdges?).getD a.look.border
        padding := (given? ps .padding Value.toEdges?).getD a.look.padding
        textAlign := ((given? ps .textAlignment Value.toNumber?).map
          fun n => TextAlign.ofByte n.toUInt8).or a.look.textAlign
        fontSize := (given? ps .fontSize Settings.positive?).or a.look.fontSize
        fontFamily := (given? ps .fontFamily d.stringOf?).or a.look.fontFamily
        fontWeight := ((given? ps .fontWeight Value.toNumber?).map
          FontWeight.ofScaledNumber).or a.look.fontWeight
        visible := ((given? ps .visibility Value.toNumber?).map (· != 0)).getD a.look.visible
        pointer := ((given? ps .cursor Value.toNumber?).map
          fun n => PointerShape.ofByte n.toUInt8).getD a.look.pointer
        opacity := (given? ps .opacity opacityOf?).getD a.look.opacity }
    sizing :=
      { width := ((given? ps .width Value.toNumber?).map fun n => (n.toNat : Int)).or a.sizing.width
        height :=
          ((given? ps .height Value.toNumber?).map fun n => (n.toNat : Int)).or a.sizing.height
        maxWidth :=
          ((given? ps .maxWidth Value.toNumber?).map fun n => (n.toNat : Int)).or a.sizing.maxWidth
        maxHeight :=
          ((given? ps .maxHeight Value.toNumber?).map fun n => (n.toNat : Int)).or
            a.sizing.maxHeight
        gap := ((given? ps .gap Value.toNumber?).map fun n => (n.toNat : Int)).getD a.sizing.gap
        crossAlign := ((given? ps .crossAlignment Value.toNumber?).map
          fun n => Alignment.ofByte n.toUInt8).or a.sizing.crossAlign }
    layout := ((given? ps .layoutFlags Value.toNumber?).map
      fun n => LayoutFlags.mk n.toUInt8).getD a.layout
    text := (given? ps .textContent d.stringOf?).or a.text
    resource := (given? ps .imageSource Value.toResourceIndex?).or a.resource }

variable {a : Attributes} {ps qs : List Property}

/-- One run of properties after another is one run. -/
theorem overlay_append : overlay d (ps ++ qs) a = overlay d qs (overlay d ps a) := by
  simp only [overlay, given?_append, Option.map_or, Option.getD_or, Option.or_assoc]

/-- Writing one property is putting a list of one over what is there. -/
theorem set_eq_overlay (p : Property) : set d a p = overlay d [p] a := by
  obtain ⟨target, v⟩ := p
  simp only [overlay, given?_singleton, Property.offers?, set]
  cases target with
  | backgroundColor | foregroundColor | borderColor => cases v.toColor? <;> rfl
  | borderWidth | padding => cases v.toEdges? <;> rfl
  | textContent | fontFamily => cases d.stringOf? v <;> rfl
  | fontSize => cases Settings.positive? v <;> rfl
  | imageSource => cases v.toResourceIndex? <;> rfl
  | opacity => cases opacityOf? v <;> rfl
  | fontWeight | textAlignment | visibility | gap | maxWidth | maxHeight | width | height
  | layoutFlags | cursor | crossAlignment => cases v.toNumber? <;> rfl
  | windowWidth | windowHeight | windowTitle | scaleFactor | other => rfl

/-- A run of writes leaves the last fitting value of every attribute. -/
theorem foldl_set (ps : List Property) (a : Attributes) : ps.foldl (set d) a = overlay d ps a := by
  induction ps generalizing a with
  | nil => rfl
  | cons p ps ih =>
    rw [List.foldl_cons, ih, set_eq_overlay, ← overlay_append, List.singleton_append]

/-- A value that does not fit changes nothing. -/
theorem set_of_not_fits {p : Property} (h : ¬ p.fits d) : set d a p = a := by
  obtain ⟨target, v⟩ := p
  cases target with
  | windowWidth | windowHeight | windowTitle | scaleFactor | other => rfl
  | _ =>
    simp only [Property.fits, Option.not_isSome_iff_eq_none] at h
    simp only [set, h, Option.elim_none]

/-- So the properties whose values do not fit may as well be left out. -/
theorem overlay_filter_fits : overlay d (ps.filter (·.fits d)) a = overlay d ps a := by
  rw [← foldl_set, ← foldl_set]
  induction ps generalizing a with
  | nil => rfl
  | cons p ps ih =>
    by_cases h : p.fits d
    · rw [List.filter_cons_of_pos h, List.foldl_cons, List.foldl_cons, ih]
    · rw [List.filter_cons_of_neg h, List.foldl_cons, set_of_not_fits h, ih]

/-! ## The layers together -/

/-- The attributes of a header, a style and a record, before the border
rule. The properties of the two are one list, except where the header has
a say. -/
def layered (d : Document) (s : Settings) (h : Header) (styled own : List Property) :
    Attributes :=
  let merged := overlay d (styled ++ own) (initial s h.widget)
  let number? (ps : List Property) (target : Attribute) := given? ps target Value.toNumber?
  { merged with
    sizing :=
      { merged.sizing with
        width :=
          ((number? own .width).map fun n => (n.toNat : Int)) <|>
          (if h.width = 0 then none else some (h.width.toNat : Int)) <|>
          ((number? styled .width).map fun n => (n.toNat : Int))
        height :=
          ((number? own .height).map fun n => (n.toNat : Int)) <|>
          (if h.height = 0 then none else some (h.height.toNat : Int)) <|>
          ((number? styled .height).map fun n => (n.toNat : Int)) }
    layout :=
      (((number? own .layoutFlags).map fun n => LayoutFlags.mk n.toUInt8) <|>
        (if h.layout.isEmpty then none else some h.layout) <|>
        ((number? styled .layoutFlags).map fun n => LayoutFlags.mk n.toUInt8)).getD .empty }

/-- The properties of the style a header names. -/
def styledBy (d : Document) (h : Header) : List Property :=
  (d.style? h.styleId).elim [] (·.properties)

theorem setStyle_eq (h : Header) (a : Attributes) :
    setStyle d h a = overlay d (styledBy d h) a := by
  unfold setStyle styledBy
  cases d.style? h.styleId with
  | none => rfl
  | some style => exact foldl_set style.properties a

/-- What a header gives counts over what the style gave. -/
theorem or_ite {γ : Type} (c : Prop) [Decidable c] (own styled : Option γ) (v : γ) :
    own.or (if c then styled else some v) = (own <|> (if c then none else some v) <|> styled) := by
  cases own <;> by_cases h : c <;> simp [h]

theorem getD_ite {γ : Type} (c : Prop) [Decidable c] (own styled : Option γ) (v w : γ) :
    own.getD (if c then styled.getD w else v)
      = (own <|> (if c then none else some v) <|> styled).getD w := by
  cases own <;> by_cases h : c <;> simp [h]

/-- The header between two runs: what it gives counts over the first and
under the second. -/
theorem overlay_setHeader (h : Header) (styled own : List Property) :
    overlay d own (setHeader h (overlay d styled (initial s h.widget))) =
      layered d s h styled own := by
  have hmerged : overlay d (styled ++ own) (initial s h.widget)
      = overlay d own (overlay d styled (initial s h.widget)) := overlay_append
  rw [layered, hmerged]
  simp only [overlay, setHeader, initial, Sizing.free, Option.or_none, or_ite, getD_ite]

/-- The attributes of a record are its layers, with the border rule
last. -/
theorem ofRecord_eq (h : Header) (r : Record) :
    ofRecord d s h r = settleBorder s (layered d s h (styledBy d h) r.properties) := by
  rw [ofRecord, foldl_set, setStyle_eq, overlay_setHeader]

/-- The properties that do not fit may be left out of either layer. -/
theorem layered_filter_fits (h : Header) (styled own : List Property) :
    layered d s h (styled.filter (·.fits d)) (own.filter (·.fits d)) =
      layered d s h styled own := by
  rw [← overlay_setHeader, ← overlay_setHeader, overlay_filter_fits, overlay_filter_fits]

end Attributes

/-! ## The element -/

end SceneTree
