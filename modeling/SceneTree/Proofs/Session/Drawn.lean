import SceneTree.Proofs.Layout.Hug
import SceneTree.Proofs.Layout.LaidOut

/-!
# What is drawn and what is measured

Painting asks for the widget of an element first: one that draws text draws
its text, any other its texture. Measuring asks for the text first, and where
the widget does not draw it, nothing else is measured either. So the two
agree on every text that is drawn. On a texture they agree if no text stands
beside it, and only then: with a text, an image is drawn that takes no room
(`Session.Reachable.measures_what_is_drawn`).

Either way words have to hold the size with border and padding around it.
From `2 ^ 31` on a side comes out shorter than it is.
-/

namespace SceneTree

open Word (wrap)

/-- The size of the image. -/
def Texture.size (t : Texture) : Size := ⟨t.width.toNat, t.height.toNat⟩

/-- Both sides are lengths that a word holds. -/
def Size.Fits (s : Size) : Prop := Word.Fits s.width ∧ Word.Fits s.height

instance (s : Size) : Decidable s.Fits := inferInstanceAs (Decidable (_ ∧ _))

theorem Edges.horizontal_nonneg (e : Edges) : 0 ≤ e.horizontal :=
  Int.add_nonneg (Int.natCast_nonneg _) (Int.natCast_nonneg _)

theorem Edges.vertical_nonneg (e : Edges) : 0 ≤ e.vertical :=
  Int.add_nonneg (Int.natCast_nonneg _) (Int.natCast_nonneg _)

namespace Element

variable {e : Element} {rules : LayoutRules} {sizes : List Size} {r : Rect} {t : Texture}
  {text : String} {color : Color} {fontSize : UInt16} {inner : Size}

/-- The text it has, whether or not its widget draws one. -/
def caption? (e : Element) : Option String := e.text.filter (· ≠ "")

/-- It asks for no size, nor for a largest one. -/
def SizedByContent (e : Element) : Prop :=
  (e.sizing.width = none ∧ e.sizing.height = none) ∧
    e.sizing.maxWidth = none ∧ e.sizing.maxHeight = none

instance (e : Element) : Decidable e.SizedByContent := inferInstanceAs (Decidable (_ ∧ _))

/-- The size of some content with border and padding around it. -/
def framed (e : Element) (inner : Size) : Size :=
  ⟨inner.width + e.look.insets.horizontal, inner.height + e.look.insets.vertical⟩

/-! ## What is drawn -/

theorem content_of_mem_paint {c : DrawCommand} (h : c ∈ e.paint) :
    c ∈ e.contentCommands ∨ (∃ r color, c = .fill r color) ∨
      ∃ r widths color, c = .border r widths color := by
  rcases List.mem_append.mp h with hc | hc
  · rcases List.mem_append.mp hc with hc | hc
    · simp only [backgroundCommands] at hc
      split at hc
      next => exact absurd hc List.not_mem_nil
      next => exact .inr (.inl ⟨_, _, List.mem_singleton.mp hc⟩)
    · unfold borderCommands at hc
      split at hc
      next =>
        split at hc
        next => exact .inr (.inr ⟨_, _, _, List.mem_singleton.mp hc⟩)
        next => exact absurd hc List.not_mem_nil
      next => exact absurd hc List.not_mem_nil
  · exact .inl hc

/-- A texture is drawn by widgets that draw no text. -/
theorem texture_of_mem_paint (h : .texture r t ∈ e.paint) :
    e.widget.showsText = false ∧ e.loadedTexture? = some t := by
  rcases content_of_mem_paint h with hc | ⟨_, _, hc⟩ | ⟨_, _, _, hc⟩
  · unfold contentCommands at hc
    split at hc
    next => split at hc <;> simp at hc
    next hshows =>
      split at hc
      next t' ht =>
        cases List.mem_singleton.mp hc
        exact ⟨Bool.eq_false_iff.mpr hshows, ht⟩
      next => exact absurd hc List.not_mem_nil
  · cases hc
  · cases hc

/-- A text is drawn by widgets that draw one, at its own font size. -/
theorem text_of_mem_paint (h : .text r text color fontSize ∈ e.paint) :
    e.widget.showsText ∧ e.caption? = some text ∧ e.textStyle.fontSize = fontSize := by
  rcases content_of_mem_paint h with hc | ⟨_, _, hc⟩ | ⟨_, _, _, hc⟩
  · unfold contentCommands at hc
    split at hc
    next hshows =>
      split at hc
      next text' htext =>
        cases List.mem_singleton.mp hc
        rw [shownText?, if_pos hshows] at htext
        exact ⟨hshows, htext, rfl⟩
      next => exact absurd hc List.not_mem_nil
    next => split at hc <;> simp at hc
  · cases hc
  · cases hc

/-! ## What is measured -/

theorem innerSize_of_caption (hcaption : e.caption? = some text) :
    e.innerSize rules sizes = if e.widget.showsText then
      rules.ruler.measure text (rules.settings.scaled e.textStyle.fontSize) else .zero := by
  rw [caption?] at hcaption
  rw [innerSize, hcaption]

theorem innerSize_of_caption_undrawn (hcaption : e.caption? = some text)
    (hshows : e.widget.showsText = false) : e.innerSize rules sizes = .zero := by
  rw [innerSize_of_caption hcaption, if_neg (Bool.eq_false_iff.mp hshows)]

theorem innerSize_of_texture (hcaption : e.caption? = none) (ht : e.loadedTexture? = some t) :
    e.innerSize rules sizes = ⟨Word.signed t.width, Word.signed t.height⟩ := by
  rw [caption?] at hcaption
  rw [innerSize, hcaption]
  dsimp only
  rw [ht]

section

variable (hcontent : e.SizedByContent)

include hcontent

theorem naturalSize_of_innerSize_zero (hinner : e.innerSize rules sizes = .zero) :
    e.naturalSize rules sizes = .zero := by
  obtain ⟨⟨hwidth, hheight⟩, hmaxWidth, hmaxHeight⟩ := hcontent
  simp only [naturalSize, contentSize, hinner, if_true, hwidth, hheight, hmaxWidth, hmaxHeight]
  rfl

theorem naturalSize_of_innerSize (hinner : e.innerSize rules sizes = inner)
    (hsome : inner ≠ .zero) : e.naturalSize rules sizes =
      ⟨max (wrap (e.framed inner).width) 0, max (wrap (e.framed inner).height) 0⟩ := by
  obtain ⟨⟨hwidth, hheight⟩, hmaxWidth, hmaxHeight⟩ := hcontent
  simp only [naturalSize, contentSize, hinner, if_neg hsome, hwidth, hheight, hmaxWidth,
    hmaxHeight]
  rfl

omit hcontent in
/-- Cut off at zero, a size in a frame comes out whole if words hold it. -/
theorem max_wrap_framed_eq_iff (e : Element) (hwidth : 0 ≤ inner.width)
    (hheight : 0 ≤ inner.height) :
    (⟨max (wrap (e.framed inner).width) 0, max (wrap (e.framed inner).height) 0⟩ : Size) =
      e.framed inner ↔ (e.framed inner).Fits := by
  have hhorizontal := e.look.insets.horizontal_nonneg
  have hvertical := e.look.insets.vertical_nonneg
  have hwide := Word.max_wrap_eq_iff (Int.add_nonneg hwidth hhorizontal)
  have hhigh := Word.max_wrap_eq_iff (Int.add_nonneg hheight hvertical)
  simp only [framed, Size.mk.injEq, Size.Fits, hwide, hhigh]

/-- A text that is drawn is what is measured, if words hold its size. -/
theorem naturalSize_eq_framed_text_iff (hshows : e.widget.showsText)
    (hcaption : e.caption? = some text)
    (hinner : rules.ruler.measure text (rules.settings.scaled e.textStyle.fontSize) = inner)
    (hsome : inner ≠ .zero) (hwidth : 0 ≤ inner.width) (hheight : 0 ≤ inner.height) :
    e.naturalSize rules sizes = e.framed inner ↔ (e.framed inner).Fits := by
  have hmeasured : e.innerSize rules sizes = inner := by
    rw [innerSize_of_caption hcaption, if_pos hshows, hinner]
  rw [naturalSize_of_innerSize hcontent hmeasured hsome]
  exact e.max_wrap_framed_eq_iff hwidth hheight

/-- A texture that is drawn is what is measured, if there is no text beside
it and words hold its size. -/
theorem naturalSize_eq_framed_size_iff (hshows : e.widget.showsText = false)
    (ht : e.loadedTexture? = some t) (hsize : t.size ≠ .zero) :
    e.naturalSize rules sizes = e.framed t.size ↔ e.caption? = none ∧ (e.framed t.size).Fits := by
  have hhorizontal := e.look.insets.horizontal_nonneg
  have hvertical := e.look.insets.vertical_nonneg
  cases hcaption : e.caption? with
  | some text =>
    have hpos : 0 < t.width.toNat ∨ 0 < t.height.toNat := by
      by_contra hzero
      refine hsize (congrArg₂ Size.mk ?_ ?_) <;> omega
    rw [naturalSize_of_innerSize_zero hcontent (innerSize_of_caption_undrawn hcaption hshows)]
    simp only [Size.zero, framed, Texture.size, Size.mk.injEq, reduceCtorEq, false_and, iff_false]
    omega
  | none =>
    have hinner : e.innerSize rules sizes = ⟨Word.signed t.width, Word.signed t.height⟩ :=
      innerSize_of_texture hcaption ht
    have hsome : (⟨Word.signed t.width, Word.signed t.height⟩ : Size) ≠ .zero := by
      intro hzero
      obtain ⟨hwidth, hheight⟩ := Size.mk.inj hzero
      exact hsize (congrArg₂ Size.mk (Word.toNat_eq_zero_of_signed hwidth)
        (Word.toNat_eq_zero_of_signed hheight))
    rw [naturalSize_of_innerSize hcontent hinner hsome]
    simp only [true_and]
    rw [← e.max_wrap_framed_eq_iff (Int.natCast_nonneg _) (Int.natCast_nonneg _)]
    simp only [framed, Texture.size, Word.wrap_signed_add]

end

end Element

/-- A padded image, the same image with a text beside it, and the text
alone. -/
def Document.captioned : Document :=
  { Document.blank with
    strings := ["", "logo"]
    records :=
      [{ Record.ofHeader (.ofWidget .app) with childRefs := [22, 46, 70] },
        { Record.ofHeader (.ofWidget .image) with
          properties := [⟨.imageSource, .resource 0⟩, ⟨.padding, .byte 1⟩] },
        { Record.ofHeader (.ofWidget .image) with
          properties := [⟨.textContent, .string 1⟩, ⟨.imageSource, .resource 0⟩] },
        { Record.ofHeader (.ofWidget .text) with properties := [⟨.textContent, .string 1⟩] }]
    offsets := [0, 22, 46, 70]
    resources := ["logo.png"] }

/-- The options of a session that finds the image. -/
def SessionOptions.captioned : SessionOptions :=
  { SessionOptions.standard with loader := .ofEntries [("logo.png", .ok ⟨7, 4, 3⟩)] }

namespace Session

open Element (unplaced)
open Scene (Alike)

variable {d : Document} {s : Session} {x : ElementId} {e : Element}

/-- At the end of a frame an element asks for what was measured in it,
wherever the adjusters have put it. -/
theorem Reachable.intrinsic_eq (h : Reachable d s) (he : s.frame.1.scene.get? x = some e) :
    e.intrinsic = e.naturalSize s.rules (s.frame.1.scene.flowSizes e) := by
  have halike : Alike unplaced (s.scene.layOut s.rules s.viewport).1 s.frame.1.scene :=
    Scene.unplaced_adjust s.rules _ s.document s.handlers
  exact halike.intrinsic_eq (h.forest.laidOut s.rules s.viewport).measured he

/-- What an element draws is what it asks room for, unless it asks for a size
outright. A text that is drawn was measured at its scaled font size, and with
border and padding that is the size the element asks for, if words hold it. A
texture that is drawn gives the size in the same way if there is no text
beside it, and only then; with a text beside it, it gives none. -/
theorem Reachable.measures_what_is_drawn (h : Reachable d s)
    (he : s.frame.1.scene.get? x = some e) (hcontent : e.SizedByContent) :
    (∀ r t, .texture r t ∈ e.paint → t.size ≠ .zero →
      (e.intrinsic = e.framed t.size ↔ e.caption? = none ∧ (e.framed t.size).Fits) ∧
      (e.caption? ≠ none → e.intrinsic = .zero)) ∧
    ∀ r text color fontSize, .text r text color fontSize ∈ e.paint →
      let inner := s.ruler.measure text (s.settings.scaled fontSize)
      inner ≠ .zero → 0 ≤ inner.width → 0 ≤ inner.height →
        (e.intrinsic = e.framed inner ↔ (e.framed inner).Fits) := by
  rw [h.intrinsic_eq he]
  refine ⟨fun r t hdrawn hsize => ?_, fun r text color fontSize hdrawn => ?_⟩
  · obtain ⟨hshows, ht⟩ := Element.texture_of_mem_paint hdrawn
    refine ⟨Element.naturalSize_eq_framed_size_iff hcontent hshows ht hsize, fun hcaption => ?_⟩
    obtain ⟨text, htext⟩ := Option.ne_none_iff_exists'.mp hcaption
    exact Element.naturalSize_of_innerSize_zero hcontent
      (Element.innerSize_of_caption_undrawn htext hshows)
  · obtain ⟨hshows, hcaption, rfl⟩ := Element.text_of_mem_paint hdrawn
    exact fun hsome =>
      Element.naturalSize_eq_framed_text_iff hcontent hshows hcaption rfl hsome

/-- The image alone and the text alone. -/
theorem captioned_measures : ∃ s notices image label,
    load .captioned .none .captioned = (.ok s, notices) ∧
    (s.frame.1.scene.get? ⟨1⟩ = some image ∧ image.SizedByContent ∧
      image.caption? = none ∧ .texture ⟨1, 1, 4, 3⟩ ⟨7, 4, 3⟩ ∈ image.paint) ∧
    (s.frame.1.scene.get? ⟨3⟩ = some label ∧ label.SizedByContent ∧
      .text ⟨6, 0, 32, 16⟩ "logo" .white 16 ∈ label.paint) ∧
    image.intrinsic = image.framed ⟨4, 3⟩ ∧ label.intrinsic = label.framed ⟨32, 16⟩ := by
  obtain ⟨s, notices, hload, hruler, himage, hlabel⟩ : ∃ s notices,
      load .captioned .none .captioned = (.ok s, notices) ∧
      s.ruler.measure "logo" (s.settings.scaled 16) = ⟨32, 16⟩ ∧
      (∃ e ∈ s.frame.1.scene.get? ⟨1⟩, e.SizedByContent ∧ e.caption? = none ∧
        (e.framed ⟨4, 3⟩).Fits ∧ .texture ⟨1, 1, 4, 3⟩ ⟨7, 4, 3⟩ ∈ e.paint) ∧
      ∃ e ∈ s.frame.1.scene.get? ⟨3⟩, e.SizedByContent ∧ (e.framed ⟨32, 16⟩).Fits ∧
        .text ⟨6, 0, 32, 16⟩ "logo" .white 16 ∈ e.paint :=
    ⟨_, _, rfl, by decide +kernel, by decide +kernel, by decide +kernel⟩
  obtain ⟨image, hget, hcontent, hcaption, hfits, hdrawn⟩ := himage
  obtain ⟨label, hget', hcontent', hfits', hdrawn'⟩ := hlabel
  have hr := Reachable.load hload
  have hnative := ((hr.measures_what_is_drawn hget hcontent).1 _ _ hdrawn (by decide)).1
  have htext := (hr.measures_what_is_drawn hget' hcontent').2 _ _ _ _ hdrawn'
  rw [hruler] at htext
  exact ⟨s, notices, image, label, hload, ⟨hget, hcontent, hcaption, hdrawn⟩,
    ⟨hget', hcontent', hdrawn'⟩, hnative.mpr ⟨hcaption, hfits⟩,
    (htext (by decide) (by decide) (by decide)).mpr hfits'⟩

/-- The image with the text beside it is drawn, and asks for no room. -/
theorem captioned_not_measured : ∃ s notices e,
    load .captioned .none .captioned = (.ok s, notices) ∧
    s.frame.1.scene.get? ⟨2⟩ = some e ∧ e.isVisible ∧ e.SizedByContent ∧
    .texture ⟨6, 0, 1, 600⟩ ⟨7, 4, 3⟩ ∈ e.paint ∧
    (⟨7, 4, 3⟩ : Texture).size = ⟨4, 3⟩ ∧ e.intrinsic ≠ e.framed ⟨4, 3⟩ := by
  obtain ⟨s, notices, hload, e, he, hreads⟩ : ∃ s notices,
      load .captioned .none .captioned = (.ok s, notices) ∧
      ∃ e ∈ s.frame.1.scene.get? ⟨2⟩, e.isVisible ∧ e.SizedByContent ∧
        .texture ⟨6, 0, 1, 600⟩ ⟨7, 4, 3⟩ ∈ e.paint ∧
        (⟨7, 4, 3⟩ : Texture).size = ⟨4, 3⟩ ∧ e.intrinsic ≠ e.framed ⟨4, 3⟩ :=
    ⟨_, _, rfl, by decide +kernel⟩
  exact ⟨s, notices, e, hload, he, hreads⟩

end Session

end SceneTree
