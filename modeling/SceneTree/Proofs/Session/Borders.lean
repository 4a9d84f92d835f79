import SceneTree.Proofs.Session.Decorated

/-!
# Which borders show

When a record is resolved, a border colour that covers gets a width, and a
width without such a colour gets the one of the settings
(`Attributes.ruled_ofRecord`). Width and colour are then handed down apart,
each where it is set, and the rule is not applied again.

The first half survives that: wherever a colour covers there is a width.
The second half survives it with one exception. A colour that covers nothing
is a colour that was set, and an instance without a width may hand it down
to a node that has one. From there it is handed on, together with the
width, through any chain of copies that begin with an instance. Every
element that has a width and the wrong colour is in such a chain
(`Reachable.border_rule`).

What is followed along the chain is `Handed`, which speaks of what an
element has to give away, whether or not it shows it.
-/

namespace SceneTree

open Relation (ReflTransGen TransGen)

variable {d : Document} {st : Settings}

/-! ## The rule -/

/-- A width has a colour that covers, or else that of the settings, and a
colour that covers has a width. -/
structure Ruled (st : Settings) (border : Edges) (color : Option Color) : Prop where
  colored : ¬ border.isZero → ∃ c, color = some c ∧ (¬ c.isClear ∨ c = st.borderColor)
  wide : ∀ c, color = some c → ¬ c.isClear → ¬ border.isZero

theorem Look.not_hasBorderColor {l : Look} (h : ¬ l.hasBorderColor) {c : Color}
    (hc : l.borderColor = some c) : c.isClear := by
  rw [hasBorderColor, hc, Option.any_some, Bool.not_eq_true', Bool.not_eq_false] at h
  exact h

namespace Attributes

theorem ruled_settleBorder (st : Settings) (a : Attributes) :
    Ruled st (settleBorder st a).look.border (settleBorder st a).look.borderColor := by
  unfold settleBorder
  by_cases hcolor : a.look.hasBorderColor
  · obtain ⟨c, hc, hcovers⟩ := (Option.any_eq_true ..).mp hcolor
    have hcovers : ¬ c.isClear := by
      rwa [Bool.not_eq_true', ← Bool.not_eq_true] at hcovers
    rw [if_pos hcolor]
    by_cases hzero : a.look.border.isZero
    · rw [if_pos hzero]
      have hone : ¬ (Edges.uniform 1).isZero := by decide
      exact ⟨fun _ => ⟨c, hc, .inl hcovers⟩, fun _ _ _ => hone⟩
    · rw [if_neg hzero]
      exact ⟨fun _ => ⟨c, hc, .inl hcovers⟩, fun _ _ _ => hzero⟩
  · rw [if_neg hcolor]
    by_cases hzero : a.look.border.isZero
    · rw [if_pos hzero]
      refine ⟨fun hwide => absurd hzero hwide, fun c hc hcovers => ?_⟩
      exact absurd (Look.not_hasBorderColor hcolor hc) hcovers
    · rw [if_neg hzero]
      exact ⟨fun _ => ⟨_, rfl, .inr rfl⟩, fun _ _ _ => hzero⟩

theorem ruled_ofRecord (d : Document) (st : Settings) (h : Header) (r : Record) :
    Ruled st (ofRecord d st h r).look.border (ofRecord d st h r).look.borderColor :=
  ruled_settleBorder st _

end Attributes

/-! ## What is handed down -/

namespace Decoration

variable {a b : Decoration}

theorem Same.border (h : a.Same b) : a.border = b.border := by
  have hborder := congrArg Look.border (h Look.plain)
  dsimp only [applyTo] at hborder
  have hzero {e : Edges} (he : e.isZero) : e = Look.plain.border := eq_of_beq he
  split at hborder
  next ha =>
    split at hborder
    next hb => rw [hzero ha, hzero hb]
    next => rw [hzero ha, hborder]
  next =>
    split at hborder
    next hb => rw [hzero hb, hborder]
    next => exact hborder

/-- A colour that was set is laid over the other. -/
theorem borderColor_applyTo (a : Decoration) (l : Look) :
    (a.applyTo l).borderColor = a.borderColor.or l.borderColor := by
  unfold applyTo
  cases a.borderColor <;> rfl

theorem Same.borderColor (h : a.Same b) : a.borderColor = b.borderColor := by
  have hcolor := congrArg Look.borderColor (h Look.plain)
  rwa [borderColor_applyTo, borderColor_applyTo, show Look.plain.borderColor = Option.none from rfl,
    Option.or_none, Option.or_none] at hcolor

end Decoration

namespace Element

variable {e : Element} {l : Look}

/-- The decoration an element has, which an instance need not show. -/
def worn (e : Element) : Decoration :=
  if e.isInstance then e.ownDecoration else e.look.decoration

theorem worn_of_instance (hinst : e.isInstance) : e.worn = e.ownDecoration := if_pos hinst

theorem worn_of_wears (h : e.Wears l) : e.worn.Same l.decoration := by
  unfold worn
  split
  next hinst => exact h.handed hinst
  next hplain =>
    rw [h.plain hplain]
    exact .refl _

/-- A plain element shows what it has, and an instance all of it or
nothing. -/
theorem Doffed.shown (h : e.Doffed) :
    e.look.decoration = .none ∨ e.look.decoration = e.worn := by
  unfold worn
  split
  next hinst => exact h.decoration_eq hinst
  next => exact .inr rfl

end Element

namespace Scene

variable {s : Scene} {g y : ElementId} {c : Color} {a b : Decoration} {e eg : Element} {l : Look}

/-- The record of `g` has it resolve to a colour that covers nothing, and to
no width. -/
def SetsClear (d : Document) (st : Settings) (s : Scene) (g : ElementId) (c : Color) : Prop :=
  ∃ eg r, s.get? g = some eg ∧ d.recordOf? eg.source = some r ∧
    (eg.ownLook d st r).border.isZero ∧ (eg.ownLook d st r).borderColor = some c ∧ c.isClear

/-- What the rule has become of a decoration that `y` has. -/
structure Handed (d : Document) (st : Settings) (s : Scene) (y : ElementId) (a : Decoration) :
    Prop where
  wide : ∀ c, a.borderColor = some c → ¬ c.isClear → ¬ a.border.isZero
  colored : ¬ a.border.isZero → ∃ c, a.borderColor = some c ∧
    (¬ c.isClear ∨ c = st.borderColor ∨ ∃ g, TransGen s.Heads g y ∧ SetsClear d st s g c)
  bare : a.border.isZero → ∀ c, a.borderColor = some c →
    ∃ g, ReflTransGen s.Heads g y ∧ SetsClear d st s g c

namespace Handed

theorem congr (h : Handed d st s y a) (hborder : b.border = a.border)
    (hcolor : b.borderColor = a.borderColor) : Handed d st s y b := by
  refine ⟨?_, ?_, ?_⟩
  · rw [hborder, hcolor]
    exact h.wide
  · rw [hborder, hcolor]
    exact h.colored
  · rw [hborder, hcolor]
    exact h.bare

/-- What an element has of its own is under the rule. -/
theorem own {r : Record} (he : s.get? y = some e) (hr : d.recordOf? e.source = some r) :
    Handed d st s y (e.ownLook d st r).decoration := by
  have hruled : Ruled st (e.ownLook d st r).border (e.ownLook d st r).borderColor :=
    Attributes.ruled_ofRecord d st e.header r
  refine ⟨hruled.wide, fun hwide => ?_, fun hzero c hc => ⟨y, .refl, e, r, he, hr, hzero, hc, ?_⟩⟩
  · obtain ⟨c, hc, hgood⟩ := hruled.colored hwide
    exact ⟨c, hc, hgood.imp_right .inl⟩
  · by_contra hcovers
    exact hruled.wide c hc hcovers hzero

/-- One instance hands its decoration to the first node of its copy. If it
has a width, that comes with its colour. If it has none, a colour can only
be one that covers nothing. -/
theorem applyTo (hgiven : Handed d st s g a) (hheads : s.Heads g y)
    (hown : Handed d st s y l.decoration) : Handed d st s y (a.applyTo l).decoration := by
  have hcolor : (a.applyTo l).decoration.borderColor = a.borderColor.or l.borderColor :=
    a.borderColor_applyTo l
  by_cases hzero : a.border.isZero
  · have hborder : (a.applyTo l).decoration.border = l.border := if_pos hzero
    cases hc : a.borderColor with
    | none =>
      rw [hc, Option.none_or] at hcolor
      exact hown.congr hborder hcolor
    | some c =>
      rw [hc, Option.some_or] at hcolor
      obtain ⟨g₀, hchain, hclear⟩ := hgiven.bare hzero c hc
      have hchain' : TransGen s.Heads g₀ y := .tail' hchain hheads
      refine ⟨fun c' hc' hcovers => ?_, fun _ => ⟨c, hcolor, .inr (.inr ⟨g₀, hchain', hclear⟩)⟩,
        fun _ c' hc' => ?_⟩
      · cases hcolor.symm.trans hc'
        obtain ⟨-, -, -, -, -, -, hisClear⟩ := hclear
        exact absurd hisClear hcovers
      · cases hcolor.symm.trans hc'
        exact ⟨g₀, hchain'.to_reflTransGen, hclear⟩
  · have hborder : (a.applyTo l).decoration.border = a.border := if_neg hzero
    obtain ⟨c, hc, hgood⟩ := hgiven.colored hzero
    rw [hc, Option.some_or] at hcolor
    refine ⟨fun _ _ _ => hborder ▸ hzero, fun _ => ⟨c, hcolor, ?_⟩, fun hnone =>
      absurd (hborder ▸ hnone) hzero⟩
    exact hgood.imp_right (Or.imp_right fun ⟨g₀, hchain, hclear⟩ =>
      ⟨g₀, hchain.tail hheads, hclear⟩)

end Handed

/-- In a scene that is attired all decorations come about like this. The
induction goes down from the root. -/
theorem Attired.handed (h : Attired d st 0 none s) (hs : s.Forest) (he : s.get? y = some e) :
    Handed d st s y e.worn := by
  have hmade {y : ElementId} {e : Element} (he : s.get? y = some e) (hlead : ¬ e.source.isLead) :
      Handed d st s y e.worn := by
    obtain ⟨r, hr, -, hwears⟩ := h.made y e (Nat.zero_le _) he hlead
    have hsame := Element.worn_of_wears hwears
    exact (Handed.own he hr).congr hsame.border hsame.borderColor
  have hled {y : ElementId} {e : Element} (he : s.get? y = some e) (hlead : e.source.isLead)
      (hgiven : ∀ g eg, s.parent? y = some g → s.get? g = some eg → Handed d st s g eg.worn) :
      Handed d st s y e.worn := by
    obtain ⟨g, -, hheads⟩ := (h.headed y e (Nat.zero_le _) he hlead).resolve_left
      (Option.some_ne_none y).symm
    obtain ⟨hp, eg, heg, hfirst⟩ := hheads
    have hby := (h.led g eg y (Nat.zero_le _) heg hfirst).2.2 e he
    obtain ⟨component, hdefinition, -⟩ := hby.source
    obtain ⟨i, hi, -⟩ := Option.bind_eq_some_iff.mp hdefinition
    have hinst : eg.isInstance := by rw [Element.isInstance, hi, Option.isSome_some]
    obtain ⟨r, hr, -, hwears⟩ := hby.made
    have hsame := Element.worn_of_wears hwears
    have hgiver := hgiven g eg hp heg
    rw [Element.worn_of_instance hinst] at hgiver
    exact (hgiver.applyTo ⟨hp, eg, heg, hfirst⟩ (Handed.own he hr)).congr hsame.border
      hsame.borderColor
  obtain ⟨root, hroot, hway⟩ := hs.exists_root_atOrAbove (contains_of_get? he)
  induction hway using Relation.ReflTransGen.head_induction_on generalizing e with
  | refl =>
    by_cases hlead : e.source.isLead
    · refine hled he hlead fun g _ hp _ => ?_
      exact absurd ((hs.mem_roots.mp hroot).2.symm.trans hp) (Option.some_ne_none g).symm
    · exact hmade he hlead
  | head hp _ ih =>
    by_cases hlead : e.source.isLead
    · refine hled he hlead fun g eg hp' heg => ?_
      cases Eq.trans (Eq.symm hp) hp'
      exact ih heg
    · exact hmade he hlead

end Scene

/-- A card with a width for its border, and an instance of it with a colour
for its border that covers nothing. -/
def Document.framed : Document :=
  { Document.blank with
    strings := ["", componentKey, "Card"]
    records :=
      [{ Record.ofHeader (.ofWidget .app) with childRefs := [18] },
        { Record.standIn 2 [] with properties := [⟨.borderColor, .color ⟨1, 2, 3, 0⟩⟩] }]
    offsets := [0, 18]
    components :=
      [{ name := "Card", parameters := []
         template := ({ Record.blank with
           properties := [⟨.borderWidth, .byte 3⟩] } : Record).toBytes }] }

namespace Session

variable {s : Session} {y : ElementId} {e : Element}

/-- At any time no instance shows what it hands down. -/
theorem Reachable.doffed (h : Reachable d s) : ∀ y e, s.scene.get? y = some e → e.Doffed :=
  h.innate (Element.innate_doffed d)

/-- However a session is used, every element with a border colour that
covers has a border width. And one with a width has a colour that covers,
or that of the settings, or else the colour that was handed down to it by an
instance whose own record has it resolve to a colour that covers nothing
and to no width, through a chain of copies each of which begins with the
next. -/
theorem Reachable.border_rule (h : Reachable d s) (he : s.scene.get? y = some e) :
    (∀ c, e.look.borderColor = some c → ¬ c.isClear → ¬ e.look.border.isZero) ∧
    (¬ e.look.border.isZero → ∃ c, e.look.borderColor = some c ∧
      (¬ c.isClear ∨ c = s.settings.borderColor ∨
        ∃ g, TransGen s.scene.Heads g y ∧ Scene.SetsClear d s.settings s.scene g c)) := by
  have hhanded := h.attired.handed h.forest he
  rcases (h.doffed y e he).shown with hnone | hworn
  · have hborder : e.look.border = .zero := congrArg Decoration.border hnone
    have hcolor : e.look.borderColor = none := congrArg Decoration.borderColor hnone
    rw [hborder, hcolor]
    exact ⟨fun _ hc => (Option.some_ne_none _ hc.symm).elim, fun hwide => absurd rfl hwide⟩
  · rw [← hworn] at hhanded
    exact ⟨hhanded.wide, hhanded.colored⟩

/-- The card keeps its own width, and has the colour of its instance. -/
theorem framed_handed : ∃ s notices e, load .framed .none .standard = (.ok s, notices) ∧
    s.scene.get? ⟨2⟩ = some e ∧ ¬ e.look.border.isZero ∧
      ∃ g, TransGen s.scene.Heads g ⟨2⟩ ∧
        Scene.SetsClear .framed s.settings s.scene g ⟨1, 2, 3, 0⟩ := by
  have hload : load .framed .none .standard = (.ok _, _) := rfl
  refine ⟨_, _, _, hload, rfl, by decide, ?_⟩
  obtain ⟨c, hc, hcovers | hsettings | hhanded⟩ :=
    (Reachable.border_rule (y := ⟨2⟩) (.load hload) rfl).2 (by decide)
  · cases hc
    exact absurd rfl hcovers
  · cases hc
    exact absurd hsettings (by decide)
  · cases hc
    exact hhanded

/-- So the second half of the rule fails there: the colour covers nothing,
and is not that of the settings. -/
theorem framed_not_ruled : ∃ s notices e, load .framed .none .standard = (.ok s, notices) ∧
    s.scene.get? ⟨2⟩ = some e ∧
    ¬ (¬ e.look.border.isZero → ∃ c, e.look.borderColor = some c ∧
      (¬ c.isClear ∨ c = s.settings.borderColor)) := by
  have hload : load .framed .none .standard = (.ok _, _) := rfl
  refine ⟨_, _, _, hload, rfl, fun hruled => ?_⟩
  obtain ⟨c, hc, hgood⟩ := hruled (by decide)
  cases hc
  exact absurd hgood (by decide)

end Session

end SceneTree
