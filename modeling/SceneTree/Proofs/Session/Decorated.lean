import SceneTree.Proofs.Expand.Innate
import SceneTree.Proofs.Layout.Afresh
import SceneTree.Proofs.Resolve.Precedence
import SceneTree.Proofs.Session.Styles
import SceneTree.Proofs.Session.Textures

/-!
# What an instance hands down

In a session every element is at any time as its record makes it, under
what the instance hands down that it leads the copy of
(`Reachable.attired`). So the first node of a copy can be compared with
what its record alone gives it, whatever was expanded since and in which
order.

An instance keeps values, not who gave them. That a value was set is told
from the value when it is handed down: a background that covers nothing, a
padding or a border of no width count as not set, and all else counts as
set. The settings give every element a border width, and the application a
background, and these are handed down like values that were set. How far
the first node has what style and record of the instance set, and else its
own, is worked out value by value
(`Reachable.first_node_wears`).
-/

namespace SceneTree

variable {d : Document} {st : Settings}

theorem Edges.isZero_uniform (n : UInt16) : (uniform n).isZero = true ↔ n = 0 := by
  simp [isZero, zero, uniform]

/-! ## What a record sets -/

namespace Attributes

variable {α : Type} {h : Header} {r : Record}

/-- Whether the style of a header or the record gives an attribute a value
that fits. -/
def isSet (d : Document) (h : Header) (r : Record) (target : Attribute)
    (read : Value → Option α) : Bool :=
  (given? (styledBy d h ++ r.properties) target read).isSome

theorem given?_of_not_isSet {target : Attribute} {read : Value → Option α}
    (hset : ¬ isSet d h r target read) :
    given? (styledBy d h ++ r.properties) target read = none :=
  Option.not_isSome_iff_eq_none.mp hset

/-- The border rule is about the border alone. -/
theorem settleBorder_look (a : Attributes) :
    (settleBorder st a).look.background = a.look.background ∧
      (settleBorder st a).look.padding = a.look.padding := by
  unfold settleBorder
  split
  next =>
    split
    next => exact ⟨rfl, rfl⟩
    next => exact ⟨rfl, rfl⟩
  next =>
    split
    next => exact ⟨rfl, rfl⟩
    next => exact ⟨rfl, rfl⟩

/-- Without a background of its own only the application has one. -/
theorem background_of_not_isSet (hset : ¬ isSet d h r .backgroundColor Value.toColor?) :
    (ofRecord d st h r).look.background =
      if h.widget = .app then st.background else .clear := by
  rw [ofRecord_eq, (settleBorder_look _).1]
  simp only [layered, overlay, given?_of_not_isSet hset, Option.getD_none, initial]
  cases h.widget <;> rfl

/-- Without a padding of its own an element has none. -/
theorem padding_of_not_isSet (hset : ¬ isSet d h r .padding Value.toEdges?) :
    (ofRecord d st h r).look.padding = .zero := by
  rw [ofRecord_eq, (settleBorder_look _).2]
  simp only [layered, overlay, given?_of_not_isSet hset, Option.getD_none]
  rfl

/-- Without a border of its own an element has the width of the settings,
in their colour if there is any width. -/
theorem border_of_not_isSet (st : Settings) (hwidth : ¬ isSet d h r .borderWidth Value.toEdges?)
    (hcolor : ¬ isSet d h r .borderColor Value.toColor?) :
    (ofRecord d st h r).look.border = .uniform st.borderWidth ∧
      (ofRecord d st h r).look.borderColor =
        if st.borderWidth = 0 then none else some st.borderColor := by
  have hlook : (layered d st h (styledBy d h) r.properties).look.border = .uniform st.borderWidth ∧
      (layered d st h (styledBy d h) r.properties).look.borderColor = none := by
    simp only [layered, overlay, given?_of_not_isSet hwidth, given?_of_not_isSet hcolor,
      Option.getD_none, Option.none_or]
    exact ⟨rfl, rfl⟩
  rw [ofRecord_eq, settleBorder, Look.hasBorderColor, hlook.1, hlook.2]
  simp only [Option.any_none, Bool.false_eq_true, if_false, Edges.isZero_uniform]
  split
  next => exact hlook
  next => exact ⟨hlook.1, rfl⟩

end Attributes

/-! ## What is handed down, value by value -/

section

variable {own : Look} {h : Header} {r : Record}

/-- Of two values the one that shows is the one that should, exactly if
that is right or they are the same. -/
theorem ite_eq_ite_iff {α : Type} (own handed : α) (hidden set : Bool) :
    (if hidden then own else handed) = (if set then handed else own) ↔
      own = handed ∨ (set ↔ ¬ hidden) := by
  cases set <;> cases hidden <;> simp only [Bool.false_eq_true, if_true, if_false,
    not_true_eq_false, not_false_eq_true, iff_true, iff_false, or_true, or_false]
  exact eq_comm

/-- A background is handed down where it was set and else left, exactly if
it covers where it was set, or is that of no application or covers nothing
where it was not, or makes no difference. -/
theorem background_handed_iff :
    let inst := (Attributes.ofRecord d st h r).look
    let set := Attributes.isSet d h r .backgroundColor Value.toColor?
    (inst.decoration.applyTo own).background = (if set then inst.background else own.background) ↔
      own.background = inst.background ∨
        if set then ¬ inst.background.isClear else h.widget ≠ .app ∨ st.background.isClear := by
  dsimp only [Decoration.applyTo, Look.decoration]
  rw [ite_eq_ite_iff]
  refine or_congr_right ?_
  cases hset : Attributes.isSet d h r .backgroundColor Value.toColor? with
  | true => simp only [if_true, true_iff]
  | false =>
    rw [Attributes.background_of_not_isSet (Bool.eq_false_iff.mp hset)]
    by_cases happ : h.widget = .app
    · simp [happ]
    · simp [happ, Color.isClear, Color.clear]

/-- So is a padding, exactly if it has a width where it was set, or makes no
difference. -/
theorem padding_handed_iff :
    let inst := (Attributes.ofRecord d st h r).look
    let set := Attributes.isSet d h r .padding Value.toEdges?
    (inst.decoration.applyTo own).padding = (if set then inst.padding else own.padding) ↔
      own.padding = inst.padding ∨ (set → ¬ inst.padding.isZero) := by
  dsimp only [Decoration.applyTo, Look.decoration]
  rw [ite_eq_ite_iff]
  refine or_congr_right ?_
  cases hset : Attributes.isSet d h r .padding Value.toEdges? with
  | true => simp only [true_iff, true_implies]
  | false =>
    rw [Attributes.padding_of_not_isSet (Bool.eq_false_iff.mp hset)]
    simp [Edges.isZero]

/-- A border that was not set is left, exactly if the settings give none or
it makes no difference. -/
theorem border_handed_iff :
    let inst := (Attributes.ofRecord d st h r).look
    let width := Attributes.isSet d h r .borderWidth Value.toEdges?
    let color := Attributes.isSet d h r .borderColor Value.toColor?
    (¬ width → ¬ color → (inst.decoration.applyTo own).border = own.border ∧
        (inst.decoration.applyTo own).borderColor = own.borderColor) ↔
      width ∨ color ∨ st.borderWidth = 0 ∨
        own.border = .uniform st.borderWidth ∧ own.borderColor = some st.borderColor := by
  dsimp only [Decoration.applyTo, Look.decoration]
  cases hwidth : Attributes.isSet d h r .borderWidth Value.toEdges? with
  | true => simp
  | false =>
    cases hcolor : Attributes.isSet d h r .borderColor Value.toColor? with
    | true => simp
    | false =>
      obtain ⟨hborder, hsettings⟩ := Attributes.border_of_not_isSet st
        (Bool.eq_false_iff.mp hwidth) (Bool.eq_false_iff.mp hcolor)
      simp only [hborder, hsettings, Edges.isZero_uniform]
      by_cases hzero : st.borderWidth = 0
      · simp [hzero]
      · simp [hzero, eq_comm]

end

/-! ## In a session -/

namespace Scene

variable {s : Scene} {y : ElementId} {e : Element}

/-- In a linked document every element is as its record makes it. -/
theorem attired_linkedScene (d : Document) (st : Settings) :
    Attired d st 0 none (Session.linkedScene d st).1 := by
  have hforest := (Session.grows_linkedScene d st).forest forest_empty
  have hpending {y : ElementId} {e : Element}
      (he : (Session.linkedScene d st).1.get? y = some e) :
      ∀ i, e.instance? = some i → ¬ i.expanded ∧ i.decoration = .none := by
    intro i hi
    obtain ⟨r, -, halone⟩ := of_linkedScene he
    obtain ⟨hx, -, -, hnone⟩ :=
      Role.bare_of_ofRecord ((congrArg Element.instance? halone).symm.trans hi)
    exact ⟨hx, hnone⟩
  have hsource {y : ElementId} {e : Element}
      (he : (Session.linkedScene d st).1.get? y = some e) : e.source = .document y.index := by
    obtain ⟨r, -, halone⟩ := of_linkedScene he
    exact (congrArg Element.source halone :)
  have hfirst {y : ElementId} {e : Element}
      (he : (Session.linkedScene d st).1.get? y = some e) : ¬ e.source.isLead := by
    rw [hsource he]
    exact Bool.false_ne_true
  refine ⟨fun y e _ he _ => ?_, fun g eg f _ heg hf => ?_, fun y e _ he hlead =>
    absurd hlead (hfirst he), fun p ep u _ hep _ hu => ⟨Nat.zero_le _, ?_, fun eu heu =>
      hfirst heu⟩⟩
  · obtain ⟨r, hr, halone⟩ := of_linkedScene he
    have hheader : e.header = r.header := (congrArg Element.header halone :)
    have hlook : e.look = (Attributes.ofRecord d st r.header r).look :=
      (congrArg Element.look halone :)
    refine ⟨r, by rw [hsource he]; exact hr, hheader, Element.wears_of_look ?_ fun i hi =>
      (hpending he i hi).2⟩
    rw [Element.ownLook, hheader, hlook]
  · rw [(Element.kept_of_pending fun i hi => (hpending heg i hi).1).1] at hf
    cases hf
  · rw [(Element.kept_of_pending fun i hi => (hpending hep i hi).1).2,
      ← children_of_get? hep] at hu
    exact index_lt_of_contains (hforest.contains_child hu)

/-- Expanding an instance keeps a scene attired. -/
theorem Attired.expand {todo : List ElementId} {i : Instance} (h : Attired d st 0 none s)
    (ht : Tidy d s todo) (he : s.get? y = some e) (hi : e.instance? = some i) :
    Attired d st 0 none (s.expand d st y).scene := by
  have hr := ht.ready he hi
  have hx : Expanded d s y e i (s.expand d st y) := expands_expand d st ht.forest he hi hr
  have hd : Dresses d st s y e (s.expand d st y) := dressing_expand d st ht.forest he hi hr
  exact h.expanded hx hi hd (Nat.zero_le _)

/-- In a linked document nothing was handed down yet. -/
theorem innate_linkedScene {Q : Element → Prop} (hQ : Innate d Q) (st : Settings) :
    ∀ y e, (Session.linkedScene d st).1.get? y = some e → Q e := by
  intro y e he
  obtain ⟨r, -, halone⟩ := of_linkedScene he
  refine hQ.bare fun i hi => ?_
  obtain ⟨-, -, -, hnone⟩ :=
    Role.bare_of_ofRecord ((congrArg Element.instance? halone).symm.trans hi)
  exact hnone

/-- Expanding an instance, or trying to expand anything else. -/
theorem innate_expand {Q : Element → Prop} {todo : List ElementId} (hQ : Innate d Q)
    (st : Settings) (ht : Tidy d s todo) (id : ElementId)
    (hold : ∀ y e, s.get? y = some e → Q e) :
    ∀ y e, (s.expand d st id).scene.get? y = some e → Q e := by
  by_cases hinst : ∃ e i, s.get? id = some e ∧ e.instance? = some i
  · obtain ⟨e, i, he, hi⟩ := hinst
    have hr := ht.ready he hi
    have hx : Expanded d s id e i (s.expand d st id) := expands_expand d st ht.forest he hi hr
    have hleaves : Leaves Q s id (s.expand d st id) :=
      leaving_expandWithin hQ st maxDepth [] ht.forest he hi hr
    exact fun y e' => hleaves.expanded hQ 0 (fun y e _ => hold y e) hx y e' (Nat.zero_le _)
  · rwa [scene_expand_of_not_instance hinst]

end Scene

/-- A card with a border and a padding, which an instance asks to have
none. The settings give every element a border. -/
def Document.carded : Document :=
  { Document.blank with
    strings := ["", componentKey, "Card"]
    records :=
      [{ Record.ofHeader (.ofWidget .app) with
          properties := [⟨.borderWidth, .byte 1⟩], childRefs := [22] },
        { Record.standIn 2 [] with properties := [⟨.padding, .byte 0⟩] }]
    offsets := [0, 22]
    components :=
      [{ name := "Card", parameters := []
         template := ({ Record.blank with
           properties := [⟨.borderWidth, .byte 3⟩, ⟨.borderColor, .color .pureRed⟩,
             ⟨.padding, .byte 8⟩] } : Record).toBytes }] }

namespace Session

open Scene (Alike Tidy Attired)

variable {s : Session} {p f : ElementId} {ep ef : Element} {ip : Instance} {rest : List ElementId}

theorem settings_of_load {handlers : Handlers} {options : SessionOptions} {notices : List Notice}
    (h : load d handlers options = (.ok s, notices)) : s.settings = Settings.ofDocument d := by
  simp only [load] at h
  split at h
  next => cases h
  next =>
    cases h
    rfl

/-- What linking a document establishes, and expanding an instance and
writing what is derived keep, is so in a session at any time. -/
theorem Reachable.keeps_core {P : Settings → Scene → Prop}
    (hlinked : ∀ st, P st (linkedScene d st).1)
    (hexpand : ∀ {st t todo id e i}, Tidy d t todo → t.get? id = some e →
      e.instance? = some i → P st t → P st (t.expand d st id).scene)
    (halike : ∀ {st t t'}, Alike Element.core t t' → P st t → P st t') (h : Reachable d s) :
    P s.settings s.scene := by
  induction h with
  | @load handlers options s notices h =>
    obtain ⟨hsettings, hscene⟩ : s.settings = Settings.ofDocument d ∧ s.scene = _ :=
      ⟨settings_of_load h, (eq_of_load h).2⟩
    have hload := ((Scene.tidy_linkedScene d (Settings.ofDocument d)).expandAll_keeps
      (fun ht he hi _ => hexpand ht he hi) (hlinked (Settings.ofDocument d))).2
    rw [hsettings, hscene]
    exact halike ((Scene.alike_loadTextures _ _ _ _).trans (Scene.alike_inherit _ _)) hload
  | @frame s _ ih =>
    have ha := (Scene.alike_layOut s.rules s.scene s.viewport).trans
      (Scene.alike_adjust s.rules _ s.document s.handlers)
    exact halike ha.core ih
  | @resize s _ viewport ih =>
    obtain ⟨dirty, heq⟩ := s.resize_eq viewport
    exact heq ▸ ih
  | @reexpand s h id ih =>
    refine halike ((Scene.alike_loadTextures _ _ _ _).trans (Scene.alike_inherit _ _)) ?_
    by_cases hinst : ∃ e i, s.scene.get? id = some e ∧ e.instance? = some i
    · obtain ⟨e, i, he, hi⟩ := hinst
      rw [h.document_eq]
      exact hexpand h.tidy he hi ih
    · rwa [Scene.scene_expand_of_not_instance hinst]
  | point _ _ _ _ ih => exact ih
  | equip _ _ ih => exact ih

/-- At any time every element has what an expansion gives it. -/
theorem Reachable.innate {Q : Element → Prop} (h : Reachable d s) (hQ : Innate d Q) :
    ∀ y e, s.scene.get? y = some e → Q e :=
  h.keeps_core (P := fun _ t => ∀ y e, t.get? y = some e → Q e)
    (fun st => Scene.innate_linkedScene hQ st)
    (fun {_ _ _ id _ _} ht _ _ hold => Scene.innate_expand hQ _ ht id hold)
    fun ha hold y _ he' => by
      obtain ⟨e, he, hcore⟩ := ha.exists_get? he'
      exact hQ.core (hold y e he) hcore.symm

/-- At any time every element is as its record makes it, under what was
handed down to it. -/
theorem Reachable.attired (h : Reachable d s) : Attired d s.settings 0 none s.scene :=
  h.keeps_core (fun st => Scene.attired_linkedScene d st)
    (fun ht he hi hattired => Attired.expand hattired ht he hi)
    fun ha hattired => Attired.alike hattired ha

/-- The first node of a copy is as its record makes it under the style and
the decoration that the instance hands down. If the instance is a first
node itself, that includes what was handed down to it; else it is what its
own record gives it. Then a value of a plain first node is that of the
instance where style or record of the instance set one, and else its own,
exactly as far as the values tell. -/
theorem Reachable.first_node_wears (h : Reachable d s) (hp : s.scene.get? p = some ep)
    (hi : ep.instance? = some ip) (hroots : ip.roots = f :: rest)
    (hf : s.scene.get? f = some ef) :
    Element.LedBy d s.settings ep ef ∧
    (ep.source.isLead → ∃ g eg, s.scene.get? g = some eg ∧ eg.oldRoots.head? = some p ∧
      Element.LedBy d s.settings eg ep) ∧
    (¬ ep.source.isLead → ¬ ef.isInstance → ∃ rp rf,
      d.recordOf? ep.source = some rp ∧ d.recordOf? ef.source = some rf ∧
      let inst := (Attributes.ofRecord d s.settings rp.header rp).look
      let own := (Attributes.ofRecord d s.settings (Scene.copyHeader ep 0 rf.header) rf).look
      let background := Attributes.isSet d rp.header rp .backgroundColor Value.toColor?
      let padding := Attributes.isSet d rp.header rp .padding Value.toEdges?
      let width := Attributes.isSet d rp.header rp .borderWidth Value.toEdges?
      let color := Attributes.isSet d rp.header rp .borderColor Value.toColor?
      ef.look = inst.decoration.applyTo own ∧
      (ef.look.background = (if background then inst.background else own.background) ↔
        own.background = inst.background ∨
          if background then ¬ inst.background.isClear
          else rp.header.widget ≠ .app ∨ s.settings.background.isClear) ∧
      (ef.look.padding = (if padding then inst.padding else own.padding) ↔
        own.padding = inst.padding ∨ (padding → ¬ inst.padding.isZero)) ∧
      ((¬ width → ¬ color →
          ef.look.border = own.border ∧ ef.look.borderColor = own.borderColor) ↔
        width ∨ color ∨ s.settings.borderWidth = 0 ∨
          own.border = .uniform s.settings.borderWidth ∧
            own.borderColor = some s.settings.borderColor)) := by
  have hattired := h.attired
  have hinst : ep.isInstance = true := by rw [Element.isInstance, hi, Option.isSome_some]
  have hfirst : ep.oldRoots.head? = some f := by
    rw [Element.oldRoots, hi]
    dsimp only
    rw [if_pos (h.settled hp hi).expanded, hroots, List.head?_cons]
  have hled := (hattired.led p ep f (Nat.zero_le _) hp hfirst).2.2 ef hf
  refine ⟨hled, fun hlead => ?_, fun hlead hplain => ?_⟩
  · obtain ⟨g, -, -, eg, heg, hg⟩ := (hattired.headed p ep (Nat.zero_le _) hp hlead).resolve_left
      (Option.some_ne_none p).symm
    exact ⟨g, eg, heg, hg, (hattired.led g eg p (Nat.zero_le _) heg hg).2.2 ep hp⟩
  · obtain ⟨rp, hrp, hheader, hwears⟩ := hattired.made p ep (Nat.zero_le _) hp hlead
    obtain ⟨rf, hrf, hfheader, hfwears⟩ := hled.made
    have hlook := hfwears.plain hplain
    rw [Element.ownLook, hfheader, hwears.handed hinst, Element.ownLook, hheader] at hlook
    refine ⟨rp, rf, hrp, hrf, hlook, ?_⟩
    rw [hlook]
    exact ⟨background_handed_iff, padding_handed_iff, border_handed_iff⟩

/-- The card wears what its instance hands down. -/
theorem carded_wears : ∃ s notices ep ip ef rp rf,
    load .carded .none .standard = (.ok s, notices) ∧ s.scene.get? ⟨1⟩ = some ep ∧
    ep.instance? = some ip ∧ ip.roots = [⟨2⟩] ∧ s.scene.get? ⟨2⟩ = some ef ∧
    Element.LedBy .carded s.settings ep ef ∧
    Document.carded.recordOf? ep.source = some rp ∧ Document.carded.recordOf? ef.source = some rf ∧
    ef.look = (Attributes.ofRecord .carded s.settings rp.header rp).look.decoration.applyTo
      (Attributes.ofRecord .carded s.settings (Scene.copyHeader ep 0 rf.header) rf).look := by
  have hload : load .carded .none .standard = (.ok _, _) := rfl
  obtain ⟨hled, -, hvalues⟩ := Reachable.first_node_wears (p := ⟨1⟩) (f := ⟨2⟩) (.load hload)
    rfl rfl rfl rfl
  obtain ⟨rp, rf, hrp, hrf, hlook, -⟩ := hvalues Bool.false_ne_true Bool.false_ne_true
  exact ⟨_, _, _, _, _, rp, rf, hload, rfl, rfl, rfl, rfl, hled, hrp, hrf, hlook⟩

/-- But it is not what was asked for. The instance sets a padding, and the
card keeps its own; the instance sets no border, and the card has lost
its own. -/
theorem carded_not_as_set : ∃ s notices ep ip ef rp rf,
    load .carded .none .standard = (.ok s, notices) ∧ s.scene.get? ⟨1⟩ = some ep ∧
    ep.instance? = some ip ∧ ip.roots = [⟨2⟩] ∧ s.scene.get? ⟨2⟩ = some ef ∧ ¬ ef.isInstance ∧
    Document.carded.recordOf? ep.source = some rp ∧ Document.carded.recordOf? ef.source = some rf ∧
    let inst := (Attributes.ofRecord .carded s.settings rp.header rp).look
    let own := (Attributes.ofRecord .carded s.settings (Scene.copyHeader ep 0 rf.header) rf).look
    Attributes.isSet .carded rp.header rp .padding Value.toEdges? ∧
      ef.look.padding ≠ inst.padding ∧
    ¬ Attributes.isSet .carded rp.header rp .borderWidth Value.toEdges? ∧
    ¬ Attributes.isSet .carded rp.header rp .borderColor Value.toColor? ∧
      ef.look.border ≠ own.border ∧ ef.look.borderColor ≠ own.borderColor := by
  have hload : load .carded .none .standard = (.ok _, _) := rfl
  exact ⟨_, _, _, _, _, _, _, hload, rfl, rfl, rfl, rfl, Bool.false_ne_true, rfl, rfl, rfl,
    by decide, Bool.false_ne_true, Bool.false_ne_true, by decide, by decide⟩

end Session

end SceneTree
