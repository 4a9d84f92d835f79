import Mathlib.Data.List.Basic
import Mathlib.Data.List.Find
import SceneTree.Scene.Populate
import SceneTree.Template

/-!
# What a string is read for

Names, keys of custom properties, callbacks and values point into the
string table. `Document.Unreferenced` says that no record that is used, no
style and no parameter points at a string in one of these ways. Then
another string may stand there (`Document.withString`), and neither the
settings nor anything a record is resolved to changes.

One reading is left. As text, a resource that is passed to a component
reads the string table, at the number it has among the resources
(`Document.textOf_withString`).
-/

namespace SceneTree

/-! ## What points at a string -/

namespace Document

/-- The document with another string at an index it has. -/
def withString (d : Document) (i : Nat) (text : String) : Document :=
  { d with strings := d.strings.set i text }

/-- The record belongs to an element, or to a template that can be read. -/
def Uses (d : Document) (r : Record) : Prop :=
  r ∈ d.records ∨ ∃ c ∈ d.components, ∃ t, Template.read c.template = .ok t ∧
    ∃ n ∈ t.nodes, n.record = r

/-- Some record or style sets an attribute to the value. -/
def Sets (d : Document) (v : Value) : Prop :=
  (∃ r, d.Uses r ∧ ∃ p ∈ r.properties, p.value = v) ∨
    ∃ style ∈ d.styles, ∃ p ∈ style.properties, p.value = v

/-- Some record has a custom property of the value, or some parameter has
it if nothing is passed. -/
def Passes (d : Document) (v : Value) : Prop :=
  (∃ r, d.Uses r ∧ ∃ c ∈ r.customs, c.value = v) ∨
    ∃ c ∈ d.components, ∃ p ∈ c.parameters, p.fallback = v

/-- Nothing that points at a string points at this one. -/
structure Unreferenced (d : Document) (i : Nat) : Prop where
  name : ∀ r, d.Uses r → r.header.nameIndex.toNat ≠ i
  key : ∀ r, d.Uses r → ∀ c ∈ r.customs, c.key.toNat ≠ i
  callback : ∀ r, d.Uses r → ∀ t ∈ r.triggers, t.callback.toNat ≠ i
  value : ∀ j, d.Sets (.string j) ∨ d.Passes (.string j) → j.toNat ≠ i

end Document

/-- The value is not the string at the index. -/
def Value.Spares (i : Nat) (v : Value) : Prop := ∀ j, v = .string j → j.toNat ≠ i

/-- Nothing of the record points at the string. -/
structure Record.Spares (i : Nat) (r : Record) : Prop where
  name : r.header.nameIndex.toNat ≠ i
  property : ∀ p ∈ r.properties, p.value.Spares i
  key : ∀ c ∈ r.customs, c.key.toNat ≠ i
  custom : ∀ c ∈ r.customs, c.value.Spares i
  callback : ∀ t ∈ r.triggers, t.callback.toNat ≠ i

namespace Document.Unreferenced

variable {d : Document} {i : Nat} {r : Record}

theorem record (h : d.Unreferenced i) (hr : d.Uses r) : r.Spares i where
  name := h.name r hr
  property p hp j hv := h.value j (.inl (.inl ⟨r, hr, p, hp, hv⟩))
  key := h.key r hr
  custom c hc j hv := h.value j (.inr (.inl ⟨r, hr, c, hc, hv⟩))
  callback := h.callback r hr

theorem style (h : d.Unreferenced i) {style : Style} (hs : style ∈ d.styles) :
    ∀ p ∈ style.properties, p.value.Spares i := fun p hp j hv =>
  h.value j (.inl (.inr ⟨style, hs, p, hp, hv⟩))

end Document.Unreferenced

/-! ## Look-ups -/

namespace Document

variable {d : Document} {i : Nat} {j : UInt8} {r : Record} {v : Value}

theorem mem_of_style? {style : Style} (h : d.style? j = some style) : style ∈ d.styles := by
  rw [style?] at h
  split at h
  next => cases h
  next => exact List.mem_of_find?_eq_some h

theorem string?_withString (text : String) (hj : j.toNat ≠ i) :
    (d.withString i text).string? j = d.string? j := List.getElem?_set_ne (Ne.symm hj)

theorem name?_withString (text : String) (hj : j.toNat ≠ i) :
    (d.withString i text).name? j = d.name? j := by
  rw [name?, name?, string?_withString text hj]

theorem stringOf?_withString (text : String) (hv : v.Spares i) :
    (d.withString i text).stringOf? v = d.stringOf? v := by
  cases v with
  | string j => exact string?_withString text (hv j rfl)
  | _ => rfl

/-- As text a value is the same, if it does not have the number of the
string. -/
theorem textOf_withString (text : String) (hv : v.Spares i) :
    (d.withString i text).textOf v = d.textOf v ∨ ∃ j, j.toNat = i ∧ v = .resource j := by
  cases v with
  | string j =>
    left
    rw [textOf, textOf, string?_withString text (hv j rfl)]
  | resource j =>
    by_cases hj : j.toNat = i
    · exact .inr ⟨j, hj, rfl⟩
    · left
      rw [textOf, textOf, string?_withString text hj]
  | _ => exact .inl rfl

theorem custom?_withString (text : String) (hr : r.Spares i) (key : String) :
    r.custom? (d.withString i text) key = r.custom? d key := by
  rw [Record.custom?, Record.custom?]
  refine congrArg (Option.map Custom.value) (List.find?_congr fun c hc => ?_)
  rw [string?_withString text (hr.key c hc)]

end Document

section

variable {d : Document} {i : Nat} {r : Record} (text : String)

open Document (string?_withString stringOf?_withString custom?_withString name?_withString)

/-! ## Attributes -/

namespace Attributes

variable {ps : List Property}

theorem set_withString {p : Property} (hp : p.value.Spares i) (a : Attributes) :
    set (d.withString i text) a p = set d a p := by
  unfold set
  dsimp only
  rw [stringOf?_withString text hp]

theorem foldl_set_withString (hps : ∀ p ∈ ps, p.value.Spares i) (a : Attributes) :
    ps.foldl (set (d.withString i text)) a = ps.foldl (set d) a :=
  List.foldl_ext _ _ a fun a p hp => set_withString text (hps p hp) a

theorem setStyle_withString (h : d.Unreferenced i) (header : Header) (a : Attributes) :
    setStyle (d.withString i text) header a = setStyle d header a := by
  rw [setStyle, setStyle, show (d.withString i text).style? header.styleId =
    d.style? header.styleId from rfl]
  cases hs : d.style? header.styleId with
  | none => rfl
  | some style => exact foldl_set_withString text (h.style (Document.mem_of_style? hs)) a

theorem ofRecord_withString (h : d.Unreferenced i) (hr : r.Spares i) (st : Settings)
    (header : Header) : ofRecord (d.withString i text) st header r = ofRecord d st header r := by
  rw [ofRecord, ofRecord, setStyle_withString text h, foldl_set_withString text hr.property]

end Attributes

/-! ## Settings -/

namespace Settings

variable {ps : List Property}

theorem set_withString {p : Property} (hp : p.value.Spares i) (st : Settings) :
    set (d.withString i text) st p = set d st p := by
  unfold set
  dsimp only
  rw [stringOf?_withString text hp]

theorem foldl_set_withString (hps : ∀ p ∈ ps, p.value.Spares i) (st : Settings) :
    ps.foldl (set (d.withString i text)) st = ps.foldl (set d) st :=
  List.foldl_ext _ _ st fun st p hp => set_withString text (hps p hp) st

theorem ofDocument_withString (h : d.Unreferenced i) :
    ofDocument (d.withString i text) = ofDocument d := by
  rw [ofDocument, ofDocument, show (d.withString i text).app? = d.app? from rfl]
  cases happ : d.app? with
  | none => rfl
  | some app =>
    have hr := h.record (.inl (List.mem_of_find?_eq_some happ))
    dsimp only
    rw [foldl_set_withString text hr.property, show (d.withString i text).style? app.header.styleId =
      d.style? app.header.styleId from rfl]
    cases hs : d.style? app.header.styleId with
    | none => rfl
    | some style =>
      dsimp only
      rw [foldl_set_withString text (h.style (Document.mem_of_style? hs))]

end Settings

/-! ## Bindings and roles -/

theorem Trigger.binding?_withString {t : Trigger} (ht : t.callback.toNat ≠ i) :
    t.binding? (d.withString i text) = t.binding? d := by
  rw [binding?, binding?, string?_withString text ht]

theorem Trigger.notice?_withString {t : Trigger} (ht : t.callback.toNat ≠ i) (id : ElementId) :
    t.notice? (d.withString i text) id = t.notice? d id := by
  rw [notice?, notice?, string?_withString text ht]

namespace Role

theorem argumentsOf_withString (hr : r.Spares i) (component : Option Component) :
    argumentsOf (d.withString i text) r component = argumentsOf d r component := by
  unfold argumentsOf
  refine List.foldl_ext _ _ _ fun arguments c hc => ?_
  rw [string?_withString text (hr.key c hc)]

theorem componentOf?_withString (hr : r.Spares i) :
    componentOf? (d.withString i text) r = componentOf? d r := by
  rw [componentOf?, componentOf?, custom?_withString text hr]
  cases hmarker : r.custom? d Document.componentKey with
  | none => rfl
  | some marker =>
    obtain ⟨c, hc, rfl⟩ := Option.map_eq_some_iff.mp hmarker
    exact stringOf?_withString text (hr.custom c (List.mem_of_find?_eq_some hc))

theorem ofRecord_withString (hr : r.Spares i) :
    ofRecord (d.withString i text) r = ofRecord d r := by
  rw [ofRecord, ofRecord, componentOf?_withString text hr]
  cases componentOf? d r with
  | none => rfl
  | some component =>
    dsimp only
    rw [argumentsOf_withString text hr]
    rfl

theorem noticesOf_withString (hr : r.Spares i) :
    noticesOf (d.withString i text) r = noticesOf d r := by
  rw [noticesOf, noticesOf, custom?_withString text hr]
  cases hmarker : r.custom? d Document.componentKey with
  | none => rfl
  | some marker =>
    obtain ⟨c, hc, rfl⟩ := Option.map_eq_some_iff.mp hmarker
    dsimp only
    rw [stringOf?_withString text (hr.custom c (List.mem_of_find?_eq_some hc))]
    cases d.stringOf? c.value with
    | none => rfl
    | some name =>
      refine List.filterMap_congr fun c hc => ?_
      rw [string?_withString text (hr.key c hc)]

end Role

/-! ## Arguments -/

namespace Role

theorem mem_setArgument {name : String} {v : Value} {l : List (String × Value)}
    {a : String × Value} (ha : a ∈ setArgument name v l) : a.2 = v ∨ a ∈ l := by
  induction l with
  | nil =>
    rw [List.mem_singleton.mp ha]
    exact .inl rfl
  | cons b l ih =>
    obtain ⟨key, old⟩ := b
    rw [setArgument] at ha
    split at ha
    next =>
      rcases List.mem_cons.mp ha with rfl | ha
      · exact .inl rfl
      · exact .inr (List.mem_cons_of_mem _ ha)
    next =>
      rcases List.mem_cons.mp ha with rfl | ha
      · exact .inr List.mem_cons_self
      · exact (ih ha).imp_right (List.mem_cons_of_mem _)

theorem passes_of_mem_argumentsOf (hr : d.Uses r) {component : Option Component}
    (hcomponent : ∀ c, component = some c → c ∈ d.components) :
    ∀ a ∈ argumentsOf d r component, d.Passes a.2 := by
  unfold argumentsOf
  refine List.foldlRecOn
    (motive := fun arguments : List (String × Value) => ∀ a ∈ arguments, d.Passes a.2) r.customs _
    (fun a ha => ?_) fun arguments harguments c hc => ?_
  · cases component with
    | none => exact absurd ha List.not_mem_nil
    | some c =>
      obtain ⟨p, hp, rfl⟩ := List.mem_map.mp ha
      exact .inr ⟨c, hcomponent c rfl, p, hp, rfl⟩
  · cases d.string? c.key with
    | none => exact harguments
    | some key =>
      dsimp only
      split
      next => exact harguments
      next =>
        intro a ha
        rcases mem_setArgument ha with hv | ha
        · rw [hv]
          exact .inl ⟨r, hr, c, hc, rfl⟩
        · exact harguments a ha

/-- What an instance passes to its component was passed by its record or is
what the component has for it. -/
theorem passes_of_ofRecord (hr : d.Uses r) {inst : Instance}
    (hi : (ofRecord d r).instance? = some inst) : ∀ a ∈ inst.arguments, d.Passes a.2 := by
  unfold ofRecord at hi
  split at hi
  next => cases hi
  next component _ =>
    cases hi
    refine passes_of_mem_argumentsOf hr fun c hc => ?_
    obtain ⟨id, -, hid⟩ := Option.bind_eq_some_iff.mp hc
    exact List.mem_of_getElem? hid

end Role

/-! ## Elements -/

/-- Making an element of a record that spares the string reads none of its
characters. -/
theorem Element.become_withString (h : d.Unreferenced i) (hr : r.Spares i) (st : Settings)
    {e : Element} (he : e.header.nameIndex.toNat ≠ i) :
    e.become (d.withString i text) st r = e.become d st r := by
  have hbindings : r.triggers.filterMap (·.binding? (d.withString i text)) =
      r.triggers.filterMap (·.binding? d) :=
    List.filterMap_congr fun t ht => Trigger.binding?_withString text (hr.callback t ht)
  simp only [become, resolve, Attributes.ofRecord_withString text h hr,
    name?_withString text he, custom?_withString text hr, hbindings,
    Role.ofRecord_withString text hr]

theorem Record.notices_withString (hr : r.Spares i) (id : ElementId) (header : Header) :
    r.notices (d.withString i text) id header = r.notices d id header := by
  have htriggers : r.triggers.filterMap (·.notice? (d.withString i text) id) =
      r.triggers.filterMap (·.notice? d id) :=
    List.filterMap_congr fun t ht => Trigger.notice?_withString text (hr.callback t ht) id
  rw [Record.notices, Record.notices, Element.resolveNotices, Element.resolveNotices, htriggers,
    Role.noticesOf_withString text hr]
  rfl

end

end SceneTree
