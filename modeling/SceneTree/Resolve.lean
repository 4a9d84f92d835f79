import SceneTree.Element
import SceneTree.Notice
import SceneTree.Settings

/-!
# Resolving a record

The attributes of an element are found in four layers, each over the one
before: what the settings and the widget give, the style, the header, and
the record's own properties. A property whose value does not fit its
attribute changes nothing. The border rule comes last, because it looks at
the border and its colour together.

The result is a function of the header, the record, the document and the
settings. It is said in `Attributes`, apart from the element, so that
nothing an element held before can enter.

The header is given apart from the record: the root of a component takes
the style of the instance it stands in.
-/

namespace SceneTree

/-- What the layers decide. -/
structure Attributes where
  look : Look
  sizing : Sizing
  layout : LayoutFlags
  text : Option String
  resource : Option UInt8
deriving DecidableEq

namespace Attributes

/-! ## The layers -/

/-- What every element starts from. Every element gets the border width
of the settings; only the application gets the background. -/
def initial (s : Settings) (widget : Widget) : Attributes :=
  { look :=
      { Look.plain with
        visible := s.visible
        border := .uniform s.borderWidth
        background := match widget with
          | .app => s.background
          | _ => .clear
        pointer := match widget with
          | .button => .hand
          | .input => .text
          | _ => .standard }
    sizing := .free
    layout := .empty
    text := none
    resource := none }

/-- The opacity in a value: a byte as it stands, or a share of 256. -/
def opacityOf? : Value → Option UInt8
  | .byte n => some n
  | .percentage n => some (UInt8.ofNat (min n.toNat 256 * 255 / 256))
  | _ => none

/-- The attributes after one property. -/
def set (d : Document) (a : Attributes) (p : Property) : Attributes :=
  let v := p.value
  let look (f : Look → Look) : Attributes := { a with look := f a.look }
  let sizing (f : Sizing → Sizing) : Attributes := { a with sizing := f a.sizing }
  match p.target with
  | .backgroundColor => v.toColor?.elim a fun c => look fun l => { l with background := c }
  | .foregroundColor => v.toColor?.elim a fun c => look fun l => { l with foreground := some c }
  | .borderColor => v.toColor?.elim a fun c => look fun l => { l with borderColor := some c }
  | .borderWidth => v.toEdges?.elim a fun e => look fun l => { l with border := e }
  | .padding => v.toEdges?.elim a fun e => look fun l => { l with padding := e }
  | .textContent => (d.stringOf? v).elim a fun t => { a with text := some t }
  | .fontSize =>
    (Settings.positive? v).elim a fun n => look fun l => { l with fontSize := some n }
  | .fontWeight =>
    v.toNumber?.elim a fun n => look fun l => { l with fontWeight := some (.ofScaledNumber n) }
  | .textAlignment =>
    v.toNumber?.elim a fun n => look fun l => { l with textAlign := some (.ofByte n.toUInt8) }
  | .imageSource => v.toResourceIndex?.elim a fun i => { a with resource := some i }
  | .opacity => (opacityOf? v).elim a fun n => look fun l => { l with opacity := n }
  | .visibility => v.toNumber?.elim a fun n => look fun l => { l with visible := n != 0 }
  | .gap => v.toNumber?.elim a fun n => sizing fun z => { z with gap := n.toNat }
  | .maxWidth => v.toNumber?.elim a fun n => sizing fun z => { z with maxWidth := some n.toNat }
  | .maxHeight =>
    v.toNumber?.elim a fun n => sizing fun z => { z with maxHeight := some n.toNat }
  | .width => v.toNumber?.elim a fun n => sizing fun z => { z with width := some n.toNat }
  | .height => v.toNumber?.elim a fun n => sizing fun z => { z with height := some n.toNat }
  | .layoutFlags => v.toNumber?.elim a fun n => { a with layout := ⟨n.toUInt8⟩ }
  | .cursor => v.toNumber?.elim a fun n => look fun l => { l with pointer := .ofByte n.toUInt8 }
  | .fontFamily => (d.stringOf? v).elim a fun t => look fun l => { l with fontFamily := some t }
  | .crossAlignment =>
    v.toNumber?.elim a fun n => sizing fun z => { z with crossAlign := some (.ofByte n.toUInt8) }
  | .windowWidth | .windowHeight | .windowTitle | .scaleFactor | .other _ => a

/-- The style of the header, if the document has it. -/
def setStyle (d : Document) (h : Header) (a : Attributes) : Attributes :=
  match d.style? h.styleId with
  | some style => style.properties.foldl (set d) a
  | none => a

/-- The size and the layout byte of the header, where it gives them. -/
def setHeader (h : Header) (a : Attributes) : Attributes :=
  { a with
    sizing :=
      { a.sizing with
        width := if h.width = 0 then a.sizing.width else some h.width.toNat
        height := if h.height = 0 then a.sizing.height else some h.height.toNat }
    layout := if h.layout.isEmpty then a.layout else h.layout }

/-- A border shows or is not there: a colour that covers gets a width of
one where no edge has any, and a width gets the colour of the settings
where no colour covers. -/
def settleBorder (s : Settings) (a : Attributes) : Attributes :=
  if a.look.hasBorderColor then
    if a.look.border.isZero then { a with look := { a.look with border := .uniform 1 } } else a
  else if a.look.border.isZero then a
  else { a with look := { a.look with borderColor := some s.borderColor } }

/-- The attributes of a record under a header. -/
def ofRecord (d : Document) (s : Settings) (h : Header) (r : Record) : Attributes :=
  settleBorder s <| r.properties.foldl (set d) <| setHeader h <| setStyle d h <| initial s h.widget

end Attributes

/-! ## Bindings -/

namespace Trigger

/-- The binding of a trigger, if both its numbers mean something. -/
def binding? (d : Document) (t : Trigger) : Option Binding :=
  (Event.ofByte? t.event).bind fun event =>
    (d.string? t.callback).map fun callback => { event, callback }

/-- What is wrong with a trigger that has no binding. The event counts
first. -/
def notice? (d : Document) (id : ElementId) (t : Trigger) : Option Notice :=
  match Event.ofByte? t.event, d.string? t.callback with
  | none, _ => some (.unknownEvent id t.event)
  | some _, none => some (.unnamedCallback id t.callback)
  | some _, some _ => none

end Trigger

/-! ## The role -/

namespace Role

/-- Gives an argument a value: in its place if it has one, else at the
end. -/
def setArgument (name : String) (v : Value) : List (String × Value) → List (String × Value)
  | [] => [(name, v)]
  | (key, old) :: rest =>
    if key = name then (key, v) :: rest else (key, old) :: setArgument name v rest

/-- The arguments of an instance: the parameters of the component with
their own values, then the custom properties of the record over them. The
two reserved names are no arguments. -/
def argumentsOf (d : Document) (r : Record) (component : Option Component) :
    List (String × Value) :=
  let declared := match component with
    | some c => c.parameters.map fun p => (p.name, p.fallback)
    | none => []
  r.customs.foldl
    (fun arguments c =>
      match d.string? c.key with
      | none => arguments
      | some key =>
        if key = Document.componentKey ∨ key = Document.slotKey then arguments
        else setArgument key c.value arguments)
    declared

/-- The component a record stands for: the string under the reserved
name. -/
def componentOf? (d : Document) (r : Record) : Option String :=
  (r.custom? d Document.componentKey).bind d.stringOf?

/-- The role of a record. A component that is not defined makes an
instance all the same; expanding it fails. -/
def ofRecord (d : Document) (r : Record) : Role :=
  match componentOf? d r with
  | none => .plain r.header.widget
  | some component =>
    let definition := d.componentNamed? component
    .standIn
      { component, definition
        arguments := argumentsOf d r (definition.bind d.component?)
        expanded := false, usage := [], roots := [], decoration := .none }

/-- What is noted while a role is found. -/
def noticesOf (d : Document) (r : Record) : List Notice :=
  match r.custom? d Document.componentKey with
  | none => []
  | some marker =>
    match d.stringOf? marker with
    | none => [.markerNotText marker]
    | some _ =>
      r.customs.filterMap fun c =>
        if (d.string? c.key).isNone then some (.unnamedCustom c.key) else none

end Role

/-! ## The element -/

namespace Element

/-- The element with everything its record says under its own header. Its
role is found apart. -/
def resolve (d : Document) (s : Settings) (e : Element) (r : Record) : Element :=
  let a := Attributes.ofRecord d s e.header r
  { e with
    look := a.look
    sizing := a.sizing
    layout := a.layout
    text := a.text
    resource := a.resource
    name := d.name? e.header.nameIndex
    slot := (r.custom? d Document.slotKey).isSome
    bindings := r.triggers.filterMap (·.binding? d) }

/-- The element as its record makes it: its attributes and its role. -/
def become (d : Document) (s : Settings) (e : Element) (r : Record) : Element :=
  { e.resolve d s r with role := .ofRecord d r }

/-- What is noted while a record is resolved for an element. -/
def resolveNotices (d : Document) (id : ElementId) (h : Header) (r : Record) : List Notice :=
  (if h.styleId ≠ 0 ∧ (d.style? h.styleId).isNone then [.unknownStyle id h.styleId] else [])
    ++ r.triggers.filterMap (·.notice? d id)

end Element

end SceneTree
