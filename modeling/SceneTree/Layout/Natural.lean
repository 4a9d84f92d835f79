import SceneTree.Scene.Basic
import SceneTree.Settings
import SceneTree.Text.Ruler

/-!
# Natural sizes

How much room an element asks for, from the bottom up. A size that is
asked for outright counts first, then a largest size, then the content:
its text, its texture, or its children in the flow, with border and
padding around it. An element without content asks for nothing, and so do
its border and padding.

Hidden children and those out of the flow take no room.
-/

namespace SceneTree

open Word (wrap)

/-- What layout goes by beside the scene. -/
structure LayoutRules where
  settings : Settings
  ruler : Ruler

namespace Element

/-- The size that holds children of the given sizes one after another. -/
def hug (e : Element) (children : List Size) : Size :=
  let isRow := e.layout.direction.isRow
  let mains := children.map fun c => if isRow then c.width else c.height
  let crosses := children.map fun c => if isRow then c.height else c.width
  if children.isEmpty then .zero
  else
    let main := wrap (mains.foldr (· + ·) 0 + max e.sizing.gap 0 * (children.length - 1))
    let cross := crosses.foldl max 0
    if isRow then ⟨main, cross⟩ else ⟨cross, main⟩

/-- The size of the content alone. A text that the widget does not draw
hides the other content but takes no room. -/
def innerSize (rules : LayoutRules) (e : Element) (children : List Size) : Size :=
  match e.text.filter (· ≠ "") with
  | some text =>
    if e.widget.showsText then
      rules.ruler.measure text (rules.settings.scaled e.textStyle.fontSize)
    else .zero
  | none =>
    match e.loadedTexture? with
    | some t => ⟨Word.signed t.width, Word.signed t.height⟩
    | none => e.hug children

/-- The content with border and padding, or nothing if there is none. -/
def contentSize (rules : LayoutRules) (e : Element) (children : List Size) : Size :=
  let inner := e.innerSize rules children
  if inner = .zero then .zero
  else
    ⟨wrap (inner.width + e.look.insets.horizontal), wrap (inner.height + e.look.insets.vertical)⟩

/-- The size an element asks for, given those of its children in the
flow. -/
def naturalSize (rules : LayoutRules) (e : Element) (children : List Size) : Size :=
  let content := e.contentSize rules children
  { width := max ((e.sizing.width <|> e.sizing.maxWidth).getD content.width) 0
    height := max ((e.sizing.height <|> e.sizing.maxHeight).getD content.height) 0 }

end Element

namespace Scene

/-- The children of an element that stand in its flow. -/
def flowChildren (s : Scene) (e : Element) : List ElementId :=
  e.children.filter fun c => (s.get? c).any (·.inFlow)

/-- The size an element asks for, looking `steps` levels down. -/
def naturalSizeWithin (rules : LayoutRules) (s : Scene) : Nat → ElementId → Size
  | 0, _ => .zero
  | steps + 1, id =>
    match s.get? id with
    | none => .zero
    | some e => e.naturalSize rules ((s.flowChildren e).map (s.naturalSizeWithin rules steps))

/-- The size an element asks for. -/
def naturalSize (rules : LayoutRules) (s : Scene) (id : ElementId) : Size :=
  s.naturalSizeWithin rules s.slots.size id

/-- Writes down the sizes that the given elements ask for. -/
def withNaturalSizes (rules : LayoutRules) (s : Scene) (ids : List ElementId) : Scene :=
  ids.foldl
    (fun t id => t.modify id fun e => { e with intrinsic := s.naturalSize rules id }) s

/-- Measures an element and all below it. -/
def measure (rules : LayoutRules) (s : Scene) (id : ElementId) : Scene :=
  s.withNaturalSizes rules (s.descendants id)

end Scene

end SceneTree
