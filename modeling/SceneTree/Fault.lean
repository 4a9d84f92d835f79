import SceneTree.ElementId

/-!
# What can go wrong

Each stage has its own type of causes, and each cause a name and its own
wording.
Only a `LoadFault` ends the work on a document. Every other fault stops
at the element it concerns: it is noted, and the element keeps a safe
default.
-/

namespace SceneTree

/-- The bytes ended inside a field: where the field began, and how many
bytes it lacks. -/
structure ShortRead where
  offset : Nat
  missing : Nat
deriving DecidableEq

namespace ShortRead

def kind : String := "UnexpectedEof"

def message (e : ShortRead) : String :=
  s!"unexpected end of data at offset {e.offset}: needed {e.missing} more byte(s)"

end ShortRead

/-- Why a document has no render tree. -/
inductive LoadFault where
  | noRoots (elements : Nat)
  | offsetCount (offsets elements : Nat)
  | malformed (cause : ShortRead)
deriving DecidableEq

namespace LoadFault

/-- The name of the cause. -/
def kind : LoadFault → String
  | .noRoots _ => "NoRoots"
  | .offsetCount _ _ => "OffsetTableMismatch"
  | .malformed _ => "Decode"

def message : LoadFault → String
  | .noRoots elements => s!"document has {elements} element(s) but no root"
  | .offsetCount offsets elements =>
    s!"element offset table has {offsets} entries for {elements} elements"
  | .malformed cause => "malformed element record: " ++ cause.message

end LoadFault

/-- Why an element does not become the child of another. -/
inductive LinkFault where
  | missing (id : ElementId)
  | selfLink (id : ElementId)
  | alreadyParented (child parent : ElementId)
  | wouldCycle (parent child : ElementId)
deriving DecidableEq

namespace LinkFault

/-- The name of the cause. -/
def kind : LinkFault → String
  | .missing _ => "Missing"
  | .selfLink _ => "SelfLink"
  | .alreadyParented _ _ => "AlreadyParented"
  | .wouldCycle _ _ => "WouldCycle"

def message : LinkFault → String
  | .missing id => s!"element {id.label} does not exist"
  | .selfLink id => s!"element {id.label} cannot be its own child"
  | .alreadyParented child parent => s!"element {child.label} already has parent {parent.label}"
  | .wouldCycle parent child =>
    s!"linking {child.label} under {parent.label} would create a cycle"

end LinkFault

/-- Why a child reference of a template is no edge of its tree. -/
inductive RefFault where
  /-- No record starts where the reference points. -/
  | dangling
  /-- The record it points at is the child of another already. -/
  | alreadyParented
  /-- It points at the record itself or at one it lies under. -/
  | cycle
deriving DecidableEq

namespace RefFault

def name : RefFault → String
  | .dangling => "Dangling"
  | .alreadyParented => "AlreadyParented"
  | .cycle => "Cycle"

end RefFault

/-- Why an instance does not show its component. -/
inductive ExpandFault where
  | unknownComponent (name : String)
  | recursive (name : String)
  | tooDeep (levels : Nat)
  | badTemplate (component : String) (cause : ShortRead)
  | notAnInstance (id : ElementId)
deriving DecidableEq

namespace ExpandFault

/-- The name of the cause. -/
def kind : ExpandFault → String
  | .unknownComponent _ => "UnknownComponent"
  | .recursive _ => "Recursive"
  | .tooDeep _ => "TooDeep"
  | .badTemplate _ _ => "Template"
  | .notAnInstance _ => "NotAnInstance"

def message : ExpandFault → String
  | .unknownComponent name => s!"component `{name}` is not defined"
  | .recursive name => s!"component `{name}` instantiates itself"
  | .tooDeep levels => s!"component nesting deeper than {levels} levels"
  | .badTemplate component cause =>
    s!"template of `{component}` is malformed: " ++ cause.message
  | .notAnInstance id => s!"element {id.label} is not a component instance"

end ExpandFault

/-- Why an adjuster gives up. -/
inductive AdjustFault where
  | noParent (id : ElementId)
  | missing (id : ElementId)
  | invalidProperty (property value : String)
  | other (text : String)
deriving DecidableEq

namespace AdjustFault

def message : AdjustFault → String
  | .noParent id => s!"element {id.label} has no parent to adjust against"
  | .missing id => s!"element {id.label} is missing from the render tree"
  | .invalidProperty property value => s!"invalid value `{value}` for property `{property}`"
  | .other text => text

end AdjustFault

/-- Why a resource has no texture. -/
inductive TextureFault where
  | unknownResource (index : UInt8)
  | loadFailed (path reason : String)
deriving DecidableEq

namespace TextureFault

/-- The name of the cause. -/
def kind : TextureFault → String
  | .unknownResource _ => "UnknownResource"
  | .loadFailed _ _ => "LoadFailed"

def message : TextureFault → String
  | .unknownResource index => s!"resource index {index} is not in the resource table"
  | .loadFailed path reason => s!"failed to load `{path}`: {reason}"

end TextureFault

end SceneTree
