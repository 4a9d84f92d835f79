import SceneTree.Fault
import SceneTree.Document.Value

/-!
# Notices

A notice is what a stage says when it goes on with a safe default. It is
a cause; the text and the named fields are read off it.
-/

namespace SceneTree

inductive Notice where
  /-- The string table has no room; index zero stands in. -/
  | stringTableFull (string : String)
  /-- The resource table has no room; index zero stands in. -/
  | resourceTableFull (path : String)
  | unknownLink (parent child : Nat)
  /-- A reference cannot count the distance to this child. -/
  | unreachableChild (parent child : Nat)
  | unknownStyle (element : ElementId) (style : UInt8)
  | unknownEvent (element : ElementId) (event : UInt8)
  | unnamedCallback (element : ElementId) (index : UInt8)
  | markerNotText (marker : Value)
  | unnamedCustom (index : UInt8)
  | danglingChild (element : ElementId) (offset : Nat)
  | childRejected (element child : ElementId) (cause : LinkFault)
  | expansionFailed (element : ElementId) (cause : ExpandFault)
  | nestedExpansionFailed (component : String) (element : ElementId) (cause : ExpandFault)
  | templateLinkRejected (component : String) (cause : LinkFault)
  | templateRefSkipped (component : String) (node offset : Nat) (problem : RefFault)
  | templateRootRejected (component : String) (cause : LinkFault)
  | usageRejected (component : String) (child : ElementId) (cause : LinkFault)
  | usageDropped (component : String) (count : Nat)
  | textureUnavailable (element : ElementId) (resource : UInt8) (cause : TextureFault)
  | adjustmentFailed (element : ElementId) (component : String) (cause : AdjustFault)
  | patchMissed (element : ElementId)
  | unknownCallback (name : String)
deriving DecidableEq

namespace Notice

/-- What the notice says. -/
def message : Notice → String
  | .stringTableFull _ => "string table full, using index 0"
  | .resourceTableFull _ => "resource table full, using index 0"
  | .unknownLink _ _ => "link between unknown elements ignored"
  | .unreachableChild _ _ => "child precedes parent or is out of range"
  | .unknownStyle _ _ => "unknown style id, keeping defaults"
  | .unknownEvent _ _ => "unknown event type"
  | .unnamedCallback _ _ => "event callback name out of range"
  | .markerNotText _ => "component marker is not a string, treating as standard element"
  | .unnamedCustom _ => "custom property key out of range"
  | .danglingChild _ _ => "child reference does not point at an element"
  | .childRejected _ _ cause => "rejected child link: " ++ cause.message
  | .expansionFailed _ cause => "component expansion failed: " ++ cause.message
  | .nestedExpansionFailed _ _ cause => "nested expansion failed: " ++ cause.message
  | .templateLinkRejected _ cause => "template link rejected: " ++ cause.message
  | .templateRefSkipped _ _ _ _ => "skipping template child reference"
  | .templateRootRejected _ cause => "template root link rejected: " ++ cause.message
  | .usageRejected _ _ cause => "usage child rejected: " ++ cause.message
  | .usageDropped _ _ => "template has no root, dropping usage children"
  | .textureUnavailable _ _ cause => "texture unavailable: " ++ cause.message
  | .adjustmentFailed _ _ cause => "adjustment failed: " ++ cause.message
  | .patchMissed _ => "patch targets a missing element"
  | .unknownCallback _ => "no callback registered"

/-- What the notice is about, by name. -/
def fields : Notice → List (String × String)
  | .stringTableFull string => [("string", string)]
  | .resourceTableFull path => [("path", path)]
  | .unknownLink parent child | .unreachableChild parent child =>
    [("parent", s!"{parent}"), ("child", s!"{child}")]
  | .unknownStyle element style => [("element", element.label), ("style_id", s!"{style}")]
  | .unknownEvent element event => [("element", element.label), ("event_type", s!"{event}")]
  | .unnamedCallback element index => [("element", element.label), ("index", s!"{index}")]
  | .markerNotText marker => [("value", marker.describe)]
  | .unnamedCustom index => [("index", s!"{index}")]
  | .danglingChild element offset => [("element", element.label), ("offset", s!"{offset}")]
  | .childRejected element child _ => [("element", element.label), ("child", child.label)]
  | .expansionFailed element _ => [("element", element.label)]
  | .nestedExpansionFailed component element _ =>
    [("component", component), ("element", element.label)]
  | .templateLinkRejected component _ | .templateRootRejected component _ =>
    [("component", component)]
  | .templateRefSkipped component node offset problem =>
    [("component", component), ("node", s!"{node}"), ("offset", s!"{offset}"),
     ("problem", problem.name)]
  | .usageRejected component child _ => [("component", component), ("child", child.label)]
  | .usageDropped component count => [("component", component), ("count", s!"{count}")]
  | .textureUnavailable element resource _ =>
    [("element", element.label), ("resource", s!"{resource}")]
  | .adjustmentFailed element component _ =>
    [("element", element.label), ("component", component)]
  | .patchMissed element => [("element", element.label)]
  | .unknownCallback name => [("callback", name)]

end Notice

end SceneTree
