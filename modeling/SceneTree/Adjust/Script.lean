import SceneTree.Adjust.Basic

/-!
# Scripts

An adjuster can be written down as data: a list of commands, taken in
order until one fails. A command names an element by its id, or by where
it stands to the instance the adjuster is called for.

Commands that change nothing ask for something instead, and the answers
are kept in order. A command that fails asks nothing, and what was done
before it counts.
-/

namespace SceneTree

/-- An element as a script names it. -/
inductive Place where
  | given (id : ElementId)
  /-- The instance the script runs for. -/
  | target
  | parent
deriving DecidableEq

inductive ScriptCommand where
  | setRect (place : Place) (r : Rect)
  | relayout (place : Place)
  | fail (cause : AdjustFault)
  | failNoParent (place : Place)
  | failMissing (place : Place)
  | askRect (place : Place)
  | askParent (place : Place)
  | askSiblings (place : Place)
  | askContentBox (place : Place)
  | askArgument (name : String)
  | askPatch
deriving DecidableEq

/-- The answer to a command that asks. -/
inductive Finding where
  | rect (r : Rect)
  | parent (id : ElementId)
  | siblings (ids : List ElementId)
  | contentBox (box : Option Rect)
  | argument (value : Option Value) (text : Option String)
  | patch (p : Patch)
deriving DecidableEq

/-- What a script has come to. -/
structure ScriptState where
  patch : Patch
  findings : List Finding
deriving DecidableEq

namespace ScriptState

def start : ScriptState := { patch := .empty, findings := [] }

def find (s : ScriptState) (found : Finding) : ScriptState :=
  { s with findings := s.findings ++ [found] }

end ScriptState

namespace Place

/-- The element a place stands for. Only the parent may be missing. -/
def locate (place : Place) (target : ElementId) (v : AdjustView) :
    Except AdjustFault ElementId :=
  match place with
  | .given id => .ok id
  | .target => .ok target
  | .parent => (v.parent target).map (·.id)

end Place

namespace ScriptCommand

/-- Runs one command. -/
def run (c : ScriptCommand) (target : ElementId) (v : AdjustView) (s : ScriptState) :
    Except AdjustFault ScriptState := do
  match c with
  | .setRect place r => return { s with patch := s.patch.setRect (← place.locate target v) r }
  | .relayout place => return { s with patch := s.patch.relayout (← place.locate target v) }
  | .fail cause => throw cause
  | .failNoParent place => throw (.noParent (← place.locate target v))
  | .failMissing place => throw (.missing (← place.locate target v))
  | .askRect place => return s.find (.rect (← v.element (← place.locate target v)).rect)
  | .askParent place => return s.find (.parent (← v.parent (← place.locate target v)).id)
  | .askSiblings place =>
    return s.find (.siblings ((v.siblings (← place.locate target v)).map (·.id)))
  | .askContentBox place =>
    return s.find (.contentBox (v.contentBox? (← place.locate target v)))
  | .askArgument name =>
    return s.find (.argument (v.argument? target name) (v.argumentText? target name))
  | .askPatch => return s.find (.patch s.patch)

end ScriptCommand

structure Script where
  commands : List ScriptCommand
deriving DecidableEq

namespace Script

/-- Runs commands up to the first that fails: the state before that one,
and its fault. -/
def runFrom (target : ElementId) (v : AdjustView) (s : ScriptState) :
    List ScriptCommand → ScriptState × Except AdjustFault Unit
  | [] => (s, .ok ())
  | c :: rest =>
    match c.run target v s with
    | .ok next => runFrom target v next rest
    | .error cause => (s, .error cause)

def run (script : Script) (target : ElementId) (v : AdjustView) :
    ScriptState × Except AdjustFault Unit :=
  runFrom target v .start script.commands

/-- What a script finds out when it runs. -/
def findings (script : Script) (target : ElementId) (v : AdjustView) : List Finding :=
  (script.run target v).1.findings

/-- The adjuster that runs a script. -/
def adjuster (script : Script) : Adjuster where
  adjust target v :=
    let (s, outcome) := script.run target v
    { patch := s.patch, outcome }

end Script

end SceneTree
