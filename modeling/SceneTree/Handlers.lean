import SceneTree.Adjust.Dock
import SceneTree.Text.Quoted

/-!
# Handlers

What whoever shows a document brings along: adjusters by the name of their
component, and callbacks by name. A callback is no more than its name
here; which names were called is an answer, and running them is not this
library's work.
-/

namespace SceneTree

structure Handlers where
  adjusters : List (String × Adjuster)
  callbacks : List String

namespace Handlers

def none : Handlers := { adjusters := [], callbacks := [] }

/-! ## Registering -/

/-- The handlers with an adjuster for a component, in place of any it
had. -/
def withAdjuster (h : Handlers) (component : String) (a : Adjuster) : Handlers :=
  { h with adjusters := h.adjusters.filter (·.1 ≠ component) ++ [(component, a)] }

def withCallback (h : Handlers) (name : String) : Handlers :=
  if h.callbacks.contains name then h else { h with callbacks := h.callbacks ++ [name] }

/-- The handlers of the components that come with the library. -/
def standard : Handlers := none.withAdjuster Dock.component Dock.adjuster

/-! ## Looking up -/

def adjuster? (h : Handlers) (component : String) : Option Adjuster :=
  h.adjusters.lookup component

def hasCallback (h : Handlers) (name : String) : Bool := h.callbacks.contains name

/-! ## Calling -/

/-- The names among the called ones that have a callback. -/
def called (h : Handlers) (names : List String) : List String := names.filter h.hasCallback

/-- What is noted of called names that have none. -/
def notices (h : Handlers) (names : List String) : List Notice :=
  (names.filter (!h.hasCallback ·)).map .unknownCallback

/-! ## Showing -/

def sorted (names : List String) : List String := names.mergeSort fun a b => decide (a ≤ b)

/-- The registered names, each list in order. -/
def describe (h : Handlers) : String :=
  "HandlerRegistry \x7b adjusters: " ++ Quoted.quoteAll (sorted (h.adjusters.map (·.1)))
    ++ ", callbacks: " ++ Quoted.quoteAll (sorted h.callbacks) ++ " \x7d"

end Handlers

end SceneTree
