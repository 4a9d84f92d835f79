/-!
# Element ids

An element is addressed by the number of the slot it was created in. Ids
only grow, so an id names at most one element ever.
-/

namespace SceneTree

structure ElementId where
  index : Nat
deriving DecidableEq

namespace ElementId

/-- The id as messages show it. -/
def label (id : ElementId) : String := s!"#{id.index}"

end ElementId

end SceneTree
