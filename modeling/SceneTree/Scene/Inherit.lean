import SceneTree.Scene.Basic
import SceneTree.Settings

/-!
# Handing text styles down

An element draws its text with what is set on it, and for the rest with
what its parent draws with. A root starts from the settings.

Only the text styles are written; what is set on an element stays as it
was. So the pass can run again after any change and gives the same answer
where nothing changed.
-/

namespace SceneTree

namespace TextStyle

/-- The style with what a look sets put over it. -/
def under (inherited : TextStyle) (l : Look) : TextStyle :=
  { color := l.foreground.getD inherited.color
    fontSize := l.fontSize.getD inherited.fontSize
    fontFamily := l.fontFamily.getD inherited.fontFamily
    fontWeight := l.fontWeight.getD inherited.fontWeight
    align := l.textAlign.getD inherited.align }

end TextStyle

namespace Scene

/-- The styles of the elements at and below some ids, each given with the
style it starts from, over `steps` ids at most. -/
def stylesWithin (s : Scene) : Nat → List (ElementId × TextStyle) → List (ElementId × TextStyle)
  | 0, _ => []
  | _, [] => []
  | steps + 1, (id, inherited) :: rest =>
    match s.get? id with
    | none => s.stylesWithin steps rest
    | some e =>
      let own := inherited.under e.look
      (id, own) :: s.stylesWithin steps (e.children.map (·, own) ++ rest)

/-- Writes text styles into the elements. -/
def withStyles (s : Scene) (styles : List (ElementId × TextStyle)) : Scene :=
  styles.foldl (fun s (id, style) => s.modify id fun e => { e with textStyle := style }) s

/-- Hands `inherited` down to an element and all below it. -/
def inheritFrom (s : Scene) (id : ElementId) (inherited : TextStyle) : Scene :=
  s.withStyles (s.stylesWithin s.slots.size [(id, inherited)])

/-- Hands the style of the settings down from every root. -/
def inherit (s : Scene) (st : Settings) : Scene :=
  s.withStyles (s.stylesWithin s.slots.size (s.roots.map (·, st.textStyle)))

end Scene

end SceneTree
