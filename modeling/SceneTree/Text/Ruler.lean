import SceneTree.Geometry
import SceneTree.Number.Single
import SceneTree.Text.Width

/-!
# Measuring text

Layout needs to know how much room a text takes at a font size, and asks a
ruler. Any function will do; real font metrics belong to whoever shows the
text.

The ruler at hand counts cells: a cell is half as wide as the font is
high, a line is as high as the font.
-/

namespace SceneTree

/-- The room a text takes at a font size that is already scaled. -/
structure Ruler where
  measure : String → Single → Size

namespace Text

/-! ## Lines -/

/-- A line without the carriage return that belonged to its end. -/
def dropReturn (line : List Char) : List Char :=
  match line.reverse with
  | '\r' :: rest => rest.reverse
  | _ => line

/-- The lines of a text, going on with a line that has begun. A line feed
ends a line; what stands after the last one is a line only if there is
anything. -/
def linesAfter (line : List Char) : List Char → List (List Char)
  | [] => if line.isEmpty then [] else [line]
  | '\n' :: rest => dropReturn line :: linesAfter [] rest
  | c :: rest => linesAfter (line ++ [c]) rest

/-- The lines of a text, without their ends. -/
def lines (s : String) : List String := (linesAfter [] s.toList).map String.ofList

end Text

namespace Ruler

/-- Gives every text the same room. -/
def fixed (s : Size) : Ruler := ⟨fun _ _ => s⟩

/-- Counts cells. The empty text takes no room at all; any other is a line
high at least. -/
def cells : Ruler where
  measure text fontSize :=
    if text = "" then .zero
    else
      let lines := Text.lines text
      let widest := (lines.map textWidth).foldl max 0
      { width := (Single.ofNat widest * fontSize).half.toUnits Rat.ceil
        height := (Single.ofNat (max lines.length 1) * fontSize).toUnits Rat.ceil }

end Ruler

end SceneTree
