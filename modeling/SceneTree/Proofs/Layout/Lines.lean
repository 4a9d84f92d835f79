import Mathlib.Data.List.Basic
import SceneTree.Layout.Line

/-!
# What a flow places

However a flow breaks its items into lines, shares out the space and turns
its directions, it places each item once and in order
(`FlowStyle.map_place`).
-/

namespace SceneTree

namespace FlowStyle

/-- Breaking leaves out nothing and changes no order. -/
theorem flatten_breakAfter (available gap used : Int) (line items : List FlowItem) :
    (breakAfter available gap line used items).flatten = line ++ items := by
  induction items generalizing line used with
  | nil => simp only [breakAfter, List.flatten_cons, List.flatten_nil]
  | cons item rest ih =>
    simp only [breakAfter]
    split
    next => rw [List.flatten_cons, ih, List.singleton_append]
    next => rw [ih, List.append_assoc, List.singleton_append]

theorem flatten_lines (f : FlowStyle) (available : Int) (items : List FlowItem) :
    (f.lines available items).flatten = items := by
  cases items with
  | nil => rfl
  | cons first rest =>
    rw [lines]
    split
    next => rw [flatten_breakAfter, List.singleton_append]
    next => rw [List.flatten_cons, List.flatten_nil, List.append_nil]

theorem length_shareOut (share remainder : Int) (left : Nat) (line : List FlowItem) :
    (shareOut share remainder left line).length = line.length := by
  induction line generalizing left with
  | nil => rfl
  | cons item rest ih =>
    rw [shareOut]
    split
    next => rw [List.length_cons, ih, List.length_cons]
    next => rw [List.length_cons, ih, List.length_cons]

theorem length_lengths (f : FlowStyle) (available : Int) (line : List FlowItem) :
    (f.lengths available line).length = line.length := length_shareOut ..

theorem length_starts (first spacing : Int) (lengths : List Int) :
    (starts first spacing lengths).length = lengths.length := by
  induction lengths generalizing first with
  | nil => rfl
  | cons length rest ih => rw [starts, List.length_cons, ih, List.length_cons]

theorem map_placeLine (f : FlowStyle) (content : Rect) (available lineCross offset : Int)
    (line : List FlowItem) :
    (f.placeLine content available lineCross offset line).map (·.1) = line.map (·.id) := by
  have hzip (starts : List Int) (hs : starts.length = line.length) :
      (line.zip ((f.lengths available line).zip starts)).map (·.1) = line := by
    refine List.map_fst_zip (Nat.le_of_eq ?_)
    rw [List.length_zip, length_lengths, hs, Nat.min_self]
  dsimp only [placeLine]
  generalize f.spread _ line.length = ends
  have hstarts : (starts ends.1 ends.2 (f.lengths available line)).length = line.length := by
    rw [length_starts, length_lengths]
  calc _ = ((line.zip ((f.lengths available line).zip
          (starts ends.1 ends.2 (f.lengths available line)))).map (·.1)).map (·.id) := by
        rw [List.map_map, List.map_map]
        rfl
    _ = line.map (·.id) := by rw [hzip _ hstarts]

theorem map_placeLines (f : FlowStyle) (content : Rect) (available crossAvailable offset : Int)
    (lines : List (List FlowItem)) :
    (f.placeLines content available crossAvailable offset lines).map (·.1) =
      lines.flatten.map (·.id) := by
  induction lines generalizing offset with
  | nil => rfl
  | cons line rest ih =>
    rw [placeLines, List.map_append, map_placeLine, ih, List.flatten_cons, List.map_append]

/-- A flow places each item once, in order. -/
theorem map_place (f : FlowStyle) (content : Rect) (items : List FlowItem) :
    (f.place content items).map (·.1) = items.map (·.id) := by
  unfold place
  split
  next hnone => rw [List.isEmpty_iff.mp hnone, List.map_nil, List.map_nil]
  next => rw [map_placeLines, flatten_lines]

end FlowStyle

end SceneTree
