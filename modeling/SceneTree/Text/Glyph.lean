import SceneTree.Text.Emoji
import SceneTree.Text.Extending
import SceneTree.Text.Invisible
import SceneTree.Text.Unprintable
import SceneTree.Text.Wide

/-!
# Classes of characters

What the property tables say of one character. Each class is a set of code
points; the tables list it as ranges. Widths follow version 18 of Unicode, and
what prints follows version 17: a later character has a width already, and is
still written by its number.
-/

namespace SceneTree.Glyph

/-- Whether a code point lies in one of the ranges, ends included. -/
def within (ranges : List (Nat × Nat)) (code : Nat) : Bool :=
  ranges.any fun (low, high) => decide (low ≤ code ∧ code ≤ high)

/-- Extends the character before it. -/
def isExtending (c : Char) : Bool := within extendingRanges c.toNat

/-- Takes no room. -/
def isInvisible (c : Char) : Bool := isExtending c || within invisibleRanges c.toNat

/-- Letters of a cursive script join across it. -/
def isJoinedAcross (c : Char) : Bool :=
  isExtending c && !within partingRanges c.toNat || within formatRanges c.toNat

/-- Takes two cells. -/
def isWide (c : Char) : Bool := within wideRanges c.toNat

/-- Prints as itself. -/
def isPrintable (c : Char) : Bool := !within unprintableRanges c.toNat

/-! ## Emoji -/

/-- Can be asked to show as an emoji or as text. -/
def isSelectable (c : Char) : Bool := within selectableRanges c.toNat

def isEmojiByDefault (c : Char) : Bool := within emojiByDefaultRanges c.toNat

def takesSkinTone (c : Char) : Bool := within skinToneBaseRanges c.toNat

/-- One of the five skin tones. -/
def isSkinTone (c : Char) : Bool := within [(0x1F3FB, 0x1F3FF)] c.toNat

/-- One of the letters that make a flag in pairs. -/
def isFlagLetter (c : Char) : Bool := within [(0x1F1E6, 0x1F1FF)] c.toNat

/-- Ideographs in a frame, which keep their width when shown as text. -/
def isFramedIdeograph (c : Char) : Bool := within [(0x1F200, 0x1F2FF)] c.toNat

/-! ## Blanks -/

/-- Separates words: the property `White_Space`. -/
def isBlank (c : Char) : Bool :=
  within
    [(0x09, 0x0D), (0x20, 0x20), (0x85, 0x85), (0xA0, 0xA0), (0x1680, 0x1680), (0x2000, 0x200A),
     (0x2028, 0x2029), (0x202F, 0x202F), (0x205F, 0x205F), (0x3000, 0x3000)]
    c.toNat

/-- A text without the blanks at its two ends. -/
def trim (cs : List Char) : List Char :=
  ((cs.dropWhile isBlank).reverse.dropWhile isBlank).reverse

end SceneTree.Glyph
