import SceneTree.Text.Glyph

/-!
# The width of a text in cells

Most characters have a width of their own: none if they take no room, two
if they are wide, one otherwise. Control characters count as one, and so
does a line break of two characters.

Some sequences are drawn as one sign, and then the width is that of the
sign: an emoji with a skin tone, emoji joined to one another, a flag of
two letters, a character that is asked to show as an emoji or as text, and
the ligatures of a few scripts. Whether a character belongs to such a
sequence shows in what follows it, so the text is measured from its end:
`Ahead` says what stands to the right of the next character, and each
character adds its share. A share may be negative where a sign turns out
narrower than its last part alone.
-/

namespace SceneTree

/-- What begins to the right of a character, as far as it matters. -/
inductive Ahead where
  /-- Nothing that joins with what stands before it. -/
  | plain
  | lineFeed
  /-- A skin tone. -/
  | skinTone
  /-- One flag letter. -/
  | flagLetter
  /-- Two flag letters or more. -/
  | flagLetters
  /-- A sign shown as an emoji. -/
  | emoji
  /-- A joiner, and an emoji after it. -/
  | joined
  /-- A keycap frame before a joiner and an emoji. -/
  | joinedKeycap
  /-- The first, then an even, then an odd number of flag letters before a
  joiner and an emoji. -/
  | joinedFlagLetter
  | joinedFlagEven
  | joinedFlagOdd
  /-- The end of a tag, and how many letters and digits stand in it,
  before a joiner and an emoji. -/
  | joinedTag (letters digits : Nat)
  /-- Letters that may close a ligature, bare and after a joiner. -/
  | alef
  | lamed
  | joinedLamed
  | khmerLetter
  | bugineseYa
  | joinedBugineseYa
  | joinedBugineseVowelYa
  | tifinagh
  | joinedTifinagh
  | bondedTifinagh
  | lisuTone
  | orkhonVowel
  | joinedOrkhonVowel
  /-- Vowels that may be part of a longer one: E, and two of it. -/
  | kiratE
  | kiratAi
deriving DecidableEq

/-- The selectors between a character and what it goes with. -/
structure Selectors where
  asText : Bool := false
  asEmoji : Bool := false
  asWide : Bool := false
deriving DecidableEq

namespace Selectors

/-- Those of both. -/
def union (s t : Selectors) : Selectors :=
  ⟨s.asText || t.asText, s.asEmoji || t.asEmoji, s.asWide || t.asWide⟩

end Selectors

namespace Ahead

/-- Letters of ligatures. A selector in between does not part them. -/
def isLigature : Ahead → Bool
  | .alef | .lamed | .joinedLamed | .khmerLetter | .bugineseYa | .joinedBugineseYa
  | .joinedBugineseVowelYa | .tifinagh | .joinedTifinagh | .bondedTifinagh | .lisuTone
  | .orkhonVowel | .joinedOrkhonVowel => true
  | _ => false

/-- The letter with a joiner before it. -/
def join : Ahead → Ahead
  | .lamed => .joinedLamed
  | .bugineseYa => .joinedBugineseYa
  | .tifinagh => .joinedTifinagh
  | .orkhonVowel => .joinedOrkhonVowel
  | other => other

end Ahead

namespace TextWidth

open Glyph

def zeroWidthJoiner : Char := '\u200d'

def asEmojiSelector : Char := '\ufe0f'

def asTextSelector : Char := '\ufe0e'

def asWideSelector : Char := '\ufe01'

/-- Quotation marks that can be asked to take two cells. -/
def isCurledQuote (c : Char) : Bool :=
  within [(0x2018, 0x2019), (0x201C, 0x201D)] c.toNat

/-! ## One character -/

/-- Letters that have no width of their own under the Khmer sign that
stacks them. -/
def isKhmerStacked (c : Char) : Bool :=
  within
    [(0x1780, 0x1782), (0x1784, 0x1787), (0x1789, 0x178C), (0x178E, 0x1793), (0x1795, 0x1798),
     (0x179B, 0x179D), (0x17A0, 0x17A0), (0x17A2, 0x17A2), (0x17A7, 0x17A7), (0x17AB, 0x17AC),
     (0x17AF, 0x17AF)]
    c.toNat

def isTifinaghConsonant (c : Char) : Bool :=
  within [(0x2D31, 0x2D65), (0x2D6F, 0x2D6F)] c.toNat

/-- The letters of the joining group of alef. -/
def isAlef (c : Char) : Bool :=
  within
    [(0x622, 0x623), (0x625, 0x625), (0x627, 0x627), (0x671, 0x673), (0x675, 0x675),
     (0x773, 0x774), (0x870, 0x882)]
    c.toNat

/-- The letters of the joining group of lam. -/
def isLam (c : Char) : Bool :=
  within [(0x644, 0x644), (0x6B5, 0x6B8), (0x76A, 0x76A), (0x8A6, 0x8A6), (0x8C7, 0x8C7)] c.toNat

/-- The width of a character alone, and what it is to the one before. -/
def alone (c : Char) : Int × Ahead :=
  if isFlagLetter c then (1, .flagLetter)
  else if isSkinTone c then (2, .skinTone)
  else if isEmojiByDefault c then (2, .emoji)
  else if isAlef c then (1, .alef)
  else if c = '\u05dc' then (1, .lamed)
  else if isKhmerStacked c then (1, .khmerLetter)
  else if c = '\u1a10' then (1, .bugineseYa)
  else if isTifinaghConsonant c then (1, .tifinagh)
  else if within [(0xA4FC, 0xA4FD)] c.toNat then (1, .lisuTone)
  else if c.toNat = 0x10C03 then (1, .orkhonVowel)
  else if c.toNat = 0x16D67 then (1, .kiratE)
  else if c.toNat = 0x16D68 then (1, .kiratAi)
  else if c = '\u17d8' then (3, .plain)
  else if c = '\u2d7f' then (1, .plain)
  else if isWide c then (2, .plain)
  else if isInvisible c then (0, .plain)
  else (1, .plain)

/-! ## A character before others -/

/-- Signs of no width that do not part the letters of a ligature. -/
def isLigatureTransparent (c : Char) : Bool :=
  within
    [(0x34F, 0x34F), (0x17B4, 0x17B5), (0x180B, 0x180D), (0x180F, 0x180F), (0x200D, 0x200D),
     (0xFE00, 0xFE0F), (0xE0100, 0xE01EF)]
    c.toNat

def isTagLetter (c : Char) : Bool := within [(0xE0061, 0xE007A)] c.toNat

def isTagDigit (c : Char) : Bool := within [(0xE0030, 0xE0039)] c.toNat

/-- A tag ends in its letters, six at most. -/
def takesTagLetter (letters digits : Nat) : Bool := digits = 0 && decide (letters < 6)

/-- Before at most four letters stand the three digits of a tag. -/
def takesTagDigit (letters digits : Nat) : Bool :=
  if digits = 0 then decide (letters ≤ 4) else decide (digits < 3)

/-- A flag is told by three digits, or by three letters or more. -/
def isTagged (letters digits : Nat) : Bool :=
  digits = 3 || (digits = 0 && decide (3 ≤ letters ∧ letters ≤ 6))

/-- The share of a character in a sequence with what stands ahead, if it
takes part in one. -/
def inSequence (c : Char) : Ahead → Option (Int × Ahead)
  | .alef =>
    if isLam c then some (0, .plain)
    else if isJoinedAcross c then some (0, .alef)
    else none
  | .joinedLamed => if c = '\u05d0' then some (0, .plain) else none
  | .khmerLetter => if c = '\u17d2' then some (-1, .plain) else none
  | .joinedBugineseYa => if c = '\u1a17' then some (0, .joinedBugineseVowelYa) else none
  | .joinedBugineseVowelYa => if c = '\u1a15' then some (0, .plain) else none
  | .tifinagh => if c = '\u2d7f' then some (1, .bondedTifinagh) else none
  | .joinedTifinagh =>
    if c = '\u2d7f' then some (1, .bondedTifinagh)
    else if isTifinaghConsonant c then some (0, .plain)
    else none
  | .bondedTifinagh => if isTifinaghConsonant c then some (-1, .plain) else none
  | .lisuTone => if within [(0xA4F8, 0xA4FB)] c.toNat then some (0, .plain) else none
  | .joinedOrkhonVowel => if c.toNat = 0x10C32 then some (0, .plain) else none
  | .skinTone =>
    if takesSkinTone c then some (0, .emoji)
    else if c = zeroWidthJoiner then some (0, .joined)
    else none
  | .flagLetter => if isFlagLetter c then some (1, .flagLetters) else none
  | .flagLetters =>
    if isFlagLetter c then some (1, .flagLetters)
    else if c = zeroWidthJoiner then some (0, .joined)
    else none
  | .emoji => if c = zeroWidthJoiner then some (0, .joined) else none
  | .joined =>
    if c = '\u20e3' then some (0, .joinedKeycap)
    else if isFlagLetter c then some (1, .joinedFlagLetter)
    else if isSkinTone c then some (0, .skinTone)
    else if c.toNat = 0xE007F then some (0, .joinedTag 0 0)
    else if isEmojiByDefault c then some (0, .emoji)
    else none
  | .joinedFlagLetter => if isFlagLetter c then some (-1, .joinedFlagEven) else none
  | .joinedFlagOdd =>
    if isFlagLetter c then some (-1, .joinedFlagEven)
    else if c = zeroWidthJoiner then some (0, .joined)
    else none
  | .joinedFlagEven =>
    if isFlagLetter c then some (3, .joinedFlagOdd)
    else if c = zeroWidthJoiner then some (0, .joined)
    else none
  | .joinedTag letters digits =>
    if isTagLetter c && takesTagLetter letters digits then
      some (0, .joinedTag (letters + 1) digits)
    else if isTagDigit c && takesTagDigit letters digits then
      some (0, .joinedTag letters (digits + 1))
    else if c.toNat = 0x1F3F4 && isTagged letters digits then some (0, .emoji)
    else none
  | .kiratE =>
    if c.toNat = 0x16D63 ∨ c.toNat = 0x16D69 then some (0, .plain)
    else if c.toNat = 0x16D67 then some (0, .kiratAi)
    else if c.toNat = 0x16D68 then some (1, .kiratE)
    else none
  | .kiratAi => if c.toNat = 0x16D63 then some (0, .plain) else none
  | .plain | .lineFeed | .joinedKeycap | .lamed | .bugineseYa | .orkhonVowel => none

/-! ## Selectors -/

/-- What one more selector leaves of what stands behind it. Before a ligature
selectors gather; before anything else the last one counts alone, and it hides
what it stands before. -/
def select (new : Selectors) (a : Ahead) (s : Selectors) : Ahead × Selectors :=
  if a.isLigature then (a, s.union new) else (.plain, new)

/-- What the selector of emoji leaves: it does not hide an emoji joined on. -/
def selectEmoji (a : Ahead) (s : Selectors) : Ahead × Selectors :=
  if a = .joined ∨ a = .joinedKeycap then (a, ⟨false, true, false⟩)
  else select ⟨false, true, false⟩ a s

/-- The share of a character that goes with what stands ahead of it bare of
selectors. A joiner between the letters of a ligature counts, Arabic apart. -/
def bareStep (c : Char) (a : Ahead) : Int × Ahead :=
  if a.isLigature && a ≠ .alef && c = zeroWidthJoiner then (0, a.join)
  else if a.isLigature && a ≠ .alef && isLigatureTransparent c then (0, a)
  else (inSequence c a).getD (alone c)

/-- The share of a character that no selector of emoji applies to. -/
def plainStep (c : Char) (a : Ahead) (s : Selectors) : Int × Ahead × Selectors :=
  if c = '\n' then (1, .lineFeed, {})
  else if c = '\r' && a = .lineFeed then (0, .plain, {})
  else if c.toNat ≤ 0xA0 then (1, .plain, {})
  else if c = asEmojiSelector then (0, selectEmoji a s)
  else if c = asTextSelector then (0, select ⟨true, false, false⟩ a s)
  else if c = asWideSelector then (0, select ⟨false, false, true⟩ a s)
  else if s.asText && isSelectable c && isEmojiByDefault c && !isFramedIdeograph c then
    (1, .plain, {})
  else if s.asWide && isCurledQuote c then (2, .plain, {})
  else
    let (share, next) := bareStep c a
    (share, next, {})

/-- The share of a character, given what stands ahead of it. A selector of
emoji that applies to nothing parts what it stands between, ligatures apart. -/
def step (c : Char) (ahead : Ahead × Selectors) : Int × Ahead × Selectors :=
  let (a, s) := ahead
  if s.asEmoji then
    if isSelectable c then
      (if a = .joined ∨ a = .joinedKeycap then 0 else 2, .emoji, {})
    else if a.isLigature then plainStep c a { s with asEmoji := false }
    else plainStep c .plain {}
  else plainStep c a s

end TextWidth

/-- The width of a text in cells. -/
def textWidth (s : String) : Nat :=
  let (width, _) := s.toList.foldr
    (fun c (width, ahead) =>
      let (share, next) := TextWidth.step c ahead
      (width + share, next))
    ((0 : Int), Ahead.plain, ({} : Selectors))
  width.toNat

end SceneTree
