/-!
# Words

Every length, offset and index wider than a byte is stored in two bytes,
low byte first. The two functions for that are inverse to each other.

Layout computes in signed words of four bytes. A sum that such a word does
not hold is not an error: it wraps around. A word is an `Int` here, and what
is computed is wrapped where it is written down, compared, cut off or
divided. Before that it need not be, because a sum of wrapped numbers wraps
to the same as the sum of the numbers.
-/

namespace SceneTree.Word

/-! ## Two bytes -/

/-- The word with the given low and high byte. -/
def ofBytes (low high : UInt8) : UInt16 := UInt16.ofNat (low.toNat + 256 * high.toNat)

/-- The bytes of a word, low byte first. -/
def toBytes (n : UInt16) : List UInt8 :=
  [UInt8.ofNat (n.toNat % 256), UInt8.ofNat (n.toNat / 256)]

theorem length_toBytes (n : UInt16) : (toBytes n).length = 2 := rfl

theorem ofBytes_toBytes (n : UInt16) :
    ofBytes (UInt8.ofNat (n.toNat % 256)) (UInt8.ofNat (n.toNat / 256)) = n := by
  have h := n.toNat_lt
  apply UInt16.toNat.inj
  simp only [ofBytes, UInt16.toNat_ofNat', UInt8.toNat_ofNat']
  omega

theorem toBytes_ofBytes (low high : UInt8) : toBytes (ofBytes low high) = [low, high] := by
  have hl := low.toNat_lt
  have hh := high.toNat_lt
  have hn : (ofBytes low high).toNat = low.toNat + 256 * high.toNat := by
    simp only [ofBytes, UInt16.toNat_ofNat']
    omega
  simp only [toBytes, hn]
  have h1 : (low.toNat + 256 * high.toNat) % 256 = low.toNat := by omega
  have h2 : (low.toNat + 256 * high.toNat) / 256 = high.toNat := by omega
  rw [h1, h2, UInt8.ofNat_toNat, UInt8.ofNat_toNat]

/-! ## Four bytes -/

/-- The signed reading of a 32-bit word: the upper half of the range
stands for the negative numbers. -/
def signed (n : UInt32) : Int :=
  if n.toNat < 0x80000000 then n.toNat else n.toNat - 0x100000000

/-- A number that a signed word holds. -/
def Fits (n : Int) : Prop := -0x80000000 ≤ n ∧ n < 0x80000000

instance (n : Int) : Decidable (Fits n) := inferInstanceAs (Decidable (_ ∧ _))

/-- What a signed word makes of a number: the one it holds that is a whole
number of rounds away. -/
def wrap (n : Int) : Int := (n + 0x80000000) % 0x100000000 - 0x80000000

theorem fits_wrap (n : Int) : Fits (wrap n) := by
  unfold Fits wrap
  omega

theorem wrap_of_fits {n : Int} (h : Fits n) : wrap n = n := by
  unfold Fits at h
  unfold wrap
  omega

/-- Cut off at zero, a length comes out whole if a word holds it, and only
then. -/
theorem max_wrap_eq_iff {n : Int} (h : 0 ≤ n) : max (wrap n) 0 = n ↔ Fits n := by
  unfold Fits wrap
  omega

@[simp] theorem wrap_zero : wrap 0 = 0 := rfl

@[simp] theorem wrap_wrap_add (m n : Int) : wrap (wrap m + n) = wrap (m + n) := by
  unfold wrap
  omega

@[simp] theorem wrap_wrap_sub (m n : Int) : wrap (wrap m - n) = wrap (m - n) := by
  unfold wrap
  omega

/-- A sum that wraps at every step comes out as if it wrapped at the end. -/
theorem foldl_wrap_add (l : List Int) (n : Int) :
    l.foldl (fun sum m => wrap (sum + m)) (wrap n) = wrap (l.foldl (· + ·) n) := by
  induction l generalizing n with
  | nil => rfl
  | cons m l ih => rw [List.foldl_cons, List.foldl_cons, wrap_wrap_add, ih]

theorem toNat_eq_zero_of_signed {word : UInt32} (h : signed word = 0) : (word.toNat : Int) = 0 := by
  have hlt := word.toNat_lt
  unfold signed at h
  split at h <;> omega

/-- Sums do not tell a word read with its sign from the same word without. -/
theorem wrap_signed_add (word : UInt32) (n : Int) :
    wrap (signed word + n) = wrap (word.toNat + n) := by
  unfold signed wrap
  split <;> omega

end SceneTree.Word
