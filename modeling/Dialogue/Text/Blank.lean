/-!
# Blank characters

The characters that separate words: those with the `White_Space` property of the Unicode standard. Trimming drops them
from the ends of a text, `words` cuts a text at them.

* `isBlank_of_isWhitespace`: the ASCII blanks are among them.
* `length_trimEnd_le`, `length_trimStart_le`: trimming never lengthens a text.
-/

namespace Dialogue.Text

/-- **The blanks**, as inclusive ranges of code points. -/
def blankRanges : List (Nat × Nat) :=
  [(0x9, 0xD), (0x20, 0x20), (0x85, 0x85), (0xA0, 0xA0), (0x1680, 0x1680), (0x2000, 0x200A), (0x2028, 0x2029),
   (0x202F, 0x202F), (0x205F, 0x205F), (0x3000, 0x3000)]

/-- A code point lies in one of the ranges. -/
def inRanges (ranges : List (Nat × Nat)) (n : Nat) : Bool :=
  ranges.any fun (first, last) => first ≤ n && n ≤ last

/-- **A blank** separates words. -/
def isBlank (c : Char) : Bool :=
  inRanges blankRanges c.toNat

/-- The text without its leading blanks. -/
def trimStart (cs : List Char) : List Char :=
  cs.dropWhile isBlank

/-- The text without its trailing blanks. -/
def trimEnd (cs : List Char) : List Char :=
  (trimStart cs.reverse).reverse

/-- **The text without the blanks at either end.** -/
def trim (cs : List Char) : List Char :=
  trimEnd (trimStart cs)

/-- **The maximal runs of characters that are no blanks**, in order. -/
def words (cs : List Char) : List (List Char) :=
  (cs.splitOnP isBlank).filter (· ≠ [])

/-- A text of blanks only, the empty one included. -/
def allBlank (cs : List Char) : Bool :=
  cs.all isBlank

/-! ## Laws -/

theorem isBlank_of_isWhitespace {c : Char} (h : c.isWhitespace) : isBlank c := by
  change (c = ' ' || c = '\t' || c = '\r' || c = '\n') = true at h
  simp only [Bool.or_eq_true, decide_eq_true_eq] at h
  rcases h with ((h | h) | h) | h <;> subst h <;> decide

theorem length_trimStart_le (cs : List Char) : (trimStart cs).length ≤ cs.length :=
  (List.dropWhile_sublist isBlank).length_le

theorem length_trimEnd_le (cs : List Char) : (trimEnd cs).length ≤ cs.length := by
  simpa [trimEnd] using length_trimStart_le cs.reverse

end Dialogue.Text
