/-!
# Integers in decimal

Writing uses the ten digits, a leading `-` for negative numbers and no leading zeros. Reading takes any non-empty run of
digits after an optional sign.

* `readNat?_natText`, `readInt?_intText`: what is written reads back.
-/

namespace Dialogue.Text

/-- The decimal digits of a natural number. -/
def natText (n : Nat) : List Char :=
  Nat.toDigits 10 n

/-- The decimal digits of an integer, after a `-` when it is negative. -/
def intText : Int → List Char
  | .ofNat n => natText n
  | .negSucc n => '-' :: natText (n + 1)

/-- The decimal digits of a natural number, as a string. -/
def showNat (n : Nat) : String :=
  .ofList (natText n)

/-- The number that a non-empty run of digits writes. -/
def readDigits? (cs : List Char) : Option Nat :=
  if cs ≠ [] ∧ cs.all Char.isDigit then some (Nat.ofDigitChars 10 cs 0) else none

/-- **Reads a natural number**, which may have a leading `+`. -/
def readNat? : List Char → Option Nat
  | '+' :: rest => readDigits? rest
  | cs => readDigits? cs

/-- **Reads an integer**, which may have a leading `+` or `-`. -/
def readInt? : List Char → Option Int
  | '-' :: rest => (readDigits? rest).map fun n => -(n : Int)
  | cs => (readNat? cs).map fun n => (n : Int)

/-- The numbers that fit into an unsigned word of 64 bits. -/
def wordLimit : Nat := 1 <<< 64

/-- Reads a natural number of at most 64 bits. -/
def readWord? (cs : List Char) : Option Nat :=
  (readNat? cs).filter (· < wordLimit)

/-! ## Laws -/

theorem isDigit_of_mem_natText {n : Nat} {c : Char} (h : c ∈ natText n) : c.isDigit :=
  Nat.isDigit_of_mem_toDigits (by decide) (by decide) h

theorem natText_ne_nil (n : Nat) : natText n ≠ [] :=
  Nat.toDigits_ne_nil

theorem readDigits?_natText (n : Nat) : readDigits? (natText n) = some n := by
  have hd : (natText n).all Char.isDigit := List.all_eq_true.2 fun _ => isDigit_of_mem_natText
  simp only [readDigits?, ne_eq, natText_ne_nil, not_false_eq_true, hd, and_self, if_true]
  simp [natText, Nat.ofDigitChars_ten_toDigits]

/-- A run of digits starts with no sign. -/
theorem natText_ne_cons {n : Nat} {c : Char} (hc : c.isDigit = false) (rest : List Char) : natText n ≠ c :: rest :=
  fun h => by simp [isDigit_of_mem_natText (n := n) (c := c) (by simp [h])] at hc

theorem readNat?_natText (n : Nat) : readNat? (natText n) = some n := by
  unfold readNat?
  split
  · exact absurd (by assumption) (natText_ne_cons (by decide) _)
  · exact readDigits?_natText n

theorem readInt?_intText (i : Int) : readInt? (intText i) = some i := by
  cases i with
  | ofNat n =>
    simp only [intText]
    unfold readInt?
    split
    · exact absurd (by assumption) (natText_ne_cons (by decide) _)
    · simp [readNat?_natText]
  | negSucc n => simp [intText, readInt?, readDigits?_natText, Int.negSucc_eq]

end Dialogue.Text
