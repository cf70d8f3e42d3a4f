import Dialogue.Number.Shortest

/-!
# The numbers of a script

Scripts compute in single precision. Their numbers are written with the fewest digits that read back as the same number,
read with one rounding from the exact decimal, and divided with remainder exactly.

* `isTrue_eq_false_of_isNaN`: what is no number counts as false.
-/

namespace Dialogue.Number

/-- The bit of the sign. -/
def signBit : Nat := 1 <<< 31

/-- The sign and the code of a number. -/
def toBinary (x : Float32) : Binary :=
  let bits := x.toBits.toNat
  ⟨signBit ≤ bits, bits % signBit⟩

/-- The number with a given sign and code. -/
def ofBinary (b : Binary) : Float32 :=
  .ofBits (.ofNat ((if b.negative then signBit else 0) + b.code))

/-- **The text of a number** as a player sees it. -/
def text (x : Float32) : String :=
  .ofList (((toBinary x).toNumeral single).text plain)

/-- The text of a number as messages about a script show it. -/
def literalText (x : Float32) : String :=
  .ofList (((toBinary x).toNumeral single).text literal)

/-- **Reads a number.** -/
def parse? (cs : List Char) : Option Float32 :=
  (Numeral.read? cs).map fun numeral => ofBinary (numeral.toBinary single)

/-- Reads a number of double precision. -/
def parseDouble? (cs : List Char) : Option Binary :=
  (Numeral.read? cs).map (Numeral.toBinary double)

/-- The number nearest to one of double precision. -/
def ofDouble (b : Binary) : Float32 :=
  ofBinary (b.convert double single)

/-- The number nearest to a count. -/
def ofNat (n : Nat) : Float32 :=
  ofBinary ⟨false, single.round n 1⟩

/-- **The count that a number stands for**: its integer part, at most the largest word of 64 bits, and zero for negative
numbers and for what is no number. -/
def toCount (x : Float32) : Nat :=
  (toBinary x).truncated single (Text.wordLimit - 1)

/-- The remainder of a division that rounds toward zero. -/
def remainder (x y : Float32) : Float32 :=
  ofBinary ((toBinary x).remainder single (toBinary y))

/-- The order of two numbers, where they have one. -/
def compare? (x y : Float32) : Option Ordering :=
  if x < y then some .lt
  else if x == y then some .eq
  else if y < x then some .gt
  else none

/-- Neither zero nor without a value. -/
def isTrue (x : Float32) : Bool :=
  !x.isNaN && x != 0

/-! ## Laws -/

theorem isTrue_eq_false_of_isNaN {x : Float32} (h : x.isNaN) : isTrue x = false := by
  rw [isTrue, h]
  rfl

end Dialogue.Number
