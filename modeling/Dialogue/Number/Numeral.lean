import Dialogue.Number.Binary
import Dialogue.Text.Integer

/-!
# Numerals

A numeral is a decimal number `± d · 10 ^ e`, an infinity, or the numeral that names no number. This module holds how
numerals are read and how they are laid out.

Reading takes an optional sign, digits with at most one point among or around them, and an optional exponent; or, in any
case of letters, `inf`, `infinity` or `nan`. Every part but the digits may be missing.

* `positional_zero`: zero is laid out as a single digit.
-/

namespace Dialogue.Number

open Text

/-- **A decimal number, an infinity, or no number.** -/
inductive Numeral where
  | finite (negative : Bool) (digits : Nat) (exponent : Int)
  | infinite (negative : Bool)
  | nan
deriving DecidableEq, Repr

/-- **How finite numerals are laid out.** -/
structure Layout where
  /-- A whole number ends in `.0`. -/
  pointZero : Bool
  /-- The numerals written without an exponent, by the exponent of their first digit. -/
  isPositional : Int → Bool

/-- Numbers in the text of a dialogue: never an exponent, and a point only before decimals. -/
def plain : Layout := ⟨false, fun _ => true⟩

/-- Numbers in messages about a script: always a point or an exponent, the latter from `10 ^ 16` on and below
`10 ^ -4`. -/
def literal : Layout := ⟨true, fun e => -4 ≤ e && e < 16⟩

namespace Numeral

/-! ## Layout -/

/-- The digits of `d · 10 ^ e` with the point in its place. -/
def positional (pointZero : Bool) (digits : List Char) (exponent : Int) : List Char :=
  let shift := (-exponent).toNat
  if 0 ≤ exponent then
    digits ++ List.replicate exponent.toNat '0' ++ (if pointZero then ['.', '0'] else [])
  else if shift < digits.length then
    digits.take (digits.length - shift) ++ '.' :: digits.drop (digits.length - shift)
  else
    '0' :: '.' :: List.replicate (shift - digits.length) '0' ++ digits

/-- One digit before the point, the rest after it, and the exponent of the first digit. -/
def scientific (digits : List Char) (exponent : Int) : List Char :=
  let fraction := match digits.drop 1 with
    | [] => []
    | rest => '.' :: rest
  digits.take 1 ++ fraction ++ 'e' :: intText exponent

/-- A magnitude `d · 10 ^ e` in the given layout. -/
def magnitude (layout : Layout) (digits : Nat) (exponent : Int) : List Char :=
  let ds := natText digits
  let first := exponent + (ds.length - 1 : Nat)
  if digits = 0 then positional layout.pointZero ds 0
  else if layout.isPositional first then positional layout.pointZero ds exponent
  else scientific ds first

/-- **The text of a numeral.** Zero keeps its sign; what is no number has none. -/
def text (layout : Layout) : Numeral → List Char
  | .finite negative digits exponent => (if negative then ['-'] else []) ++ magnitude layout digits exponent
  | .infinite negative => (if negative then ['-'] else []) ++ ['i', 'n', 'f']
  | .nan => ['N', 'a', 'N']

/-! ## Reading -/

/-- The exponent that ends a numeral; none at all counts as zero. -/
def readExponent? : List Char → Option Int
  | [] => some 0
  | c :: rest => if c = 'e' ∨ c = 'E' then readInt? rest else none

/-- Reads digits, with or without a point, and an exponent. -/
def readFinite? (negative : Bool) (cs : List Char) : Option Numeral :=
  let whole := cs.takeWhile Char.isDigit
  let (decimals, rest) := match cs.dropWhile Char.isDigit with
    | '.' :: rest => (rest.takeWhile Char.isDigit, rest.dropWhile Char.isDigit)
    | rest => ([], rest)
  if whole ++ decimals = [] then none
  else (readExponent? rest).map fun exponent =>
    .finite negative (Nat.ofDigitChars 10 (whole ++ decimals) 0) (exponent - decimals.length)

/-- Reads a numeral without its sign. -/
def readUnsigned? (negative : Bool) (cs : List Char) : Option Numeral :=
  let word := String.ofList (cs.map Char.toLower)
  if word = "inf" ∨ word = "infinity" then some (.infinite negative)
  else if word = "nan" then some .nan
  else readFinite? negative cs

/-- **Reads a numeral.** -/
def read? : List Char → Option Numeral
  | '-' :: rest => readUnsigned? true rest
  | '+' :: rest => readUnsigned? false rest
  | cs => readUnsigned? false cs

/-! ## The nearest binary number -/

/-- The code nearest to `d · 10 ^ e`. Exponents that alone decide the answer are not multiplied out. -/
def nearest (F : Format) (digits : Nat) (exponent : Int) : Nat :=
  if digits = 0 then 0
  else if ((1 <<< F.exponent : Nat) : Int) ≤ exponent then F.infinity
  else if exponent < 0 ∧ digits.log2 + 2 + 3 * exponent < F.least then 0
  else F.round (digits * Nat.pow 10 exponent.toNat) (Nat.pow 10 (-exponent).toNat)

/-- **The number of a format that a numeral stands for.** -/
def toBinary (F : Format) : Numeral → Binary
  | .finite negative digits exponent => ⟨negative, nearest F digits exponent⟩
  | .infinite negative => ⟨negative, F.infinity⟩
  | .nan => .nan F

/-! ## Laws -/

theorem positional_zero : magnitude plain 0 0 = ['0'] := by decide

end Numeral

end Dialogue.Number
