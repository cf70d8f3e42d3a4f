/-!
# Binary numbers

A binary format stores a sign and a **code** for the magnitude, which counts the magnitudes of the format from zero
upwards: code 0 is zero, each further code is the next larger magnitude, and the first code that is no number stands for
infinity. Codes above it are not numbers.

The magnitude of a code is `m · 2 ^ q` with the integer `m` and the exponent `q` of `significand`. Rounding a quotient
to the nearest magnitude takes exact integer arithmetic only; a quotient half-way between two magnitudes goes to the
even one, and from half a unit beyond the largest one on to infinity.

* `round_zero`: zero stays zero.
* `round_le_infinity`: rounding a quotient never leaves the numbers and infinity.
-/

namespace Dialogue.Number

/-- **A binary format**: how many bits hold the fraction and how many the exponent. -/
structure Format where
  fraction : Nat
  exponent : Nat

/-- Single precision. -/
def single : Format := ⟨23, 8⟩

/-- Double precision. -/
def double : Format := ⟨52, 11⟩

namespace Format

/-- The codes that share one exponent. -/
def span (F : Format) : Nat := 1 <<< F.fraction

/-- The code of infinity. -/
def infinity (F : Format) : Nat := (1 <<< F.exponent - 1) * F.span

/-- The exponent of the last bit of the smallest magnitudes. -/
def least (F : Format) : Int := 2 - (1 <<< (F.exponent - 1) : Nat) - F.fraction

/-- **The magnitude of a code** is `m · 2 ^ q` for this pair `(m, q)`. -/
def significand (F : Format) (code : Nat) : Nat × Int :=
  if code < 2 * F.span then (code, F.least)
  else (F.span + code % F.span, F.least + (code / F.span - 1 : Nat))

end Format

/-- The quotient of two natural numbers, rounded to the nearest one; a half goes to the even neighbour. -/
def nearestEven (num den : Nat) : Nat :=
  let floor := num / den
  let twice := 2 * (num % den)
  if twice < den then floor
  else if den < twice then floor + 1
  else floor + floor % 2

/-- The largest exponent whose power of two is at most the quotient. -/
def floorLog (num den : Nat) : Int :=
  let guess : Int := num.log2 - den.log2
  if num <<< (-guess).toNat < den <<< guess.toNat then guess - 1 else guess

/-- **The code nearest to a quotient.** -/
def Format.round (F : Format) (num den : Nat) : Nat :=
  if num = 0 then 0 else
    let q := max F.least (floorLog num den - F.fraction)
    let m := nearestEven (num <<< (-q).toNat) (den <<< q.toNat)
    min ((q - F.least).toNat * F.span + m) F.infinity

/-- **A number of a format**, or an infinity, or no number. -/
structure Binary where
  negative : Bool
  code : Nat
deriving DecidableEq, Repr

namespace Binary

/-- Neither infinite nor without a value. -/
def isFinite (F : Format) (b : Binary) : Bool := b.code < F.infinity

/-- The pattern stands for no number. -/
def isNaN (F : Format) (b : Binary) : Bool := F.infinity < b.code

/-- The pattern that stands for no number. -/
def nan (F : Format) : Binary := ⟨false, F.infinity + F.span / 2⟩

/-- **Another format's nearest number**; what is no number stays none. -/
def convert (F G : Format) (b : Binary) : Binary :=
  if b.isNaN F then nan G
  else if b.isFinite F then
    let (m, q) := F.significand b.code
    ⟨b.negative, G.round (m <<< q.toNat) (1 <<< (-q).toNat)⟩
  else ⟨b.negative, G.infinity⟩

/-- **The integer part of a magnitude**, at most the limit; that of an infinity is the limit, and it is zero where there
is no number. -/
def whole (F : Format) (limit : Nat) (b : Binary) : Nat :=
  if b.isNaN F then 0
  else if b.isFinite F then
    let (m, q) := F.significand b.code
    min (m <<< q.toNat >>> (-q).toNat) limit
  else limit

/-- The natural number nearest to a number on the side of zero, at most the limit. -/
def truncated (F : Format) (limit : Nat) (b : Binary) : Nat :=
  if b.negative then 0 else b.whole F limit

/-- **The remainder of a division that rounds toward zero**, with the sign of the dividend. It is always exact. -/
def remainder (F : Format) (a b : Binary) : Binary :=
  if a.isNaN F || b.isNaN F || !a.isFinite F || b.code = 0 then nan F
  else if !b.isFinite F then a
  else
    let (m, p) := F.significand a.code
    let (n, q) := F.significand b.code
    let r := min p q
    let rest := (m <<< (p - r).toNat) % (n <<< (q - r).toNat)
    ⟨a.negative, F.round (rest <<< r.toNat) (1 <<< (-r).toNat)⟩

end Binary

/-! ## Laws -/

@[simp] theorem Format.round_zero (F : Format) (den : Nat) : F.round 0 den = 0 := rfl

theorem Format.round_le_infinity (F : Format) (num den : Nat) : F.round num den ≤ F.infinity := by
  unfold Format.round
  split
  · exact Nat.zero_le _
  · exact Nat.min_le_right _ _

theorem Binary.whole_le (F : Format) (limit : Nat) (b : Binary) : b.whole F limit ≤ limit := by
  unfold Binary.whole
  split
  · exact Nat.zero_le _
  · split
    · exact Nat.min_le_right _ _
    · exact Nat.le_refl _

end Dialogue.Number
