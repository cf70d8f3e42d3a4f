import Dialogue.Number.Numeral

/-!
# Shortest decimals

Of all decimals that round to a given binary number, the shortest are the points of the coarsest grid `10 ^ k` that has
a point among them; of those the nearest is chosen, the larger one at equal distance.

* `shortest_zero`: zero has the digit zero.
-/

namespace Dialogue.Number

/-- **The decimals that round to a magnitude**, in quarters of the unit `2 ^ q` of its last bit: from `low` to `high`
around `4 · m`, ends included when `m` is even. Below a power of two the numbers are twice as dense. -/
structure Interval where
  low : Nat
  centre : Nat
  high : Nat
  closed : Bool
  unit : Int

/-- The interval around the magnitude of a code. -/
def Format.interval (F : Format) (code : Nat) : Interval :=
  let (m, q) := F.significand code
  ⟨if m = F.span ∧ F.least < q then 4 * m - 1 else 4 * m - 2, 4 * m, 4 * m + 2, m % 2 = 0, q - 2⟩

namespace Interval

/-- A comparison with an end of the interval, which may belong to it. -/
def within (I : Interval) (a b : Nat) : Bool :=
  a < b || (I.closed && a = b)

/-- **The multiple of `10 ^ k` nearest to the centre**, when it lies in the interval. -/
def gridPoint? (I : Interval) (k : Int) : Option Nat :=
  let scale := Nat.pow 10 (-k).toNat <<< I.unit.toNat
  let grid := Nat.pow 10 k.toNat <<< (-I.unit).toNat
  let below := I.centre * scale / grid
  let beyond := I.centre * scale % grid
  let down := beyond = 0 || I.within (I.low * scale) (below * grid)
  let up := beyond ≠ 0 && I.within ((below + 1) * grid) (I.high * scale)
  if down && (!up || 2 * beyond < grid) then some below
  else if up then some (below + 1)
  else none

/-- The coarsest grid, from `10 ^ (bottom + steps)` down, with a point in the interval. The grid `10 ^ bottom` is taken
to have one. -/
def coarsest (I : Interval) (bottom : Int) : Nat → Nat × Int
  | 0 => ((I.gridPoint? bottom).getD 0, bottom)
  | steps + 1 =>
    match I.gridPoint? (bottom + (steps + 1)) with
    | some digits => (digits, bottom + (steps + 1))
    | none => I.coarsest bottom steps

end Interval

/-- The digits and the exponent of the shortest decimal that rounds to a magnitude. -/
def Format.shortest (F : Format) (code : Nat) : Nat × Int :=
  if code = 0 then (0, 0) else
    let (m, q) := F.significand code
    let bound : Int := q + m.log2 + 2
    let top := max (bound / 3) (bound / 4) + 1
    let bottom := min q 0
    (F.interval code).coarsest bottom (top - bottom).toNat

/-- **The shortest numeral** of a binary number. -/
def Binary.toNumeral (F : Format) (b : Binary) : Numeral :=
  if b.isNaN F then .nan
  else if b.isFinite F then
    let (digits, exponent) := F.shortest b.code
    .finite b.negative digits exponent
  else .infinite b.negative

/-! ## Laws -/

@[simp] theorem Format.shortest_zero (F : Format) : F.shortest 0 = (0, 0) := rfl

end Dialogue.Number
