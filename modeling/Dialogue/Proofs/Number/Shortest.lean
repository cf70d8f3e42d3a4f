import Mathlib
import Dialogue.Proofs.Number.Rounding

/-!
# Shortest decimals round back

Comparing a point of the grid `10 ^ k` with an end of the interval over the natural numbers is comparing them over the
rational ones (`scale_le_grid_iff`, `grid_le_scale_iff`), so the point that is chosen on a grid lies in the interval
(`has_of_gridPoint?`). The search begins on a grid with a point at the centre and keeps what it finds
(`gridPoint?_coarsest`), and so the shortest decimal of a magnitude lies in its interval (`has_shortest`). Read back,
such a decimal rounds to the magnitude (`nearest_of_has`).
-/

namespace Dialogue.Number

/-! ## Points of a grid -/

section Grid

variable (a p : ℕ) (k u : ℤ)

/-- Over the natural numbers a point of the grid `10 ^ k` compares with a multiple of `2 ^ u` as it does over the
rational ones. -/
theorem scale_le_grid_iff : a * (Nat.pow 10 (-k).toNat <<< u.toNat) ≤ p * (Nat.pow 10 k.toNat <<< (-u).toNat) ↔
    a * (2 : ℚ) ^ u ≤ p * 10 ^ k := by
  have h₂ : (0 : ℚ) < 2 ^ (-u).toNat := by positivity
  have h₁₀ : (0 : ℚ) < 10 ^ (-k).toNat := by positivity
  rw [zpow_eq_div 2 u, zpow_eq_div 10 k, mul_div_assoc', mul_div_assoc', div_le_div_iff₀ h₂ h₁₀, ← Nat.cast_le (α := ℚ)]
  simp only [Nat.pow_eq, Nat.shiftLeft_eq]
  push_cast
  ring_nf

theorem grid_le_scale_iff : p * (Nat.pow 10 k.toNat <<< (-u).toNat) ≤ a * (Nat.pow 10 (-k).toNat <<< u.toNat) ↔
    p * (10 : ℚ) ^ k ≤ a * 2 ^ u := by
  have h₂ : (0 : ℚ) < 2 ^ (-u).toNat := by positivity
  have h₁₀ : (0 : ℚ) < 10 ^ (-k).toNat := by positivity
  rw [zpow_eq_div 2 u, zpow_eq_div 10 k, mul_div_assoc', mul_div_assoc', div_le_div_iff₀ h₁₀ h₂, ← Nat.cast_le (α := ℚ)]
  simp only [Nat.pow_eq, Nat.shiftLeft_eq]
  push_cast
  ring_nf

end Grid

namespace Interval

variable {I : Interval} {k : ℤ}

theorem of_within {a b : ℕ} (h : I.within a b = true) : a ≤ b ∧ (I.closed = false → a < b) := by
  simp only [within, Bool.or_eq_true, decide_eq_true_eq, Bool.and_eq_true] at h
  rcases h with h | ⟨hclosed, rfl⟩
  · exact ⟨h.le, fun _ => h⟩
  · exact ⟨le_rfl, fun hopen => absurd (hclosed.symm.trans hopen) Bool.noConfusion⟩

theorem within_of_lt {a b : ℕ} (h : a < b) : I.within a b = true := by
  simp [within, h]

/-- A point between the ends. -/
theorem has_of_within {p : ℕ} (hlow : I.within (I.low * (Nat.pow 10 (-k).toNat <<< I.unit.toNat))
      (p * (Nat.pow 10 k.toNat <<< (-I.unit).toNat)) = true)
    (hhigh : I.within (p * (Nat.pow 10 k.toNat <<< (-I.unit).toNat))
      (I.high * (Nat.pow 10 (-k).toNat <<< I.unit.toNat)) = true) : I.Has (p * 10 ^ k) := by
  obtain ⟨hlow, hlow'⟩ := of_within hlow
  obtain ⟨hhigh, hhigh'⟩ := of_within hhigh
  refine ⟨(scale_le_grid_iff ..).1 hlow, (grid_le_scale_iff ..).1 hhigh, fun hopen => ⟨?_, ?_⟩⟩
  · exact lt_of_not_ge (mt (grid_le_scale_iff ..).2 (hlow' hopen).not_ge)
  · exact lt_of_not_ge (mt (scale_le_grid_iff ..).2 (hhigh' hopen).not_ge)

/-- **A point of the grid lies in the interval.** -/
theorem has_of_gridPoint? {p : ℕ} (h : I.gridPoint? k = some p) (hlow : I.low < I.centre) (hhigh : I.centre < I.high) :
    I.Has (p * 10 ^ k) := by
  have hscale : 0 < Nat.pow 10 (-k).toNat <<< I.unit.toNat := by
    rw [Nat.shiftLeft_eq, Nat.pow_eq]
    positivity
  have hgrid : 0 < Nat.pow 10 k.toNat <<< (-I.unit).toNat := by
    rw [Nat.shiftLeft_eq, Nat.pow_eq]
    positivity
  have hlow' := Nat.mul_lt_mul_of_pos_right hlow hscale
  have hhigh' := Nat.mul_lt_mul_of_pos_right hhigh hscale
  have hdiv := Nat.div_add_mod' (I.centre * (Nat.pow 10 (-k).toNat <<< I.unit.toNat))
    (Nat.pow 10 k.toNat <<< (-I.unit).toNat)
  have hmod := Nat.mod_lt (I.centre * (Nat.pow 10 (-k).toNat <<< I.unit.toNat)) hgrid
  unfold gridPoint? at h
  dsimp only at h
  split at h
  · -- the point at or below the centre
    rename_i hdown
    cases h
    rw [Bool.and_eq_true, Bool.or_eq_true, decide_eq_true_eq] at hdown
    apply has_of_within
    · rcases hdown.1 with hzero | hwithin
      · exact within_of_lt (by omega)
      · exact hwithin
    · exact within_of_lt (by omega)
  · split at h
    · -- the point above it
      rename_i hup
      cases h
      rw [Bool.and_eq_true] at hup
      apply has_of_within
      · apply within_of_lt
        rw [Nat.add_mul]
        omega
      · exact hup.2
    · cases h

/-- A grid with a point at the centre. -/
theorem exists_gridPoint?
    (h : Nat.pow 10 k.toNat <<< (-I.unit).toNat ∣ I.centre * (Nat.pow 10 (-k).toNat <<< I.unit.toNat)) :
    ∃ p, I.gridPoint? k = some p := by
  have hbeyond := Nat.mod_eq_zero_of_dvd h
  unfold gridPoint?
  dsimp only
  rw [hbeyond]
  simp

theorem gridPoint?_coarsest {bottom : ℤ} (h : ∃ p, I.gridPoint? bottom = some p) (steps : ℕ) :
    I.gridPoint? (I.coarsest bottom steps).2 = some (I.coarsest bottom steps).1 := by
  induction steps with
  | zero =>
    obtain ⟨p, hp⟩ := h
    rw [coarsest, hp]
    rfl
  | succ steps ih =>
    unfold coarsest
    split
    · assumption
    · exact ih

end Interval

/-- **The shortest decimal of a magnitude lies in its interval.** -/
theorem has_shortest {F : Format} {code : ℕ} (h₀ : 0 < code) :
    (F.interval code).Has ((F.shortest code).1 * 10 ^ (F.shortest code).2) := by
  rcases hsig : F.significand code with ⟨m, q⟩
  have hm := significand_pos hsig h₀
  have hlow : (F.interval code).low < (F.interval code).centre := by
    simp only [Format.interval, hsig]
    split <;> omega
  have hhigh : (F.interval code).centre < (F.interval code).high := by
    simp only [Format.interval, hsig]
    omega
  have hbottom : ∃ p, (F.interval code).gridPoint? (min q 0) = some p := by
    apply Interval.exists_gridPoint?
    obtain ⟨n, hn⟩ : ∃ n, (-(min q 0)).toNat = n := ⟨_, rfl⟩
    have hten : (10 : ℕ) ^ n = 2 ^ n * 5 ^ n := by rw [← Nat.mul_pow]
    have hdvd : 2 ^ (-(q - 2)).toNat ∣ 2 ^ (2 + n) := Nat.pow_dvd_pow 2 (by omega)
    have hzero : (min q 0).toNat = 0 := by omega
    simp only [Format.interval, hsig, Nat.pow_eq, Nat.shiftLeft_eq, hn, hzero, hten, Nat.pow_zero, Nat.one_mul]
    refine hdvd.trans ⟨m * (5 ^ n * 2 ^ (q - 2).toNat), ?_⟩
    rw [Nat.pow_add]
    ring
  have hpoint : (F.interval code).gridPoint? (F.shortest code).2 = some (F.shortest code).1 := by
    rw [Format.shortest, if_neg h₀.ne', hsig]
    exact Interval.gridPoint?_coarsest hbottom _
  exact Interval.has_of_gridPoint? hpoint hlow hhigh

/-- **A decimal in the interval of a magnitude is read as it**: its exponent is not among those that reading takes for
infinity or zero at once. -/
theorem nearest_of_has {F : Format} {code digits : ℕ} {exponent : ℤ} (h₀ : 0 < code) (hcode : code < F.infinity)
    (hexponent : exponent ≤ 0) (hv : (F.interval code).Has (digits * 10 ^ exponent)) :
    Numeral.nearest F digits exponent = code := by
  have hhalf := le_of_has h₀ hv
  have hdigits : digits ≠ 0 := by
    rintro rfl
    rw [Nat.cast_zero, zero_mul] at hhalf
    exact absurd hhalf (two_zpow_pos _).not_ge
  have hlarge : F.least ≤ digits.log2 + 2 + 3 * exponent := by
    have hten : (10 : ℚ) ^ exponent ≤ 2 ^ (3 * exponent) := by
      obtain ⟨n, rfl⟩ : ∃ n : ℕ, exponent = -n := ⟨(-exponent).toNat, by omega⟩
      rw [zpow_mul, zpow_neg, zpow_neg, zpow_natCast, zpow_natCast]
      apply inv_anti₀ (by positivity)
      gcongr
      norm_num
    have hlt : (2 : ℚ) ^ (F.least - 1) < 2 ^ ((digits.log2 : ℤ) + 1 + 3 * exponent) := by
      calc (2 : ℚ) ^ (F.least - 1) ≤ digits * 10 ^ exponent := hhalf
        _ ≤ digits * 2 ^ (3 * exponent) := mul_le_mul_of_nonneg_left hten (Nat.cast_nonneg _)
        _ < 2 ^ ((digits.log2 : ℤ) + 1) * 2 ^ (3 * exponent) :=
            mul_lt_mul_of_pos_right (log2_spec hdigits).2 (two_zpow_pos _)
        _ = 2 ^ ((digits.log2 : ℤ) + 1 + 3 * exponent) := (zpow_add₀ two_ne_zero _ _).symm
    have := (zpow_lt_zpow_iff_right₀ one_lt_two).1 hlt
    omega
  have hfits : ¬ ((1 <<< F.exponent : ℕ) : ℤ) ≤ exponent := by
    have : 0 < 1 <<< F.exponent := by
      rw [Nat.shiftLeft_eq, Nat.one_mul]
      exact Nat.two_pow_pos _
    omega
  have hround : ((digits * Nat.pow 10 exponent.toNat : ℕ) : ℚ) / (Nat.pow 10 (-exponent).toNat : ℕ) =
      digits * 10 ^ exponent := by
    rw [zpow_eq_div, Nat.pow_eq, Nat.pow_eq]
    push_cast
    ring
  rw [Numeral.nearest, if_neg hdigits, if_neg hfits, if_neg (by omega)]
  have hden : 0 < Nat.pow 10 (-exponent).toNat := Nat.pow_pos (by decide)
  exact round_of_has h₀ hcode hden (by rw [hround]; exact hv)

end Dialogue.Number
