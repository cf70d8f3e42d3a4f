import Mathlib
import Dialogue.Number.Shortest

/-!
# Rounding

Over the rational numbers: the exponent of a quotient (`floorLog_spec`), the integer nearest to a scaled one
(`nearestEven_of_near`), and so the code nearest to it. A magnitude is the one nearest to every point of its interval
(`round_of_has`), also where it is a power of two and the numbers below it are twice as dense (`round_of_lt_power`).
-/

namespace Dialogue.Number

/-! ## Powers -/

theorem zpow_eq_div (b : ℚ) (e : ℤ) : b ^ e = b ^ e.toNat / b ^ (-e).toNat := by
  obtain ⟨n, rfl | rfl⟩ := e.eq_nat_or_neg
  · simp
  · simp [zpow_neg]

theorem two_zpow_pos (e : ℤ) : (0 : ℚ) < 2 ^ e := zpow_pos two_pos e

theorem two_zpow_succ (e : ℤ) : (2 : ℚ) ^ (e + 1) = 2 * 2 ^ e := by
  rw [zpow_add_one₀ two_ne_zero, mul_comm]

/-- Shifts compare as multiples of a power of two do. -/
theorem shiftLeft_lt_iff (a b : ℕ) (e : ℤ) : a <<< (-e).toNat < b <<< e.toNat ↔ (a : ℚ) < 2 ^ e * b := by
  have hpos : (0 : ℚ) < 2 ^ (-e).toNat := by positivity
  rw [Nat.shiftLeft_eq, Nat.shiftLeft_eq, ← Nat.cast_lt (α := ℚ), zpow_eq_div 2, div_mul_eq_mul_div,
    lt_div_iff₀ hpos]
  push_cast
  rw [mul_comm (b : ℚ)]

theorem shiftLeft_le_iff (a b : ℕ) (e : ℤ) : b <<< e.toNat ≤ a <<< (-e).toNat ↔ 2 ^ e * (b : ℚ) ≤ a := by
  rw [← not_lt, shiftLeft_lt_iff, not_lt]

/-! ## The exponent of a quotient -/

theorem log2_spec {n : ℕ} (h : n ≠ 0) : (2 : ℚ) ^ (n.log2 : ℤ) ≤ n ∧ (n : ℚ) < 2 ^ ((n.log2 : ℤ) + 1) := by
  constructor
  · rw [zpow_natCast]
    exact_mod_cast Nat.log2_self_le h
  · exact_mod_cast Nat.lt_log2_self

/-- **The exponent of a quotient.** -/
theorem floorLog_spec {num den : ℕ} (hnum : num ≠ 0) (hden : den ≠ 0) :
    2 ^ floorLog num den * (den : ℚ) ≤ num ∧ (num : ℚ) < 2 ^ (floorLog num den + 1) * den := by
  obtain ⟨hn₁, hn₂⟩ := log2_spec hnum
  obtain ⟨hd₁, hd₂⟩ := log2_spec hden
  have hbelow : 2 ^ ((num.log2 : ℤ) - den.log2 - 1) * (den : ℚ) ≤ num := by
    calc 2 ^ ((num.log2 : ℤ) - den.log2 - 1) * (den : ℚ)
        ≤ 2 ^ ((num.log2 : ℤ) - den.log2 - 1) * 2 ^ ((den.log2 : ℤ) + 1) :=
          mul_le_mul_of_nonneg_left hd₂.le (two_zpow_pos _).le
      _ = 2 ^ (num.log2 : ℤ) := by
          rw [← zpow_add₀ two_ne_zero]
          congr 1
          omega
      _ ≤ num := hn₁
  have habove : (num : ℚ) < 2 ^ ((num.log2 : ℤ) - den.log2 + 1) * den := by
    calc (num : ℚ) < 2 ^ ((num.log2 : ℤ) + 1) := hn₂
      _ = 2 ^ ((num.log2 : ℤ) - den.log2 + 1) * 2 ^ (den.log2 : ℤ) := by
          rw [← zpow_add₀ two_ne_zero]
          congr 1
          omega
      _ ≤ 2 ^ ((num.log2 : ℤ) - den.log2 + 1) * den := mul_le_mul_of_nonneg_left hd₁ (two_zpow_pos _).le
  unfold floorLog
  dsimp only
  split
  · rename_i h
    rw [sub_add_cancel]
    exact ⟨hbelow, (shiftLeft_lt_iff ..).1 h⟩
  · rename_i h
    exact ⟨(shiftLeft_le_iff ..).1 (Nat.le_of_not_lt h), habove⟩

theorem le_floorLog {num den : ℕ} (hnum : num ≠ 0) (hden : 0 < den) {e : ℤ} (h : (2 : ℚ) ^ e ≤ num / den) :
    e ≤ floorLog num den := by
  have hpos : (0 : ℚ) < den := by exact_mod_cast hden
  rw [le_div_iff₀ hpos] at h
  have hlt := lt_of_mul_lt_mul_right (h.trans_lt (floorLog_spec hnum hden.ne').2) hpos.le
  have := (zpow_lt_zpow_iff_right₀ one_lt_two).1 hlt
  omega

theorem floorLog_lt {num den : ℕ} (hnum : num ≠ 0) (hden : 0 < den) {e : ℤ} (h : (num / den : ℚ) < 2 ^ e) :
    floorLog num den < e := by
  have hpos : (0 : ℚ) < den := by exact_mod_cast hden
  rw [div_lt_iff₀ hpos] at h
  have hlt := lt_of_mul_lt_mul_right ((floorLog_spec hnum hden.ne').1.trans_lt h) hpos.le
  exact (zpow_lt_zpow_iff_right₀ one_lt_two).1 hlt

/-! ## The nearest integer -/

/-- An integer to which a quotient is nearer than to any other, or half-way and the integer is even. -/
theorem nearestEven_eq {num den m : ℕ} (hden : 0 < den) (hlow : 2 * (m * den) ≤ 2 * num + den)
    (hhigh : 2 * num ≤ 2 * (m * den) + den)
    (htie : m % 2 = 1 → 2 * (m * den) < 2 * num + den ∧ 2 * num < 2 * (m * den) + den) : nearestEven num den = m := by
  have hdiv := Nat.div_add_mod' num den
  have hlt := Nat.mod_lt num hden
  unfold nearestEven
  dsimp only
  generalize num / den = floor at *
  generalize num % den = rest at *
  subst hdiv
  have hfloor : floor = m ∨ floor + 1 = m := by
    have h₁ : floor * den < (m + 1) * den := by
      rw [Nat.add_mul]
      omega
    have h₂ : m * den < (floor + 2) * den := by
      rw [Nat.add_mul]
      omega
    have h₁ := Nat.lt_of_mul_lt_mul_right h₁
    have h₂ := Nat.lt_of_mul_lt_mul_right h₂
    omega
  rcases hfloor with rfl | rfl
  · split
    · rfl
    · split <;> omega
  · rw [Nat.add_mul] at *
    split
    · omega
    · split <;> omega

/-- **A value is nearest to an integer**, in units of a power of two. -/
structure Near (m : ℕ) (q : ℤ) (v : ℚ) : Prop where
  low : ((m : ℚ) - 1 / 2) * 2 ^ q ≤ v
  high : v ≤ ((m : ℚ) + 1 / 2) * 2 ^ q
  tie : m % 2 = 1 → ((m : ℚ) - 1 / 2) * 2 ^ q < v ∧ v < ((m : ℚ) + 1 / 2) * 2 ^ q

theorem nearestEven_of_near {num den m : ℕ} {q : ℤ} (hden : 0 < den) (h : Near m q (num / den)) :
    nearestEven (num <<< (-q).toNat) (den <<< q.toNat) = m := by
  have hd : (0 : ℚ) < den := by exact_mod_cast hden
  have ha : (0 : ℚ) < 2 ^ (-q).toNat := by positivity
  have hb : (0 : ℚ) < 2 ^ q.toNat := by positivity
  -- A bound `c` on the value in units of `2 ^ q` is one on the shifted quotient.
  have hle (c : ℚ) : c * 2 ^ q ≤ num / den ↔ c * (den * 2 ^ q.toNat) ≤ num * 2 ^ (-q).toNat := by
    rw [zpow_eq_div, mul_div_assoc', div_le_div_iff₀ ha hd]
    ring_nf
  have hge (c : ℚ) : (num : ℚ) / den ≤ c * 2 ^ q ↔ num * 2 ^ (-q).toNat ≤ c * (den * 2 ^ q.toNat) := by
    rw [zpow_eq_div, mul_div_assoc', div_le_div_iff₀ hd ha]
    ring_nf
  have hlow := (hle _).1 h.low
  have hhigh := (hge _).1 h.high
  have htie (hm : m % 2 = 1) := And.intro (lt_of_not_ge (mt (hge _).2 (h.tie hm).1.not_ge))
    (lt_of_not_ge (mt (hle _).2 (h.tie hm).2.not_ge))
  rw [Nat.shiftLeft_eq, Nat.shiftLeft_eq]
  apply nearestEven_eq (Nat.mul_pos hden (Nat.two_pow_pos _))
  · rw [← Nat.cast_le (α := ℚ)]
    push_cast
    linarith
  · rw [← Nat.cast_le (α := ℚ)]
    push_cast
    linarith
  · intro hm
    obtain ⟨hlow', hhigh'⟩ := htie hm
    rw [← Nat.cast_lt (α := ℚ), ← Nat.cast_lt (α := ℚ)]
    push_cast
    constructor <;> linarith

/-! ## The code of a significand -/

theorem Format.span_eq (F : Format) : (F.span : ℚ) = 2 ^ (F.fraction : ℤ) := by
  rw [Format.span, Nat.shiftLeft_eq, Nat.one_mul, zpow_natCast]
  push_cast
  rfl

theorem Format.span_pos (F : Format) : 0 < F.span := by
  rw [Format.span, Nat.shiftLeft_eq, Nat.one_mul]
  exact Nat.two_pow_pos _

/-- **A code and its significand.** -/
theorem significand_spec {F : Format} {code m : ℕ} {q : ℤ} (h : F.significand code = (m, q)) :
    code = (q - F.least).toNat * F.span + m ∧ F.least ≤ q ∧ m < 2 * F.span ∧ (q = F.least ∨ F.span ≤ m) := by
  have hspan := F.span_pos
  unfold Format.significand at h
  split at h
  · cases h
    refine ⟨?_, le_rfl, by assumption, .inl rfl⟩
    simp
  · rename_i hcode
    cases h
    have hdiv := Nat.div_add_mod' code F.span
    have hmod := Nat.mod_lt code hspan
    have hquotient : 2 ≤ code / F.span := (Nat.le_div_iff_mul_le hspan).2 (Nat.le_of_not_lt hcode)
    obtain ⟨k, hk⟩ := Nat.exists_eq_add_of_le hquotient
    rw [hk] at hdiv ⊢
    refine ⟨?_, by omega, by omega, .inr (by omega)⟩
    have hshift : (F.least + ((2 + k - 1 : ℕ) : ℤ) - F.least).toNat = k + 1 := by omega
    rw [hshift]
    rw [Nat.add_mul] at *
    omega

theorem significand_pos {F : Format} {code m : ℕ} {q : ℤ} (h : F.significand code = (m, q)) (h₀ : 0 < code) :
    0 < m := by
  obtain ⟨hcode, -, -, rfl | hnormal⟩ := significand_spec h
  · simp only [sub_self, Int.toNat_zero, Nat.zero_mul, Nat.zero_add] at hcode
    omega
  · exact F.span_pos.trans_le hnormal

/-- **A value that rounds to a magnitude**, by its interval. -/
structure Interval.Has (I : Interval) (v : ℚ) : Prop where
  low : I.low * (2 : ℚ) ^ I.unit ≤ v
  high : v ≤ I.high * (2 : ℚ) ^ I.unit
  open_ : I.closed = false → I.low * (2 : ℚ) ^ I.unit < v ∧ v < I.high * (2 : ℚ) ^ I.unit

/-- The ends of the interval around a magnitude: half a unit away, and only a quarter below a power of two. -/
theorem interval_has {F : Format} {code m : ℕ} {q : ℤ} {v : ℚ} (h : F.significand code = (m, q)) (hm : 0 < m)
    (hv : (F.interval code).Has v) :
    Near m q v ∧ (m = F.span → F.least < q → ((m : ℚ) - 1 / 4) * 2 ^ q ≤ v) := by
  have hunit : (2 : ℚ) ^ (q - 2) = 2 ^ q / 4 := by
    rw [zpow_sub₀ two_ne_zero]
    norm_num
  have hpos := two_zpow_pos q
  obtain ⟨hlow, hhigh, hopen⟩ := hv
  simp only [Format.interval, h, hunit] at hlow hhigh hopen
  have hquarter : ((4 * m - 1 : ℕ) : ℚ) = 4 * m - 1 := by
    rw [Nat.cast_sub (by omega)]
    push_cast
    ring
  have hhalf : ((4 * m - 2 : ℕ) : ℚ) = 4 * m - 2 := by
    rw [Nat.cast_sub (by omega)]
    push_cast
    ring
  split_ifs at hlow hopen with hpower
  · rw [hquarter] at hlow hopen
    push_cast at *
    refine ⟨⟨by linarith, by linarith, ?_⟩, fun _ _ => by linarith⟩
    intro hodd
    obtain ⟨hlow', hhigh'⟩ := hopen (by simp [hodd])
    constructor <;> linarith
  · rw [hhalf] at hlow hopen
    push_cast at *
    refine ⟨⟨by linarith, by linarith, ?_⟩, fun h₁ h₂ => absurd ⟨h₁, h₂⟩ hpower⟩
    intro hodd
    obtain ⟨hlow', hhigh'⟩ := hopen (by simp [hodd])
    constructor <;> linarith

/-- All of the interval lies above half of the smallest magnitude. -/
theorem le_of_has {F : Format} {code : ℕ} {v : ℚ} (h₀ : 0 < code) (hv : (F.interval code).Has v) :
    2 ^ (F.least - 1) ≤ v := by
  rcases hsig : F.significand code with ⟨m, q⟩
  have hm : (1 : ℚ) ≤ m := by exact_mod_cast significand_pos hsig h₀
  obtain ⟨-, hleast, -, -⟩ := significand_spec hsig
  have hlow := (interval_has hsig (significand_pos hsig h₀) hv).1.low
  have hpow : (2 : ℚ) ^ (F.least - 1) ≤ 2 ^ (q - 1) := zpow_le_zpow_right₀ one_le_two (by omega)
  have htwo : (2 : ℚ) ^ q = 2 * 2 ^ (q - 1) := by rw [← two_zpow_succ, sub_add_cancel]
  nlinarith [two_zpow_pos (q - 1)]

/-- The code that rounding makes of an exponent and the nearest integer. -/
theorem round_of_near {F : Format} {num den m : ℕ} {q : ℤ} (hnum : num ≠ 0) (hden : 0 < den)
    (hq : max F.least (floorLog num den - F.fraction) = q) (hm : Near m q (num / den))
    (hinfinity : (q - F.least).toNat * F.span + m ≤ F.infinity) :
    F.round num den = (q - F.least).toNat * F.span + m := by
  rw [Format.round, if_neg hnum]
  dsimp only
  rw [hq, nearestEven_of_near hden hm, Nat.min_eq_left hinfinity]

/-- Just below a power of two the numbers are twice as dense, and the power is nearest to what is within a quarter of
its own unit. -/
theorem round_of_lt_power {F : Format} {num den k : ℕ} {q : ℤ} (hnum : num ≠ 0) (hden : 0 < den)
    (hq : q = F.least + k) (hlow : ((F.span : ℚ) - 1 / 4) * 2 ^ (q + 1) ≤ num / den)
    (hhigh : (num / den : ℚ) < F.span * 2 ^ (q + 1)) (hinfinity : k * F.span + 2 * F.span ≤ F.infinity) :
    F.round num den = k * F.span + 2 * F.span := by
  have hspan : (1 : ℚ) ≤ F.span := by exact_mod_cast F.span_pos
  have hpos := two_zpow_pos q
  rw [two_zpow_succ] at hlow hhigh
  have hpower : F.span * (2 : ℚ) ^ q = 2 ^ (F.fraction + q) := by rw [F.span_eq, zpow_add₀ two_ne_zero]
  have hle : F.fraction + q ≤ floorLog num den := by
    apply le_floorLog hnum hden
    rw [← hpower]
    nlinarith
  have hlt : floorLog num den < F.fraction + q + 1 := by
    apply floorLog_lt hnum hden
    rw [two_zpow_succ, ← hpower]
    linarith
  have hnear : Near (2 * F.span) q (num / den) := by
    refine ⟨?_, ?_, fun hodd => by omega⟩
    · push_cast
      linarith
    · push_cast
      linarith
  have hk : (q - F.least).toNat = k := by omega
  rw [round_of_near hnum hden (by omega) hnear (by rw [hk]; exact hinfinity), hk]

/-- **A magnitude is nearest to every point of its interval.** -/
theorem round_of_has {F : Format} {code num den : ℕ} (h₀ : 0 < code) (hcode : code < F.infinity) (hden : 0 < den)
    (hv : (F.interval code).Has (num / den)) : F.round num den = code := by
  rcases hsig : F.significand code with ⟨m, q⟩
  obtain ⟨hcode_eq, hleast, hm, hnormal⟩ := significand_spec hsig
  have hm₀ := significand_pos hsig h₀
  obtain ⟨hnear, hquarter⟩ := interval_has hsig hm₀ hv
  have hpos := two_zpow_pos q
  have hm_le : (m : ℚ) + 1 ≤ 2 * F.span := by exact_mod_cast hm
  have hpower : F.span * (2 : ℚ) ^ q = 2 ^ (F.fraction + q) := by rw [F.span_eq, zpow_add₀ two_ne_zero]
  have hnum : num ≠ 0 := by
    rintro rfl
    have hle := le_of_has h₀ hv
    rw [Nat.cast_zero, zero_div] at hle
    exact absurd hle (two_zpow_pos _).not_ge
  by_cases hfirst : q = F.least ∨ F.span * (2 : ℚ) ^ q ≤ num / den
  · -- The value has the exponent of the magnitude.
    have hlt : floorLog num den < F.fraction + q + 1 := by
      apply floorLog_lt hnum hden
      rw [two_zpow_succ, ← hpower]
      nlinarith [hnear.high]
    have hq : max F.least (floorLog num den - F.fraction) = q := by
      rcases hfirst with hfirst | hfirst
      · omega
      · rw [hpower] at hfirst
        have := le_floorLog hnum hden hfirst
        omega
    rw [round_of_near hnum hden hq hnear (by omega), ← hcode_eq]
  · -- The magnitude is a power of two and the value lies below it.
    rw [not_or, not_le] at hfirst
    obtain ⟨hq_ne, hv_lt⟩ := hfirst
    have hm_eq : m = F.span := by
      have hlt : (m : ℚ) < F.span + 1 := by
        have hlow := hnear.low
        by_contra hge
        nlinarith
      have hlt : m < F.span + 1 := by exact_mod_cast hlt
      omega
    obtain ⟨k, hk⟩ : ∃ k : ℕ, q - 1 = F.least + k := ⟨(q - 1 - F.least).toNat, by omega⟩
    have hcode_eq : code = k * F.span + 2 * F.span := by
      rw [hcode_eq, hm_eq, show (q - F.least).toNat = k + 1 by omega]
      ring
    rw [hcode_eq] at hcode ⊢
    apply round_of_lt_power hnum hden hk
    · rw [sub_add_cancel, ← hm_eq]
      exact hquarter hm_eq (by omega)
    · rw [sub_add_cancel]
      exact hv_lt
    · exact hcode.le

end Dialogue.Number
