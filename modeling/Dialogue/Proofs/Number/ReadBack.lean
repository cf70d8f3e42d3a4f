import Mathlib
import Dialogue.Proofs.Number.Count
import Dialogue.Proofs.Number.Shortest
import Dialogue.Proofs.Text.Character
import Dialogue.Proofs.Text.Cut

/-!
# Numbers read back

The text of a number is read back as the number (`parse?_text`), whatever it is. Its digits and the place of its point
give the decimal back (`read?_text`), the decimal is nearest to the code that it was made for (`nearest_of_has`), and the
code and the sign give the number (`ofBinary_toBinary`).
-/

namespace Dialogue.Number

open Text

namespace Numeral

variable {negative : Bool} {ws ts : List Char}

/-! ## Digits -/

theorem takeWhile_digits (hws : ∀ c ∈ ws, c.isDigit = true) : (ws ++ '.' :: ts).takeWhile Char.isDigit = ws :=
  (span_append_cons hws (by decide) ts).1

theorem dropWhile_digits (hws : ∀ c ∈ ws, c.isDigit = true) :
    (ws ++ '.' :: ts).dropWhile Char.isDigit = '.' :: ts :=
  (span_append_cons hws (by decide) ts).2

theorem readFinite?_digits (hws : ∀ c ∈ ws, c.isDigit = true) (hne : ws ≠ []) :
    readFinite? negative ws = some (.finite negative (Nat.ofDigitChars 10 ws 0) 0) := by
  have htake : ws.takeWhile Char.isDigit = ws := List.takeWhile_eq_self_iff.2 hws
  have hdrop : ws.dropWhile Char.isDigit = [] := List.dropWhile_eq_nil_iff.2 hws
  unfold readFinite?
  rw [htake, hdrop]
  simp [hne, readExponent?]

theorem readFinite?_point (hws : ∀ c ∈ ws, c.isDigit = true) (hts : ∀ c ∈ ts, c.isDigit = true) (hne : ws ≠ []) :
    readFinite? negative (ws ++ '.' :: ts) =
      some (.finite negative (Nat.ofDigitChars 10 (ws ++ ts) 0) (-ts.length)) := by
  have htake : ts.takeWhile Char.isDigit = ts := List.takeWhile_eq_self_iff.2 hts
  have hdrop : ts.dropWhile Char.isDigit = [] := List.dropWhile_eq_nil_iff.2 hts
  unfold readFinite?
  rw [takeWhile_digits hws, dropWhile_digits hws]
  simp [hne, htake, hdrop, readExponent?]

theorem toLower_of_isDigit {c : Char} (h : c.isDigit = true) : c.toLower = c := by
  have hlast := (isDigit_iff.1 h).2
  unfold Char.toLower
  split
  · rename_i hupper
    have hfirst : 65 ≤ c.toNat := UInt32.le_iff_toNat_le.1 hupper.1
    omega
  · rfl

/-- What starts with a digit is read as a finite numeral, with or without a sign before it. -/
theorem read?_sign {d : Char} {cs : List Char} (hd : d.isDigit = true) :
    read? ((if negative then ['-'] else []) ++ d :: cs) = readFinite? negative (d :: cs) := by
  have hlower : d.toLower.isDigit = true := by
    rw [toLower_of_isDigit hd]
    exact hd
  have hword {w : String} {c : Char} {rest : List Char} (hw : w.toList = c :: rest) (hc : c.isDigit = false) :
      String.ofList ((d :: cs).map Char.toLower) ≠ w := by
    rintro rfl
    rw [String.toList_ofList, List.map_cons] at hw
    rw [← (List.cons.inj hw).1, hlower] at hc
    cases hc
  have hunsigned : readUnsigned? negative (d :: cs) = readFinite? negative (d :: cs) := by
    unfold readUnsigned?
    dsimp only
    rw [if_neg (not_or.2 ⟨hword (w := "inf") rfl rfl, hword (w := "infinity") rfl rfl⟩),
      if_neg (hword (w := "nan") rfl rfl)]
  cases negative with
  | true => exact hunsigned
  | false =>
    show read? (d :: cs) = _
    unfold read?
    split
    · rename_i heq
      cases heq
      cases hd
    · rename_i heq
      cases heq
      cases hd
    · exact hunsigned

theorem read?_digits (negative : Bool) (hws : ∀ c ∈ ws, c.isDigit = true) (hne : ws ≠ []) :
    read? ((if negative then ['-'] else []) ++ ws) = some (.finite negative (Nat.ofDigitChars 10 ws 0) 0) := by
  rw [← readFinite?_digits hws hne]
  obtain ⟨d, ws, rfl⟩ := List.exists_cons_of_ne_nil hne
  exact read?_sign (hws d List.mem_cons_self)

theorem read?_point (negative : Bool) (hws : ∀ c ∈ ws, c.isDigit = true) (hts : ∀ c ∈ ts, c.isDigit = true)
    (hne : ws ≠ []) : read? ((if negative then ['-'] else []) ++ (ws ++ '.' :: ts)) =
      some (.finite negative (Nat.ofDigitChars 10 (ws ++ ts) 0) (-ts.length)) := by
  rw [← readFinite?_point hws hts hne]
  obtain ⟨d, ws, rfl⟩ := List.exists_cons_of_ne_nil hne
  exact read?_sign (hws d List.mem_cons_self)

theorem isDigit_of_mem_replicate {n : ℕ} {c : Char} (h : c ∈ List.replicate n '0') : c.isDigit = true := by
  rw [List.eq_of_mem_replicate h]
  rfl

/-- **A decimal in positional notation is read back**, without zeros behind its digits. -/
theorem read?_positional (negative : Bool) (digits : ℕ) (exponent : ℤ) :
    read? ((if negative then ['-'] else []) ++ positional false (natText digits) exponent) =
      some (.finite negative (digits * 10 ^ exponent.toNat) (min exponent 0)) := by
  have hdigits : ∀ c ∈ natText digits, c.isDigit = true := fun _ => isDigit_of_mem_natText
  have hne := natText_ne_nil digits
  have hvalue : Nat.ofDigitChars 10 (natText digits) 0 = digits := Nat.ofDigitChars_ten_toDigits
  unfold positional
  dsimp only
  by_cases hexponent : 0 ≤ exponent
  · -- zeros after the digits
    have hall : ∀ c ∈ natText digits ++ List.replicate exponent.toNat '0', c.isDigit = true := by
      intro c hc
      rcases List.mem_append.1 hc with hc | hc
      · exact hdigits c hc
      · exact isDigit_of_mem_replicate hc
    rw [if_pos hexponent, if_neg Bool.false_ne_true, List.append_nil, read?_digits negative hall (by simp [hne]),
      Nat.ofDigitChars_append, hvalue, Nat.ofDigitChars_replicate_zero, Nat.mul_comm, min_eq_right hexponent]
  · have hzero : exponent.toNat = 0 := by omega
    have hmin : min exponent 0 = exponent := by omega
    rw [if_neg hexponent, hzero, hmin, Nat.pow_zero, Nat.mul_one]
    by_cases hshift : (-exponent).toNat < (natText digits).length
    · -- the point among the digits
      have hlength : (natText digits).length - ((natText digits).length - (-exponent).toNat) = (-exponent).toNat := by
        omega
      rw [if_pos hshift, read?_point negative (fun c hc => hdigits c (List.mem_of_mem_take hc))
        (fun c hc => hdigits c (List.mem_of_mem_drop hc)) (by simp [hne]; omega), List.take_append_drop, hvalue,
        List.length_drop, hlength]
      congr 2
      omega
    · -- zeros before the digits
      have hall : ∀ c ∈ List.replicate ((-exponent).toNat - (natText digits).length) '0' ++ natText digits,
          c.isDigit = true := by
        intro c hc
        rcases List.mem_append.1 hc with hc | hc
        · exact isDigit_of_mem_replicate hc
        · exact hdigits c hc
      have hlength : (List.replicate ((-exponent).toNat - (natText digits).length) '0' ++ natText digits).length =
          (-exponent).toNat := by
        rw [List.length_append, List.length_replicate]
        omega
      have hlead : Nat.ofDigitChars 10 (['0'] ++
          (List.replicate ((-exponent).toNat - (natText digits).length) '0' ++ natText digits)) 0 = digits := by
        rw [Nat.ofDigitChars_append, Nat.ofDigitChars_append]
        simp [Nat.ofDigitChars_cons, hvalue]
      have hread := read?_point negative (List.forall_mem_singleton.2 (show '0'.isDigit = true from rfl)) hall
        (List.cons_ne_nil _ _)
      rw [hlead, hlength] at hread
      rw [if_neg hshift]
      refine hread.trans ?_
      congr 2
      omega

theorem magnitude_plain (digits : ℕ) (exponent : ℤ) :
    magnitude plain digits exponent = positional false (natText digits) (if digits = 0 then 0 else exponent) := by
  unfold magnitude
  dsimp only
  split <;> rfl

/-- **The text of a finite numeral is read back.** -/
theorem read?_text (negative : Bool) {digits : ℕ} {exponent : ℤ} (h : digits = 0 → exponent = 0) :
    read? ((Numeral.finite negative digits exponent).text plain) =
      some (.finite negative (digits * 10 ^ exponent.toNat) (min exponent 0)) := by
  have hexponent : (if digits = 0 then 0 else exponent) = exponent := by
    split
    · rename_i hzero
      exact (h hzero).symm
    · rfl
  rw [Numeral.text, magnitude_plain, hexponent]
  exact read?_positional negative digits exponent

/-- Digits with a point in its place: digits only, or digits on both sides of a point. -/
theorem exists_positional (digits : ℕ) (exponent : ℤ) :
    ∃ whole decimals : List Char, whole ≠ [] ∧ (∀ c ∈ whole ++ decimals, c.isDigit = true) ∧
      (positional false (natText digits) exponent = whole ∨
        positional false (natText digits) exponent = whole ++ '.' :: decimals) := by
  have hdigits : ∀ c ∈ natText digits, c.isDigit = true := fun _ => isDigit_of_mem_natText
  have hne := natText_ne_nil digits
  have hzeros : ∀ n, ∀ c ∈ List.replicate n '0', c.isDigit = true := fun _ _ => isDigit_of_mem_replicate
  unfold positional
  dsimp only
  rw [if_neg Bool.false_ne_true, List.append_nil]
  split_ifs with hexponent hshift
  · refine ⟨natText digits ++ List.replicate exponent.toNat '0', [], by simp [hne], ?_, .inl rfl⟩
    simpa only [List.append_nil] using List.forall_mem_append.2 ⟨hdigits, hzeros _⟩
  · refine ⟨_, _, ?_, ?_, .inr rfl⟩
    · simp [hne]
      omega
    · rwa [List.take_append_drop]
  · refine ⟨['0'], List.replicate ((-exponent).toNat - (natText digits).length) '0' ++ natText digits, by simp, ?_,
      .inr rfl⟩
    exact List.forall_mem_append.2 ⟨hzeros 1, List.forall_mem_append.2 ⟨hzeros _, hdigits⟩⟩

end Numeral

/-! ## Bits -/

open Float.Model (Format.binary32)
open Float.Model.UnpackedFloat (unpackExponent unpackMantissa unpackSign packComponents packedNaN pack unpack Sign)

/-- All bits are kept: of those that stand for no number there is one pattern only. -/
theorem pack_unpack_of_valid {b : BitVec Format.binary32.numBits} (h : Format.binary32.Valid b) :
    pack Format.binary32 (unpack Format.binary32 b) = b := by
  by_cases hexponent : unpackExponent b = -1#_
  · by_cases hmantissa : unpackMantissa b = 0#_
    · have hunpack : unpack Format.binary32 b = .infinity (.ofBitVec (unpackSign b)) := by
        simp [unpack, hexponent, hmantissa]
      conv_rhs => rw [← packComponents_parts b, hexponent, hmantissa]
      rw [hunpack]
      rfl
    · have hunpack : unpack Format.binary32 b = .notANumber := by
        simp [unpack, hexponent, hmantissa]
      rw [hunpack, h.eq_packedNaN hexponent hmantissa]
      rfl
  · exact pack_unpack b hexponent

theorem ofBits_toBits (x : Float32) : Float32.ofBits x.toBits = x := by
  obtain ⟨⟨bits, hvalid⟩⟩ := x
  have hbits : UInt32.ofBitVec (pack Format.binary32 (unpack Format.binary32 bits.toBitVec)) = bits := by
    rw [pack_unpack_of_valid hvalid]
  show Float32.ofModel (Float32.Model.ofBits bits) = _
  unfold Float32.Model.ofBits Float32.Model.pack
  congr 2

/-- **The sign and the code of a number give the number.** -/
theorem ofBinary_toBinary (x : Float32) : ofBinary (toBinary x) = x := by
  have hlt := x.toBits.toNat_lt
  have hs : signBit = 2147483648 := rfl
  have hbits : (if decide (signBit ≤ x.toBits.toNat) then signBit else 0) + x.toBits.toNat % signBit =
      x.toBits.toNat := by
    rw [hs]
    by_cases h : 2147483648 ≤ x.toBits.toNat
    · rw [if_pos (decide_eq_true h)]
      omega
    · rw [if_neg (by simpa using h)]
      omega
  rw [ofBinary, toBinary]
  dsimp only
  rw [hbits, UInt32.ofNat_toNat, ofBits_toBits]

theorem eq_nan_of_isNaN {x : Float32} (h : (toBinary x).isNaN single = true) : x = ofBinary (.nan single) := by
  obtain ⟨⟨bits, hvalid⟩⟩ := x
  have hcode : 2139095040 < bits.toNat % 2147483648 := of_decide_eq_true h
  have hlt := bits.toNat_lt
  have hexponent : unpackExponent (show BitVec Format.binary32.numBits from bits.toBitVec) = -1#_ := by
    rw [← BitVec.toNat_inj]
    simp [unpackExponent, Nat.shiftRight_eq_div_pow]
    omega
  have hmantissa : unpackMantissa (show BitVec Format.binary32.numBits from bits.toBitVec) ≠ 0#_ := by
    rw [ne_eq, ← BitVec.toNat_inj]
    simp [unpackMantissa]
    omega
  have hbits : bits = 2143289344 := by
    rw [← UInt32.toBitVec_inj]
    exact hvalid.eq_packedNaN hexponent hmantissa
  subst hbits
  rfl

/-- **The shortest decimal of a magnitude is read as that magnitude.** -/
theorem toBinary_read?_shortest (negative : Bool) {code : ℕ} (hcode : code < single.infinity) :
    (Numeral.read? ((Numeral.finite negative (single.shortest code).1 (single.shortest code).2).text plain)).map
      (Numeral.toBinary single) = some ⟨negative, code⟩ := by
  rcases Nat.eq_zero_or_pos code with rfl | h₀
  · rw [Format.shortest_zero, Numeral.read?_text negative fun _ => rfl]
    rfl
  · have hhas := has_shortest (F := single) h₀
    generalize single.shortest code = decimal at hhas ⊢
    obtain ⟨digits, exponent⟩ := decimal
    have hdigits : digits ≠ 0 := by
      rintro rfl
      have hle := le_of_has h₀ hhas
      rw [Nat.cast_zero, zero_mul] at hle
      exact absurd hle (two_zpow_pos _).not_ge
    have hvalue : ((digits * 10 ^ exponent.toNat : ℕ) : ℚ) * 10 ^ min exponent 0 = digits * 10 ^ exponent := by
      rw [zpow_eq_div 10 exponent, zpow_eq_div 10 (min exponent 0), show (min exponent 0).toNat = 0 by omega,
        show (-(min exponent 0)).toNat = (-exponent).toNat by omega]
      push_cast
      ring
    rw [Numeral.read?_text negative fun h => absurd h hdigits, Option.map_some, Numeral.toBinary,
      nearest_of_has h₀ hcode (min_le_right _ _) (by rw [hvalue]; exact hhas)]

/-- **The text of a number is read back as the number.** -/
theorem parse?_text (x : Float32) : parse? (text x).toList = some x := by
  rw [parse?, text, String.toList_ofList, Binary.toNumeral]
  by_cases hnan : (toBinary x).isNaN single = true
  · rw [if_pos hnan, eq_nan_of_isNaN hnan]
    rfl
  · rw [if_neg hnan]
    have hx := ofBinary_toBinary x
    generalize toBinary x = b at hx hnan ⊢
    obtain ⟨negative, code⟩ := b
    by_cases hfinite : Binary.isFinite single ⟨negative, code⟩ = true
    · have hread := toBinary_read?_shortest negative (of_decide_eq_true hfinite)
      obtain ⟨numeral, hnumeral, hbinary⟩ := Option.map_eq_some_iff.1 hread
      rw [if_pos hfinite]
      dsimp only
      rw [hnumeral, Option.map_some, hbinary, hx]
    · have hle := Nat.le_of_not_lt (of_decide_eq_false (Bool.eq_false_iff.2 hnan))
      have hge := Nat.le_of_not_lt (of_decide_eq_false (Bool.eq_false_iff.2 hfinite))
      obtain rfl : code = single.infinity := Nat.le_antisymm hle hge
      have hread : Numeral.read? ((Numeral.infinite negative).text plain) = some (.infinite negative) := by
        cases negative <;> decide
      rw [if_neg hfinite, hread, Option.map_some, Numeral.toBinary, hx]

/-- **The text of a number** that is finite and not negative is a digit, and then digits and points. -/
theorem exists_toList_text {x : Float32} (hsign : (toBinary x).negative = false)
    (hfinite : (toBinary x).isFinite single = true) : ∃ d rest, (text x).toList = d :: rest ∧ d.isDigit = true ∧
      ∀ c ∈ rest, c.isDigit = true ∨ c = '.' := by
  have hlt : (toBinary x).code < single.infinity := of_decide_eq_true hfinite
  have hnan : ¬ (toBinary x).isNaN single = true := fun h => absurd (of_decide_eq_true h) (Nat.lt_asymm hlt)
  rw [text, String.toList_ofList, Binary.toNumeral, if_neg hnan, if_pos hfinite]
  generalize single.shortest (toBinary x).code = decimal
  obtain ⟨digits, exponent⟩ := decimal
  obtain ⟨whole, decimals, hne, hdigits, hpositional⟩ :=
    Numeral.exists_positional digits (if digits = 0 then 0 else exponent)
  obtain ⟨d, whole, rfl⟩ := List.exists_cons_of_ne_nil hne
  have hd : d.isDigit = true := hdigits d (by simp)
  have htext : (Numeral.finite (toBinary x).negative digits exponent).text plain =
      Numeral.positional false (natText digits) (if digits = 0 then 0 else exponent) := by
    rw [hsign, Numeral.text, Numeral.magnitude_plain]
    rfl
  rw [htext]
  rcases hpositional with heq | heq
  · exact ⟨d, whole, heq, hd, fun c hc => .inl (hdigits c (by simp [hc]))⟩
  · refine ⟨d, whole ++ '.' :: decimals, heq, hd, fun c hc => ?_⟩
    rcases List.mem_append.1 hc with hc | hc
    · exact .inl (hdigits c (by simp [hc]))
    · rcases List.mem_cons.1 hc with rfl | hc
      · exact .inr rfl
      · exact .inl (hdigits c (by simp [hc]))

end Dialogue.Number
