import Mathlib
import Dialogue.Number.Numeral

/-!
# The characters of numerals

A text that is read as a numeral is made of ASCII letters and digits, signs and points (`all_isOfNumeral_of_read?`).
-/

namespace Dialogue.Number

/-- A character that a numeral may hold. -/
def isOfNumeral (c : Char) : Bool :=
  c.isAlphanum || c = '+' || c = '-' || c = '.'

variable {cs : List Char}

theorem isOfNumeral_of_isDigit {c : Char} (h : c.isDigit = true) : isOfNumeral c = true := by
  simp [isOfNumeral, Char.isAlphanum, h]

/-- Small letters only come from letters. -/
theorem isOfNumeral_of_isAlpha_toLower {c : Char} (h : c.toLower.isAlpha = true) : isOfNumeral c = true := by
  by_cases hupper : c.isUpper = true
  · simp [isOfNumeral, Char.isAlphanum, Char.isAlpha, hupper]
  · have hsame : c.toLower = c := by
      rw [Char.toLower]
      split
      · rename_i h
        exact absurd (by simpa [Char.isUpper] using h) hupper
      · rfl
    rw [hsame] at h
    simp [isOfNumeral, Char.isAlphanum, h]

theorem all_isOfNumeral_of_isDigit (h : ∀ c ∈ cs, c.isDigit = true) : cs.all isOfNumeral = true :=
  List.all_eq_true.2 fun c hc => isOfNumeral_of_isDigit (h c hc)

theorem all_isOfNumeral_of_readDigits? {n : Nat} (h : Text.readDigits? cs = some n) : cs.all isOfNumeral = true := by
  rw [Text.readDigits?] at h
  split at h
  · rename_i hdigits
    exact all_isOfNumeral_of_isDigit (List.all_eq_true.1 hdigits.2)
  · cases h

theorem all_isOfNumeral_of_readInt? {i : Int} (h : Text.readInt? cs = some i) : cs.all isOfNumeral = true := by
  have hnat : ∀ {n : Nat}, Text.readNat? cs = some n → cs.all isOfNumeral = true := by
    intro n h
    unfold Text.readNat? at h
    split at h
    · have hdigits := all_isOfNumeral_of_readDigits? h
      exact hdigits
    · exact all_isOfNumeral_of_readDigits? h
  unfold Text.readInt? at h
  split at h
  · rename_i rest
    cases hn : Text.readDigits? rest with
    | none => simp [hn] at h
    | some n =>
      have hdigits := all_isOfNumeral_of_readDigits? hn
      exact hdigits
  · cases hn : Text.readNat? cs with
    | none => simp [hn] at h
    | some n => exact hnat hn

namespace Numeral

theorem all_isOfNumeral_of_readExponent? {i : Int} (h : readExponent? cs = some i) : cs.all isOfNumeral = true := by
  unfold readExponent? at h
  split at h
  · rfl
  · split at h
    · rename_i hc
      have := all_isOfNumeral_of_readInt? h
      rcases hc with rfl | rfl <;> exact this
    · cases h

theorem all_isOfNumeral_of_readFinite? {negative : Bool} {n : Numeral} (h : readFinite? negative cs = some n) :
    cs.all isOfNumeral = true := by
  have hdigits : ∀ ds : List Char, (ds.takeWhile Char.isDigit).all isOfNumeral = true := fun ds =>
    all_isOfNumeral_of_isDigit fun c => List.mem_takeWhile_imp
  have hexponent : ∀ {digits rest : List Char} {f : Int → Numeral},
      (if digits = [] then none else (readExponent? rest).map f) = some n → rest.all isOfNumeral = true := by
    intro digits rest f h
    split at h
    · cases h
    · obtain ⟨exponent, hrest, -⟩ := Option.map_eq_some_iff.1 h
      exact all_isOfNumeral_of_readExponent? hrest
  rw [← List.takeWhile_append_dropWhile (p := Char.isDigit) (l := cs), List.all_append, hdigits, Bool.true_and]
  rw [readFinite?] at h
  dsimp only at h
  split at h
  · rename_i rest hpoint
    rw [hpoint, ← List.takeWhile_append_dropWhile (p := Char.isDigit) (l := rest), List.all_cons, List.all_append,
      hdigits, hexponent h]
    rfl
  · exact hexponent h

theorem all_isOfNumeral_of_readUnsigned? {negative : Bool} {n : Numeral} (h : readUnsigned? negative cs = some n) :
    cs.all isOfNumeral = true := by
  have hword : ∀ {word : String}, word.toList.all Char.isAlpha = true → String.ofList (cs.map Char.toLower) = word →
      cs.all isOfNumeral = true := by
    rintro word hword rfl
    rw [String.toList_ofList, List.all_map] at hword
    exact List.all_eq_true.2 fun c hc => isOfNumeral_of_isAlpha_toLower (List.all_eq_true.1 hword c hc)
  rw [readUnsigned?] at h
  split at h
  · rename_i hw
    rcases hw with hw | hw
    · exact hword (by decide) hw
    · exact hword (by decide) hw
  · split at h
    · rename_i hw
      exact hword (by decide) hw
    · exact all_isOfNumeral_of_readFinite? h

/-- **A numeral is made of letters, digits, signs and points.** -/
theorem all_isOfNumeral_of_read? {n : Numeral} (h : read? cs = some n) : cs.all isOfNumeral = true := by
  unfold read? at h
  split at h
  · have hunsigned := all_isOfNumeral_of_readUnsigned? h
    exact hunsigned
  · have hunsigned := all_isOfNumeral_of_readUnsigned? h
    exact hunsigned
  · exact all_isOfNumeral_of_readUnsigned? h

end Numeral

end Dialogue.Number
