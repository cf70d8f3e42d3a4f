import Dialogue.Number.Basic

/-!
# Plural rules

A language sorts numbers into up to six categories, once for counting and once for ordering. Which locales there are and
what their rules say is not settled here: a library has the rules, a session is given the library when it is made, and
every answer of the library may be an error with a text of its own.

* `Rules.of_eq_ok_iff`: a locale is of use when it has the rules for counting and for ordering.
-/

namespace Dialogue.Plural

/-- **The categories of numbers.** -/
inductive Category where
  | zero
  | one
  | two
  | few
  | many
  | other
deriving DecidableEq, Repr

namespace Category

def name : Category → String
  | .zero => "zero"
  | .one => "one"
  | .two => "two"
  | .few => "few"
  | .many => "many"
  | .other => "other"

end Category

/-- **What a number does**: it counts, or it orders. -/
inductive Use where
  | cardinal
  | ordinal
deriving DecidableEq, Repr

/-- **A rule**: the category of a number of double precision. -/
abbrev Rule := Number.Binary → Except String Category

/-- **A library of plural rules**: the locale that a text names, if it names one, and the rule of that locale for each
use, if there is one. -/
structure Rules where
  locale? : String → Option (Use → Except String Rule)

/-- Why a text names no rules. -/
inductive Fault where
  /-- The text that should name a locale names none. -/
  | badLocale (locale : String)
  /-- The library has no rule for the locale. -/
  | noRule (message : String)
deriving DecidableEq, Repr

/-- An error that is passed on under another name is no result. -/
theorem mapError_eq_ok_iff {ε ε' α : Type} {f : ε → ε'} {x : Except ε α} {a : α} :
    x.mapError f = .ok a ↔ x = .ok a := by
  cases x with
  | error e => exact ⟨nofun, nofun⟩
  | ok b => exact ⟨fun h => by cases h; rfl, fun h => by cases h; rfl⟩

namespace Rules

/-- **The rules of the locale that a text names.** Both are looked for, whatever they are needed for. -/
def of (rules : Rules) (locale : String) : Except Fault (Use → Rule) :=
  match rules.locale? locale with
  | none => .error (.badLocale locale)
  | some rule => do
    let ordinal ← (rule .ordinal).mapError .noRule
    let cardinal ← (rule .cardinal).mapError .noRule
    return fun
      | .ordinal => ordinal
      | .cardinal => cardinal

/-! ## Laws -/

theorem of_eq_ok_iff {rules : Rules} {locale : String} {found : Use → Rule} : rules.of locale = .ok found ↔
    ∃ rule, rules.locale? locale = some rule ∧ ∀ use, rule use = .ok (found use) := by
  unfold of
  cases rules.locale? locale with
  | none => exact ⟨nofun, fun ⟨_, h, _⟩ => nomatch h⟩
  | some rule =>
    constructor
    · intro h
      refine ⟨rule, rfl, ?_⟩
      dsimp only at h
      cases hordinal : rule .ordinal with
      | error message =>
        rw [hordinal] at h
        cases h
      | ok ordinal =>
        cases hcardinal : rule .cardinal with
        | error message =>
          rw [hordinal, hcardinal] at h
          cases h
        | ok cardinal =>
          rw [hordinal, hcardinal] at h
          cases h
          rintro (_ | _)
          · exact hcardinal
          · exact hordinal
    · rintro ⟨_, ⟨⟩, hfound⟩
      dsimp only
      rw [hfound, hfound]
      refine congrArg Except.ok (funext fun use => ?_)
      cases use <;> rfl

end Rules

end Dialogue.Plural
