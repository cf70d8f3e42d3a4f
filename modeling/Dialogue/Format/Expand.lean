import Dialogue.Format.Syntax
import Dialogue.Plural.Basic
import Dialogue.Text.Quoted

/-!
# Expanding format functions

Each format function of a text gives way to the choice that its value picks: by the value itself, or by the category of
the number that the value writes, under the plural rules that are given. A locale is only looked at when there is a
function, and then it needs its rules even if no function asks for a category.

* `expand_of_no_bracket`: a text without brackets stays as it is, whatever the plural rules and the locale.
-/

namespace Dialogue.Format

open Plural

/-- **Why a function has no key.** -/
inductive KeyFault where
  | notNumber (value : String)
  /-- The rule has no category for the number. -/
  | noCategory (message : String)
deriving DecidableEq, Repr

/-- **Why a text cannot be expanded.** -/
inductive Fault where
  | badFunction (fault : SyntaxFault) (line : String)
  | noRules (fault : Plural.Fault)
  | noKey (fault : KeyFault) (line : String)
deriving DecidableEq, Repr

namespace Fault

/-- The wording of a fault. Where the plural rules give an error, it is theirs. -/
def message : Fault → String
  | .badFunction fault line =>
    let place := "inside a format function in line \"" ++ line ++ "\""
    match fault with
    | .noName => "Expected an identifier " ++ place
    | .noValue => "Expected a value " ++ place
    | .noString => "Expected a string " ++ place
    | .openString => "Unterminated string " ++ place
    | .expected c => "Expected a " ++ String.singleton c ++ " " ++ place
    | .endOfLine => "Unexpected end of line " ++ place
    | .duplicate key => "Duplicate value '" ++ key ++ "' in format function inside line \"" ++ line ++ "\""
  | .noRules (.badLocale locale) => "invalid locale " ++ Text.quoted locale
  | .noRules (.noRule message) => message
  | .noKey (.notNumber value) line => "Error while pluralising line '" ++ line ++ "': '" ++ value ++ "' is not a number"
  | .noKey (.noCategory message) _ => message

end Fault

namespace Function

/-- The name of the category of the number that a value writes. -/
def category (rule : Rule) (value : List Char) : Except KeyFault (List Char) :=
  match Number.parseDouble? (Text.trim value) with
  | none => .error (.notNumber (.ofList value))
  | some number => ((rule number).mapError .noCategory).map fun category => category.name.toList

/-- **The key of the choice that is taken**, where the value allows one. -/
def key (rules : Use → Rule) (function : Function) : Except KeyFault (List Char) :=
  match function.kind with
  | .select => .ok function.value
  | .plural => category (rules .cardinal) function.value
  | .ordinal => category (rules .ordinal) function.value

/-- The text of the choice with a given key, the value filled in. -/
def replacement (function : Function) (key : List Char) : List Char :=
  Text.replaceAll valueMark function.value
    ((function.choices.lookup key).getD ("<no replacement for ".toList ++ key ++ ['>']))

end Function

/-- Replaces the marks of functions, numbered from `index` on, in a text. -/
def fill (rules : Use → Rule) (index : Nat) (text : List Char) : List Function → Except KeyFault (List Char)
  | [] => .ok text
  | function :: rest => do
    let key ← function.key rules
    fill rules (index + 1) (Text.replaceFirst (functionMark index) (function.replacement key) text) rest

/-- **The text with its format functions expanded.** -/
def expand (plurals : Plural.Rules) (text locale : String) : Except Fault String :=
  match parse text.toList with
  | .error fault => .error (.badFunction fault text)
  | .ok (marked, []) => .ok (.ofList marked)
  | .ok (marked, functions) => do
    let rules ← (plurals.of locale).mapError .noRules
    let filled ← (fill rules 0 marked functions).mapError (.noKey · text)
    return .ofList filled

/-! ## Laws -/

theorem parseFrom_of_no_bracket {cs : List Char} (h : '[' ∉ cs) (index : Nat) : parseFrom index cs = .ok (cs, []) := by
  induction cs with
  | nil => simp [parseFrom]
  | cons c rest ih =>
    simp only [List.mem_cons, not_or] at h
    have hc : ¬c = '[' := fun he => h.1 he.symm
    rw [parseFrom]
    simp only [hc, if_false, ih h.2]
    rfl

theorem expand_of_no_bracket {text : String} (h : '[' ∉ text.toList) (plurals : Plural.Rules) (locale : String) :
    expand plurals text locale = .ok text := by
  simp [expand, parse, parseFrom_of_no_bracket h]

end Dialogue.Format
