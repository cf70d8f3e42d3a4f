import Mathlib
import Dialogue.Expr.Parser

/-!
# The grammar of expressions

Expressions have eight levels (`Expr.Derives`). Each of the first seven belongs to some operators, from the loosest to
the tightest, and an operator takes what its own level derives on its left and what the next level derives on its right;
so operators of one level group to the left. The eighth level is that of operands. The operators that the reader knows are
those of the grammar (`Token.binary?_eq_some_iff`), and every level derives what the tighter ones derive
(`Expr.Derives.loosen`).
-/

namespace Dialogue

/-! ## The grammar -/

/-- **The operators between two operands**: the level of each, from the loosest to the tightest, and the function that it
calls. -/
inductive Operator : Nat → Token → String → Prop
  | or : Operator 1 .or "Or"
  | xor : Operator 2 .xor "Xor"
  | and : Operator 3 .and "And"
  | equalTo : Operator 4 .equalTo "EqualTo"
  | notEqualTo : Operator 4 .notEqualTo "NotEqualTo"
  | greaterThan : Operator 5 .greaterThan "GreaterThan"
  | greaterThanOrEqualTo : Operator 5 .greaterThanOrEqualTo "GreaterThanOrEqualTo"
  | lessThan : Operator 5 .lessThan "LessThan"
  | lessThanOrEqualTo : Operator 5 .lessThanOrEqualTo "LessThanOrEqualTo"
  | plus : Operator 6 .plus "Add"
  | minus : Operator 6 .minus "Minus"
  | star : Operator 7 .star "Multiply"
  | slash : Operator 7 .slash "Divide"
  | percent : Operator 7 .percent "Modulo"

/-- The operators before one operand, and the functions that they call. -/
inductive SignOperator : Token → String → Prop
  | minus : SignOperator .minus "UnaryMinus"
  | not : SignOperator .not "Not"

/-- The tokens that are operands by themselves. -/
inductive Atom : Token → Expr → Prop
  | number (x : Float32) : Atom (.number x) (.number x)
  | string (s : String) : Atom (.string s) (.string s)
  | true : Atom .true (.bool true)
  | false : Atom .false (.bool false)
  | null : Atom .null .null
  | variable (name : String) : Atom (.variable name) (.variable name)

namespace Expr

/-- **What the grammar derives at a level.** Levels 1 to 7 are those of the operators, which group to the left; level 8
is that of operands. -/
inductive Derives : Nat → List Token → Expr → Prop
  | tighter {level : Nat} {toks : List Token} {e : Expr} (hlevel : level < 8) (h : Derives (level + 1) toks e) :
      Derives level toks e
  | binary {level : Nat} {tok : Token} {function : String} {left right : List Token} {a b : Expr}
      (hop : Operator level tok function) (ha : Derives level left a) (hb : Derives (level + 1) right b) :
      Derives level (left ++ tok :: right) (.call function [a, b])
  | sign {tok : Token} {function : String} {toks : List Token} {e : Expr} (hop : SignOperator tok function)
      (h : Derives 8 toks e) : Derives 8 (tok :: toks) (.call function [e])
  | atom {tok : Token} {e : Expr} (h : Atom tok e) : Derives 8 [tok] e
  | parentheses {toks : List Token} {e : Expr} (h : Derives 1 toks e) :
      Derives 8 (.leftParen :: (toks ++ [.rightParen])) e
  | call (name : String) {arguments : List (List Token × Expr)} (h : ∀ a ∈ arguments, Derives 1 a.1 a.2) :
      Derives 8 (.identifier name :: .leftParen :: ([.comma].intercalate (arguments.map Prod.fst) ++ [.rightParen]))
        (.call name (arguments.map Prod.snd))

end Expr

/-! ## Operators -/

namespace Token

theorem binary?_eq_some_iff {tok : Token} {level : Nat} {function : String} :
    tok.binary? = some (level, function) ↔ Operator level tok function := by
  constructor
  · intro h
    cases tok <;> cases h <;> constructor
  · intro h
    cases h <;> rfl

end Token

theorem Operator.level_le {level : Nat} {tok : Token} {function : String} (h : Operator level tok function) :
    level ≤ 7 := by
  cases h <;> decide

namespace Expr

/-- The operator that these tokens start with, if any, binds no more tightly than `power`. -/
def Held (power : Nat) (toks : List Token) : Prop :=
  ∀ {level : Nat} {tok : Token} {function : String} {rest : List Token}, toks = tok :: rest →
    Operator level tok function → level ≤ power

/-- An operator is held by its own level. -/
theorem held_cons {level : Nat} {tok : Token} {function : String} (hop : Operator level tok function)
    (rest : List Token) : Held level (tok :: rest) := by
  intro level' tok' function' rest' ht hop'
  cases ht
  have h := (Token.binary?_eq_some_iff.2 hop).symm.trans (Token.binary?_eq_some_iff.2 hop')
  simp only [Option.some.injEq, Prod.mk.injEq] at h
  exact Nat.le_of_eq h.1.symm

theorem Held.mono {p q : Nat} {toks : List Token} (h : Held p toks) (hpq : p ≤ q) : Held q toks :=
  fun ht hop => (h ht hop).trans hpq

theorem held_unary (toks : List Token) : Held 8 toks :=
  fun _ hop => hop.level_le.trans (by decide)

theorem held_nil (power : Nat) : Held power [] := by
  intro level tok function rest ht
  cases ht

theorem held_cons_of_not_operator {power : Nat} {tok : Token} {rest : List Token} (h : tok.binary? = none) :
    Held power (tok :: rest) := by
  intro level tok' function rest' ht hop
  cases ht
  rw [Token.binary?_eq_some_iff.2 hop] at h
  cases h

theorem exists_operator_of_not_held {power : Nat} {toks : List Token} (h : ¬ Held power toks) :
    ∃ level tok function rest, toks = tok :: rest ∧ Operator level tok function ∧ power < level := by
  by_contra hne
  refine h fun {level tok function rest} ht hop => ?_
  by_contra hlt
  exact hne ⟨level, tok, function, rest, ht, hop, Nat.lt_of_not_le hlt⟩

/-! ## Derivations -/

/-- What is derived at a level is derived at every looser one. -/
theorem Derives.loosen {level level' : Nat} {toks : List Token} {e : Expr} (h : Derives level' toks e)
    (hle : level ≤ level') (hle' : level' ≤ 8) : Derives level toks e := by
  induction level', hle using Nat.le_induction with
  | base => exact h
  | succ n hn ih => exact ih (.tighter (by omega) h) (by omega)

/-- What the grammar derives starts with a token, and not with a closing parenthesis. -/
theorem Derives.head_ne {level : Nat} {toks : List Token} {e : Expr} (h : Derives level toks e) (rest : List Token) :
    (toks ++ rest).head? ≠ some .rightParen := by
  induction h generalizing rest with
  | tighter _ _ ih => exact ih rest
  | binary _ _ _ ih _ =>
    rw [List.append_assoc]
    exact ih _
  | sign hop _ _ => cases hop <;> simp
  | atom h => cases h <;> simp
  | parentheses _ _ => simp
  | call _ _ _ => simp

end Expr

end Dialogue
