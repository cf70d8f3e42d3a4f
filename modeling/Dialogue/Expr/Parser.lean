import Dialogue.Expr.Token

/-!
# Expressions

An expression is a literal, a variable, or a call of a function with expressions as arguments. Operators are calls too.

When an expression is read, operators bind by seven powers and group to the left; `-` and `not` before an operand bind
tighter than all of them. Each step takes tokens from the front and returns the others with the fact that fewer are
left, which ends the recursion.

* `parse`: the expression that a whole text writes.
-/

namespace Dialogue

/-- **An expression of a script.** -/
inductive Expr where
  | number (x : Float32)
  | string (s : String)
  | bool (b : Bool)
  | null
  | variable (name : String)
  | call (function : String) (arguments : List Expr)
deriving Inhabited

/-! ## Reading -/

/-- **Why tokens are no expression.** -/
inductive ExprCause where
  | scan (fault : ScanFault)
  /-- The tokens end where an operand has to follow. -/
  | noOperand
  /-- A token that starts no operand. -/
  | badOperand (tok : Token)
  | expected (tok : Token) (got : Option Token)
  /-- Neither a comma nor the closing parenthesis follows an argument. -/
  | unclosedCall (got : Option Token)
  /-- A token after the whole expression. -/
  | trailing (tok : Token)
deriving DecidableEq

/-- A cause, and the text in which it arose. -/
structure ExprFault where
  cause : ExprCause
  source : String
deriving DecidableEq

namespace ExprFault

def message (fault : ExprFault) : String :=
  let source := Text.quoted fault.source
  match fault.cause with
  | .scan scanFault => scanFault.message ++ " in " ++ source
  | .noOperand => "expected a value at end of " ++ source
  | .badOperand tok => "unexpected " ++ tok.label ++ " in " ++ source
  | .expected tok got => "expected " ++ tok.label ++ ", got " ++ Token.labelOption got ++ " in " ++ source
  | .unclosedCall got => "expected ',' or ')', got " ++ Token.labelOption got ++ " in " ++ source
  | .trailing tok => "unexpected " ++ tok.label ++ " after expression in " ++ source

end ExprFault

namespace Expr

/-- Something read from the front of `toks`, and the tokens that are left: fewer. -/
abbrev Front (α : Type) (toks : List Token) := { r : α × List Token // r.2.length < toks.length }

/-- Something that may have taken no token. -/
abbrev FrontOrNone (α : Type) (toks : List Token) := { r : α × List Token // r.2.length ≤ toks.length }

/-- How tightly an operator before its operand binds. -/
def unaryPower : Nat := 8

/-- Takes one given token. -/
def expect (tok : Token) : (toks : List Token) → Except ExprCause (Front Unit toks)
  | [] => .error (.expected tok none)
  | t :: rest => if t = tok then .ok ⟨((), rest), by simp⟩ else .error (.expected tok (some t))

mutual

/-- **Reads operands and the operators between them** that bind more tightly than `power`. -/
def readOver (power : Nat) (toks : List Token) : Except ExprCause (Front Expr toks) := do
  let ⟨(left, rest), h⟩ ← readOperand toks
  let ⟨r, h'⟩ ← readOperators power left rest
  return ⟨r, Nat.lt_of_le_of_lt h' h⟩
termination_by 5 * toks.length + 2
decreasing_by
  · omega
  · exact Nat.lt_add_right 2 (Nat.mul_lt_mul_of_pos_left h (by decide))

/-- Goes on after the operand `left`, as long as operators bind more tightly than `power`. -/
def readOperators (power : Nat) (left : Expr) (toks : List Token) : Except ExprCause (FrontOrNone Expr toks) :=
  match toks with
  | [] => .ok ⟨(left, []), by simp⟩
  | tok :: rest =>
    match tok.binary? with
    | none => .ok ⟨(left, tok :: rest), by simp⟩
    | some (level, function) =>
      if level ≤ power then .ok ⟨(left, tok :: rest), by simp⟩
      else do
        let ⟨(right, rest'), h⟩ ← readOver level rest
        let ⟨r, h'⟩ ← readOperators power (.call function [left, right]) rest'
        return ⟨r, by simp only [List.length_cons] at *; omega⟩
termination_by 5 * toks.length
decreasing_by all_goals (simp only [List.length_cons] at *; omega)

/-- **Reads one operand.** -/
def readOperand (toks : List Token) : Except ExprCause (Front Expr toks) :=
  match toks with
  | [] => .error .noOperand
  | tok :: rest =>
    match tok with
    | .number x => .ok ⟨(.number x, rest), by simp⟩
    | .string s => .ok ⟨(.string s, rest), by simp⟩
    | .true => .ok ⟨(.bool true, rest), by simp⟩
    | .false => .ok ⟨(.bool false, rest), by simp⟩
    | .null => .ok ⟨(.null, rest), by simp⟩
    | .variable name => .ok ⟨(.variable name, rest), by simp⟩
    | .minus => do
      let ⟨(operand, rest'), h⟩ ← readOver unaryPower rest
      return ⟨(.call "UnaryMinus" [operand], rest'), by simp only [List.length_cons] at *; omega⟩
    | .not => do
      let ⟨(operand, rest'), h⟩ ← readOver unaryPower rest
      return ⟨(.call "Not" [operand], rest'), by simp only [List.length_cons] at *; omega⟩
    | .leftParen => do
      let ⟨(inner, rest'), h⟩ ← readOver 0 rest
      let ⟨((), rest''), h'⟩ ← expect .rightParen rest'
      return ⟨(inner, rest''), by simp only [List.length_cons] at *; omega⟩
    | .identifier name => do
      let ⟨((), rest'), h⟩ ← expect .leftParen rest
      let ⟨(arguments, rest''), h'⟩ ← readArguments rest'
      return ⟨(.call name arguments, rest''), by simp only [List.length_cons] at *; omega⟩
    | tok => .error (.badOperand tok)
termination_by 5 * toks.length + 1
decreasing_by all_goals (simp only [List.length_cons] at *; omega)

/-- Reads the arguments of a call up to the closing parenthesis. -/
def readArguments (toks : List Token) : Except ExprCause (Front (List Expr) toks) :=
  match toks with
  | .rightParen :: rest => .ok ⟨([], rest), by simp⟩
  | toks => readArgumentList toks
termination_by 5 * toks.length + 4

/-- Reads one argument and those after it. -/
def readArgumentList (toks : List Token) : Except ExprCause (Front (List Expr) toks) := do
  let ⟨(argument, rest), h⟩ ← readOver 0 toks
  match rest, h with
  | .rightParen :: rest', h => return ⟨([argument], rest'), by simp only [List.length_cons] at *; omega⟩
  | .comma :: rest', h => do
    let ⟨(arguments, rest''), h'⟩ ← readArgumentList rest'
    return ⟨(argument :: arguments, rest''), by simp only [List.length_cons] at *; omega⟩
  | other, _ => .error (.unclosedCall other.head?)
termination_by 5 * toks.length + 3
decreasing_by
  · omega
  · simp only [List.length_cons] at *
    omega

end

/-- Reads tokens as one expression. -/
def ofTokens (toks : List Token) : Except ExprCause Expr := do
  let ⟨(expr, rest), _⟩ ← readOver 0 toks
  match rest with
  | [] => return expr
  | tok :: _ => .error (.trailing tok)

/-- The tokens of a text, or the fault with its text. -/
def tokens (cs : List Char) : Except ExprFault (List Token) :=
  (Token.scan cs).mapError fun fault => ⟨.scan fault, .ofList cs⟩

/-- **The expression that a text writes.** -/
def parse (cs : List Char) : Except ExprFault Expr := do
  let toks ← tokens cs
  (ofTokens toks).mapError fun cause => ⟨cause, .ofList cs⟩

end Expr

/-! ## Assignments -/

/-- **Why a text is no assignment.** -/
inductive AssignFault where
  | noVariable (got : Option Token)
  | noTo (got : Option Token)
  | expr (fault : ExprFault)
  | trailing (tok : Token)
deriving DecidableEq

namespace AssignFault

def message : AssignFault → String
  | .noVariable got => "expected a variable, got " ++ Token.labelOption got
  | .noTo got => "expected 'to' or '=', got " ++ Token.labelOption got
  | .expr fault => fault.message
  | .trailing tok => "unexpected " ++ tok.label ++ " after value"

end AssignFault

namespace Expr

/-- **Reads an assignment**: a variable, `to` or `=`, and an expression. -/
def parseAssignment (cs : List Char) : Except AssignFault (String × Expr) := do
  match ← (tokens cs).mapError .expr with
  | .variable name :: rest =>
    let value (toks : List Token) : Except AssignFault (String × Expr) := do
      let ⟨(expr, rest), _⟩ ← (readOver 0 toks).mapError fun cause => .expr ⟨cause, .ofList cs⟩
      match rest with
      | [] => return (name, expr)
      | tok :: _ => .error (.trailing tok)
    match rest with
    | .identifier "to" :: toks | .assign :: toks => value toks
    | other => .error (.noTo other.head?)
  | other => .error (.noVariable other.head?)

end Expr

end Dialogue
