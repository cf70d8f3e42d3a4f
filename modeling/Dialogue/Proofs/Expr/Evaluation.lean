import Mathlib
import Dialogue.Proofs.Number.Count
import Dialogue.Session.Step

/-!
# The value of an expression

An expression has a value in what can be read off a session, and its calls may report errors; arguments are evaluated
from left to right. Its code works on a stack, where a call takes as many operands as its number of arguments says, and
that number has gone through single precision. Up to `2 ^ 24` arguments nothing is lost on the way, and the stack
receives exactly the value (`operate_of_isSmall`).
-/

namespace Dialogue

/-- What a call yields, and what is reported about it: a call that fails yields `null`. -/
def Library.apply (library : Library) (view : View) (place : Location) (function : String) (parameters : List Value) :
    Value × List ScriptError :=
  match library[function]? with
  | none => (.null, [⟨place, .call function .noFunction⟩])
  | some found =>
    match found.call view parameters with
    | .ok value => (value.getD .null, [])
    | .error fault => (.null, [⟨place, .call function fault⟩])

/-- The last values of a stack in the order in which they were put there, and the stack without them; `null` stands for
those that are missing. -/
def operands (count : Nat) (stack : List Value) : List Value × List Value :=
  (List.replicate (count - (stack.take count).length) .null ++ (stack.take count).reverse, stack.drop count)

theorem operands_reverse_append (values stack : List Value) :
    operands values.length (values.reverse ++ stack) = (values, stack) := by
  have h : values.length = values.reverse.length := List.length_reverse.symm
  rw [operands, h, List.take_left, List.drop_left, List.reverse_reverse, Nat.sub_self]
  rfl

namespace Expr

section Evaluation

variable (library : Library) (view : View) (place : Location)

mutual

/-- **The value of an expression**, and what its calls report. -/
def eval : Expr → Value × List ScriptError
  | .number x => (.number x, [])
  | .string s => (.string s, [])
  | .bool b => (.bool b, [])
  | .null => (.null, [])
  | .variable name => ((view.vars.get? name).getD .null, [])
  | .call function arguments =>
    let (parameters, errors) := evalAll arguments
    let (value, found) := library.apply view place function parameters
    (value, errors ++ found)

/-- The values of expressions, from left to right. -/
def evalAll : List Expr → List Value × List ScriptError
  | [] => ([], [])
  | e :: rest =>
    let (value, errors) := eval e
    let (values, found) := evalAll rest
    (value :: values, errors ++ found)

end

mutual

/-- **What the code of an expression makes of a stack**, and what is reported meanwhile. -/
def operate : Expr → List Value → List Value × List ScriptError
  | .number x, stack => (.number x :: stack, [])
  | .string s, stack => (.string s :: stack, [])
  | .bool b, stack => (.bool b :: stack, [])
  | .null, stack => (.null :: stack, [])
  | .variable name, stack => ((view.vars.get? name).getD .null :: stack, [])
  | .call function arguments, stack =>
    let (stack, errors) := operateAll arguments stack
    let (parameters, stack) := operands (Number.toCount (Number.ofNat arguments.length)) stack
    let (value, found) := library.apply view place function parameters
    (value :: stack, errors ++ found)

/-- What the code of expressions makes of a stack. -/
def operateAll : List Expr → List Value → List Value × List ScriptError
  | [], stack => (stack, [])
  | e :: rest, stack =>
    let (stack, errors) := operate e stack
    let (stack, found) := operateAll rest stack
    (stack, errors ++ found)

end

end Evaluation

mutual

/-- **No call in the expression has more than `2 ^ 24` arguments.** -/
def isSmall : Expr → Bool
  | .call _ arguments => decide (arguments.length ≤ 16777216) && areSmall arguments
  | _ => true

def areSmall : List Expr → Bool
  | [] => true
  | e :: rest => isSmall e && areSmall rest

end

variable {library : Library} {view : View} {place : Location}

theorem areSmall_of_forall {es : List Expr} (h : ∀ e ∈ es, isSmall e = true) : areSmall es = true := by
  induction es with
  | nil => rfl
  | cons e rest ih =>
    obtain ⟨he, hrest⟩ := List.forall_mem_cons.1 h
    rw [areSmall, he, ih hrest, Bool.and_self]

theorem length_evalAll (es : List Expr) : (evalAll library view place es).1.length = es.length := by
  induction es with
  | nil => rfl
  | cons e rest ih => exact congrArg (· + 1) ih

/-- An expression leaves a value on the stack. -/
theorem exists_operate_eq_cons (e : Expr) (stack : List Value) :
    ∃ value rest, (operate library view place e stack).1 = value :: rest := by
  cases e <;> exact ⟨_, _, rfl⟩

theorem operateAll_ne_nil : ∀ (e : Expr) (rest : List Expr) (stack : List Value),
    (operateAll library view place (e :: rest) stack).1 ≠ []
  | e, [], stack => by
    obtain ⟨value, left, h⟩ : ∃ value left, (operate library view place e stack).1 = value :: left :=
      exists_operate_eq_cons e stack
    simp [operateAll, h]
  | e, e' :: rest, stack => operateAll_ne_nil e' rest (operate library view place e stack).1

mutual

/-- **The stack receives the value of a small expression**, and nothing else happens to it. -/
theorem operate_of_isSmall : ∀ (e : Expr) (stack : List Value), isSmall e = true → operate library view place e stack =
    ((eval library view place e).1 :: stack, (eval library view place e).2)
  | .number _, _, _ | .string _, _, _ | .bool _, _, _ | .null, _, _ | .variable _, _, _ => rfl
  | .call function arguments, stack, h => by
    rw [isSmall, Bool.and_eq_true, decide_eq_true_eq] at h
    have hcount : Number.toCount (Number.ofNat arguments.length) = (evalAll library view place arguments).1.length := by
      rw [Number.toCount_ofNat h.1, length_evalAll]
    simp only [operate, eval, operateAll_of_areSmall arguments stack h.2, hcount, operands_reverse_append]

theorem operateAll_of_areSmall : ∀ (es : List Expr) (stack : List Value), areSmall es = true →
    operateAll library view place es stack =
      ((evalAll library view place es).1.reverse ++ stack, (evalAll library view place es).2)
  | [], _, _ => rfl
  | e :: rest, stack, h => by
    rw [areSmall, Bool.and_eq_true] at h
    simp only [operateAll, evalAll, operate_of_isSmall e stack h.1, operateAll_of_areSmall rest _ h.2,
      List.reverse_cons, List.append_assoc, List.singleton_append]

end

end Expr

end Dialogue
