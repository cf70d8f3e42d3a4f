import Dialogue.Session.View

/-!
# Libraries

A library holds the functions that scripts may call, by name. A function is given what can be read off the session and
its parameters; it yields a value, or nothing, or fails.

* `call_of_arity`: a call with the wrong number of parameters never reaches the function.
-/

namespace Dialogue

/-- **Why a call fails.** -/
inductive CallFault where
  | noFunction
  | arity (expected received : Nat)
  /-- An operator that is not defined for values of these kinds. -/
  | operands (function : String) (kinds : List Kind)
  /-- The function's own words. -/
  | failed (text : String)
deriving DecidableEq, Repr

namespace CallFault

def message : CallFault → String
  | .noFunction => "no such function"
  | .arity expected received =>
    "expected " ++ Text.showNat expected ++ " parameters, but received " ++ Text.showNat received
  | .operands function kinds =>
    function ++ " cannot be applied to (" ++ ", ".intercalate (kinds.map Kind.name) ++ ")"
  | .failed text => text

end CallFault

/-- **A function that scripts may call.** -/
structure HostFunction where
  /-- The number of its parameters; without one it takes any number. -/
  arity : Option Nat
  body : View → List Value → Except CallFault (Option Value)

namespace HostFunction

/-- **Calls a function**, if the number of parameters is right. -/
def call (function : HostFunction) (view : View) (parameters : List Value) : Except CallFault (Option Value) :=
  match function.arity with
  | none => function.body view parameters
  | some n =>
    if n = parameters.length then function.body view parameters else .error (.arity n parameters.length)

theorem call_of_arity {function : HostFunction} {n : Nat} (h : function.arity = some n) (view : View)
    {parameters : List Value} (hn : n ≠ parameters.length) :
    function.call view parameters = .error (.arity n parameters.length) := by
  simp [call, h, hn]

/-- A function of two values that may not be defined for them. -/
def binary (name : String) (op : Value → Value → Option Value) : HostFunction where
  arity := some 2
  body _ parameters :=
    match parameters with
    | [a, b] =>
      match op a b with
      | some value => .ok (some value)
      | none => .error (.operands name (parameters.map Value.kind))
    | _ => .error (.arity 2 parameters.length)

/-- A condition on two values. -/
def condition (op : Value → Value → Bool) : HostFunction where
  arity := some 2
  body _ parameters :=
    match parameters with
    | [a, b] => .ok (some (.bool (op a b)))
    | _ => .error (.arity 2 parameters.length)

/-- A function of one value and what the session shows. -/
def unary (op : View → Value → Value) : HostFunction where
  arity := some 1
  body view parameters :=
    match parameters with
    | [a] => .ok (some (op view a))
    | _ => .error (.arity 1 parameters.length)

end HostFunction

/-- **The functions that scripts may call**, by name. -/
abbrev Library := Std.TreeMap String HostFunction

end Dialogue
