import Mathlib
import Dialogue.External.PluralRules
import Dialogue.Proofs.Session.Silent

/-!
# Running the code of an expression

Wherever the code of an expression stands and whatever lies on the stack, running it leaves the value of the expression
on top of that stack and reports the calls that fail; nothing else about the session changes (`run_expr`).

* `eval_snd`: what an expression reports are its calls that fail, in the order in which they are made.
-/

namespace Dialogue

/-- **A call that a script makes**: the name of a function, and the values of the arguments in their order. -/
structure Call where
  function : String
  parameters : List Value

namespace Call

/-- **Why the call fails**, if it does. -/
def fault? (call : Call) (library : Library) (view : View) : Option CallFault :=
  match library[call.function]? with
  | none => some .noFunction
  | some found =>
    match found.call view call.parameters with
    | .ok _ => none
    | .error fault => some fault

/-- What is reported about the call. -/
def report? (call : Call) (library : Library) (view : View) (place : Location) : Option ScriptError :=
  (call.fault? library view).map fun fault => ⟨place, .call call.function fault⟩

theorem apply_snd (library : Library) (view : View) (place : Location) (call : Call) :
    (library.apply view place call.function call.parameters).2 = (call.report? library view place).toList := by
  rw [Library.apply, report?, fault?]
  cases library[call.function]? with
  | none => rfl
  | some found =>
    dsimp only
    cases found.call view call.parameters <;> rfl

end Call

namespace Expr

section Calls

variable (library : Library) (view : View) (place : Location)

mutual

/-- **The calls of an expression in the order in which they are made**: those of the arguments from left to right, then
the call itself. -/
def calls : Expr → List Call
  | .call function arguments => callsAll arguments ++ [⟨function, (evalAll library view place arguments).1⟩]
  | _ => []

/-- The calls of expressions, from left to right. -/
def callsAll : List Expr → List Call
  | [] => []
  | e :: rest => calls e ++ callsAll rest

end

mutual

/-- **An expression reports its calls that fail**, each one once and in the order in which they are made. -/
theorem eval_snd : ∀ e : Expr, (eval library view place e).2 =
    (calls library view place e).filterMap fun call => call.report? library view place
  | .number _ | .string _ | .bool _ | .null | .variable _ => rfl
  | .call function arguments => by
    have happly := Call.apply_snd library view place ⟨function, (evalAll library view place arguments).1⟩
    simp only [eval, calls, evalAll_snd arguments, List.filterMap_append, List.filterMap_cons, List.filterMap_nil]
    rw [happly]
    cases Call.report? _ library view place <;> rfl

theorem evalAll_snd : ∀ es : List Expr, (evalAll library view place es).2 =
    (callsAll library view place es).filterMap fun call => call.report? library view place
  | [] => rfl
  | e :: rest => by
    simp only [evalAll, callsAll, eval_snd e, evalAll_snd rest, List.filterMap_append]

end

end Calls

end Expr

namespace Session

/-- **Running the code of an expression evaluates it.** The code may stand anywhere in the node that runs and anything
may lie on the stack. The host sees nothing of it; the run ends right behind the code with the value of the expression
pushed, and with a report for each call that fails, in the order of the calls and with the line of the statement. -/
theorem run_expr {s : Session} {node : CompiledNode} {before after : List Instruction} {line : Nat} {e : Expr}
    (hnode : s.program[s.machine.node]? = some node)
    (hcode : node.code.instructions = before ++ Code.expr line e ++ after)
    (hposition : s.machine.position = before.length) (hsmall : e.isSmall = true) :
    s.run (Code.expr line e).length =
      ({ s with
          machine := { s.machine with
            position := (before ++ Code.expr line e).length
            stack := (e.eval s.library s.view (s.location line)).1 :: s.machine.stack }
          reported := s.reported ++ (e.calls s.library s.view (s.location line)).filterMap fun call =>
            call.report? s.library s.view (s.location line) },
        .unfinished) := by
  have hr : s.Runs node.code := by rw [Runs, hnode]; rfl
  have ha : Code.At node.code s.machine.position (.ofList (Code.expr line e)) :=
    hposition ▸ Code.at_ofList_of_eq_append hcode
  have h : s.run (Code.expr line e).length = _ := becomes_expr line e hr ha
  rw [h, Expr.operate_of_isSmall e _ hsmall, Expr.eval_snd, advance, hposition, List.length_append]

/-- An unknown function, a number of parameters that is wrong, and a call of both that succeeds. -/
def sumOfFailures : Expr :=
  .call "Add" [.call "unknown" [.variable "$x", .number 2], .call "visited" [.string "A", .bool true]]

/-- A session in front of a sum, with a value on the stack and an option pending. -/
def beforeSum : Session where
  plurals := External.pluralRules
  program := (∅ : Program).insert "A" ⟨"A", .ofList ([.pushNull] ++ Code.expr 7 sumOfFailures ++ [.stop]), []⟩
  machine :=
    { node := "A", position := 1, options := [⟨⟨"take", [], ⟨none, "A", 2⟩⟩, "B", false⟩], stack := [.bool true] }
  status := .running

theorem run_expr_sumOfFailures :
    (Code.expr 7 sumOfFailures).length = 10 ∧
    beforeSum.run 10 =
      ({ beforeSum with
          machine := { beforeSum.machine with position := 11, stack := [.number 0, .bool true] }
          reported :=
            [⟨⟨none, "A", 7⟩, .call "unknown" .noFunction⟩, ⟨⟨none, "A", 7⟩, .call "visited" (.arity 1 2)⟩] },
        .unfinished) := by
  have hvalue : (sumOfFailures.eval beforeSum.library beforeSum.view (beforeSum.location 7)).1 = .number 0 := by
    decide +kernel
  have hreports : (sumOfFailures.calls beforeSum.library beforeSum.view (beforeSum.location 7)).filterMap
      (fun call => call.report? beforeSum.library beforeSum.view (beforeSum.location 7)) =
        [⟨⟨none, "A", 7⟩, .call "unknown" .noFunction⟩, ⟨⟨none, "A", 7⟩, .call "visited" (.arity 1 2)⟩] := by
    decide +kernel
  have hcode : (Code.ofList ([.pushNull] ++ Code.expr 7 sumOfFailures ++ [.stop])).instructions =
      [.pushNull] ++ Code.expr 7 sumOfFailures ++ [.stop] := rfl
  have h := run_expr (s := beforeSum) Std.TreeMap.getElem?_insert_self hcode rfl (by decide)
  rw [hvalue, hreports] at h
  exact ⟨rfl, h⟩

end Session

end Dialogue
