import Dialogue.Body.Template

/-!
# Statements

The script of a node is a list of statements. Each carries the number of the line on which it starts, counted from 1 in
the body.
-/

namespace Dialogue

mutual

/-- **A statement of a script.** -/
inductive Statement where
  | line (number : Nat) (text : Template) (tags : List String)
  | command (number : Nat) (text : Template)
  | set (number : Nat) (name : String) (value : Expr)
  | conditional (clauses : List Clause)
  /-- A way to another node; without a label it is offered under the node's name. -/
  | link (number : Nat) (label : Option Template) (destination : String)
  | options (choices : List Choice)
  | jump (number : Nat) (destination : String)
  | stop

/-- **A branch of a conditional.** The one without a condition is always taken. -/
inductive Clause where
  | mk (number : Nat) (condition : Option Expr) (body : List Statement)

/-- **An option with a body of its own**, offered when its condition holds. -/
inductive Choice where
  | mk (number : Nat) (text : Template) (condition : Option Expr) (tags : List String) (body : List Statement)

end

instance : Inhabited Statement := ⟨.stop⟩

/-! ## Faults of a body -/

/-- **What is reported about a line of a body.** -/
inductive BodyFault where
  /-- A line that goes on with or ends a conditional, outside of any. -/
  | stray (text : String)
  | missingEnd
  | badCondition (fault : ExprFault)
  | template (fault : Template.Fault)
  | noJumpTarget
  | badSet (source : String) (fault : AssignFault)
  | unclosedLink
  | noDestination (inside : String)
  | textAfterLink (text : String)
deriving DecidableEq

namespace BodyFault

def message : BodyFault → String
  | .stray text => text ++ " without a matching <<if>>"
  | .missingEnd => "<<if>> is missing its <<endif>>"
  | .badCondition fault => "bad condition: " ++ fault.message
  | .template fault => fault.message
  | .noJumpTarget => "<<jump>> needs a node name"
  | .badSet source fault => "bad <<set " ++ source ++ ">>: " ++ fault.message
  | .unclosedLink => "option is missing its closing ']]'"
  | .noDestination inside => "option [[" ++ inside ++ "]] has no destination"
  | .textAfterLink text => "ignoring text after option: " ++ Text.quoted text

end BodyFault

/-- A fault and the number of its line. -/
structure Diagnostic where
  line : Nat
  fault : BodyFault
deriving DecidableEq

end Dialogue
