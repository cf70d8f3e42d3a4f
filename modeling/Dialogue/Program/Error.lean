import Dialogue.Body.Statement
import Dialogue.Format.Expand
import Dialogue.Library.Basic

/-!
# Script errors

A script error names a place and a cause. Most of them are only reported and the dialogue goes on; a jump that cannot be
made stops it.
-/

namespace Dialogue

/-- **A place in a script.** Lines are counted from 1 in the body; errors about a whole node are at line 0. -/
structure Location where
  file : Option String
  node : String
  line : Nat
deriving DecidableEq, Repr

namespace Location

def text (location : Location) : String :=
  (match location.file with
    | some file => file ++ ":"
    | none => "") ++ location.node ++ ":" ++ Text.showNat location.line

end Location

/-- **Causes of script errors.** -/
inductive ScriptFault where
  | body (fault : BodyFault)
  | duplicateTitle
  | format (fault : Format.Fault)
  | call (function : String) (fault : CallFault)
  | unknownLabel (label : String)
  /-- The top of the stack names no label to jump to. -/
  | badJump (top : Option Value)
deriving DecidableEq

namespace ScriptFault

/-- How messages show a value on the stack. -/
def showTop : Option Value → String
  | none => "None"
  | some (.string s) => "Some(Str(" ++ Text.quoted s ++ "))"
  | some (.bool b) => "Some(Bool(" ++ (if b then "true" else "false") ++ "))"
  | some (.number x) => "Some(Number(" ++ Number.literalText x ++ "))"
  | some .null => "Some(Null)"

def message : ScriptFault → String
  | .body fault => fault.message
  | .duplicateTitle => "duplicate node title, keeping the last one"
  | .format fault => fault.message
  | .call function fault => function ++ ": " ++ fault.message
  | .unknownLabel label => "unknown label " ++ label
  | .badJump top => "cannot jump to " ++ showTop top

end ScriptFault

/-- **An error in a script.** -/
structure ScriptError where
  location : Location
  fault : ScriptFault
deriving DecidableEq

namespace ScriptError

def message (error : ScriptError) : String := error.fault.message

/-- The place and the message. -/
def text (error : ScriptError) : String :=
  error.location.text ++ ": " ++ error.message

end ScriptError

end Dialogue
