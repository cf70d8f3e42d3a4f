import Dialogue.Library.Standard
import Dialogue.Plural.Basic
import Dialogue.Program.Compile

/-!
# Sessions

A session plays a dialogue for a host. It never goes on by itself: every line, command and list of options that it shows
has to be answered first.

* `Session.view_node`: a node is shown as current exactly while the dialogue is neither idle nor complete.
-/

namespace Dialogue

/-- **A line of dialogue** as the player sees it. -/
structure ShownLine where
  text : String
  tags : List String
  location : Location
deriving DecidableEq

/-- An option that is to be offered. -/
structure PendingOption where
  line : ShownLine
  /-- A node for a link, a label for an option with a body. -/
  destination : String
  followAlone : Bool
deriving DecidableEq

/-- **An option that is offered**, under its number. -/
structure OfferedOption where
  id : Nat
  line : ShownLine
  destination : String
deriving DecidableEq

/-- **What a session shows to its host.** -/
inductive Event where
  | line (line : ShownLine)
  | options (options : List OfferedOption)
  | command (text : String)
  /-- A node is complete; the next one, if any, runs already. -/
  | nodeComplete (node : String) (next : Option String)
  /-- Nothing is left to run; `node` was the last one. -/
  | dialogueComplete (node : String)
deriving DecidableEq

/-- **What a host may ask of a session** in one status only. -/
inductive Operation where
  | resume
  | acknowledgeLine
  | acknowledgeCommand
  | chooseOption
deriving DecidableEq, Repr

namespace Operation

def name : Operation → String
  | .resume => "continue the dialogue"
  | .acknowledgeLine => "acknowledge a line"
  | .acknowledgeCommand => "acknowledge a command"
  | .chooseOption => "choose an option"

/-- The status in which the operation is allowed. -/
def status : Operation → Status
  | .resume => .running
  | .acknowledgeLine => .awaitingLine
  | .acknowledgeCommand => .awaitingCommand
  | .chooseOption => .awaitingChoice

end Operation

/-- **Why a session cannot do what it is asked.** -/
inductive SessionFault where
  | nodeNotFound (node : String)
  | invalidOption (index count : Nat)
  | invalidState (operation : Operation) (status : Status)
  | script (error : ScriptError)
  /-- A body of the dialogue cannot be read. -/
  | tags (fault : TagFault)
deriving DecidableEq

namespace SessionFault

/-- The wording of a fault; a body that cannot be read has none. -/
def message? : SessionFault → Option String
  | .nodeNotFound node => some ("no node named " ++ Text.quoted node ++ " has been loaded")
  | .invalidOption index count => some
      (Text.showNat index ++ " is not a valid option (expected a number below " ++ Text.showNat count ++ ")")
  | .invalidState operation status => some
      ("cannot " ++ operation.name ++ " while the dialogue is " ++ status.name)
  | .script error => some ("script error at " ++ error.text)
  | .tags _ => none

end SessionFault

/-- **Where a node runs.** -/
structure Machine where
  node : String := ""
  position : Nat := 0
  options : List PendingOption := []
  /-- The values in use, the last one first. -/
  stack : List Value := []
  /-- The last node is complete; the next step ends the dialogue. -/
  finished : Bool := false
deriving DecidableEq

/-- **A session.** -/
structure Session where
  plurals : Plural.Rules
  config : Config := {}
  program : Program := ∅
  machine : Machine := {}
  status : Status := .idle
  visits : Visits := ∅
  vars : Variables := ∅
  library : Library := Library.standard
  /-- The script errors reported so far, the first one first. -/
  reported : List ScriptError := []

namespace Session

/-- A session that has not started. -/
def new (plurals : Plural.Rules) (config : Config) : Session where
  plurals := plurals
  config := config

/-- The node that runs, while one does. -/
def currentNode (session : Session) : Option String :=
  match session.status with
  | .idle | .complete => none
  | _ => some session.machine.node

/-- **What can be read off a session.** -/
def view (session : Session) : View where
  config := session.config
  status := session.status
  node := session.currentNode
  visits := session.visits
  vars := session.vars

/-- A place in the node that runs. -/
def location (session : Session) (line : Nat) : Location :=
  ⟨session.config.file, session.machine.node, line⟩

/-- Reports a script error. -/
def report (session : Session) (error : ScriptError) : Session :=
  { session with reported := session.reported ++ [error] }

/-- Fails unless the operation is allowed now. -/
def expect (session : Session) (operation : Operation) : Except SessionFault Unit :=
  if session.status = operation.status then .ok () else .error (.invalidState operation session.status)

/-- Gets ready to run a node. -/
def enter (session : Session) (node : String) : Session :=
  { session with machine := { node := node } }

/-! ## What a host does -/

/-- **Compiles nodes and gets ready to run one of them.** A session that fails to start stays as it was. -/
def start (session : Session) (node : String) (nodes : List Node) : Except SessionFault Session :=
  if nodes.any (·.title = node) then
    match Program.compile nodes session.config.file with
    | .error fault => .error (.tags fault)
    | .ok (program, errors) => .ok
        { session.enter node with
          program := program
          reported := session.reported ++ errors
          vars := if session.config.resetVariables then ∅ else session.vars
          visits := ∅
          status := .running }
  else .error (.nodeNotFound node)

/-- **Gives the dialogue up.** -/
def stop (session : Session) : Session :=
  { session with machine := {}, status := .idle }

/-- Goes on after a line. -/
def acknowledgeLine (session : Session) : Except SessionFault Session := do
  session.expect .acknowledgeLine
  return { session with status := .running }

/-- Goes on after a command. -/
def acknowledgeCommand (session : Session) : Except SessionFault Session := do
  session.expect .acknowledgeCommand
  return { session with status := .running }

/-- **Takes an option**: its destination is pushed, and no option is left. -/
def choose (session : Session) (index : Nat) : Except SessionFault Session := do
  session.expect .chooseOption
  match session.machine.options[index]? with
  | none => .error (.invalidOption index session.machine.options.length)
  | some option => return { session with
      status := .running
      machine := { session.machine with
        stack := .string option.destination :: session.machine.stack
        options := [] } }

/-! ## Laws -/

theorem view_node (session : Session) :
    session.view.node = none ↔ session.status = .idle ∨ session.status = .complete := by
  simp only [view, currentNode]
  cases session.status <;> simp

end Session

end Dialogue
