import Dialogue.Session.Fill
import Dialogue.Session.State

/-!
# Running

One instruction after the other is carried out until the host has to do something. A call that fails and a text that
cannot be expanded are reported and run on; only a jump to nowhere and a node that does not exist stop the run.

* `resume_of_not_running`: outside of a run nothing happens.
-/

namespace Dialogue

/-- **How one instruction ends**: the run goes on, or the host is shown something, or there is no way on. -/
abbrev Progress := Except SessionFault (Option Event)

namespace Session

/-! ## The stack -/

/-- Takes the top of the stack; an empty stack has `null` on it. -/
def pop (session : Session) : Value × Session :=
  match session.machine.stack with
  | [] => (.null, session)
  | value :: rest => (value, { session with machine.stack := rest })

/-- Puts a value on the stack. -/
def push (session : Session) (value : Value) : Session :=
  { session with machine.stack := value :: session.machine.stack }

/-- Takes values from the stack and gives them in the order in which they were put there. -/
def popMany (session : Session) (count : Nat) : List Value × Session :=
  let taken := session.machine.stack.take count
  (List.replicate (count - taken.length) .null ++ taken.reverse,
    { session with machine.stack := session.machine.stack.drop count })

/-! ## Texts -/

/-- Fills a template with values from the stack. -/
def fill (session : Session) (text : String) (holes : Nat) : String × Session :=
  let (values, session) := session.popMany holes
  (Fill.fill text (values.map Value.text) session.vars, session)

/-- Fills a template and expands its format functions. Where that fails, the text stays as it is filled. -/
def compose (session : Session) (text : String) (holes : Nat) (line : Nat) : String × Session :=
  let (filled, session) := session.fill text holes
  match Format.expand session.plurals filled session.config.locale with
  | .ok expanded => (expanded, session)
  | .error fault => (filled, session.report ⟨session.location line, .format fault⟩)

/-- The line that a template shows. -/
def composeLine (session : Session) (text : String) (holes : Nat) (tags : List String) (line : Nat) :
    ShownLine × Session :=
  let (text, session) := session.compose text holes line
  (⟨text, tags, session.location line⟩, session)

/-! ## Control -/

/-- Goes on at a label of the node that runs. -/
def jumpTo (session : Session) (label : String) : Session × Progress :=
  match session.program[session.machine.node]?.bind (·.position? label) with
  | some position => ({ session with machine.position := position }, .ok none)
  | none => (session, .error (.script ⟨session.location 0, .unknownLabel label⟩))

/-- Counts the node that runs as completed. -/
def completeNode (session : Session) (next : Option String) : Session × Event :=
  ({ session with visits := session.visits.add session.machine.node }, .nodeComplete session.machine.node next)

/-- Completes the node that runs, with no other after it. -/
def finish (session : Session) : Session × Progress :=
  let (session, event) := session.completeNode none
  ({ session with machine.finished := true }, .ok (some event))

/-- Goes on with another node. -/
def runNode (session : Session) (node : String) : Session × Progress :=
  if session.program.contains node then
    let (session, event) := session.completeNode (some node)
    (session.enter node, .ok (some event))
  else ({ session with machine := {}, status := .complete }, .error (.nodeNotFound node))

/-- The pending options, numbered from 0. -/
def offered (options : List PendingOption) : List OfferedOption :=
  options.zipIdx.map fun (option, id) => ⟨id, option.line, option.destination⟩

/-- **Offers the pending options.** Without any the node is complete; a single one may be taken at once. -/
def showOptions (session : Session) : Session × Progress :=
  match session.machine.options with
  | [] => session.finish
  | [⟨_, destination, true⟩] =>
    (({ session with machine.options := [] } : Session).push (.string destination), .ok none)
  | options => ({ session with status := .awaitingChoice }, .ok (some (.options (offered options))))

/-- **Calls a function.** A call that fails is reported and yields `null`. -/
def callFunction (session : Session) (function : String) (line : Nat) : Session :=
  let (count, session) := session.pop
  let (parameters, session) := session.popMany (Number.toCount count.toNumber)
  let result := match session.library[function]? with
    | some found => found.call session.view parameters
    | none => .error .noFunction
  match result with
  | .ok value => session.push (value.getD .null)
  | .error fault => (session.report ⟨session.location line, .call function fault⟩).push .null

/-- **Carries out one instruction.** -/
def execute (session : Session) : Instruction → Session × Progress
  | .jumpTo label => session.jumpTo label
  | .jump =>
    match session.machine.stack.head? with
    | some (.string label) => session.jumpTo label
    | top => (session, .error (.script ⟨session.location 0, .badJump top⟩))
  | .runLine text holes tags line =>
    let (shown, session) := session.composeLine text holes tags line
    ({ session with status := .awaitingLine }, .ok (some (.line shown)))
  | .runCommand text holes _ =>
    let (command, session) := session.fill text holes
    ({ session with status := .awaitingCommand }, .ok (some (.command command)))
  | .addOption text holes destination tags followAlone line =>
    let (shown, session) := session.composeLine text holes tags line
    ({ session with machine.options := session.machine.options ++ [⟨shown, destination, followAlone⟩] }, .ok none)
  | .showOptions => session.showOptions
  | .pushString s => (session.push (.string s), .ok none)
  | .pushNumber x => (session.push (.number x), .ok none)
  | .pushBool b => (session.push (.bool b), .ok none)
  | .pushNull => (session.push .null, .ok none)
  | .jumpIfFalse label =>
    if session.machine.stack.head?.any Value.isTrue then (session, .ok none) else session.jumpTo label
  | .pop => (session.pop.2, .ok none)
  | .callFunction function line => (session.callFunction function line, .ok none)
  | .pushVariable name => (session.push ((session.vars.get? name).getD .null), .ok none)
  | .storeVariable name =>
    match session.machine.stack with
    | [] => (session, .ok none)
    | value :: _ => ({ session with vars := session.vars.set name value }, .ok none)
  | .stop => session.finish
  | .runNode =>
    let (node, session) := session.pop
    session.runNode node.text

/-- **One step**: the instruction at the current position. Past the last one the node stops. -/
def step (session : Session) : Session × Progress :=
  match session.program[session.machine.node]? with
  | none => (session, .error (.nodeNotFound session.machine.node))
  | some node =>
    let instruction := (node.instruction? session.machine.position).getD .stop
    ({ session with machine.position := session.machine.position + 1 } : Session).execute instruction

/-! ## Runs -/

/-- **How a run ends**: the host is shown something, or there is no way on, or the given number of steps was not
enough. -/
inductive Outcome where
  | event (event : Event)
  | fault (fault : SessionFault)
  | unfinished
deriving DecidableEq

/-- Takes up to `limit` steps. -/
def run (session : Session) : (limit : Nat) → Session × Outcome
  | 0 => (session, .unfinished)
  | limit + 1 =>
    match session.step with
    | (session, .ok none) => session.run limit
    | (session, .ok (some event)) => (session, .event event)
    | (session, .error fault) => (session, .fault fault)

/-- **Runs until the host has to do something**, for up to `limit` steps. -/
def resume (session : Session) (limit : Nat) : Session × Outcome :=
  match session.expect .resume with
  | .error fault => (session, .fault fault)
  | .ok () =>
    if session.machine.finished then
      ({ session with machine := {}, status := .complete }, .event (.dialogueComplete session.machine.node))
    else session.run limit

/-! ## Laws -/

theorem resume_of_not_running {session : Session} (h : session.status ≠ .running) (limit : Nat) :
    session.resume limit = (session, .fault (.invalidState .resume session.status)) := by
  simp [resume, expect, Operation.status, h]

end Session

end Dialogue
