import Mathlib
import Dialogue.Proofs.Session.Host

/-!
# Requests

All that may happen to a session from outside: its host starts a dialogue or gives it up, makes a call, or changes the
functions that scripts may use. Between two starts a dialogue runs on as long as no start succeeds and it is not given up
(`Session.goesOn`).
-/

namespace Dialogue

/-- **What may be asked of a session.** -/
inductive Request where
  | start (title : String) (nodes : List Node)
  | stop
  | call (call : HostCall)
  /-- Between the calls a host may change the functions in any way. -/
  | relink (change : Library → Library)

/-- What a host asks for with a call, if that is allowed in one status only. -/
def HostCall.operation? : HostCall → Option Operation
  | .resume => some .resume
  | .acknowledgeLine => some .acknowledgeLine
  | .acknowledgeCommand => some .acknowledgeCommand
  | .choose _ => some .chooseOption
  | .edit _ => none

/-- **One request** and its answer, between the sessions before and after it. -/
structure Exchange where
  before : Session
  request : Request
  answer : Answer
  after : Session

namespace Session

/-- **The session after a request, and the answer.** A run may take up to `limit` steps. -/
def request (limit : Nat) (session : Session) : Request → Session × Answer
  | .start title nodes => session.settle (session.start title nodes)
  | .stop => (session.stop, .accepted)
  | .call call => session.call limit call
  | .relink change => ({ session with library := change session.library }, .accepted)

/-- The request ends the dialogue: another one starts, or it is given up. -/
def endsAt (session : Session) : Request → Bool
  | .start title nodes => (session.start title nodes).toOption.isSome
  | .stop => true
  | .call _ | .relink _ => false

/-- **None of the requests ends the dialogue.** -/
def goesOn (limit : Nat) : Session → List Request → Bool
  | _, [] => true
  | session, request :: rest => !session.endsAt request && goesOn limit (session.request limit request).1 rest

/-- **Request by request what happens.** -/
def exchanges (limit : Nat) : Session → List Request → List Exchange
  | _, [] => []
  | session, request :: rest =>
    ⟨session, request, (session.request limit request).2, (session.request limit request).1⟩ ::
      exchanges limit (session.request limit request).1 rest

theorem request_of_mem_exchanges {limit : Nat} {session : Session} {requests : List Request} {x : Exchange}
    (h : x ∈ session.exchanges limit requests) : x.before.request limit x.request = (x.after, x.answer) := by
  induction requests generalizing session with
  | nil => exact absurd h List.not_mem_nil
  | cons request rest ih =>
    rcases List.mem_cons.1 h with rfl | h
    · rfl
    · exact ih h

/-- A start that fails changes nothing. -/
theorem request_start_of_not_endsAt (limit : Nat) {session : Session} {title : String} {nodes : List Node}
    (h : session.endsAt (.start title nodes) = false) :
    ∃ fault, session.request limit (.start title nodes) = (session, .refused fault) := by
  cases hstart : session.start title nodes with
  | ok started =>
    rw [endsAt, hstart] at h
    cases h
  | error fault =>
    refine ⟨fault, ?_⟩
    rw [request, hstart]
    rfl

/-- **What is not allowed now is refused and changes nothing.** -/
theorem call_of_not_allowed {limit : Nat} {session : Session} {call : HostCall} {operation : Operation}
    (hcall : call.operation? = some operation) (h : session.status ≠ operation.status) :
    session.call limit call = (session, .refused (.invalidState operation session.status)) := by
  have hexpect : session.expect operation = .error (.invalidState operation session.status) := by
    rw [expect, if_neg h]
  cases call with
  | resume =>
    cases hcall
    rw [Session.call, resume, hexpect]
    rfl
  | acknowledgeLine =>
    cases hcall
    rw [Session.call, acknowledgeLine, hexpect]
    rfl
  | acknowledgeCommand =>
    cases hcall
    rw [Session.call, acknowledgeCommand, hexpect]
    rfl
  | choose index =>
    cases hcall
    rw [Session.call, choose, hexpect]
    rfl
  | edit change => cases hcall

section Allowed

variable {limit : Nat} {session : Session}

theorem call_acknowledgeLine (h : session.status = .awaitingLine) :
    session.call limit .acknowledgeLine = ({ session with status := .running }, .accepted) := by
  have hexpect : session.expect .acknowledgeLine = .ok () := if_pos h
  rw [Session.call, acknowledgeLine, hexpect]
  rfl

theorem call_acknowledgeCommand (h : session.status = .awaitingCommand) :
    session.call limit .acknowledgeCommand = ({ session with status := .running }, .accepted) := by
  have hexpect : session.expect .acknowledgeCommand = .ok () := if_pos h
  rw [Session.call, acknowledgeCommand, hexpect]
  rfl

/-- An option that is pending is taken. -/
theorem call_choose {index : Nat} {option : PendingOption} (h : session.status = .awaitingChoice)
    (ho : session.machine.options[index]? = some option) : session.call limit (.choose index) = ({ session with
      status := .running
      machine := { session.machine with
        stack := .string option.destination :: session.machine.stack
        options := [] } }, .accepted) := by
  have hexpect : session.expect .chooseOption = .ok () := if_pos h
  simp only [Session.call, choose, hexpect, ho, bind, Except.bind]
  rfl

/-- No pending option has that number. -/
theorem call_choose_none {index : Nat} (h : session.status = .awaitingChoice)
    (ho : session.machine.options[index]? = none) : session.call limit (.choose index) =
      (session, .refused (.invalidOption index session.machine.options.length)) := by
  have hexpect : session.expect .chooseOption = .ok () := if_pos h
  simp only [Session.call, choose, hexpect, ho, bind, Except.bind]
  rfl

end Allowed

end Session

end Dialogue
