import Mathlib
import Dialogue.Session.Step

/-!
# What a host sees

A host calls a session, gets an answer and may then read off where the session stands and what has been reported. Of the
options that are offered it sees their numbers and lines; where they lead is the session's affair. Two machines between
which a relation is kept, call by call, look the same to every host (`moments_eq_of_rel`).
-/

namespace Dialogue

/-- **What a host does with a session.** Between the calls it may change the variables in any way. -/
inductive HostCall where
  | resume
  | acknowledgeLine
  | acknowledgeCommand
  | choose (index : Nat)
  | edit (change : Variables → Variables)

/-- **What a host is shown.** -/
inductive Sight where
  | line (line : ShownLine)
  | options (options : List (Nat × ShownLine))
  | command (text : String)
  | nodeComplete (node : String) (next : Option String)
  | dialogueComplete (node : String)
deriving DecidableEq

/-- **The answer to a call.** -/
inductive Answer where
  | accepted
  | shown (sight : Sight)
  | refused (fault : SessionFault)
  /-- The steps that were allowed did not suffice. -/
  | unfinished
deriving DecidableEq

/-- **One call as the host sees it**: its answer, and what can be read off afterwards. -/
structure Moment where
  answer : Answer
  view : View
  reported : List ScriptError

/-- What is shown by an event. -/
def Event.sight : Event → Sight
  | .line shown => .line shown
  | .options offered => .options (offered.map fun option => (option.id, option.line))
  | .command text => .command text
  | .nodeComplete node next => .nodeComplete node next
  | .dialogueComplete node => .dialogueComplete node

/-- The answer at the end of a run. -/
def Session.Outcome.answer : Session.Outcome → Answer
  | .event shown => .shown shown.sight
  | .fault reason => .refused reason
  | .unfinished => .unfinished

/-- The session after an operation that may fail, and the answer. -/
def Session.settle (session : Session) : Except SessionFault Session → Session × Answer
  | .ok after => (after, .accepted)
  | .error fault => (session, .refused fault)

/-- **A call of a session**, which may take up to `limit` steps. -/
def Session.call (limit : Nat) (session : Session) : HostCall → Session × Answer
  | .resume =>
    let (after, outcome) := session.resume limit
    (after, outcome.answer)
  | .acknowledgeLine => session.settle session.acknowledgeLine
  | .acknowledgeCommand => session.settle session.acknowledgeCommand
  | .choose index => session.settle (session.choose index)
  | .edit change => ({ session with vars := change session.vars }, .accepted)

section Moments

variable {σ τ : Type}

/-- The state of a machine after some calls. -/
def after (call : σ → HostCall → σ × Answer) (s : σ) (calls : List HostCall) : σ :=
  calls.foldl (fun s c => (call s c).1) s

/-- What is good at the end was good before. -/
theorem good_of_after {call : σ → HostCall → σ × Answer} {G : σ → Prop} (hgood : ∀ s c, G (call s c).1 → G s) :
    ∀ (calls : List HostCall) (s : σ), G (after call s calls) → G s
  | [], _, h => h
  | c :: rest, s, h => hgood s c (good_of_after hgood rest _ h)

/-- **Call by call what a host sees.** -/
def moments (call : σ → HostCall → σ × Answer) (see : σ → View × List ScriptError) : σ → List HostCall → List Moment
  | _, [] => []
  | s, c :: rest =>
    ⟨(call s c).2, (see (call s c).1).1, (see (call s c).1).2⟩ :: moments call see (call s c).1 rest

/-- **Two machines look the same** as long as the second one stays good, when every call that leaves it good keeps a
relation between them. -/
theorem moments_eq_of_rel {call : σ → HostCall → σ × Answer} {see : σ → View × List ScriptError}
    {call' : τ → HostCall → τ × Answer} {see' : τ → View × List ScriptError} {R : σ → τ → Prop} {G : τ → Prop}
    (hsee : ∀ s t, R s t → see s = see' t) (hgood : ∀ t c, G (call' t c).1 → G t)
    (hcall : ∀ s t c, R s t → G (call' t c).1 → (call s c).2 = (call' t c).2 ∧ R (call s c).1 (call' t c).1) :
    ∀ (calls : List HostCall) (s : σ) (t : τ), R s t → G (after call' t calls) →
      moments call see s calls = moments call' see' t calls ∧ R (after call s calls) (after call' t calls)
  | [], _, _, h, _ => ⟨rfl, h⟩
  | c :: rest, s, t, h, hg => by
    obtain ⟨hanswer, hrel⟩ := hcall s t c h (good_of_after hgood rest _ hg)
    obtain ⟨hrest, hlast⟩ := moments_eq_of_rel hsee hgood hcall rest _ _ hrel hg
    rw [moments, moments, hanswer, hsee _ _ hrel, hrest]
    exact ⟨rfl, hlast⟩

end Moments

/-- Where a session stands and what has been reported. -/
def Session.see (session : Session) : View × List ScriptError :=
  (session.view, session.reported)

/-- The answers of a session to calls. -/
def Session.answers (limit : Nat) (session : Session) (calls : List HostCall) : List Answer :=
  (moments (Session.call limit) Session.see session calls).map Moment.answer

end Dialogue
