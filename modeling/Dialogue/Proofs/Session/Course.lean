import Mathlib
import Dialogue.Proofs.Session.Request
import Dialogue.Proofs.Walk.Agreement

/-!
# The course of a session

What a session has come to, turn by turn, together with what is remembered of its past: the nodes it was started with
last, and the events that its runs have returned since then (`Session.course`). A run may take a number of steps of its
own in each turn. With few steps it stops on the way, so the courses of a session lead to every state that a run goes
through.
-/

namespace Dialogue

/-- **A request, and the number of steps that a run may take for it.** -/
structure Turn where
  limit : Nat
  request : Request

/-- **A session and what is remembered of its past.** -/
structure Course where
  session : Session
  /-- The nodes of the last start that succeeded. -/
  nodes : List Node := []
  /-- The events that runs have returned since then, the first one first. -/
  events : List Event := []

/-- The event that ends a run. -/
def Session.Outcome.event? : Session.Outcome → Option Event
  | .event shown => some shown
  | .fault _ | .unfinished => none

namespace Course

/-- **One more turn.** -/
def take (c : Course) (turn : Turn) : Course :=
  let after := (c.session.request turn.limit turn.request).1
  match turn.request with
  | .start _ nodes => if c.session.endsAt turn.request then ⟨after, nodes, []⟩ else { c with session := after }
  | .call .resume => { c with
      session := after
      events := c.events ++ (c.session.resume turn.limit).2.event?.toList }
  | _ => { c with session := after }

variable {c : Course} {limit : Nat}

/-- A start that succeeds. -/
theorem take_start_ok {title : String} {nodes : List Node} {started : Session}
    (h : c.session.start title nodes = .ok started) : c.take ⟨limit, .start title nodes⟩ = ⟨started, nodes, []⟩ := by
  have hends : c.session.endsAt (.start title nodes) = true := by
    rw [Session.endsAt, h]
    rfl
  simp only [take, hends, if_true, Session.request, h, Session.settle]

/-- A start that fails. -/
theorem take_start_error {title : String} {nodes : List Node} {fault : SessionFault}
    (h : c.session.start title nodes = .error fault) : c.take ⟨limit, .start title nodes⟩ = c := by
  have hends : c.session.endsAt (.start title nodes) = false := by
    rw [Session.endsAt, h]
    rfl
  simp only [take, hends, Session.request, h, Session.settle]
  rfl

theorem take_resume : c.take ⟨limit, .call .resume⟩ = { c with
    session := (c.session.resume limit).1
    events := c.events ++ (c.session.resume limit).2.event?.toList } := rfl

end Course

/-- **What a session comes to** in some turns. -/
def Session.course (session : Session) (turns : List Turn) : Course :=
  turns.foldl Course.take { session }

/-- **What every turn keeps, a course keeps.** -/
theorem Session.course_induction {P : Course → Prop} {session : Session} (hstart : P { session })
    (htake : ∀ c turn, P c → P (c.take turn)) (turns : List Turn) : P (session.course turns) :=
  List.foldlRecOn turns Course.take hstart fun c hc turn _ => htake c turn hc

/-- **A session that has started** has the code of its nodes, and stands at the beginning of one of them. -/
structure Session.Begins (nodes : List Node) (title : String) (s : Session) : Prop where
  program : s.program.Holds nodes
  script : ∃ body, Node.scriptOf? nodes title = some body
  machine : s.machine = { node := title }
  status : s.status = .running
  visits : s.visits = ∅

theorem Session.begins_of_start {session started : Session} {title : String} {nodes : List Node}
    (h : session.start title nodes = .ok started) : started.Begins nodes title := by
  obtain ⟨hread, ht⟩ := of_start_eq_ok h
  obtain ⟨program, hp, hstart⟩ := exists_start_eq session nodes title hread ht
  cases h.symm.trans hstart
  exact ⟨hp, Option.isSome_iff_exists.1 ((Node.isSome_scriptOf? hread title).trans ht), rfl, rfl, rfl⟩

end Dialogue
