import Mathlib
import Dialogue.Proofs.Session.Standing

/-!
# Sessions are in good order

Whatever is asked of a session, and wherever it is in a run: while a node runs the program has it and the next
instruction exists, a host that has to choose has been shown exactly the options that are pending, and without a
dialogue the machine is as good as new (`Session.inOrder_course`). So a run never comes to the end of the code, and
never misses the node that it runs.
-/

namespace Dialogue

/-- **A session in good order.** -/
structure Session.WellFormed (s : Session) : Prop where
  /-- The node that runs is in the program, and until it is complete its next instruction exists. -/
  node : s.status ≠ .idle → s.status ≠ .complete → ∃ node, s.program[s.machine.node]? = some node ∧
    (s.machine.finished = false → s.machine.position < node.code.size)
  /-- A host that has to choose has something to choose from. -/
  options : s.status = .awaitingChoice → s.machine.options ≠ []
  finished : s.machine.finished = true → s.status = .running
  /-- Nothing is left of a dialogue that is over. -/
  fresh : s.status = .idle ∨ s.status = .complete → s.machine = {}

namespace Session

variable {nodes : List Node} {s : Session}

/-- **A session that stands is in good order.** -/
theorem Standing.wellFormed (h : s.Standing nodes) : s.WellFormed := by
  have hp := h.program
  have hstands := h.stands
  constructor
  · intro hidle hcomplete
    generalize s.status = status at hidle hcomplete hstands
    cases hstands with
    | fresh hs =>
      rcases hs with hs | hs
      · exact absurd hs hidle
      · exact absurd hs hcomplete
    | finished hscript hf =>
      obtain ⟨node, hnode, -⟩ := Option.map_eq_some_iff.1 (runs_of_script hp hscript)
      exact ⟨node, hnode, fun hunfinished => by rw [hf] at hunfinished; cases hunfinished⟩
    | going _ hinside | asks hinside | takes hinside =>
      obtain ⟨node, hnode, hcode⟩ := Option.map_eq_some_iff.1 (runs_of_script hp hinside.script)
      exact ⟨node, hnode, fun _ => by rw [hcode]; exact hinside.lt⟩
  · intro hchoice
    rw [hchoice] at hstands
    cases hstands with
    | fresh hs => rcases hs with hs | hs <;> cases hs
    | going hs => rcases hs with hs | hs | hs <;> cases hs
    | asks _ hne => exact hne
  · intro hf
    generalize s.status = status at hstands
    cases hstands with
    | fresh _ hm => rw [hm] at hf; cases hf
    | finished | takes => rfl
    | going _ hinside | asks hinside => rw [hinside.unfinished] at hf; cases hf
  · intro hs
    generalize s.status = status at hs hstands
    cases hstands with
    | fresh _ hm => exact hm
    | finished | asks | takes => rcases hs with hs | hs <;> cases hs
    | going hgoing => rcases hgoing with rfl | rfl | rfl <;> rcases hs with hs | hs <;> cases hs

end Session

/-- **A session and its past in good order.** -/
structure Course.InOrder (c : Course) : Prop where
  session : c.session.WellFormed
  /-- What a host that has to choose has been shown last are the options that are pending. -/
  asked : c.session.status = .awaitingChoice →
    c.events.getLast? = some (.options (Session.offered c.session.machine.options))
  /-- A run does not miss the node that it runs. -/
  found : ∀ limit, (c.session.resume limit).2 ≠ .fault (.nodeNotFound c.session.machine.node)

/-- **Every session is in good order**, whatever was asked of it and wherever it is in a run. -/
theorem Session.inOrder_course (plurals : Plural.Rules) (config : Config) (turns : List Turn) :
    ((Session.new plurals config).course turns).InOrder := by
  have h := Course.standing_course plurals config turns
  refine ⟨h.session.wellFormed, h.asked, fun limit => ?_⟩
  by_cases hs : ((Session.new plurals config).course turns).session.status = .running
  · exact (Session.ends_resume h.session hs limit).found
  · rw [Session.resume_of_not_running hs]
    exact nofun

end Dialogue
