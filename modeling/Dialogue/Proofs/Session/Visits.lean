import Mathlib
import Dialogue.External.PluralRules
import Dialogue.Proofs.Session.Course
import Dialogue.Proofs.Session.Phases

/-!
# Visits are completed nodes

Nodes are counted in one place and forgotten in one other, so the counts are those of the completed nodes that the host
has been told of since the last start (`Session.counted_course`). A step counts what its event says
(`Session.counts_execute`), and so does a run, which ends with its first event (`Session.counts_run`). Scripts see the
same counts.
-/

namespace Dialogue

/-- The event says that the node is complete. -/
def Event.completes (node : String) : Event → Bool
  | .nodeComplete other _ => other == node
  | _ => false

/-- The counts after an event. -/
def Visits.after (visits : Visits) : Option Event → Visits
  | some (.nodeComplete node _) => visits.add node
  | _ => visits

theorem Visits.count_after (visits : Visits) (event? : Option Event) (node : String) :
    (visits.after event?).count node = visits.count node + event?.toList.countP (Event.completes node) := by
  cases event? with
  | none => rfl
  | some event =>
    cases event with
    | nodeComplete other next =>
      rw [after, count_add, Option.toList_some, List.countP_singleton]
      by_cases h : other = node
      · subst h
        simp [Event.completes]
      · simp [Event.completes, h]
    | line | options | command | dialogueComplete => rfl

namespace Session

variable (s : Session)

/-! ## Steps and runs -/

/-- **What is counted is what the outcome says.** -/
def Counts (result : Session × Outcome) : Prop :=
  result.1.visits = s.visits.after result.2.event?

theorem counts_jumpTo (label : String) : s.Counts ((s.jumpTo label).map id Progress.outcome) := by
  unfold jumpTo
  split <;> rfl

theorem counts_runNode (node : String) : s.Counts ((s.runNode node).map id Progress.outcome) := by
  unfold runNode
  split <;> rfl

theorem counts_showOptions : s.Counts (s.showOptions.map id Progress.outcome) := by
  unfold showOptions
  split <;> rfl

/-- **An instruction counts what its event says.** -/
theorem counts_execute (i : Instruction) : s.Counts ((s.execute i).map id Progress.outcome) := by
  cases i with
  | jumpTo label => exact s.counts_jumpTo label
  | jump =>
    rw [execute]
    split
    · exact s.counts_jumpTo _
    · rfl
  | runLine text holes tags line | addOption text holes _ tags _ line =>
    exact (s.stays_composeLine text holes tags line).visits
  | runCommand text holes line => exact (s.stays_fill text holes).visits
  | showOptions => exact s.counts_showOptions
  | pushString _ | pushNumber _ | pushBool _ | pushNull | pushVariable _ => rfl
  | jumpIfFalse label =>
    rw [execute]
    split
    · rfl
    · exact s.counts_jumpTo label
  | pop => exact s.stays_pop.visits
  | callFunction function line => exact (s.stays_callFunction function line).visits
  | storeVariable name =>
    rw [execute]
    split <;> rfl
  | stop => rfl
  | runNode =>
    have h := s.pop.2.counts_runNode s.pop.1.text
    rw [Counts, s.stays_pop.visits] at h
    exact h

theorem counts_step : s.Counts (s.step.map id Progress.outcome) := by
  unfold step
  split
  · rfl
  · exact counts_execute { s with machine.position := s.machine.position + 1 } _

variable {s}

/-- **A run counts what its event says**, by induction on the steps that it may take: only the last one has an event. -/
theorem counts_run (limit : Nat) : s.Counts (s.run limit) := by
  induction limit generalizing s with
  | zero => rfl
  | succ limit ih =>
    have hstep := s.counts_step
    unfold run
    split
    · rename_i next hs
      rw [hs] at hstep
      have hrest := ih (s := next)
      rw [Counts, show next.visits = s.visits from hstep] at hrest
      exact hrest
    · rename_i hs
      rwa [hs] at hstep
    · rename_i hs
      rwa [hs] at hstep

theorem counts_resume (limit : Nat) : s.Counts (s.resume limit) := by
  by_cases hs : s.status = .running
  · cases hf : s.machine.finished with
    | true =>
      rw [resume_of_finished hs hf]
      rfl
    | false =>
      rw [resume_of_unfinished hs hf]
      exact counts_run limit
  · rw [resume_of_not_running hs]
    rfl

/-! ## Requests -/

/-- Only a run counts. -/
theorem visits_call {limit : Nat} {call : HostCall} (h : call ≠ .resume) : (s.call limit call).1.visits = s.visits := by
  cases call with
  | resume => exact absurd rfl h
  | acknowledgeLine =>
    by_cases hs : s.status = .awaitingLine
    · rw [call_acknowledgeLine hs]
    · rw [call_of_not_allowed rfl hs]
  | acknowledgeCommand =>
    by_cases hs : s.status = .awaitingCommand
    · rw [call_acknowledgeCommand hs]
    · rw [call_of_not_allowed rfl hs]
  | choose index =>
    by_cases hs : s.status = .awaitingChoice
    · cases ho : s.machine.options[index]? with
      | none => rw [call_choose_none hs ho]
      | some option => rw [call_choose hs ho]
    · rw [call_of_not_allowed rfl hs]
  | edit change => rfl

/-! ## Questions of a script -/

/-- **The next instruction asks a built-in function about a value.** -/
structure Asks (s : Session) (function : String) (value : Value) (stack : List Value) : Prop where
  next : ∃ node line, s.program[s.machine.node]? = some node ∧
    node.instruction? s.machine.position = some (.callFunction function line)
  operands : s.machine.stack = .number (Number.ofNat 1) :: value :: stack
  builtIn : s.library[function]? = Library.standard[function]?

/-- The session after the answer. -/
def answered (s : Session) (answer : Value) (stack : List Value) : Session :=
  { s with machine := { s.machine with position := s.machine.position + 1, stack := answer :: stack } }

/-- A function of one value answers at once. -/
theorem step_of_asks {function : String} {value : Value} {stack : List Value} {op : View → Value → Value}
    (h : s.Asks function value stack) (hop : Library.standard[function]? = some (.unary op)) :
    s.step = (s.answered (op s.view value) stack, .ok none) := by
  obtain ⟨node, line, hnode, hnext⟩ := h.next
  have hone : Number.toCount (Number.ofNat 1) = 1 := Number.toCount_ofNat (by decide)
  simp only [step, hnode, hnext, Option.getD_some, execute, callFunction, pop, h.operands, popMany, Value.toNumber,
    hone, h.builtIn, hop, HostFunction.call, HostFunction.unary]
  rfl

/-- **The code of a call with one argument comes to its question**, with the value of the argument. -/
theorem exists_asks {code : Code} {function : String} {e : Expr} {line : Nat} {value : Value} {stack : List Value}
    (hr : s.Runs code) (ha : Code.At code s.machine.position (.ofList (Code.expr line (.call function [e]))))
    (hbuiltIn : s.library[function]? = Library.standard[function]?)
    (hvalue : (Expr.operateAll s.library s.view (s.location line) [e] s.machine.stack).1 = value :: stack) :
    ∃ s', Silent s s' ∧ s'.Asks function value stack := by
  obtain ⟨hargument, hcall⟩ := Code.at_ofList_append.1 ha
  obtain ⟨hcount, hfunction⟩ := Code.at_cons.1 hcall
  have hargument := silent_exprs line [e] hr hargument
  generalize Expr.operateAll s.library s.view (s.location line) [e] s.machine.stack = result at hargument hvalue
  have hpush := silent_push (s := s.advance _ result) hr hcount fun _ => rfl
  refine ⟨_, hargument.trans hpush, ?_, ?_, hbuiltIn⟩
  · obtain ⟨node, hnode, hcode⟩ := Option.map_eq_some_iff.1 hr
    refine ⟨node, line, hnode, ?_⟩
    rw [CompiledNode.instruction?, hcode]
    exact Code.at_singleton.1 hfunction
  · show .number (Number.ofNat 1) :: result.1 = _
    rw [hvalue]

end Session

namespace Course

variable {c : Course}

/-! ## Turns -/

/-- The event that a turn returns. -/
def told (c : Course) (turn : Turn) : Option Event :=
  match turn.request with
  | .call .resume => (c.session.resume turn.limit).2.event?
  | _ => none

/-- **How often the host has been told that a node is complete.** -/
def completions (c : Course) (node : String) : Nat :=
  c.events.countP (Event.completes node)

/-- The turn starts a dialogue. -/
def Starts (c : Course) (turn : Turn) : Prop :=
  ∃ title nodes started, turn.request = .start title nodes ∧ c.session.start title nodes = .ok started

/-- A turn that starts no dialogue counts what the host is told. -/
theorem take_of_not_starts {turn : Turn} (h : ¬c.Starts turn) :
    (c.take turn).session.visits = c.session.visits.after (c.told turn) ∧
      (c.take turn).events = c.events ++ (c.told turn).toList := by
  obtain ⟨limit, request⟩ := turn
  have hnone : c.events = c.events ++ [] := (List.append_nil _).symm
  cases request with
  | start title nodes =>
    cases hstart : c.session.start title nodes with
    | ok started => exact absurd ⟨title, nodes, started, rfl, hstart⟩ h
    | error fault =>
      rw [take_start_error hstart]
      exact ⟨rfl, hnone⟩
  | stop | relink change => exact ⟨rfl, hnone⟩
  | call call =>
    cases call with
    | resume => exact ⟨Session.counts_resume limit, rfl⟩
    | acknowledgeLine | acknowledgeCommand | choose index | edit change => exact ⟨Session.visits_call nofun, hnone⟩

/-- **Every turn counts what the host is told.** -/
theorem count_take (h : ∀ node, c.session.visits.count node = c.completions node) (turn : Turn) (node : String) :
    (c.take turn).session.visits.count node = (c.take turn).completions node := by
  by_cases hstart : c.Starts turn
  · obtain ⟨limit, request⟩ := turn
    obtain ⟨title, nodes, started, rfl, hok⟩ := hstart
    rw [take_start_ok hok, (Session.begins_of_start hok).visits]
    exact Visits.count_empty node
  · obtain ⟨hvisits, hevents⟩ := take_of_not_starts hstart
    rw [hvisits, Visits.count_after, h, completions, completions, hevents, List.countP_append]

/-- So the counts are the same at any time. -/
theorem count_course (plurals : Plural.Rules) (config : Config) (turns : List Turn) (node : String) :
    ((Session.new plurals config).course turns).session.visits.count node =
      ((Session.new plurals config).course turns).completions node :=
  Session.course_induction (P := fun c => ∀ node, c.session.visits.count node = c.completions node)
    (fun _ => Visits.count_empty _) (fun _ turn h => count_take h turn) turns node

/-- **The counts of a session are those of its past**, and a script sees them. -/
structure Counted (c : Course) : Prop where
  count : ∀ node, c.session.visits.count node = c.completions node
  /-- A turn that neither starts a dialogue nor tells the host of a completed node changes no count. -/
  kept : ∀ turn, ¬c.Starts turn → (∀ node next, c.told turn ≠ some (.nodeComplete node next)) →
    (c.take turn).session.visits = c.session.visits
  visited : ∀ value stack, c.session.Asks "visited" value stack →
    c.session.step = (c.session.answered (.bool (0 < c.completions value.text)) stack, .ok none)
  visitedCount : ∀ value stack, c.session.Asks "visited_count" value stack →
    c.session.step = (c.session.answered (.number (Number.ofNat (c.completions value.text))) stack, .ok none)

end Course

/-- **Every session counts the completed nodes** that its host has been told of since the last start. -/
theorem Session.counted_course (plurals : Plural.Rules) (config : Config) (turns : List Turn) :
    ((Session.new plurals config).course turns).Counted := by
  have hcount := Course.count_course plurals config turns
  generalize (Session.new plurals config).course turns = c at hcount
  refine ⟨hcount, ?_, ?_, ?_⟩
  · intro turn hstart htold
    rw [(Course.take_of_not_starts hstart).1]
    cases hevent : c.told turn with
    | none => rfl
    | some event =>
      cases event with
      | nodeComplete node next => exact absurd hevent (htold node next)
      | line | options | command | dialogueComplete => rfl
  · intro value stack h
    rw [← hcount]
    exact step_of_asks h rfl
  · intro value stack h
    rw [← hcount]
    exact step_of_asks h rfl

/-- A node that leads to itself. -/
example :
    let start : Request := .start "A" [{ title := "A", body := "[[A]]" }]
    let c := (Session.new External.pluralRules {}).course
      [⟨0, start⟩, ⟨3, .call .resume⟩, ⟨3, .call .resume⟩, ⟨2, .call .resume⟩]
    c.completions "A" = 2 ∧ c.session.visits.count "A" = 2 := by
  decide +kernel

end Dialogue
