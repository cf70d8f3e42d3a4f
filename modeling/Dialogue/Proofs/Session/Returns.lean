import Mathlib
import Dialogue.External.PluralRules
import Dialogue.Proofs.Session.Standing

/-!
# Runs return

A run takes at most as many steps as there are instructions left in the code of its node, unless it comes to follow a
link whose destination is the name of a label further back (`Session.returns_course`). Such a link can lead a run in a
circle, from which it never returns (`Session.circling_unfinished`).
-/

namespace Dialogue

namespace Session

/-- **The number of instructions from the position on**, in the code of the node that runs. -/
def remaining (s : Session) : Nat :=
  if s.machine.finished then 0 else (s.program[s.machine.node]?).elim 0 (·.code.size) - s.machine.position

variable {nodes : List Node} {body : List Statement} {s : Session}

theorem remaining_eq (hp : s.program.Holds nodes) (h : s.machine.Inside nodes body) :
    s.remaining = (Code.node body).size - s.machine.position := by
  obtain ⟨node, hnode, hcode⟩ := Option.map_eq_some_iff.1 (runs_of_script hp h.script)
  rw [remaining, h.unfinished, hnode, ← hcode]
  rfl

/-- **A run returns before the end of the code** or turns back, by induction on the steps: each of them moves
forward. -/
theorem returns_run {limit : Nat} (h : s.Standing nodes) (hs : s.status = .running) (hf : s.machine.finished = false)
    (hscript : Node.scriptOf? nodes s.machine.node = some body)
    (hlimit : (Code.node body).size ≤ s.machine.position + limit) : (s.run limit).2 ≠ .unfinished ∨
      ∃ steps < limit, (s.run steps).2 = .unfinished ∧ (s.run steps).1.TurnsBack nodes := by
  induction limit generalizing s with
  | zero =>
    obtain ⟨body', hinside⟩ := h.exists_inside hs hf
    cases hscript.symm.trans hinside.script
    have hlt := hinside.lt
    omega
  | succ limit ih =>
    by_cases hback : s.TurnsBack nodes
    · exact .inr ⟨0, Nat.succ_pos limit, rfl, hback⟩
    have hstep := steps_step h hs hf
    generalize hresult : s.step = result at hstep
    cases hstep with
    | @on s' h' hs' hf' hn hlt =>
      have hrun : ∀ steps, s.run (steps + 1) = s'.run steps := fun steps => by rw [run, hresult]
      have hforward := hlt.resolve_right hback
      rcases ih h' hs' hf' (by rwa [hn]) (by omega) with hreturns | ⟨steps, hsteps, hunfinished, hturns⟩
      · left
        rw [hrun]
        exact hreturns
      · refine .inr ⟨steps + 1, Nat.succ_lt_succ hsteps, ?_⟩
        rw [hrun]
        exact ⟨hunfinished, hturns⟩
    | shows | fails =>
      left
      simp [run, hresult]

/-- What is asked of a session outside of a run, or after the last node, is answered at once. -/
theorem returns_resume (h : s.Standing nodes) : (s.resume s.remaining).2 ≠ .unfinished ∨
    ∃ steps < s.remaining, (s.resume steps).2 = .unfinished ∧ (s.resume steps).1.TurnsBack nodes := by
  by_cases hs : s.status = .running
  · cases hf : s.machine.finished with
    | true =>
      left
      rw [resume_of_finished hs hf]
      exact nofun
    | false =>
      obtain ⟨body, hinside⟩ := h.exists_inside hs hf
      simp only [resume_of_unfinished hs hf]
      exact returns_run h hs hf hinside.script (by rw [remaining_eq h.program hinside]; omega)
  · left
    rw [resume_of_not_running hs]
    exact nofun

/-- **Every run returns** within the instructions that are left in its node, unless it turns back on the way. -/
theorem returns_course (plurals : Plural.Rules) (config : Config) (turns : List Turn) :
    let c := (Session.new plurals config).course turns
    (c.session.resume c.session.remaining).2 ≠ .unfinished ∨ ∃ steps < c.session.remaining,
      (c.session.resume steps).2 = .unfinished ∧ (c.session.resume steps).1.TurnsBack c.nodes :=
  returns_resume (Course.standing_course plurals config turns).session

/-! ## Links that are no labels -/

/-- A node turns back only where a link is spelled like one of its labels. -/
theorem not_turnsBack (h : ∀ title body, Node.scriptOf? nodes title = some body →
    ∀ destination ∈ Code.allLinks body, (Code.node body).labels.lookup destination = none) : ¬s.TurnsBack nodes := by
  rintro ⟨body, destination, stack, q, hscript, -, -, hlink, hlookup, -⟩
  cases (h _ _ hscript destination hlink).symm.trans hlookup

/-- **Where no link is spelled like a label of its node, every run returns.** -/
theorem returns_of_lookup_eq_none (plurals : Plural.Rules) (config : Config) (turns : List Turn)
    (h : ∀ title body, Node.scriptOf? ((Session.new plurals config).course turns).nodes title = some body →
      ∀ destination ∈ Code.allLinks body, (Code.node body).labels.lookup destination = none) :
    (((Session.new plurals config).course turns).session.resume
      ((Session.new plurals config).course turns).session.remaining).2 ≠ .unfinished := by
  rcases returns_resume (Course.standing_course plurals config turns).session with hreturns | ⟨_, _, _, hback⟩
  · exact hreturns
  · exact absurd hback (not_turnsBack h)

/-! ## A run in a circle -/

/-- **What goes on and on is never finished**, whatever it goes through. -/
theorem run_unfinished {I : Session → Prop} (hstep : ∀ s, I s → ∃ s', s.step = (s', .ok none) ∧ I s') (limit : Nat)
    {s : Session} (h : I s) : (s.run limit).2 = .unfinished := by
  induction limit generalizing s with
  | zero => rfl
  | succ limit ih =>
    obtain ⟨s', hs, h'⟩ := hstep s h
    rw [run, hs]
    exact ih h'

/-- A node with a link that is spelled like the label of the conditional before it. -/
def circlingNode : Node where
  title := "A"
  body := "<<if true>>\n<<endif>>\n[[L1endif]]\n-> b <<if false>>"

def circlingCode : Code where
  instructions := [.pushBool true, .jumpIfFalse "L2skipclause", .pop, .jumpTo "L1endif", .pop,
    .addOption "L1endif" 0 "L1endif" [] true 3, .pushBool false, .jumpIfFalse "L5conditional_option",
    .addOption "b" 0 "L4option" [] false 4, .pop, .showOptions, .jump, .pop, .jumpTo "L3group_end", .showOptions,
    .runNode]
  labels := [("L2skipclause", 4), ("L1endif", 5), ("L5conditional_option", 9), ("L4option", 12), ("L3group_end", 14)]

/-- **The positions of the circle**, and what is pending and on the stack there. -/
inductive Circles : (position : Nat) → List PendingOption → List Value → Prop where
  | enters (stack : List Value) : Circles 0 [] stack
  | holds (stack : List Value) : Circles 1 [] (.bool true :: stack)
  | drops (value : Value) (stack : List Value) : Circles 2 [] (value :: stack)
  | leaves (stack : List Value) : Circles 3 [] stack
  | links (stack : List Value) : Circles 5 [] stack
  | asks (line : ShownLine) (stack : List Value) : Circles 6 [⟨line, "L1endif", true⟩] stack
  | fails (line : ShownLine) (stack : List Value) : Circles 7 [⟨line, "L1endif", true⟩] (.bool false :: stack)
  | skips (line : ShownLine) (value : Value) (stack : List Value) : Circles 9 [⟨line, "L1endif", true⟩] (value :: stack)
  | offers (line : ShownLine) (stack : List Value) : Circles 10 [⟨line, "L1endif", true⟩] stack
  | follows (stack : List Value) : Circles 11 [] (.string "L1endif" :: stack)

/-- The session is in the circle. -/
structure Circling (s : Session) : Prop where
  runs : s.Runs circlingCode
  circles : Circles s.machine.position s.machine.options s.machine.stack

/-- The link is added on its own. -/
theorem circling_link (hr : s.Runs circlingCode) (hp : s.machine.position = 5) (ho : s.machine.options = []) :
    ∃ s', s.read.execute (.addOption "L1endif" 0 "L1endif" [] true 3) = (s', .ok none) ∧ s'.Circling := by
  have hk := s.read.stays_composeLine "L1endif" 0 [] 3
  rcases hcompose : s.read.composeLine "L1endif" 0 [] 3 with ⟨line, u⟩
  rw [hcompose] at hk
  have hposition : u.machine.position = 6 := hk.position.trans (congrArg (· + 1) hp)
  have hoptions : u.machine.options = [] := hk.options.trans ho
  have hruns : u.Runs circlingCode := by
    rw [Runs, hk.program, hk.node]
    exact hr
  refine ⟨{ u with machine.options := u.machine.options ++ [⟨line, "L1endif", true⟩] }, ?_, hruns, ?_⟩
  · rw [execute, hcompose]
  · show Circles u.machine.position (u.machine.options ++ [_]) u.machine.stack
    rw [hposition, hoptions]
    exact .asks line _

/-- **The circle is never left.** -/
theorem circling_step (s : Session) (h : s.Circling) : ∃ s', s.step = (s', .ok none) ∧ s'.Circling := by
  obtain ⟨plurals, config, program, ⟨node, position, options, stack, finished⟩, status, visits, vars, library,
    reported⟩ := s
  obtain ⟨hr, hcircles⟩ := h
  have hstep : ∀ i, circlingCode.instructions[position]? = some i → _ := fun i hi => step_eq hr hi
  have hback : circlingCode.labels.lookup "L1endif" = some 5 := rfl
  have hskip : circlingCode.labels.lookup "L5conditional_option" = some 9 := rfl
  cases hcircles with
  | enters => exact ⟨_, hstep (.pushBool true) rfl, hr, .holds _⟩
  | holds => exact ⟨_, hstep (.jumpIfFalse "L2skipclause") rfl, hr, .drops _ _⟩
  | drops => exact ⟨_, hstep .pop rfl, hr, .leaves _⟩
  | leaves => exact ⟨_, (hstep (.jumpTo "L1endif") rfl).trans (jumpTo_eq (by exact hr) hback), hr, .links _⟩
  | links =>
    obtain ⟨u, hadd, hu⟩ := circling_link hr rfl rfl
    exact ⟨u, (hstep _ rfl).trans hadd, hu⟩
  | asks line => exact ⟨_, hstep (.pushBool false) rfl, hr, .fails line _⟩
  | fails line =>
    exact ⟨_, (hstep (.jumpIfFalse "L5conditional_option") rfl).trans (jumpTo_eq (by exact hr) hskip), hr,
      .skips line _ _⟩
  | skips line => exact ⟨_, hstep .pop rfl, hr, .offers line _⟩
  | offers line => exact ⟨_, hstep .showOptions rfl, hr, .follows _⟩
  | follows => exact ⟨_, (hstep .jump rfl).trans (jumpTo_eq (by exact hr) hback), hr, .links _⟩

/-- **There is a run that never returns.** -/
theorem circling_unfinished : ∃ started, (Session.new External.pluralRules {}).start "A" [circlingNode] = .ok started ∧
    ∀ limit, (started.resume limit).2 = .unfinished := by
  have hscript : (Node.scriptOf? [circlingNode] "A").map Code.node = some circlingCode := by decide +kernel
  have hstarts : ((Session.new External.pluralRules {}).start "A" [circlingNode]).toBool = true := by decide +kernel
  cases hstart : (Session.new External.pluralRules {}).start "A" [circlingNode] with
  | error fault =>
    rw [hstart] at hstarts
    cases hstarts
  | ok started =>
    have hbegins := begins_of_start hstart
    refine ⟨started, rfl, fun limit => ?_⟩
    rw [resume_of_unfinished hbegins.status (by rw [hbegins.machine])]
    refine run_unfinished circling_step limit ⟨?_, ?_⟩
    · rw [Runs, hbegins.program, hbegins.machine]
      exact hscript
    · rw [hbegins.machine]
      exact .enters []

end Session

end Dialogue
