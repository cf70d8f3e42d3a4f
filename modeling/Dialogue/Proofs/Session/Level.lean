import Mathlib
import Dialogue.External.PluralRules
import Dialogue.Proofs.Program.Heights
import Dialogue.Proofs.Session.Standing

/-!
# The stack is as high as the code says

A session that runs a node with as many values on its stack as the heights of the code say has as many as they say after
every step, until the node is left (`Level.follows`). The number of parameters that is on top before a call, and the
label of the option that was taken, are what the code has put there. With this the heights of a node are those of the
machine (`exists_heights`).
-/

namespace Dialogue.Session

/-! ## What happens to the stack -/

section Stack

variable (s : Session)

theorem stack_pop : s.pop.2.machine.stack = s.machine.stack.drop 1 := by
  unfold pop
  split
  · rename_i hstack
    rw [hstack]
    rfl
  · rename_i hstack
    rw [hstack]
    rfl

theorem stack_fill (text : String) (holes : Nat) :
    (s.fill text holes).2.machine.stack = s.machine.stack.drop holes := rfl

theorem stack_composeLine (text : String) (holes : Nat) (tags : List String) (line : Nat) :
    (s.composeLine text holes tags line).2.machine.stack = s.machine.stack.drop holes := by
  unfold composeLine compose
  dsimp only
  split <;> rfl

/-- A call takes the number of its parameters and the parameters, and puts one value in their place. -/
theorem exists_stack_callFunction (function : String) (line : Nat) {x : Float32}
    (h : s.machine.stack.head? = some (.number x)) : ∃ value,
      (s.callFunction function line).machine.stack = value :: s.machine.stack.drop (Number.toCount x + 1) := by
  obtain ⟨rest, hstack⟩ := List.head?_eq_some_iff.1 h
  have hpop : s.pop = (.number x, { s with machine.stack := rest }) := by
    unfold pop
    rw [hstack]
  unfold callFunction
  rw [hpop, hstack]
  dsimp only
  split <;> exact ⟨_, rfl⟩

end Stack

/-- Taking an option pushes its destination. -/
theorem exists_of_choose {s u : Session} {index : Nat} (h : s.choose index = .ok u) : ∃ destination : String,
    u = { s with
      status := .running
      machine := { s.machine with stack := .string destination :: s.machine.stack, options := [] } } := by
  unfold choose at h
  by_cases hs : s.status = .awaitingChoice
  · have hexpect : s.expect .chooseOption = .ok () := if_pos hs
    rw [hexpect] at h
    cases hoption : s.machine.options[index]? with
    | none =>
      rw [hoption] at h
      cases h
    | some option =>
      rw [hoption] at h
      cases h
      exact ⟨option.destination, rfl⟩
  · have hexpect : s.expect .chooseOption = .error (.invalidState .chooseOption s.status) := if_neg hs
    rw [hexpect] at h
    cases h

/-! ## Sessions on the level of the code -/

/-- **The session runs the code with as many values on its stack** as the heights say for its position. -/
structure Level (code : Code) (height : Nat → Nat) (s : Session) : Prop where
  runs : s.Runs code
  stack : s.machine.stack.length = height s.machine.position

/-- **On top of the stack lies what the code has just put there**: before a call the number of its parameters, before a
jump to what was taken the label of an option of the group. -/
structure OnTop (code : Code) (s : Session) : Prop where
  call : ∀ function line x, code.instructions[s.machine.position]? = some (.callFunction function line) →
    code.instructions[s.machine.position - 1]? = some (.pushNumber x) → s.machine.stack.head? = some (.number x)
  jump : code.instructions[s.machine.position]? = some .jump → ∃ labels label,
    code.Group s.machine.position labels ∧ label ∈ labels ∧ s.machine.stack.head? = some (.string label)

/-- **What a step leads to on the level of the code.** -/
inductive Follows (code : Code) (height : Nat → Nat) (s : Session) : Session × Progress → Prop where
  | level {t : Session} {event : Option Event} (h : t.Level code height) : Follows code height s (t, .ok event)
  /-- The destination of the option that is taken is pushed. -/
  | asks {t : Session} {event : Event} (hs : t.status = .awaitingChoice)
      (h : ∀ index u, t.choose index = .ok u → u.Level code height) : Follows code height s (t, .ok (some event))
  /-- The node is complete. -/
  | leaves {result : Session × Progress} (h : code.instructions[s.machine.position]? = some .stop ∨
      code.instructions[s.machine.position]? = some .runNode ∨
      code.instructions[s.machine.position]? = some .showOptions ∧ s.machine.options = []) :
      Follows code height s result

section Steps

variable {code : Code} {height : Nat → Nat} {s u : Session}

/-- The next instruction finds the stack that the one before it leaves. -/
theorem Level.next (h : s.Level code height) (hk : s.read.Stays u)
    (hu : u.machine.stack.length = height (s.machine.position + 1)) : u.Level code height where
  runs := by
    rw [Runs, hk.program, hk.node]
    exact h.runs
  stack := by
    rw [hk.position]
    exact hu

/-- An instruction that takes values from the stack. -/
theorem Level.drop (h : s.Level code height) (hk : s.read.Stays u) {count : Nat}
    (hu : u.machine.stack = s.machine.stack.drop count)
    (hafter : height (s.machine.position + 1) = height s.machine.position - count) : u.Level code height :=
  h.next hk (by rw [hu, List.length_drop, h.stack, hafter])

/-- A jump takes the stack with it. -/
theorem Level.jumpTo (h : s.Level code height) {label : String}
    (hl : ∃ q, code.labels.lookup label = some q ∧ height q = height s.machine.position) :
    Follows code height s (s.read.jumpTo label) := by
  obtain ⟨q, hq, hheight⟩ := hl
  have hr : s.read.Runs code := h.runs
  rw [jumpTo_eq hr hq]
  exact .level ⟨h.runs, h.stack.trans hheight.symm⟩

/-- Where options are offered, the destination of the one that is taken comes to lie on the stack. -/
theorem Level.showOptions (h : s.Level code height)
    (hi : code.instructions[s.machine.position]? = some .showOptions) (hbefore : height s.machine.position = 0)
    (hafter : height (s.machine.position + 1) = 1) : Follows code height s s.read.showOptions := by
  have hpushed : s.machine.stack.length + 1 = height (s.machine.position + 1) := by rw [h.stack, hbefore, hafter]
  unfold Session.showOptions
  split
  · rename_i hnone
    exact .leaves (.inr (.inr ⟨hi, hnone⟩))
  · exact .level ⟨h.runs, hpushed⟩
  · refine .asks rfl fun index u hu => ?_
    obtain ⟨destination, rfl⟩ := exists_of_choose hu
    exact ⟨h.runs, hpushed⟩

/-- **A step keeps the stack as high as the code says**, when the heights of the code are balanced and its calls have no
more arguments than a number can count. -/
theorem Level.follows {small : Prop} (hb : code.Balanced small height) (hsmall : small) (h : s.Level code height)
    (htop : s.OnTop code) {i : Instruction} (hi : code.instructions[s.machine.position]? = some i) :
    Follows code height s s.step := by
  have hasks := hb.asks _ i hi
  rw [step_eq h.runs hi]
  show Follows code height s (s.read.execute i)
  cases i with
  | jumpTo label => exact h.jumpTo hasks
  | jumpIfFalse label =>
    obtain ⟨-, hafter, hl⟩ := hasks
    rw [execute]
    split
    · exact .level (h.next (.refl _) (h.stack.trans hafter.symm))
    · exact h.jumpTo hl
  | jump =>
    obtain ⟨labels, label, hgroup, hlabel, hhead⟩ := htop.jump hi
    have htaken : s.read.machine.stack.head? = some (.string label) := hhead
    rw [execute, htaken]
    exact h.jumpTo (hasks.2.2 labels hgroup label hlabel)
  | runLine text holes tags line =>
    have hu := h.drop (stays_composeLine _ text holes tags line) (stack_composeLine _ text holes tags line) hasks.2.1
    exact .level ⟨hu.runs, hu.stack⟩
  | runCommand text holes line =>
    have hu := h.drop (stays_fill _ text holes) (stack_fill _ text holes) hasks.2.1
    exact .level ⟨hu.runs, hu.stack⟩
  | addOption text holes destination tags followAlone line =>
    have hu := h.drop (stays_composeLine _ text holes tags line) (stack_composeLine _ text holes tags line) hasks.2
    exact .level ⟨hu.runs, hu.stack⟩
  | showOptions => exact h.showOptions hi hasks.1 hasks.2
  | pushString _ | pushNumber _ | pushBool _ | pushNull | pushVariable _ =>
    exact .level (h.next (stays_push _ _) ((congrArg (· + 1) h.stack).trans hasks.symm))
  | pop => exact .level (h.drop (stays_pop _) (stack_pop _) hasks.2)
  | callFunction function line =>
    obtain ⟨parameters, -, hpushed, hcount, hle, hafter⟩ := hasks
    obtain ⟨value, hstack⟩ := exists_stack_callFunction s.read function line (htop.call _ _ _ hi hpushed)
    refine .level (h.next (stays_callFunction _ _ _) ?_)
    rw [hstack, hcount hsmall, List.length_cons, List.length_drop, hafter]
    exact congrArg (· - (parameters + 1) + 1) h.stack
  | storeVariable name =>
    rw [execute]
    split
    · exact .level (h.next (.refl _) (h.stack.trans hasks.2.symm))
    · exact .level (h.next (stays_setVariable _ _ _) (h.stack.trans hasks.2.symm))
  | stop => exact .leaves (.inl hi)
  | runNode => exact .leaves (.inr (.inl hi))

end Steps

/-- **The heights of a node.** There are heights of the stack that every way through the code of the node respects, and
where no call has more arguments than a single-precision number can count, every step of a session keeps to them. -/
theorem exists_heights (body : List Statement) : ∃ height,
    (Code.node body).Balanced (Dialect.small.hasBody body = true) height ∧
    (Dialect.small.hasBody body = true → ∀ (s : Session) (i : Instruction), s.Level (Code.node body) height →
      s.OnTop (Code.node body) → (Code.node body).instructions[s.machine.position]? = some i →
      Follows (Code.node body) height s s.step) := by
  obtain ⟨height, hbalanced⟩ := Code.balanced_node body
  exact ⟨height, hbalanced, fun hsmall _ _ hlevel htop hi => hlevel.follows hbalanced hsmall htop hi⟩

/-- An option whose condition lies below the parameters of a call in its text. -/
def conditionalSum : List Statement :=
  [.options [.mk 1 ⟨"Add \x7b0\x7d", [.call "Add" [.variable "$n", .number 1]]⟩ (some (.bool true)) [] []]]

/-- A session in front of that call. -/
def beforeCall : Session where
  plurals := External.pluralRules
  program := (∅ : Program).insert "A" ⟨"A", Code.node conditionalSum, []⟩
  machine := { node := "A", position := 5, stack := [.number (Number.ofNat 2), .number 1, .null, .bool true] }
  status := .running

theorem exists_heights_beforeCall : Dialect.small.hasBody conditionalSum = true ∧ ∃ height,
    (Code.node conditionalSum).Balanced (Dialect.small.hasBody conditionalSum = true) height ∧
    (height 5 = 4 ∧ height 6 = 2) ∧ beforeCall.Level (Code.node conditionalSum) height ∧
    beforeCall.OnTop (Code.node conditionalSum) ∧
    Follows (Code.node conditionalSum) height beforeCall beforeCall.step := by
  have hsmall : Dialect.small.hasBody conditionalSum = true := by decide
  obtain ⟨height, hbalanced, hfollows⟩ := exists_heights conditionalSum
  have hcondition : height 1 = height 0 + 1 := hbalanced.asks 0 _ rfl
  obtain ⟨-, hskip, -⟩ : _ ∧ height 2 = height 1 ∧ _ := hbalanced.asks 1 _ rfl
  have hvariable : height 3 = height 2 + 1 := hbalanced.asks 2 _ rfl
  have hnumber : height 4 = height 3 + 1 := hbalanced.asks 3 _ rfl
  have hcount : height 5 = height 4 + 1 := hbalanced.asks 4 _ rfl
  have hstart := hbalanced.start
  obtain ⟨parameters, -, hpushed, hexact, -, hcall⟩ :
      ∃ parameters, _ ∧ _ ∧ _ ∧ _ ∧ height 6 = height 5 - (parameters + 1) + 1 := hbalanced.asks 5 _ rfl
  have hparameters : parameters = 2 := by
    have hsame : Number.ofNat 2 = Number.ofNat parameters := Instruction.pushNumber.inj (Option.some.inj hpushed)
    rw [← hexact hsmall, ← hsame, Number.toCount_ofNat (by decide)]
  have hlevel : beforeCall.Level (Code.node conditionalSum) height := by
    refine ⟨congrArg (Option.map CompiledNode.code) Std.TreeMap.getElem?_insert_self, ?_⟩
    show 4 = height 5
    omega
  have htop : beforeCall.OnTop (Code.node conditionalSum) := by
    refine ⟨fun _ _ x _ hx => ?_, fun hi => nomatch hi⟩
    rw [← Instruction.pushNumber.inj (Option.some.inj hx)]
    rfl
  exact ⟨hsmall, height, hbalanced, by omega, hlevel, htop, hfollows hsmall _ _ hlevel htop rfl⟩

end Dialogue.Session
