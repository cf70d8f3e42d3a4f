import Mathlib
import Dialogue.Proofs.Expr.Evaluation
import Dialogue.Proofs.Program.Layout

/-!
# Steps that a host does not see

Between two events a run only moves forward in the code of its node, so the number of its steps is bounded by the length
of that code (`Silent`, `Stops`). The code of an expression takes as many steps as it has instructions, moves past
itself and makes of the stack what the expression makes of it (`becomes_expr`, `silent_exprs`).
-/

namespace Dialogue.Session

/-- **The session runs a node with this code.** -/
def Runs (code : Code) (s : Session) : Prop :=
  (s.program[s.machine.node]?).map CompiledNode.code = some code

/-- **One session becomes another** in exactly so many steps, none of which the host sees. -/
def Becomes (n : Nat) (s s' : Session) : Prop :=
  s.run n = (s', .unfinished)

/-- **One session goes on to another**, which is further on in the code by at least the number of steps. -/
def Silent (s s' : Session) : Prop :=
  ∃ n, (∀ limit, s.run (n + limit) = s'.run limit) ∧ s.machine.position + n ≤ s'.machine.position

/-- **A run ends before the end of the code.** -/
def Stops (code : Code) (s : Session) (result : Session × Outcome) : Prop :=
  ∃ n, (∀ limit, s.run (n + limit) = result) ∧ s.machine.position + n ≤ code.size

namespace Silent

theorem refl (s : Session) : Silent s s :=
  ⟨0, fun limit => by rw [Nat.zero_add], Nat.le_refl _⟩

theorem trans {s s' s'' : Session} (h : Silent s s') (h' : Silent s' s'') : Silent s s'' := by
  obtain ⟨m, hm, hp⟩ := h
  obtain ⟨n, hn, hq⟩ := h'
  exact ⟨m + n, fun limit => by rw [Nat.add_assoc, hm, hn], by omega⟩

/-- A step forward. -/
theorem of_step {s s' : Session} (h : s.step = (s', .ok none)) (hlt : s.machine.position < s'.machine.position) :
    Silent s s' :=
  ⟨1, fun limit => by rw [Nat.add_comm 1 limit, run, h], hlt⟩

theorem stops {code : Code} {s s' : Session} {result : Session × Outcome} (h : Silent s s')
    (h' : Stops code s' result) : Stops code s result := by
  obtain ⟨m, hm, hp⟩ := h
  obtain ⟨n, hn, hq⟩ := h'
  exact ⟨m + n, fun limit => by rw [Nat.add_assoc, hm, hn], by omega⟩

end Silent

namespace Becomes

theorem refl (s : Session) : Becomes 0 s s := rfl

/-- A run goes on from what the session has become. -/
theorem run_add {m : Nat} {s s' : Session} (h : Becomes m s s') (n : Nat) : s.run (m + n) = s'.run n := by
  induction m generalizing s with
  | zero =>
    obtain rfl : s = s' := congrArg Prod.fst h
    rw [Nat.zero_add]
  | succ m ih =>
    rw [Becomes, run] at h
    rw [Nat.add_right_comm, run]
    rcases hstep : s.step with ⟨next, fault | none | event⟩ <;> rw [hstep] at h
    · cases h
    · exact ih h
    · cases h

theorem trans {m n : Nat} {s s' s'' : Session} (h : Becomes m s s') (h' : Becomes n s' s'') :
    Becomes (m + n) s s'' :=
  (h.run_add n).trans h'

theorem of_step {s s' : Session} (h : s.step = (s', .ok none)) : Becomes 1 s s' := by
  rw [Becomes, run, h]
  rfl

theorem silent {n : Nat} {s s' : Session} (h : Becomes n s s')
    (hle : s.machine.position + n ≤ s'.machine.position) : Silent s s' :=
  ⟨n, h.run_add, hle⟩

end Becomes

variable {code : Code} {s : Session}

/-! ## Single steps -/

section Steps

variable {instruction : Instruction}

theorem step_eq (hr : s.Runs code) (hi : code.instructions[s.machine.position]? = some instruction) :
    s.step = ({ s with machine.position := s.machine.position + 1 } : Session).execute instruction := by
  obtain ⟨node, hnode, rfl⟩ := Option.map_eq_some_iff.1 hr
  simp only [step, hnode, CompiledNode.instruction?, hi, Option.getD_some]

theorem lt_size_of_getElem? (hi : code.instructions[s.machine.position]? = some instruction) :
    s.machine.position + 1 ≤ code.size :=
  (List.getElem?_eq_some_iff.1 hi).1

/-- A step that shows something. -/
theorem stops_event {s' : Session} {event : Event} (hi : code.instructions[s.machine.position]? = some instruction)
    (h : s.step = (s', .ok (some event))) : Stops code s (s', .event event) :=
  ⟨1, fun limit => by rw [Nat.add_comm 1 limit, run, h], lt_size_of_getElem? hi⟩

/-- A step that fails. -/
theorem stops_fault {s' : Session} {fault : SessionFault}
    (hi : code.instructions[s.machine.position]? = some instruction) (h : s.step = (s', .error fault)) :
    Stops code s (s', .fault fault) :=
  ⟨1, fun limit => by rw [Nat.add_comm 1 limit, run, h], lt_size_of_getElem? hi⟩

theorem position?_eq (hr : s.Runs code) (label : String) :
    s.program[s.machine.node]?.bind (·.position? label) = code.labels.lookup label := by
  obtain ⟨node, hnode, rfl⟩ := Option.map_eq_some_iff.1 hr
  rw [hnode]
  rfl

/-- A jump to a label of the node. -/
theorem jumpTo_eq (hr : s.Runs code) {label : String} {q : Nat} (hl : code.labels.lookup label = some q) :
    s.jumpTo label = ({ s with machine.position := q }, .ok none) := by
  rw [jumpTo, position?_eq hr, hl]

/-- A jump to a label that the node does not have. -/
theorem jumpTo_of_lookup_eq_none (hr : s.Runs code) {label : String} (hl : code.labels.lookup label = none) :
    s.jumpTo label = (s, .error (.script ⟨s.location 0, .unknownLabel label⟩)) := by
  rw [jumpTo, position?_eq hr, hl]

end Steps

/-! ## Whole runs -/

section Runs

variable {limit : Nat}

theorem resume_of_unfinished (hs : s.status = .running) (hf : s.machine.finished = false) (limit : Nat) :
    s.resume limit = s.run limit := by
  have hexpect : s.expect .resume = .ok () := if_pos hs
  rw [Session.resume, hexpect, hf]
  rfl

theorem resume_of_stops {code : Code} {result : Session × Outcome} (hs : s.status = .running)
    (hf : s.machine.finished = false) (h : Stops code s result) (hlimit : code.size ≤ limit) :
    s.resume limit = result := by
  obtain ⟨n, hn, hle⟩ := h
  rw [resume_of_unfinished hs hf, ← hn (limit - n), Nat.add_sub_cancel' (by omega)]

theorem resume_of_finished (hs : s.status = .running) (hf : s.machine.finished = true) : s.resume limit =
    ({ s with machine := {}, status := .complete }, .event (.dialogueComplete s.machine.node)) := by
  have hexpect : s.expect .resume = .ok () := if_pos hs
  rw [Session.resume, hexpect, hf]
  rfl

end Runs

/-! ## The code of expressions -/

/-- The session after code that makes something of the stack and reports errors. -/
def advance (s : Session) (count : Nat) (result : List Value × List ScriptError) : Session :=
  { s with
    machine := { s.machine with position := s.machine.position + count, stack := result.1 }
    reported := s.reported ++ result.2 }

theorem advance_advance (s : Session) (m n : Nat) (result : List Value × List ScriptError) (stack : List Value)
    (errors : List ScriptError) :
    (s.advance m result).advance n (stack, errors) = s.advance (m + n) (stack, result.2 ++ errors) := by
  simp only [advance, Nat.add_assoc, List.append_assoc]

/-- An instruction that only pushes a value. -/
theorem becomes_push {instruction : Instruction} {value : Value} (hr : s.Runs code)
    (hi : code.instructions[s.machine.position]? = some instruction)
    (h : ∀ p : Nat, ({ s with machine.position := p } : Session).execute instruction =
      (({ s with machine.position := p } : Session).push value, .ok none)) :
    Becomes 1 s (s.advance 1 (value :: s.machine.stack, [])) := by
  refine .of_step ?_
  rw [step_eq hr hi, h]
  simp [push, advance]

/-- A call of a function with the number of its arguments on top of the stack. -/
theorem becomes_call {function : String} {line : Nat} {count : Float32} {stack : List Value} (hr : s.Runs code)
    (hi : code.instructions[s.machine.position]? = some (.callFunction function line))
    (hs : s.machine.stack = .number count :: stack) : Becomes 1 s (s.advance 1
      ((s.library.apply s.view (s.location line) function (operands (Number.toCount count) stack).1).1 ::
        (operands (Number.toCount count) stack).2,
      (s.library.apply s.view (s.location line) function (operands (Number.toCount count) stack).1).2)) := by
  refine .of_step ?_
  have hview : ∀ (p : Nat) (t : List Value),
      ({ s with machine := { s.machine with position := p, stack := t } } : Session).view = s.view := fun _ _ => rfl
  rw [step_eq hr hi, execute]
  simp only [callFunction, pop, hs, Value.toNumber, popMany, operands, Library.apply, hview]
  cases s.library[function]? with
  | none => rfl
  | some found =>
    dsimp only
    cases found.call s.view _ with
    | ok value => simp [push, advance]
    | error fault => rfl

mutual

/-- **The code of an expression** takes a step for each instruction, moves past itself and makes of the stack what the
expression makes of it. -/
theorem becomes_expr (line : Nat) : ∀ (e : Expr) {s : Session}, s.Runs code →
    Code.At code s.machine.position (Code.ofList (Code.expr line e)) → Becomes (Code.expr line e).length s
      (s.advance (Code.expr line e).length (e.operate s.library s.view (s.location line) s.machine.stack))
  | .number _, _, hr, ha | .string _, _, hr, ha | .bool _, _, hr, ha | .null, _, hr, ha | .variable _, _, hr, ha =>
    becomes_push hr (Code.at_cons.1 ha).1 fun _ => rfl
  | .call function arguments, s, hr, ha => by
    obtain ⟨harguments, hcall⟩ := Code.at_ofList_append.1 ha
    obtain ⟨hcount, hfunction⟩ := Code.at_cons.1 hcall
    generalize hresult : Expr.operateAll s.library s.view (s.location line) arguments s.machine.stack = result
    have hpush := becomes_push (s := s.advance _ result) hr hcount fun _ => rfl
    rw [advance_advance] at hpush
    have happly := becomes_call (s := s.advance (_ + 1) (.number (Number.ofNat arguments.length) :: result.1,
      result.2 ++ [])) hr (Code.at_singleton.1 hfunction) rfl
    rw [advance_advance] at happly
    have h := becomes_exprs line arguments hr harguments
    rw [hresult] at h
    have h := (h.trans hpush).trans happly
    rw [List.append_nil, Nat.add_assoc] at h
    rw [Code.expr, List.length_append, Expr.operate, hresult]
    exact h

/-- The code of expressions, one after the other. -/
theorem becomes_exprs (line : Nat) : ∀ (es : List Expr) {s : Session}, s.Runs code →
    Code.At code s.machine.position (Code.ofList (Code.exprs line es)) → Becomes (Code.exprs line es).length s
      (s.advance (Code.exprs line es).length
        (Expr.operateAll s.library s.view (s.location line) es s.machine.stack))
  | [], s, _, _ => by
    have h : s.advance 0 (s.machine.stack, []) = s := by simp [advance]
    rw [show (Code.exprs line []).length = 0 from rfl, Expr.operateAll, h]
    exact .refl s
  | e :: rest, s, hr, ha => by
    obtain ⟨he, hrest⟩ := Code.at_ofList_append.1 ha
    have h := becomes_exprs line rest (s := s.advance _ (e.operate s.library s.view (s.location line) s.machine.stack))
      hr hrest
    rw [advance_advance] at h
    rw [Code.exprs, List.length_append]
    exact (becomes_expr line e hr he).trans h

end

theorem silent_push {instruction : Instruction} {value : Value} (hr : s.Runs code)
    (hi : code.instructions[s.machine.position]? = some instruction)
    (h : ∀ p : Nat, ({ s with machine.position := p } : Session).execute instruction =
      (({ s with machine.position := p } : Session).push value, .ok none)) :
    Silent s (s.advance 1 (value :: s.machine.stack, [])) :=
  (becomes_push hr hi h).silent (Nat.le_refl _)

theorem silent_exprs (line : Nat) (es : List Expr) (hr : s.Runs code)
    (ha : Code.At code s.machine.position (Code.ofList (Code.exprs line es))) :
    Silent s (s.advance (Code.exprs line es).length
      (Expr.operateAll s.library s.view (s.location line) es s.machine.stack)) :=
  (becomes_exprs line es hr ha).silent (Nat.le_refl _)

end Dialogue.Session
