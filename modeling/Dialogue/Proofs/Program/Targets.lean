import Mathlib
import Dialogue.Proofs.Program.Jumps

/-!
# Labels are sound

A node uses each of the labels that it takes at one place, and every label that a jump or an option with a body names is
set further on, before an instruction of the node (`soundLabels_node`). Which of the instructions that add options belong
to options with bodies, and which to links, cannot be told from the code alone; the statements tell it (`entries`): they
add what they offer in their order, a group before the bodies of its options.
-/

namespace Dialogue

/-- **What adds an option**: a link, or an option with a body. -/
inductive Entry where
  | link (line : Nat) (label : Option Template) (destination : String)
  | choice (choice : Choice)

/-- The instruction adds an option. -/
def Instruction.addsOption : Instruction → Bool
  | .addOption .. => true
  | _ => false

theorem Instruction.addsOption_of_computes {i : Instruction} (h : i.computes = true) : i.addsOption = false := by
  cases i <;> first | rfl | cases h

namespace Code

mutual

/-- **What a statement adds to the options**, in the order in which its code adds it. -/
def entries : Statement → List Entry
  | .link line label destination => [.link line label destination]
  | .conditional branches => clausesEntries branches
  | .options choices => choices.map .choice ++ choicesEntries choices
  | _ => []

/-- What statements add to the options, one after the other. -/
def allEntries : List Statement → List Entry
  | [] => []
  | s :: rest => entries s ++ allEntries rest

def clausesEntries : List Clause → List Entry
  | [] => []
  | .mk _ _ body :: rest => allEntries body ++ clausesEntries rest

def choicesEntries : List Choice → List Entry
  | [] => []
  | .mk _ _ _ _ body :: rest => allEntries body ++ choicesEntries rest

end

/-- **The label is set further on**, before an instruction of the code. -/
def SetAhead (code : Code) (k : Nat) (label : String) : Prop :=
  ∃ q, code.labels.lookup label = some q ∧ k < q ∧ q < code.size

/-- **The instruction adds the option**; that of an option with a body names a label that is set further on. -/
def Adds (code : Code) : Entry → Instruction × Nat → Prop
  | .link line none destination, (i, _) => i = .addOption destination 0 destination [] true line
  | .link line (some text) destination, (i, _) => i = .addOption text.text text.holes.length destination [] false line
  | .choice (.mk line text _ tags _), (i, k) => ∃ label,
    i = .addOption text.text text.holes.length label tags false line ∧ SetAhead code k label

/-- **The instructions that add options**, with their positions, when the code stands at a position. -/
def additions (position : Nat) (code : Code) : List (Instruction × Nat) :=
  (code.instructions.zipIdx position).filter fun entry => entry.1.addsOption

/-! ## Additions of a stretch of code -/

section Additions

variable {p : Nat}

@[simp] theorem additions_append (a b : Code) : additions p (a ++ b) = additions p a ++ additions (p + a.size) b := by
  rw [additions, instructions_append, List.zipIdx_append, List.filter_append]
  rfl

@[simp] theorem additions_nil : additions p (ofList []) = [] := rfl

@[simp] theorem additions_mark (label : String) : additions p (mark label) = [] := rfl

theorem additions_cons (i : Instruction) (is : List Instruction) : additions p (ofList (i :: is)) =
    (if i.addsOption then [(i, p)] else []) ++ additions (p + 1) (ofList is) := by
  simp only [additions, ofList, List.zipIdx_cons, List.filter_cons]
  cases i.addsOption <;> rfl

theorem additions_computing : ∀ {es : List Instruction} {p : Nat}, (∀ i ∈ es, i.computes = true) →
    additions p (ofList es) = []
  | [], _, _ => rfl
  | e :: rest, p, hes => by
    obtain ⟨he, hrest⟩ := List.forall_mem_cons.1 hes
    rw [additions_cons, Instruction.addsOption_of_computes he]
    exact additions_computing hrest

@[simp] theorem additions_expr (line : Nat) (e : Expr) (is : List Instruction) :
    additions p (ofList (expr line e ++ is)) = additions (p + (expr line e).length) (ofList is) := by
  rw [ofList_append, additions_append, additions_computing (computes_of_mem_expr line e)]
  rfl

@[simp] theorem additions_exprs (line : Nat) (es : List Expr) (is : List Instruction) :
    additions p (ofList (exprs line es ++ is)) = additions (p + (exprs line es).length) (ofList is) := by
  rw [ofList_append, additions_append, additions_computing (computes_of_mem_exprs line es)]
  rfl

end Additions

/-! ## Each entry is added -/

section Adding

variable {script : List Statement}

/-- **The header of a group adds its options**, when their labels are set behind it. -/
theorem adds_headers : ∀ {choices : List Choice} {used p : Nat},
    (∀ label ∈ optionLabels used choices, ∃ q, (node script).labels.lookup label = some q ∧
      p + (headers used choices).1.size ≤ q) →
    List.Forall₂ (Adds (node script)) (choices.map .choice) (additions p (headers used choices).1)
  | [], _, _, _ => .nil
  | .mk line text none tags body :: rest, used, p, hready => by
    simp only [headers, size_append, size_ofList, List.length_append, List.length_singleton] at hready ⊢
    obtain ⟨⟨q, hq, hle⟩, hrest⟩ := List.forall_mem_cons.1 hready
    rw [List.map_cons, additions_append, additions_exprs, additions_cons]
    refine .cons ⟨_, rfl, q, hq, by omega, (lookup_node hq).1⟩ (adds_headers fun label hlabel => ?_)
    obtain ⟨q, hq, hle⟩ := hrest label hlabel
    refine ⟨q, hq, ?_⟩
    rw [size_ofList, List.length_append, List.length_singleton]
    omega
  | .mk line text (some condition) tags body :: rest, used, p, hready => by
    simp only [headers, size_append, size_ofList, size_mark, List.length_append, List.length_singleton] at hready ⊢
    obtain ⟨⟨q, hq, hle⟩, hrest⟩ := List.forall_mem_cons.1 hready
    simp only [List.map_cons, additions_append, additions_expr, additions_exprs, additions_cons, additions_mark]
    refine .cons ⟨_, rfl, q, hq, ?_, (lookup_node hq).1⟩ (adds_headers fun label hlabel => ?_)
    · rw [size_ofList, List.length_append, List.length_singleton]
      omega
    · obtain ⟨q, hq, hle⟩ := hrest label hlabel
      refine ⟨q, hq, ?_⟩
      simp only [size_append, size_ofList, size_mark, List.length_append, List.length_singleton]
      omega

mutual

/-- **The code of a statement adds its entries** and nothing else. -/
theorem adds_statement : ∀ {s : Statement} {used p : Nat}, At (node script) p (statement used s).1 →
    List.Forall₂ (Adds (node script)) (entries s) (additions p (statement used s).1)
  | .line .., _, _, _ | .command .., _, _, _ => by
    rw [statement, additions_exprs]
    exact .nil
  | .set .., _, _, _ => by
    rw [statement, additions_expr]
    exact .nil
  | .jump .., _, _, _ | .stop, _, _, _ => .nil
  | .link _ none _, _, _, _ => .cons rfl .nil
  | .link _ (some _) _, _, _, _ => by
    rw [statement, additions_exprs]
    exact .cons rfl .nil
  | .conditional branches, _, _, ha => by
    rw [statement, additions_append, additions_mark, List.append_nil]
    exact adds_clauses (At.left ha)
  | .options choices, _, p, ha => by
    have hready := (offering_headers ha.left).ready
    have hheaders := adds_headers fun label hlabel => by
      obtain ⟨q, hq, hlt⟩ := hready label hlabel
      exact ⟨q, hq, Nat.le_of_succ_le (Nat.le_of_lt hlt)⟩
    simp only [statement, additions_append, additions_mark, List.append_nil] at ha ⊢
    refine List.rel_append ?_ (adds_bodies ha.left.right)
    simpa [additions_cons, Instruction.addsOption] using hheaders

theorem adds_statements : ∀ {body : List Statement} {used p : Nat}, At (node script) p (statements used body).1 →
    List.Forall₂ (Adds (node script)) (allEntries body) (additions p (statements used body).1)
  | [], _, _, _ => .nil
  | s :: rest, used, p, ha => by
    rw [statements, additions_append]
    exact List.rel_append (adds_statement (At.left ha)) (adds_statements (At.right ha))

theorem adds_clauses : ∀ {branches : List Clause} {done : String} {used p : Nat},
    At (node script) p (clauses done used branches).1 →
    List.Forall₂ (Adds (node script)) (clausesEntries branches) (additions p (clauses done used branches).1)
  | [], _, _, _, _ => .nil
  | .mk _ none body :: rest, done, used, p, ha => by
    simp only [clauses, additions_append] at ha ⊢
    refine List.rel_append ?_ (adds_clauses ha.right)
    simpa [additions_cons, Instruction.addsOption] using adds_statements ha.left.left
  | .mk line (some condition) body :: rest, done, used, p, ha => by
    simp only [clauses, additions_append] at ha ⊢
    refine List.rel_append ?_ (adds_clauses ha.right)
    simpa [additions_cons, Instruction.addsOption] using adds_statements ha.left.left.left.left.right

theorem adds_bodies : ∀ {choices : List Choice} {done : String} {header used p : Nat},
    At (node script) p (bodies done header used choices).1 →
    List.Forall₂ (Adds (node script)) (choicesEntries choices) (additions p (bodies done header used choices).1)
  | [], _, _, _, _, _ => .nil
  | .mk _ _ _ _ body :: rest, done, header, used, p, ha => by
    simp only [bodies, additions_append] at ha ⊢
    refine List.rel_append ?_ (adds_bodies ha.right)
    simpa [additions_cons, Instruction.addsOption] using adds_statements ha.left.left.right

end

end Adding

/-! ## Labels of a node -/

/-- **The labels of a node are sound.** -/
structure SoundLabels (body : List Statement) (code : Code) : Prop where
  distinct : code.names.Nodup
  /-- Each label that is taken, from the first to the last number, is set at one place. -/
  once : (code.names.map number).Perm (List.range' 1 (statements 0 body).2)
  jumps : ∀ k label, code.instructions[k]? = some (.jumpTo label) ∨ code.instructions[k]? = some (.jumpIfFalse label) →
    SetAhead code k label
  /-- What the body offers is added in its order, and each option with a body names a label further on. -/
  additions : List.Forall₂ (Adds code) (allEntries body) (additions 0 code)

/-- A label that is named stands further on. -/
theorem setAhead_of_placed {body : List Statement} {k : Nat} {label : String}
    (h : ∃ q, (node body).labels.lookup label = some q ∧ k < q) : SetAhead (node body) k label := by
  obtain ⟨q, hq, hlt⟩ := h
  exact ⟨q, hq, hlt, (lookup_node hq).1⟩

theorem additions_ending (p : Nat) (links : Bool) : additions p (ending links) = [] := by
  cases links <;> rfl

/-- **The labels of every node are sound.** -/
theorem soundLabels_node (body : List Statement) : SoundLabels body (node body) where
  distinct := nodup_names_node body
  once := (allocated_node body).numbers
  jumps k label h := by
    rcases h with h | h <;> exact setAhead_of_placed (placed_node h)
  additions := by
    have hadds := adds_statements (At.left (at_node body))
    have hending : Code.additions 0 (node body) = Code.additions 0 (statements 0 body).1 := by
      show Code.additions 0 ((statements 0 body).1 ++ ending (haveLink body)) = _
      rw [additions_append, additions_ending, List.append_nil]
    rwa [hending]

end Code

end Dialogue
