import Mathlib
import Dialogue.Proofs.Program.Leads

/-!
# Where jumps lead

A label of a node stands before one of its instructions, and never before the jump to the option that was taken
(`lookup_node`). A jump to a named label leads forward, and an option with a body is added where the code can only go on
to the place at which its group is offered, with its label behind that place (`placed_node`). Nothing is said about where
the destination of a link leads, when it happens to be the name of a label.
-/

namespace Dialogue

namespace Code

/-! ## Destinations of links -/

mutual

/-- **The destinations of the links in a statement.** -/
def links : Statement → List String
  | .link _ _ destination => [destination]
  | .conditional branches => clausesLinks branches
  | .options choices => choicesLinks choices
  | _ => []

/-- The destinations of the links in statements. -/
def allLinks : List Statement → List String
  | [] => []
  | s :: rest => links s ++ allLinks rest

def clausesLinks : List Clause → List String
  | [] => []
  | .mk _ _ body :: rest => allLinks body ++ clausesLinks rest

def choicesLinks : List Choice → List String
  | [] => []
  | .mk _ _ _ _ body :: rest => allLinks body ++ choicesLinks rest

end

end Code

/-- The instruction puts a value on the stack. -/
def Instruction.computes : Instruction → Bool
  | .pushString _ | .pushNumber _ | .pushBool _ | .pushNull | .pushVariable _ | .callFunction _ _ => true
  | _ => false

namespace Code

mutual

theorem computes_of_mem_expr (line : Nat) : ∀ (e : Expr), ∀ i ∈ expr line e, i.computes = true
  | .number _ | .string _ | .bool _ | .null | .variable _ => fun i hi => by
    rw [List.mem_singleton.1 hi]
    rfl
  | .call function arguments => fun i hi => by
    rcases List.mem_append.1 hi with hi | hi
    · exact computes_of_mem_exprs line arguments i hi
    · rcases List.mem_pair.1 hi with rfl | rfl <;> rfl

theorem computes_of_mem_exprs (line : Nat) : ∀ (es : List Expr), ∀ i ∈ exprs line es, i.computes = true
  | [] => fun _ hi => absurd hi List.not_mem_nil
  | e :: rest => fun i hi => by
    rcases List.mem_append.1 hi with hi | hi
    · exact computes_of_mem_expr line e i hi
    · exact computes_of_mem_exprs line rest i hi

end

/-! ## Where labels stand -/

/-- **No label stands before a jump to what was taken**, and none behind the end of the code. -/
structure Tidy (code : Code) : Prop where
  head : code.instructions[0]? ≠ some .jump
  labels : ∀ mark ∈ code.labels, mark.2 ≤ code.size ∧ code.instructions[mark.2]? ≠ some .jump

theorem Tidy.append {a b : Code} (ha : Tidy a) (hb : Tidy b) : Tidy (a ++ b) where
  head := by
    rw [instructions_append]
    cases h : a.instructions with
    | nil => exact hb.head
    | cons i is =>
      have hhead := ha.head
      rw [h] at hhead
      exact hhead
  labels := by
    intro mark hmark
    rw [size_append, instructions_append]
    rw [labels_append] at hmark
    rcases List.mem_append.1 hmark with hmark | hmark
    · obtain ⟨hle, hjump⟩ := ha.labels mark hmark
      refine ⟨by omega, ?_⟩
      rcases Nat.lt_or_eq_of_le hle with hlt | heq
      · rwa [List.getElem?_append_left hlt]
      · rw [List.getElem?_append_right (by rw [heq]; exact Nat.le_refl _), heq, size, Nat.sub_self]
        exact hb.head
    · obtain ⟨inner, hinner, rfl⟩ := List.mem_map.1 hmark
      obtain ⟨hle, hjump⟩ := hb.labels inner hinner
      refine ⟨by dsimp only; omega, ?_⟩
      rw [List.getElem?_append_right (Nat.le_add_left a.size inner.2)]
      rwa [size, Nat.add_sub_cancel]

theorem tidy_mark (label : String) : Tidy (mark label) where
  head := nofun
  labels := by
    intro m hm
    rw [List.mem_singleton.1 hm]
    exact ⟨Nat.le_refl _, nofun⟩

theorem tidy_nil : Tidy (ofList []) where
  head := nofun
  labels := fun _ hm => absurd hm List.not_mem_nil

theorem tidy_cons {i : Instruction} {is : List Instruction} (h : i ≠ .jump) : Tidy (ofList (i :: is)) where
  head := fun hi => h (Option.some.inj hi)
  labels := fun _ hm => absurd hm List.not_mem_nil

/-- Code that begins with expressions does not begin with a jump. -/
theorem tidy_computing {es is : List Instruction} (hes : ∀ i ∈ es, i.computes = true) (h : Tidy (ofList is)) :
    Tidy (ofList (es ++ is)) := by
  cases es with
  | nil => exact h
  | cons e rest =>
    refine tidy_cons ?_
    rintro rfl
    exact Bool.false_ne_true (hes .jump List.mem_cons_self)

theorem tidy_exprs (line : Nat) (es : List Expr) {is : List Instruction} (h : Tidy (ofList is)) :
    Tidy (ofList (exprs line es ++ is)) :=
  tidy_computing (computes_of_mem_exprs line es) h

theorem tidy_expr (line : Nat) (e : Expr) {is : List Instruction} (h : Tidy (ofList is)) :
    Tidy (ofList (expr line e ++ is)) :=
  tidy_computing (computes_of_mem_expr line e) h

theorem tidy_headers : ∀ (used : Nat) (choices : List Choice), Tidy (headers used choices).1
  | _, [] => tidy_nil
  | used, .mk line text none tags body :: rest => by
    simp only [headers]
    exact .append (tidy_exprs _ _ (tidy_cons (by simp))) (tidy_headers _ rest)
  | used, .mk line text (some condition) tags body :: rest => by
    simp only [headers]
    refine .append (.append (.append (.append ?_ ?_) (tidy_mark _)) (tidy_cons (by simp))) (tidy_headers _ rest)
    · exact tidy_expr _ _ (tidy_cons (by simp))
    · exact tidy_exprs _ _ (tidy_cons (by simp))

mutual

theorem tidy_statement : ∀ (used : Nat) (s : Statement), Tidy (statement used s).1
  | _, .line .. | _, .command .. | _, .link _ (some _) _ => tidy_exprs _ _ (tidy_cons (by simp))
  | _, .set .. => tidy_expr _ _ (tidy_cons (by simp))
  | _, .link _ none _ | _, .jump .. | _, .stop => tidy_cons (by simp)
  | used, .conditional branches => by
    simp only [statement]
    exact .append (tidy_clauses _ _ branches) (tidy_mark _)
  | used, .options choices => by
    simp only [statement]
    exact .append (.append (.append (tidy_headers _ choices) (tidy_cons (by simp))) (tidy_bodies _ _ _ choices))
      (tidy_mark _)

theorem tidy_statements : ∀ (used : Nat) (body : List Statement), Tidy (statements used body).1
  | _, [] => tidy_nil
  | used, s :: rest => by
    simp only [statements]
    exact .append (tidy_statement used s) (tidy_statements _ rest)

theorem tidy_clauses : ∀ (done : String) (used : Nat) (branches : List Clause), Tidy (clauses done used branches).1
  | _, _, [] => tidy_nil
  | done, used, .mk _ none body :: rest => by
    simp only [clauses]
    exact .append (.append (tidy_statements used body) (tidy_cons (by simp))) (tidy_clauses done _ rest)
  | done, used, .mk line (some condition) body :: rest => by
    simp only [clauses]
    refine .append (.append (.append (.append (.append ?_ ?_) ?_) (tidy_mark _)) ?_) (tidy_clauses done _ rest)
    · exact tidy_expr _ _ (tidy_cons (by simp))
    · exact tidy_statements _ body
    · exact tidy_cons (by simp)
    · exact tidy_cons (by simp)

theorem tidy_bodies : ∀ (done : String) (header used : Nat) (choices : List Choice),
    Tidy (bodies done header used choices).1
  | _, _, _, [] => tidy_nil
  | done, header, used, .mk _ _ _ _ body :: rest => by
    simp only [bodies]
    exact .append (.append (.append (.append (tidy_mark _) (tidy_cons (by simp))) (tidy_statements used body))
      (tidy_cons (by simp))) (tidy_bodies done _ _ rest)

end

theorem tidy_ending (links : Bool) : Tidy (ending links) := by
  cases links <;> exact tidy_cons (by simp)

theorem size_ending_pos (links : Bool) : 0 < (ending links).size := by
  cases links <;> decide

theorem lt_size_ending {links : Bool} {i : Nat} {instruction : Instruction}
    (h : (ending links).instructions[i]? = some instruction) (hstop : instruction ≠ .stop)
    (hrun : instruction ≠ .runNode) : i + 1 < (ending links).size := by
  have hlt : i < (ending links).size := (List.getElem?_eq_some_iff.1 h).1
  cases links with
  | false =>
    obtain rfl : i = 0 := Nat.lt_one_iff.1 hlt
    exact absurd (Option.some.inj h).symm hstop
  | true =>
    have hne : i ≠ 1 := by
      rintro rfl
      exact hrun (Option.some.inj h).symm
    have hsize : (ending true).size = 2 := rfl
    omega

theorem tidy_node (body : List Statement) : Tidy (node body) :=
  .append (tidy_statements 0 body) (tidy_ending _)

theorem size_node_pos (body : List Statement) : 0 < (node body).size := by
  have hsize : (node body).size = (statements 0 body).1.size + (ending (haveLink body)).size := size_append _ _
  have hpos := size_ending_pos (haveLink body)
  omega

/-- **A label of a node stands before an instruction**, which is not the jump to what was taken. -/
theorem lookup_node {body : List Statement} {label : String} {q : Nat} (h : (node body).labels.lookup label = some q) :
    q < (node body).size ∧ (node body).instructions[q]? ≠ some .jump := by
  obtain ⟨before, later, hlabels, -⟩ := List.lookup_eq_some_iff.1 h
  have hmem : (label, q) ∈ (node body).labels := by
    rw [hlabels]
    exact List.mem_append_right _ List.mem_cons_self
  refine ⟨?_, ((tidy_node body).labels _ hmem).2⟩
  have hinside : (label, q) ∈ (statements 0 body).1.labels := by
    rw [node, labels_append] at hmem
    rcases List.mem_append.1 hmem with hmem | hmem
    · exact hmem
    · exact absurd hmem List.not_mem_nil
  have hle : q ≤ (statements 0 body).1.size := ((tidy_statements 0 body).labels _ hinside).1
  have hsize : (node body).size = (statements 0 body).1.size + (ending (haveLink body)).size := size_append _ _
  have hpos := size_ending_pos (haveLink body)
  omega

/-- **A node does not run past its end**: its last instruction completes it. -/
theorem lt_size_node {body : List Statement} {p : Nat} {instruction : Instruction}
    (h : (node body).instructions[p]? = some instruction) (hstop : instruction ≠ .stop)
    (hrun : instruction ≠ .runNode) : p + 1 < (node body).size := by
  have hlt : p < (node body).size := (List.getElem?_eq_some_iff.1 h).1
  have hsize : (node body).size = (statements 0 body).1.size + (ending (haveLink body)).size := size_append _ _
  by_cases hp : p < (statements 0 body).1.size
  · have hpos := size_ending_pos (haveLink body)
    omega
  · have hinstruction : (ending (haveLink body)).instructions[p - (statements 0 body).1.size]? = some instruction := by
      rw [← h]
      exact (List.getElem?_append_right (Nat.le_of_not_lt hp)).symm
    have hi : p - (statements 0 body).1.size + 1 < (ending (haveLink body)).size :=
      lt_size_ending hinstruction hstop hrun
    omega

/-! ## What each instruction needs -/

/-- **Every instruction of a stretch of code that stands at a position has a property there.** -/
def Each (P : Nat → Instruction → Prop) (position : Nat) (piece : Code) : Prop :=
  ∀ i instruction, piece.instructions[i]? = some instruction → P (position + i) instruction

section Each

variable {P : Nat → Instruction → Prop} {p : Nat}

theorem Each.append {a b : Code} (ha : Each P p a) (hb : Each P (p + a.size) b) : Each P p (a ++ b) := by
  intro i instruction h
  rw [instructions_append] at h
  by_cases hlt : i < a.instructions.length
  · rw [List.getElem?_append_left hlt] at h
    exact ha i instruction h
  · have hle := Nat.le_of_not_lt hlt
    rw [List.getElem?_append_right hle] at h
    have hright := hb _ instruction h
    rwa [Nat.add_assoc, size, Nat.add_sub_cancel' hle] at hright

theorem each_nil : Each P p (ofList []) :=
  fun _ _ h => absurd h (by simp [ofList])

theorem each_mark {label : String} : Each P p (mark label) :=
  fun _ _ h => absurd h (by simp [mark])

theorem each_cons {instruction : Instruction} {is : List Instruction} (h : P p instruction)
    (hs : Each P (p + 1) (ofList is)) : Each P p (ofList (instruction :: is)) := by
  intro i found hi
  cases i with
  | zero =>
    cases hi
    exact h
  | succ i =>
    have hrest := hs i found hi
    rwa [Nat.add_assoc, Nat.add_comm 1] at hrest

theorem each_computing {es is : List Instruction} (hes : ∀ i ∈ es, i.computes = true)
    (hcomputes : ∀ q i, i.computes = true → P q i) (his : Each P (p + es.length) (ofList is)) :
    Each P p (ofList (es ++ is)) := by
  rw [ofList_append]
  refine .append ?_ his
  intro i instruction hi
  exact hcomputes _ _ (hes _ (List.mem_of_getElem? hi))

end Each

/-- What stands between a place in the header of a group and the place at which its options, with these labels, are
offered. -/
def Gathers (whole : Code) (names : List String) (j k : Nat) : Instruction → Prop
  | .jumpIfFalse label => ∃ q, whole.labels.lookup label = some q ∧ k < q ∧ q ≤ j
  | .addOption _ _ destination _ _ _ => destination ∈ names
  | .pop => True
  | instruction => instruction.computes = true

/-- **From a place on the code can only go on to where a group is offered**, and the labels of its options stand behind
the jump to the one that is taken. -/
structure Offering (whole : Code) (names : List String) (p j : Nat) : Prop where
  le : p ≤ j
  gathers : ∀ k, p ≤ k → k < j → ∃ instruction, whole.instructions[k]? = some instruction ∧
    Gathers whole names j k instruction
  shows : whole.instructions[j]? = some .showOptions
  jumps : whole.instructions[j + 1]? = some .jump
  ready : ∀ name ∈ names, ∃ q, whole.labels.lookup name = some q ∧ j + 1 < q

/-- The label belongs to an option of a group that is yet to be offered. -/
def Awaited (whole : Code) (p : Nat) (label : String) : Prop :=
  ∃ names j, Offering whole names p j ∧ label ∈ names

/-- **What an instruction needs of the code around it**, in a node with links to these destinations. -/
def Placed (links : List String) (whole : Code) (k : Nat) : Instruction → Prop
  | .jumpTo label | .jumpIfFalse label => ∃ q, whole.labels.lookup label = some q ∧ k < q
  | .jump => ∃ j, k = j + 1 ∧ whole.instructions[j]? = some .showOptions
  | .addOption _ _ destination _ _ _ => destination ∈ links ∨ Awaited whole (k + 1) destination
  | _ => True

variable {whole : Code}

theorem gathers_of_computes {names : List String} {j k : Nat} {i : Instruction} (h : i.computes = true) :
    Gathers whole names j k i := by
  cases i <;> first | exact h | cases h

theorem placed_of_computes {links : List String} {k : Nat} {i : Instruction} (h : i.computes = true) :
    Placed links whole k i := by
  cases i <;> trivial

theorem Offering.mono {names : List String} {p q j : Nat} (h : Offering whole names p j) (hle : p ≤ q) (hq : q ≤ j) :
    Offering whole names q j where
  le := hq
  gathers k hk hj := h.gathers k (hle.trans hk) hj
  shows := h.shows
  jumps := h.jumps
  ready := h.ready

theorem placed_of_gathers {links names : List String} {j k : Nat} {i : Instruction}
    (h : Offering whole names (k + 1) j) (hi : Gathers whole names j k i) : Placed links whole k i := by
  cases i with
  | jumpIfFalse label =>
    obtain ⟨q, hq, hlt, -⟩ := hi
    exact ⟨q, hq, hlt⟩
  | addOption => exact .inr ⟨names, j, h, hi⟩
  | jumpTo | jump => cases hi
  | _ => trivial

theorem each_headers {names : List String} {j : Nat} : ∀ {choices : List Choice} {used p : Nat},
    optionLabels used choices ⊆ names → At whole p (headers used choices).1 → p + (headers used choices).1.size ≤ j →
    Each (Gathers whole names j) p (headers used choices).1
  | [], _, _, _, _, _ => each_nil
  | .mk line text none tags body :: rest, used, p, hnames, ha, hj => by
    obtain ⟨hname, hrest⟩ := List.cons_subset.1 hnames
    simp only [headers, size_append, size_ofList] at ha hj ⊢
    refine .append ?_ (each_headers hrest ha.right ?_)
    · exact each_computing (computes_of_mem_exprs line text.holes) (fun _ _ => gathers_of_computes)
        (each_cons hname each_nil)
    · rw [size_ofList]
      omega
  | .mk line text (some condition) tags body :: rest, used, p, hnames, ha, hj => by
    obtain ⟨hname, hrest⟩ := List.cons_subset.1 hnames
    simp only [headers] at ha hj ⊢
    have hskip := at_mark.1 ha.left.left.right
    refine .append (.append (.append (.append ?_ ?_) each_mark) ?_) (each_headers hrest ha.right ?_)
    · refine each_computing (computes_of_mem_expr line condition) (fun _ _ => gathers_of_computes)
        (each_cons ⟨_, hskip, ?_, ?_⟩ each_nil)
      · simp only [size_append, size_ofList, List.length_append, List.length_singleton]
        omega
      · simp only [size_append, size_ofList, size_mark, List.length_append, List.length_singleton] at hj ⊢
        omega
    · exact each_computing (computes_of_mem_exprs line text.holes) (fun _ _ => gathers_of_computes)
        (each_cons hname each_nil)
    · exact each_cons trivial each_nil
    · rw [size_append] at hj
      omega

/-- **The header of a group goes on to where the group is offered.** -/
theorem offering_headers {done : String} {used last p : Nat} {choices : List Choice}
    (ha : At whole p ((headers used choices).1 ++ ofList [.showOptions, .jump] ++ (bodies done used last choices).1)) :
    Offering whole (optionLabels used choices) p (p + (headers used choices).1.size) where
  le := Nat.le_add_right _ _
  gathers k hk hj := by
    obtain ⟨i, rfl⟩ := Nat.exists_eq_add_of_le hk
    have hi := List.getElem?_eq_getElem (Nat.lt_of_add_lt_add_left hj)
    exact ⟨_, ha.left.left.instructions i _ hi,
      each_headers (List.Subset.refl _) ha.left.left (Nat.le_refl _) i _ hi⟩
  shows := (at_cons.1 ha.left.right).1
  jumps := (at_cons.1 (at_cons.1 ha.left.right).2).1
  ready name hname := by
    obtain ⟨inside, -, hperm⟩ := allocated_bodies done used last choices
    have hmem : name ∈ (bodies done used last choices).1.names := hperm.mem_iff.2 (List.mem_append_left _ hname)
    obtain ⟨⟨_, i⟩, hi, rfl⟩ := List.mem_map.1 hmem
    refine ⟨_, ha.right.labels _ i hi, ?_⟩
    simp only [size_append, size_ofList, List.length_cons, List.length_nil]
    omega

section Placing

variable {links : List String}

theorem each_exprs {line p : Nat} {es : List Expr} {is : List Instruction}
    (his : Each (Placed links whole) (p + (exprs line es).length) (ofList is)) :
    Each (Placed links whole) p (ofList (exprs line es ++ is)) :=
  each_computing (computes_of_mem_exprs line es) (fun _ _ => placed_of_computes) his

theorem each_expr {line p : Nat} {e : Expr} {is : List Instruction}
    (his : Each (Placed links whole) (p + (expr line e).length) (ofList is)) :
    Each (Placed links whole) p (ofList (expr line e ++ is)) :=
  each_computing (computes_of_mem_expr line e) (fun _ _ => placed_of_computes) his

mutual

/-- **The code of a statement has what it needs.** -/
theorem each_statement : ∀ {s : Statement} {used p : Nat}, Code.links s ⊆ links → At whole p (statement used s).1 →
    Each (Placed links whole) p (statement used s).1
  | .line .., _, _, _, _ | .command .., _, _, _, _ => each_exprs (each_cons trivial each_nil)
  | .set .., _, _, _, _ => each_expr (each_cons trivial (each_cons trivial each_nil))
  | .link _ none _, _, _, hlinks, _ => each_cons (.inl (hlinks List.mem_cons_self)) each_nil
  | .link _ (some _) _, _, _, hlinks, _ => each_exprs (each_cons (.inl (hlinks List.mem_cons_self)) each_nil)
  | .jump .., _, _, _, _ => each_cons trivial (each_cons trivial each_nil)
  | .stop, _, _, _, _ => each_cons trivial each_nil
  | .conditional branches, _, _, hlinks, ha => by
    simp only [statement] at ha ⊢
    exact .append (each_clauses hlinks ha.left (at_mark.1 ha.right) (Nat.le_refl _)) each_mark
  | .options choices, _, p, hlinks, ha => by
    simp only [statement] at ha ⊢
    have hoffering := offering_headers ha.left
    refine .append (.append (.append ?_ ?_) (each_bodies hlinks ha.left.right (at_mark.1 ha.right) ?_)) each_mark
    · intro i instruction hi
      have hlt := (List.getElem?_eq_some_iff.1 hi).1
      have hgathers := each_headers (List.Subset.refl _) ha.left.left.left (Nat.le_refl _) i instruction hi
      exact placed_of_gathers (hoffering.mono (by omega) (Nat.add_lt_add_left hlt p)) hgathers
    · exact each_cons trivial (each_cons ⟨_, rfl, hoffering.shows⟩ each_nil)
    · rw [size_append _ (bodies _ _ _ _).1]
      omega

theorem each_statements : ∀ {body : List Statement} {used p : Nat}, allLinks body ⊆ links →
    At whole p (statements used body).1 → Each (Placed links whole) p (statements used body).1
  | [], _, _, _, _ => each_nil
  | s :: rest, used, p, hlinks, ha => by
    obtain ⟨hs, hrest⟩ := List.append_subset.1 hlinks
    simp only [statements] at ha ⊢
    exact .append (each_statement hs ha.left) (each_statements hrest ha.right)

/-- The branches of a conditional that ends behind them. -/
theorem each_clauses : ∀ {branches : List Clause} {done : String} {used p q : Nat}, clausesLinks branches ⊆ links →
    At whole p (clauses done used branches).1 → whole.labels.lookup done = some q →
    p + (clauses done used branches).1.size ≤ q → Each (Placed links whole) p (clauses done used branches).1
  | [], _, _, _, _, _, _, _, _ => each_nil
  | .mk _ none body :: rest, done, used, p, q, hlinks, ha, hdone, hq => by
    obtain ⟨hbody, hrest⟩ := List.append_subset.1 hlinks
    simp only [clauses] at ha hq ⊢
    simp only [size_append, size_ofList, List.length_singleton] at hq
    refine .append (.append (each_statements hbody ha.left.left) (each_cons ⟨q, hdone, by omega⟩ each_nil))
      (each_clauses hrest ha.right hdone ?_)
    simp only [size_append, size_ofList, List.length_singleton]
    omega
  | .mk line (some condition) body :: rest, done, used, p, q, hlinks, ha, hdone, hq => by
    obtain ⟨hbody, hrest⟩ := List.append_subset.1 hlinks
    simp only [clauses] at ha hq ⊢
    have hskip := at_mark.1 ha.left.left.right
    simp only [size_append, size_ofList, size_mark, List.length_append, List.length_cons, List.length_nil] at hq hskip
    refine .append (.append (.append (.append (.append ?_ ?_) ?_) each_mark) (each_cons trivial each_nil))
      (each_clauses hrest ha.right hdone ?_)
    · exact each_expr (each_cons ⟨_, hskip, by omega⟩ (each_cons trivial each_nil))
    · exact each_statements hbody ha.left.left.left.left.right
    · refine each_cons ⟨q, hdone, ?_⟩ each_nil
      simp only [size_append, size_ofList, List.length_append, List.length_cons, List.length_nil]
      omega
    · simp only [size_append, size_ofList, size_mark, List.length_append, List.length_cons, List.length_nil]
      omega

/-- The bodies of a group that ends behind them. -/
theorem each_bodies : ∀ {choices : List Choice} {done : String} {header used p q : Nat},
    choicesLinks choices ⊆ links → At whole p (bodies done header used choices).1 →
    whole.labels.lookup done = some q → p + (bodies done header used choices).1.size ≤ q →
    Each (Placed links whole) p (bodies done header used choices).1
  | [], _, _, _, _, _, _, _, _, _ => each_nil
  | .mk _ _ _ _ body :: rest, done, header, used, p, q, hlinks, ha, hdone, hq => by
    obtain ⟨hbody, hrest⟩ := List.append_subset.1 hlinks
    simp only [bodies] at ha hq ⊢
    simp only [size_append, size_ofList, size_mark, List.length_singleton] at hq
    refine .append (.append (.append (.append each_mark (each_cons trivial each_nil)) ?_) ?_)
      (each_bodies hrest ha.right hdone ?_)
    · exact each_statements hbody ha.left.left.right
    · refine each_cons ⟨q, hdone, ?_⟩ each_nil
      simp only [size_append, size_ofList, size_mark, List.length_singleton]
      omega
    · simp only [size_append, size_ofList, size_mark, List.length_singleton]
      omega

end

end Placing

/-- **Every instruction of a node has what it needs.** -/
theorem placed_node {body : List Statement} {k : Nat} {instruction : Instruction}
    (h : (node body).instructions[k]? = some instruction) : Placed (allLinks body) (node body) k instruction := by
  have heach : Each (Placed (allLinks body) (node body)) 0 ((statements 0 body).1 ++ ending (haveLink body)) := by
    refine .append (each_statements (List.Subset.refl _) (At.left (at_node body))) ?_
    cases haveLink body with
    | false => exact each_cons trivial each_nil
    | true => exact each_cons trivial (each_cons trivial each_nil)
  have hplaced := heach k instruction h
  rwa [Nat.zero_add] at hplaced

end Code

end Dialogue
