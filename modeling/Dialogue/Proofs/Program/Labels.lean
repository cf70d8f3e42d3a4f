import Mathlib
import Dialogue.Program.Compile
import Dialogue.Proofs.Text.Cut

/-!
# Labels are fresh

The number of a label can be read back (`number_label`), and so can the word about its use (`use_label`). Each part of
the code takes its labels from a range of numbers of its own, and uses all of them (`Allocated`). Only the bodies of a
group stand behind labels of its header (`optionLabels`). So a label stands at one place of a node only
(`nodup_names_node`).
-/

namespace Dialogue.Code

/-- The labels of a stretch of code, without their positions. -/
def names (code : Code) : List String :=
  code.labels.map Prod.fst

@[simp] theorem names_append (a b : Code) : (a ++ b).names = a.names ++ b.names := by
  show (append a b).names = _
  simp [append, names, Function.comp_def]

@[simp] theorem names_ofList (is : List Instruction) : (ofList is).names = [] := rfl

@[simp] theorem names_mark (label : String) : (mark label).names = [label] := rfl

/-! ## Numbers of labels -/

/-- The number of a label. -/
def number (label : String) : Nat :=
  Nat.ofDigitChars 10 ((label.toList.drop 1).takeWhile Char.isDigit) 0

/-- The word about the use of a label. -/
def use (label : String) : List Char :=
  (label.toList.drop 1).dropWhile Char.isDigit

/-- A label is the digits of its number and a word behind them, which starts with no digit. -/
theorem span_label (n : Nat) {word : String} (h : word.toList.head?.any Char.isDigit = false) :
    ((label n word).toList.drop 1).takeWhile Char.isDigit = Text.natText n ∧
      ((label n word).toList.drop 1).dropWhile Char.isDigit = word.toList := by
  have hdigits : ∀ c ∈ Text.natText n, c.isDigit = true := fun _ => Text.isDigit_of_mem_natText
  have hword : ∀ c ∈ word.toList.head?, c.isDigit = false := by
    intro c hc
    rw [Option.mem_def.1 hc] at h
    exact h
  have hlabel : (label n word).toList.drop 1 = Text.natText n ++ word.toList := by simp [label, Text.showNat]
  rw [hlabel]
  exact Text.span_append_of_forall hdigits hword

/-- **The number of a label can be read back** when the word about its use starts with no digit. -/
theorem number_label (n : Nat) (use : String) (h : use.toList.head?.any Char.isDigit = false) :
    number (label n use) = n := by
  rw [number, (span_label n h).1, Text.natText, Nat.ofDigitChars_ten_toDigits]

/-- And so can the word. -/
theorem use_label (n : Nat) (word : String) (h : word.toList.head?.any Char.isDigit = false) :
    use (label n word) = word.toList :=
  (span_label n h).2

theorem number_optionLabel (used : Nat) : number (optionLabel used) = used + 1 :=
  number_label (used + 1) _ (by simp)

/-! ## Ranges of numbers -/

/-- **The labels have the numbers above `used` and up to `last`**, each of them once. -/
structure Allocated (used last : Nat) (names : List String) : Prop where
  le : used ≤ last
  numbers : (names.map number).Perm (List.range' (used + 1) (last - used))

namespace Allocated

variable {a b c : Nat} {x y : List String}

theorem nodup (hx : Allocated a b x) : x.Nodup :=
  List.Nodup.of_map number (hx.numbers.nodup_iff.2 List.nodup_range')

theorem nil (used : Nat) : Allocated used used [] where
  le := Nat.le_refl used
  numbers := by rw [Nat.sub_self]; rfl

theorem append (hx : Allocated a b x) (hy : Allocated b c y) : Allocated a c (x ++ y) where
  le := hx.le.trans hy.le
  numbers := by
    have h₁ := hx.le
    have h₂ := hy.le
    have hfirst : b + 1 = a + 1 + (b - a) := by omega
    have hcount : c - a = b - a + (c - b) := by omega
    rw [List.map_append, hcount, ← List.range'_append_1, ← hfirst]
    exact hx.numbers.append hy.numbers

/-- One label before the others in number. -/
theorem cons {name : String} (hx : Allocated (a + 1) b x) (hname : number name = a + 1) :
    Allocated a b (name :: x) where
  le := (Nat.le_succ a).trans hx.le
  numbers := by
    have hle := hx.le
    have hcount : b - a = b - (a + 1) + 1 := by omega
    rw [List.map_cons, hname, hcount, List.range'_succ]
    exact hx.numbers.cons _

/-- The order of the labels does not matter. -/
theorem perm (hx : Allocated a b x) (h : x.Perm y) : Allocated a b y where
  le := hx.le
  numbers := (h.map number).symm.trans hx.numbers

/-- One label before the others in number, and behind them in the code. -/
theorem concat {name : String} (hx : Allocated (a + 1) b x) (hname : number name = a + 1) :
    Allocated a b (x ++ [name]) :=
  (hx.cons hname).perm (List.perm_append_singleton name x).symm

end Allocated

/-! ## Labels of statements -/

/-- The labels of the bodies of a group whose headers take theirs after `header`. -/
def optionLabels : Nat → List Choice → List String
  | _, [] => []
  | header, choice :: rest => optionLabel header :: optionLabels (header + labelCount choice) rest

/-- The header of a group takes the labels of its bodies together with its own. -/
theorem allocated_headers : ∀ (used : Nat) (choices : List Choice),
    Allocated used (headers used choices).2 ((headers used choices).1.names ++ optionLabels used choices)
  | used, [] => .nil used
  | used, .mk line text none tags body :: rest => by
    have hnames : (headers used (.mk line text none tags body :: rest)).1.names =
        (headers (used + 1) rest).1.names := by
      simp [headers, labelCount]
    rw [hnames]
    exact ((allocated_headers (used + 1) rest).cons (number_optionLabel used)).perm List.perm_middle.symm
  | used, .mk line text (some condition) tags body :: rest => by
    have hnames : (headers used (.mk line text (some condition) tags body :: rest)).1.names =
        label (used + 2) "conditional_option" :: (headers (used + 2) rest).1.names := by
      simp [headers, labelCount]
    rw [hnames]
    have hskip := (allocated_headers (used + 2) rest).cons (number_label (used + 2) "conditional_option" (by simp))
    refine (hskip.cons (number_optionLabel used)).perm (.symm ?_)
    exact List.perm_middle

mutual

/-- **A statement takes its labels from the numbers between `used` and its last one.** -/
theorem allocated_statement : ∀ (used : Nat) (s : Statement),
    Allocated used (statement used s).2 (statement used s).1.names
  | used, .line .. | used, .command .. | used, .set .. | used, .link _ none _ | used, .link _ (some _) _
  | used, .jump .. | used, .stop => .nil used
  | used, .conditional branches => by
    have hclauses := allocated_clauses (label (used + 1) "endif") (used + 1) branches
    rw [statement, names_append, names_mark]
    exact hclauses.concat (number_label (used + 1) _ (by simp))
  | used, .options choices => by
    obtain ⟨inside, hinside, hperm⟩ := allocated_bodies (label (used + 1) "group_end") (used + 1)
      (headers (used + 1) choices).2 choices
    have hboth := (allocated_headers (used + 1) choices).append hinside
    rw [List.append_assoc] at hboth
    have hnames := hboth.perm (hperm.symm.append_left _)
    rw [statement, names_append, names_append, names_append, names_ofList, List.append_nil, names_mark]
    exact hnames.concat (number_label (used + 1) _ (by simp))

theorem allocated_statements : ∀ (used : Nat) (body : List Statement),
    Allocated used (statements used body).2 (statements used body).1.names
  | used, [] => .nil used
  | used, s :: rest => by
    rw [statements, names_append]
    exact (allocated_statement used s).append (allocated_statements _ rest)

theorem allocated_clauses : ∀ (done : String) (used : Nat) (branches : List Clause),
    Allocated used (clauses done used branches).2 (clauses done used branches).1.names
  | _, used, [] => .nil used
  | done, used, .mk _ none body :: rest => by
    rw [clauses, names_append, names_append, names_ofList, List.append_nil]
    exact (allocated_statements used body).append (allocated_clauses done _ rest)
  | done, used, .mk line (some condition) body :: rest => by
    have hinside := (allocated_statements (used + 1) body).concat (number_label (used + 1) "skipclause" (by simp))
    have hnames : (clauses done used (.mk line (some condition) body :: rest)).1.names =
        ((statements (used + 1) body).1.names ++ [label (used + 1) "skipclause"]) ++
          (clauses done (statements (used + 1) body).2 rest).1.names := by
      simp [clauses]
    rw [hnames]
    exact hinside.append (allocated_clauses done _ rest)

/-- The bodies of a group take the labels inside them from the numbers after `used`. -/
theorem allocated_bodies : ∀ (done : String) (header used : Nat) (choices : List Choice), ∃ inside,
    Allocated used (bodies done header used choices).2 inside ∧
      (bodies done header used choices).1.names.Perm (optionLabels header choices ++ inside)
  | _, _, used, [] => ⟨[], .nil used, .refl []⟩
  | done, header, used, .mk line text condition tags body :: rest => by
    obtain ⟨inside, hinside, hperm⟩ := allocated_bodies done
      (header + labelCount (.mk line text condition tags body)) (statements used body).2 rest
    refine ⟨_, (allocated_statements used body).append hinside, ?_⟩
    simp only [bodies, names_append, names_mark, names_ofList, List.append_nil, List.cons_append, optionLabels]
    exact ((hperm.append_left _).trans (List.perm_append_comm_assoc _ _ _)).cons _

end

theorem allocated_node (body : List Statement) : Allocated 0 (statements 0 body).2 (node body).names := by
  rw [node, names_append, names_ofList, List.append_nil]
  exact allocated_statements 0 body

/-- **A label stands at one place of a node.** -/
theorem nodup_names_node (body : List Statement) : (node body).names.Nodup :=
  (allocated_node body).nodup

end Dialogue.Code
