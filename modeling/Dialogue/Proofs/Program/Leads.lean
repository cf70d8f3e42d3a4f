import Mathlib
import Dialogue.Proofs.Body.Dialect
import Dialogue.Proofs.Program.Layout

/-!
# Where code leads

A position of a node leads to statements when the code of these statements stands there, one after the other with only
jumps forward in between, and the end of the node after them (`Leads`). All of a node leads to its body (`leads_node`).
The body of an option is found at its label (`Ready`), and from the code of a group every body leads on to what comes
after the group (`ready_bodies`).
-/

namespace Dialogue.Code

/-- How a node ends, with links or without. -/
def ending (links : Bool) : Code :=
  ofList (if links then [.showOptions, .runNode] else [.stop])

/-- **The code from a position on carries out statements of a dialect and ends the node.** -/
inductive Leads (d : Dialect) (whole : Code) : Nat → List Statement → Prop where
  | ends {p : Nat} (h : At whole p (ending d.links)) : Leads d whole p []
  | jumps {p q : Nat} {label : String} {todo : List Statement} (hi : whole.instructions[p]? = some (.jumpTo label))
      (hl : whole.labels.lookup label = some q) (hlt : p < q) (h : Leads d whole q todo) : Leads d whole p todo
  | next {p used : Nat} {s : Statement} {todo : List Statement} (hd : d.hasStatement s = true)
      (hs : At whole p (statement used s).1) (h : Leads d whole (p + (statement used s).1.size) todo) :
      Leads d whole p (s :: todo)

/-- **The code of the first statement stands at a position** and leads on to the others; without any, the node ends. -/
def Begins (d : Dialect) (whole : Code) (p : Nat) : List Statement → Prop
  | [] => At whole p (ending d.links)
  | s :: rest => ∃ used, d.hasStatement s = true ∧ At whole p (statement used s).1 ∧
      Leads d whole (p + (statement used s).1.size) rest

/-- **From the label of an option the code carries out statements**, once the label is taken from the stack. -/
def Marked (d : Dialect) (whole : Code) (start : Nat) (label : String) (todo : List Statement) : Prop :=
  ∃ q, start < q ∧ whole.labels.lookup label = some q ∧ whole.instructions[q]? = some .pop ∧ Leads d whole (q + 1) todo

/-- The body of each option is found at its label, and leads on to the same statements. -/
def Ready (d : Dialect) (whole : Code) (start : Nat) (rest : List Statement) : Nat → List Choice → Prop
  | _, [] => True
  | header, .mk line text condition tags body :: others =>
    Marked d whole start (optionLabel header) (body ++ rest) ∧
      Ready d whole start rest (header + labelCount (.mk line text condition tags body)) others

variable {d : Dialect} {whole : Code}

/-- Statements lead on to what comes after them. -/
theorem Leads.append {rest : List Statement} : ∀ {body : List Statement} {p used : Nat}, d.hasBody body = true →
    At whole p (statements used body).1 → Leads d whole (p + (statements used body).1.size) rest →
    Leads d whole p (body ++ rest)
  | [], _, _, _, _, h => h
  | s :: body, p, used, hd, ha, h => by
    rw [Dialect.hasBody, Bool.and_eq_true] at hd
    obtain ⟨hs, hbody⟩ := at_append.1 (show At whole p ((statement used s).1 ++ (statements _ body).1) from ha)
    refine .next hd.1 hs (Leads.append hd.2 hbody ?_)
    rwa [Nat.add_assoc, ← size_append]

/-- **A node leads to its body.** -/
theorem leads_node {body : List Statement} (hd : d.hasBody body = true) (hl : d.links = haveLink body) :
    Leads d (node body) 0 body := by
  obtain ⟨hbody, hend⟩ := at_append.1 (show At (node body) 0 ((statements 0 body).1 ++ ending (haveLink body)) from
    at_node body)
  have h := Leads.append hd hbody (.ends (by rwa [hl]))
  rwa [List.append_nil] at h

/-- **The bodies of a group are found at their labels.** -/
theorem ready_bodies {done : String} {start : Nat} {rest : List Statement} : ∀ {choices : List Choice}
    {p header used : Nat}, d.hasChoices choices = true → start < p → At whole p (bodies done header used choices).1 →
    whole.labels.lookup done = some (p + (bodies done header used choices).1.size) →
    Leads d whole (p + (bodies done header used choices).1.size) rest → Ready d whole start rest header choices
  | [], _, _, _, _, _, _, _, _ => trivial
  | .mk line text condition tags body :: others, p, header, used, hd, hlt, ha, hl, h => by
    rw [Dialect.hasChoices, Bool.and_eq_true, Bool.and_eq_true] at hd
    simp only [bodies, at_append, at_mark, at_cons, at_nil, and_true, size_append, size_mark, size_ofList,
      List.length_singleton, Nat.zero_add, Nat.add_zero] at ha hl h
    obtain ⟨⟨⟨⟨hmark, hpop⟩, hinside⟩, hjump⟩, hothers⟩ := ha
    refine ⟨⟨p, hlt, hmark, hpop, ?_⟩, ready_bodies hd.2 (by omega) hothers ?_ ?_⟩
    · refine Leads.append hd.1.2 hinside (.jumps (by rw [Nat.add_assoc]; exact hjump) hl (by omega) h)
    · rw [hl]
      congr 1
      omega
    · rwa [Nat.add_assoc]

end Dialogue.Code
