import Mathlib
import Dialogue.Proofs.Program.Labels

/-!
# Where code stands

A stretch of code stands at a position of another when the instructions are there and its labels name their places
(`At`). It does so exactly when its parts stand one after the other (`at_append`, `at_cons`, `at_mark`), and all of a
node stands at its beginning (`at_node`).
-/

namespace Dialogue.Code

/-- The number of instructions of a stretch of code. -/
def size (code : Code) : Nat := code.instructions.length

@[simp] theorem size_append (a b : Code) : (a ++ b).size = a.size + b.size :=
  List.length_append

@[simp] theorem size_ofList (is : List Instruction) : (ofList is).size = is.length := rfl

@[simp] theorem size_mark (label : String) : (mark label).size = 0 := rfl

theorem instructions_append (a b : Code) : (a ++ b).instructions = a.instructions ++ b.instructions := rfl

theorem labels_append (a b : Code) :
    (a ++ b).labels = a.labels ++ b.labels.map fun mark => (mark.1, mark.2 + a.size) := rfl

/-- **A stretch of code stands at a position of another**, with its labels. -/
structure At (whole : Code) (position : Nat) (piece : Code) : Prop where
  instructions : ∀ i instruction, piece.instructions[i]? = some instruction →
    whole.instructions[position + i]? = some instruction
  labels : ∀ label i, (label, i) ∈ piece.labels → whole.labels.lookup label = some (position + i)

variable {whole : Code} {position : Nat}

section Append

variable {a b : Code}

theorem At.left (h : At whole position (a ++ b)) : At whole position a where
  instructions := by
    intro i instruction ha
    apply h.instructions
    rw [instructions_append, List.getElem?_append_left (List.getElem?_eq_some_iff.1 ha).1]
    exact ha
  labels := by
    intro label i ha
    apply h.labels
    rw [labels_append]
    exact List.mem_append_left _ ha

theorem At.right (h : At whole position (a ++ b)) : At whole (position + a.size) b where
  instructions := by
    intro i instruction hb
    rw [Nat.add_assoc]
    apply h.instructions
    rw [instructions_append, size, List.getElem?_append_right (Nat.le_add_right _ _), Nat.add_sub_cancel_left]
    exact hb
  labels := by
    intro label i hb
    rw [Nat.add_assoc, Nat.add_comm a.size]
    apply h.labels
    rw [labels_append]
    exact List.mem_append_right _ (List.mem_map.2 ⟨(label, i), hb, rfl⟩)

theorem At.append (ha : At whole position a) (hb : At whole (position + a.size) b) : At whole position (a ++ b) where
  instructions := by
    intro i instruction h
    rw [instructions_append] at h
    by_cases hlt : i < a.instructions.length
    · rw [List.getElem?_append_left hlt] at h
      exact ha.instructions i instruction h
    · have hle := Nat.le_of_not_lt hlt
      rw [List.getElem?_append_right hle] at h
      have hright := hb.instructions _ instruction h
      rwa [Nat.add_assoc, size, Nat.add_sub_cancel' hle] at hright
  labels := by
    intro label i h
    rw [labels_append] at h
    rcases List.mem_append.1 h with h | h
    · exact ha.labels label i h
    · obtain ⟨⟨name, k⟩, hk, heq⟩ := List.mem_map.1 h
      obtain ⟨rfl, rfl⟩ := Prod.mk.inj heq
      rw [hb.labels name k hk, Nat.add_assoc, Nat.add_comm a.size]

@[simp] theorem at_append : At whole position (a ++ b) ↔ At whole position a ∧ At whole (position + a.size) b := by
  constructor
  · intro h
    exact ⟨h.left, h.right⟩
  · rintro ⟨ha, hb⟩
    exact ha.append hb

end Append

@[simp] theorem at_nil : At whole position (ofList []) :=
  ⟨fun _ _ h => absurd h (by simp [ofList]), fun _ _ h => absurd h List.not_mem_nil⟩

theorem ofList_append (as bs : List Instruction) : ofList (as ++ bs) = ofList as ++ ofList bs := rfl

@[simp] theorem at_ofList_append {as bs : List Instruction} : At whole position (ofList (as ++ bs)) ↔
    At whole position (ofList as) ∧ At whole (position + as.length) (ofList bs) := by
  rw [ofList_append, at_append, size_ofList]

/-- Instructions stand where they are found in the code. -/
theorem at_ofList_of_eq_append {before piece after : List Instruction}
    (h : whole.instructions = before ++ piece ++ after) : At whole before.length (ofList piece) where
  instructions i instruction hi := by
    have hlt : i < piece.length := (List.getElem?_eq_some_iff.1 hi).1
    rw [h, List.append_assoc, List.getElem?_append_right (Nat.le_add_right _ _), Nat.add_sub_cancel_left,
      List.getElem?_append_left hlt]
    exact hi
  labels label i hl := absurd hl List.not_mem_nil

theorem at_singleton {instruction : Instruction} : At whole position (ofList [instruction]) ↔
    whole.instructions[position]? = some instruction := by
  constructor
  · intro h
    exact h.instructions 0 instruction rfl
  · intro h
    refine ⟨?_, fun _ _ hl => absurd hl List.not_mem_nil⟩
    intro i found hi
    cases i with
    | zero => rw [← hi]; exact h
    | succ i => exact absurd hi (by simp [ofList])

@[simp] theorem at_cons {instruction : Instruction} {is : List Instruction} :
    At whole position (ofList (instruction :: is)) ↔
      whole.instructions[position]? = some instruction ∧ At whole (position + 1) (ofList is) := by
  rw [show instruction :: is = [instruction] ++ is from rfl, at_ofList_append, at_singleton, List.length_singleton]

@[simp] theorem at_mark {label : String} : At whole position (mark label) ↔
    whole.labels.lookup label = some position := by
  constructor
  · intro h
    exact h.labels label 0 (List.mem_singleton.2 rfl)
  · intro h
    refine ⟨fun _ _ hi => absurd hi (by simp [mark]), ?_⟩
    intro name i hl
    obtain ⟨rfl, rfl⟩ := Prod.mk.inj (List.mem_singleton.1 hl)
    exact h

theorem lookup_of_mem {label : String} {i : Nat} : ∀ {labels : List (String × Nat)},
    (labels.map Prod.fst).Nodup → (label, i) ∈ labels → labels.lookup label = some i
  | (name, k) :: rest, hd, h => by
    obtain ⟨hname, hrest⟩ := List.nodup_cons.1 hd
    rcases List.mem_cons.1 h with heq | h
    · rw [← heq, List.lookup_cons_self]
    · have hne : label ≠ name := fun heq => hname (heq ▸ List.mem_map.2 ⟨(label, i), h, rfl⟩)
      rw [List.lookup_cons, beq_eq_false_iff_ne.2 hne]
      exact lookup_of_mem hrest h

/-- **A node's code stands at its beginning.** -/
theorem at_node (body : List Statement) : At (node body) 0 (node body) where
  instructions i instruction h := by rwa [Nat.zero_add]
  labels label i h := by
    rw [Nat.zero_add]
    exact lookup_of_mem (nodup_names_node body) h

end Dialogue.Code
