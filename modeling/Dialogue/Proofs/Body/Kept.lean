import Mathlib
import Dialogue.Body.Block
import Dialogue.Proofs.Expr.Precedence

/-!
# The lines of a script

The lines that are kept have growing numbers (`BodyLine.pairwise_numbers`), and each is read by itself
(`BodyLine.forall₂_of_mapM_read`).
-/

namespace Dialogue

/-! ## The ways links are read -/

namespace Item

variable {number : Nat} {cs before after inside rest : List Char}

theorem readLinks_of_cut?_eq_none (h : Text.cut? ['[', '['] cs = none) : readLinks number cs = .ok { rest := cs } := by
  rw [readLinks]
  split <;> simp_all

theorem readLinks_of_not_closed (h : Text.cut? ['[', '['] cs = some (before, after))
    (hclose : Text.cut? [']', ']'] after = none) :
    readLinks number cs = .ok { faults := [.unclosedLink], rest := cs } := by
  rw [readLinks]
  split
  · simp_all
  · split <;> simp_all

theorem readLinks_of_closed (h : Text.cut? ['[', '['] cs = some (before, after))
    (hclose : Text.cut? [']', ']'] after = some (inside, rest)) : readLinks number cs = do
      let (lines, faults) ← readLeading number (Text.trim before)
      let (links, linkFaults) := readLink number inside
      let more ← readLinks number rest
      return { more with
        lines := lines ++ more.lines
        links := links ++ more.links
        faults := faults ++ linkFaults ++ more.faults } := by
  rw [readLinks]
  split
  · simp_all
  · split <;> simp_all

end Item

/-! ## The lines that are kept -/

namespace BodyLine

/-- The numbers of the lines of a script. -/
def numbers (src : String) : List Nat := (kept src.toList).map (·.1)

/-- The indents of the lines of a script. -/
def indents (src : String) : List Nat := (kept src.toList).map (·.2.1)

/-- The texts of the lines of a script. -/
def texts (src : String) : List (List Char) := (kept src.toList).map (·.2.2)

theorem pairwise_numberedLines (cs : List Char) : ((Text.numberedLines cs).map Prod.fst).Pairwise (· < ·) := by
  have h : (Text.numberedLines cs).map Prod.fst = List.range' 1 (Text.lines cs).length := by
    rw [Text.numberedLines, List.map_map]
    exact List.zipIdx_map_snd 1 (Text.lines cs)
  rw [h]
  exact List.pairwise_lt_range'

/-- **The numbers of the lines grow.** -/
theorem pairwise_numbers (src : String) : (numbers src).Pairwise (· < ·) := by
  rw [numbers, kept, List.pairwise_map]
  refine List.Pairwise.filter _ ?_
  rw [List.pairwise_map]
  exact List.pairwise_map.1 (pairwise_numberedLines src.toList)

/-- What is read of a line keeps its number, its indent and its text. -/
theorem of_read_eq_ok {number indent : Nat} {text : List Char} {line : BodyLine}
    (h : read (number, indent, text) = .ok line) :
    line.number = number ∧ line.indent = indent ∧ line.text = text ∧
      Item.read number text = .ok (line.item, line.faults) := by
  obtain ⟨⟨item, faults⟩, hread, h⟩ := Expr.of_bind_eq_ok h
  cases h
  exact ⟨rfl, rfl, rfl, hread⟩

/-- **The lines are read one by one.** -/
theorem forall₂_of_mapM_read {kept : List (Nat × Nat × List Char)} {lines : List BodyLine}
    (h : kept.mapM read = .ok lines) : List.Forall₂ (fun k line => read k = .ok line) kept lines := by
  induction kept generalizing lines with
  | nil =>
    cases h
    exact .nil
  | cons k kept ih =>
    rw [List.mapM_cons] at h
    obtain ⟨line, hline, h⟩ := Expr.of_bind_eq_ok h
    obtain ⟨rest, hrest, h⟩ := Expr.of_bind_eq_ok h
    cases h
    exact .cons hline (ih hrest)

theorem map_number_of_mapM_read {kept : List (Nat × Nat × List Char)} {lines : List BodyLine}
    (h : kept.mapM read = .ok lines) : lines.map BodyLine.number = kept.map (·.1) := by
  have hread := forall₂_of_mapM_read h
  clear h
  induction hread with
  | nil => rfl
  | cons hline _ ih => rw [List.map_cons, List.map_cons, ih, (of_read_eq_ok hline).1]

theorem exists_of_mem_lines {kept : List (Nat × Nat × List Char)} {lines : List BodyLine}
    (h : kept.mapM read = .ok lines) {line : BodyLine} (hline : line ∈ lines) : ∃ k ∈ kept, read k = .ok line := by
  obtain ⟨i, hi, rfl⟩ := List.getElem_of_mem hline
  have hread := forall₂_of_mapM_read h
  have hi' : i < kept.length := hread.length_eq ▸ hi
  exact ⟨kept[i], List.getElem_mem hi', hread.get hi' hi⟩

end BodyLine

end Dialogue
