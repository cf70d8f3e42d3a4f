import Mathlib
import Dialogue.Text.Cut
import Dialogue.Text.Line

/-!
# Lines written one after the other

A line that holds no `\n`, written with a line end, is the next line of the text; all that may be lost is one `\r` at
its end (`lines_flatMap_newline`, `lines_flatMap_return`). No line that is read holds a `\n`
(`newline_notMem_of_mem_lines`). Behind a line end the lines are counted on (`numberedLines_append`). A text is cut at
the first of the characters that are looked for (`cut?_append_cons`, `notMem_of_cut?`).
-/

namespace Dialogue.Text

/-! ## Pieces -/

theorem notMem_of_mem_splitOn (a : Char) : ∀ {cs piece : List Char}, piece ∈ cs.splitOn a → a ∉ piece
  | [], piece, h => by
    rw [List.splitOn_nil, List.mem_singleton] at h
    simp [h]
  | c :: cs, piece, h => by
    rw [List.splitOn_cons_eq_if_modifyHead] at h
    obtain ⟨first, rest, hs⟩ := List.exists_cons_of_ne_nil (List.splitOn_ne_nil a cs)
    have ih : ∀ piece ∈ first :: rest, a ∉ piece := fun piece hp => notMem_of_mem_splitOn a (hs ▸ hp)
    rw [hs] at h
    split at h
    · rcases List.mem_cons.1 h with rfl | h
      · simp
      · exact ih piece h
    · rename_i hc
      simp only [beq_iff_eq] at hc
      rcases List.mem_cons.1 h with rfl | h
      · intro ha
        rcases List.mem_cons.1 ha with he | ha
        · exact hc he.symm
        · exact ih first List.mem_cons_self ha
      · exact ih piece (List.mem_cons_of_mem _ h)

theorem mem_of_mem_splitOn (a : Char) {d : Char} : ∀ {cs piece : List Char}, piece ∈ cs.splitOn a → d ∈ piece → d ∈ cs
  | [], piece, h, hd => by
    rw [List.splitOn_nil, List.mem_singleton] at h
    rwa [h] at hd
  | c :: cs, piece, h, hd => by
    rw [List.splitOn_cons_eq_if_modifyHead] at h
    obtain ⟨first, rest, hs⟩ := List.exists_cons_of_ne_nil (List.splitOn_ne_nil a cs)
    have ih : ∀ piece ∈ first :: rest, d ∈ piece → d ∈ c :: cs := fun piece hp hd =>
      List.mem_cons_of_mem c (mem_of_mem_splitOn a (hs ▸ hp) hd)
    rw [hs] at h
    split at h
    · rcases List.mem_cons.1 h with rfl | h
      · cases hd
      · exact ih piece h hd
    · rcases List.mem_cons.1 h with rfl | h
      · rcases List.mem_cons.1 hd with rfl | hd
        · exact List.mem_cons_self
        · exact ih first List.mem_cons_self hd
      · exact ih piece (List.mem_cons_of_mem _ h) hd

/-! ## Line ends -/

theorem dropReturn_append_return (line : List Char) : dropReturn (line ++ ['\r']) = line := by
  simp [dropReturn]

/-- Only a `\r` at the end is dropped. -/
theorem dropReturn_eq_self_iff {line : List Char} : dropReturn line = line ↔ line.getLast? ≠ some '\r' := by
  rcases List.eq_nil_or_concat line with rfl | ⟨before, c, rfl⟩
  · simp [dropReturn]
  · rw [List.concat_eq_append]
    by_cases hc : c = '\r'
    · subst hc
      rw [dropReturn_append_return]
      simp
    · have hd : dropReturn (before ++ [c]) = before ++ [c] := by
        unfold dropReturn
        split
        · rename_i rest hr
          simp only [List.reverse_append, List.reverse_cons, List.reverse_nil, List.nil_append, List.cons_append,
            List.cons.injEq] at hr
          exact absurd hr.1 hc
        · rfl
      simp [hd, hc]

theorem dropReturn_of_notMem {line : List Char} (h : '\r' ∉ line) : dropReturn line = line :=
  dropReturn_eq_self_iff.2 fun hl => h (List.mem_of_getLast? hl)

/-- What stands in front of a text has no part in how the text ends. -/
theorem dropReturn_append {a b : List Char} (ha : '\r' ∉ a) : dropReturn (a ++ b) = a ++ dropReturn b := by
  rcases List.eq_nil_or_concat b with rfl | ⟨before, c, rfl⟩
  · rw [List.append_nil, dropReturn_of_notMem ha]
    simp [dropReturn]
  · rw [List.concat_eq_append, ← List.append_assoc]
    by_cases hc : c = '\r'
    · rw [hc, dropReturn_append_return, dropReturn_append_return]
    · have hb : ∀ cs : List Char, dropReturn (cs ++ [c]) = cs ++ [c] := fun cs =>
        dropReturn_eq_self_iff.2 (by simp [hc])
      rw [hb, hb, List.append_assoc]

theorem dropReturn_sublist (line : List Char) : (dropReturn line).Sublist line := by
  rcases List.eq_nil_or_concat line with rfl | ⟨before, c, rfl⟩
  · exact List.Sublist.refl _
  · rw [List.concat_eq_append]
    by_cases hc : c = '\r'
    · rw [hc, dropReturn_append_return]
      exact List.sublist_append_left _ _
    · rw [dropReturn_eq_self_iff.2 (by simp [hc])]

/-- **No line that is read holds a line end.** -/
theorem newline_notMem_of_mem_lines {cs line : List Char} (h : line ∈ lines cs) : '\n' ∉ line := by
  simp only [lines, List.mem_append, List.mem_map, List.mem_filter, Option.mem_toList] at h
  rcases h with ⟨piece, hp, rfl⟩ | ⟨hp, -⟩
  · intro hn
    exact notMem_of_mem_splitOn '\n' (List.dropLast_subset _ hp) ((dropReturn_sublist piece).mem hn)
  · exact notMem_of_mem_splitOn '\n' (List.mem_of_getLast? hp)

/-- The characters of a line are characters of the text. -/
theorem mem_of_mem_lines {cs line : List Char} {d : Char} (h : line ∈ lines cs) (hd : d ∈ line) : d ∈ cs := by
  simp only [lines, List.mem_append, List.mem_map, List.mem_filter, Option.mem_toList] at h
  rcases h with ⟨piece, hp, rfl⟩ | ⟨hp, -⟩
  · exact mem_of_mem_splitOn '\n' (List.dropLast_subset _ hp) ((dropReturn_sublist piece).mem hd)
  · exact mem_of_mem_splitOn '\n' (List.mem_of_getLast? hp) hd

/-- Lines written with `\n` read back without a `\r` at their ends. -/
theorem lines_flatMap_newline : ∀ {written : List (List Char)}, (∀ line ∈ written, '\n' ∉ line) →
    lines (written.flatMap (· ++ ['\n'])) = written.map dropReturn
  | [], _ => rfl
  | line :: written, h => by
    rw [List.flatMap_cons, List.append_assoc, List.singleton_append, lines_append_newline (h line List.mem_cons_self),
      lines_flatMap_newline fun l hl => h l (List.mem_cons_of_mem _ hl), List.map_cons]

/-- Lines written with `\r\n` read back as they are. -/
theorem lines_flatMap_return : ∀ {written : List (List Char)}, (∀ line ∈ written, '\n' ∉ line) →
    lines (written.flatMap (· ++ ['\r', '\n'])) = written
  | [], _ => rfl
  | line :: written, h => by
    have hl : '\n' ∉ line ++ ['\r'] := by simpa using h line List.mem_cons_self
    have he : line ++ ['\r', '\n'] ++ written.flatMap (· ++ ['\r', '\n']) =
        (line ++ ['\r']) ++ '\n' :: written.flatMap (· ++ ['\r', '\n']) := by simp
    rw [List.flatMap_cons, he, lines_append_newline hl, dropReturn_append_return,
      lines_flatMap_return fun l hl => h l (List.mem_cons_of_mem _ hl)]

/-! ## Texts one after the other -/

/-- **Behind a line end the lines of another text follow.** -/
theorem lines_append {a : List Char} (ha : a.getLast? = some '\n') (b : List Char) :
    lines (a ++ b) = lines a ++ lines b := by
  obtain ⟨line, rest, heq, hline⟩ := List.eq_append_cons_of_mem (List.mem_of_getLast? ha)
  have hshorter : rest.length < a.length := by
    rw [heq, List.length_append, List.length_cons]
    omega
  rw [heq, List.append_assoc, List.cons_append, lines_append_newline hline, lines_append_newline hline,
    List.cons_append]
  by_cases hrest : rest = []
  · subst hrest
    rfl
  · have hlast : rest.getLast? = some '\n' := by
      rwa [heq, List.getLast?_append_of_ne_nil _ (List.cons_ne_nil _ _), List.getLast?_cons_of_ne_nil hrest] at ha
    rw [lines_append hlast b]
termination_by a.length

/-- **The numbers of its lines go up by the number of lines before them.** -/
theorem numberedLines_append {a : List Char} (ha : a.getLast? = some '\n') (b : List Char) :
    numberedLines (a ++ b) =
      numberedLines a ++ (numberedLines b).map fun line => (line.1 + (lines a).length, line.2) := by
  have hshift : (lines b).zipIdx (1 + (lines a).length) =
      ((lines b).zipIdx 1).map (Prod.map id (· + (lines a).length)) := by
    rw [List.map_snd_add_zipIdx_eq_zipIdx, Nat.add_comm]
  rw [numberedLines, lines_append ha, List.zipIdx_append, List.map_append, hshift, numberedLines, numberedLines,
    List.map_map, List.map_map]
  rfl

/-! ## Cutting and trimming -/

theorem cut?_append_cons {c : Char} : ∀ {before : List Char}, c ∉ before → ∀ after : List Char,
    cut? [c] (before ++ c :: after) = some (before, after)
  | [], _, after => by simp [cut?, dropPrefix?]
  | b :: before, h, after => by
    have hb : c ≠ b := fun e => h (e ▸ List.mem_cons_self)
    have ih := cut?_append_cons (fun hm => h (List.mem_cons_of_mem _ hm)) after
    simp [cut?, dropPrefix?, hb, ih]

/-- The cut is made at the first occurrence. -/
theorem notMem_of_cut? {c : Char} : ∀ {cs before after : List Char}, cut? [c] cs = some (before, after) → c ∉ before
  | [], _, _, h => by simp [cut?] at h
  | d :: cs, before, after, h => by
    by_cases hd : c = d
    · simp only [cut?, dropPrefix?, hd, if_true, Option.some.injEq, Prod.mk.injEq] at h
      simp [← h.1]
    · simp only [cut?, dropPrefix?, hd, if_false] at h
      obtain ⟨⟨b, a⟩, hr, he⟩ := Option.map_eq_some_iff.1 h
      simp only [Prod.mk.injEq] at he
      obtain ⟨rfl, rfl⟩ := he
      simpa [hd] using notMem_of_cut? hr

/-- Without a cut there is nothing to cut at. -/
theorem notMem_of_cut?_eq_none {c : Char} {cs : List Char} (h : cut? [c] cs = none) : c ∉ cs := by
  intro hmem
  obtain ⟨before, after, rfl, hc⟩ := List.eq_append_cons_of_mem hmem
  cases h.symm.trans (cut?_append_cons hc after)

theorem trim_of_forall_not_isBlank {cs : List Char} (h : ∀ c ∈ cs, isBlank c = false) : trim cs = cs := by
  have hs : ∀ {ds : List Char}, (∀ c ∈ ds, isBlank c = false) → trimStart ds = ds := by
    intro ds hd
    cases ds with
    | nil => rfl
    | cons d ds => simp [trimStart, hd d List.mem_cons_self]
  rw [trim, hs h, trimEnd, hs fun c hc => h c (List.mem_reverse.1 hc), List.reverse_reverse]

theorem not_isBlank_of_getLast?_trim {cs : List Char} {c : Char} (h : (trim cs).getLast? = some c) :
    isBlank c = false := by
  have hhead := List.head?_dropWhile_not isBlank (trimStart cs).reverse
  rw [trim, trimEnd, List.getLast?_reverse, trimStart] at h
  simpa [h] using hhead

/-- Blanks are only taken off up to a character that is none. -/
theorem trimStart_append_cons {c : Char} (hc : isBlank c = false) (a b : List Char) :
    trimStart (a ++ c :: b) = trimStart a ++ c :: b := by
  rw [trimStart, List.dropWhile_append, List.dropWhile_cons_of_neg (by simp [hc])]
  split
  · rename_i hempty
    rw [trimStart, List.isEmpty_iff.1 hempty, List.nil_append]
  · rfl

theorem trimEnd_append_singleton {c : Char} (hc : isBlank c = false) (a : List Char) :
    trimEnd (a ++ [c]) = a ++ [c] := by
  simp [trimEnd, trimStart, hc]

/-- **A text without its trailing blanks** ends in none of them, and all that is behind it are blanks. -/
theorem trimEnd_eq_iff {cs base : List Char} : trimEnd cs = base ↔ ∃ blanks, cs = base ++ blanks ∧
    (∀ c ∈ blanks, isBlank c = true) ∧ ∀ c ∈ base.getLast?, isBlank c = false := by
  constructor
  · rintro rfl
    refine ⟨(cs.reverse.takeWhile isBlank).reverse, ?_, ?_, ?_⟩
    · rw [trimEnd, trimStart, ← List.reverse_append, List.takeWhile_append_dropWhile, List.reverse_reverse]
    · intro c hc
      exact List.mem_takeWhile_imp (List.mem_reverse.1 hc)
    · intro c hc
      have hhead := List.head?_dropWhile_not isBlank cs.reverse
      rw [Option.mem_def, trimEnd, List.getLast?_reverse, trimStart] at hc
      simpa [hc] using hhead
  · rintro ⟨blanks, rfl, hblanks, hbase⟩
    have hall : ∀ c ∈ blanks.reverse, isBlank c = true := fun c hc => hblanks c (List.mem_reverse.1 hc)
    rw [trimEnd, trimStart, List.reverse_append, List.dropWhile_append_of_pos hall]
    rcases List.eq_nil_or_concat base with rfl | ⟨front, last, rfl⟩
    · rfl
    · have hlast : isBlank last = false := hbase last (by simp)
      simp [hlast]

theorem trimEnd_trimEnd (cs : List Char) : trimEnd (trimEnd cs) = trimEnd cs := by
  obtain ⟨-, -, -, hlast⟩ := trimEnd_eq_iff.1 (Eq.refl (trimEnd cs))
  exact trimEnd_eq_iff.2 ⟨[], (List.append_nil _).symm, by simp, hlast⟩

/-- A blank at the end does not count. -/
theorem trim_append_singleton {c : Char} (hc : isBlank c = true) (cs : List Char) : trim (cs ++ [c]) = trim cs := by
  rw [trim, trim, trimStart, List.dropWhile_append]
  split
  · rename_i hempty
    rw [trimStart, List.isEmpty_iff.1 hempty, List.dropWhile_cons_of_pos hc, List.dropWhile_nil]
  · rw [trimEnd, List.reverse_append, List.reverse_singleton, List.singleton_append, trimStart,
      List.dropWhile_cons_of_pos hc]
    rfl

/-- What is no blank stays. -/
theorem mem_trim_of_mem {cs : List Char} {c : Char} (hc : isBlank c = false) (h : c ∈ cs) : c ∈ trim cs := by
  have hstart : ∀ {ds : List Char}, c ∈ ds → c ∈ trimStart ds := by
    intro ds hmem
    rw [← List.takeWhile_append_dropWhile (p := isBlank) (l := ds), List.mem_append] at hmem
    rcases hmem with hmem | hmem
    · rw [List.mem_takeWhile_imp hmem] at hc
      cases hc
    · exact hmem
  rw [trim, trimEnd, List.mem_reverse]
  exact hstart (List.mem_reverse.2 (hstart h))

theorem mem_of_mem_trim {cs : List Char} {c : Char} (h : c ∈ trim cs) : c ∈ cs := by
  rw [trim, trimEnd, List.mem_reverse] at h
  have h₁ : c ∈ (trimStart cs).reverse := (List.dropWhile_sublist _).mem h
  exact (List.dropWhile_sublist _).mem (List.mem_reverse.1 h₁)

end Dialogue.Text
