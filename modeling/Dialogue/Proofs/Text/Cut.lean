import Mathlib
import Dialogue.Text.Cut

/-!
# Where a mark stands

A text is cut exactly when the mark stands in it (`cut?_eq_none_iff`, `cutLast?_eq_none_iff`). A mark whose first
character stands nowhere else in it cannot overlap itself: it is cut at where it was written, when none stands before it
(`cut?_append_mark`), and it is replaced there whatever stands around it (`replaceAll_append_mark`). Replacing all marks
leaves just the texts as they are that hold none, unless marks give way to themselves (`replaceAll_eq_self_iff`).
-/

namespace Dialogue.Text

/-! ## What is taken from the front -/

section Spans

variable {α : Type} {p : α → Bool} {a b : List α} {c : α}

/-- What is taken from the front of a list is not taken from a list after it that starts otherwise. -/
theorem span_append_of_head (h : ∀ x ∈ b.head?, p x = false) :
    (a ++ b).takeWhile p = a.takeWhile p ∧ (a ++ b).dropWhile p = a.dropWhile p ++ b := by
  induction a with
  | nil =>
    cases b with
    | nil => exact ⟨rfl, rfl⟩
    | cons x b => simp [h x rfl]
  | cons x a ih => by_cases hx : p x = true <;> simp [hx, ih]

theorem span_append_of_forall (ha : ∀ x ∈ a, p x = true) (h : ∀ x ∈ b.head?, p x = false) :
    (a ++ b).takeWhile p = a ∧ (a ++ b).dropWhile p = b := by
  obtain ⟨htake, hdrop⟩ := span_append_of_head (a := a) h
  rw [htake, hdrop, List.takeWhile_eq_self_iff.2 ha, List.dropWhile_eq_nil_iff.2 ha]
  exact ⟨rfl, rfl⟩

theorem span_append_cons (ha : ∀ x ∈ a, p x = true) (hc : p c = false) (b : List α) :
    (a ++ c :: b).takeWhile p = a ∧ (a ++ c :: b).dropWhile p = c :: b :=
  span_append_of_forall ha (by simpa using hc)

end Spans

variable {mark new cs a b x y tail : List Char} {c m : Char}

/-! ## At the ends -/

theorem dropPrefix?_append (mark rest : List Char) : dropPrefix? mark (mark ++ rest) = some rest :=
  dropPrefix?_eq_some_iff.2 rfl

theorem dropPrefix?_eq_none_iff : dropPrefix? mark cs = none ↔ ¬mark <+: cs := by
  rw [Option.eq_none_iff_forall_ne_some]
  constructor
  · rintro h ⟨rest, rfl⟩
    exact h rest (dropPrefix?_append mark rest)
  · rintro h rest hrest
    exact h ⟨rest, (dropPrefix?_eq_some_iff.1 hrest).symm⟩

theorem dropSuffix?_append (cs mark : List Char) : dropSuffix? mark (cs ++ mark) = some cs := by
  rw [dropSuffix?, List.reverse_append, dropPrefix?_append, Option.map_some, List.reverse_reverse]

theorem dropSuffix?_eq_none_iff : dropSuffix? mark cs = none ↔ ¬mark <:+ cs := by
  rw [dropSuffix?, Option.map_eq_none_iff, dropPrefix?_eq_none_iff, List.reverse_prefix]

theorem isSome_dropSuffix?_iff : (dropSuffix? mark cs).isSome ↔ mark <:+ cs := by
  rw [← Option.ne_none_iff_isSome, Ne, dropSuffix?_eq_none_iff, not_not]

/-! ## Inside -/

theorem prefix_of_prefix_append_cons (hc : c ∉ mark) (h : mark <+: a ++ c :: b) : mark <+: a := by
  have hfront : a ++ [c] <+: a ++ c :: b := ⟨b, by simp⟩
  rcases List.prefix_or_prefix_of_prefix h hfront with h | h
  · rcases List.prefix_concat_iff.1 h with rfl | h
    · simp at hc
    · exact h
  · exact absurd (h.subset (by simp)) hc

theorem suffix_of_suffix_append_cons (hc : c ∉ mark) (h : mark <:+ a ++ c :: b) : mark <:+ b := by
  rw [← List.reverse_prefix, List.reverse_append, List.reverse_cons, List.append_assoc, List.singleton_append] at h
  exact List.reverse_prefix.1 (prefix_of_prefix_append_cons (by simpa using hc) h)

/-- **A character that is not in the mark** has no mark across it. -/
theorem infix_append_cons_iff (hc : c ∉ mark) : mark <:+: a ++ c :: b ↔ mark <:+: a ∨ mark <:+: b := by
  constructor
  · intro h
    induction a with
    | nil =>
      rcases List.infix_cons_iff.1 h with h | h
      · exact .inl (prefix_of_prefix_append_cons hc h).isInfix
      · exact .inr h
    | cons d a ih =>
      rcases List.infix_cons_iff.1 h with h | h
      · exact .inl (prefix_of_prefix_append_cons hc (a := d :: a) h).isInfix
      · exact (ih h).imp_left List.infix_cons
  · rintro (h | h)
    · exact h.trans (List.prefix_append a _).isInfix
    · exact h.trans ((List.suffix_cons c b).trans (List.suffix_append a _)).isInfix

theorem cut?_eq_none_iff (hm : mark ≠ []) : cut? mark cs = none ↔ ¬mark <:+: cs := by
  induction cs with
  | nil => simpa [cut?] using hm
  | cons c cs ih =>
    rw [cut?, List.infix_cons_iff, not_or, ← dropPrefix?_eq_none_iff, ← ih]
    split <;> simp_all

theorem cutLast?_eq_none_iff (hm : mark ≠ []) : cutLast? mark cs = none ↔ ¬mark <:+: cs := by
  induction cs with
  | nil => simpa [cutLast?] using hm
  | cons c cs ih =>
    rw [cutLast?, List.infix_cons_iff, not_or, ← dropPrefix?_eq_none_iff, ← ih]
    split <;> simp_all

/-- The cut is made at the first mark. -/
theorem not_infix_of_cut? (hm : mark ≠ []) (h : cut? mark cs = some (x, y)) : ¬mark <:+: x := by
  induction cs generalizing x with
  | nil => cases h
  | cons c cs ih =>
    rw [cut?] at h
    split at h
    · simp only [Option.some.injEq, Prod.mk.injEq] at h
      rw [← h.1]
      simpa using hm
    · rename_i hnone
      obtain ⟨⟨x', y'⟩, hcut, he⟩ := Option.map_eq_some_iff.1 h
      simp only [Prod.mk.injEq] at he
      obtain ⟨rfl, rfl⟩ := he
      rw [List.infix_cons_iff, not_or]
      refine ⟨fun hprefix => dropPrefix?_eq_none_iff.1 hnone ?_, ih hcut⟩
      rw [eq_of_cut?_eq_some hcut, List.append_assoc]
      exact hprefix.trans (List.prefix_append (c :: x') _)

/-- Behind the mark that is cut at, any text may follow. -/
theorem cut?_append (h : cut? mark a = some (x, y)) (b : List Char) : cut? mark (a ++ b) = some (x, y ++ b) := by
  induction a generalizing x with
  | nil => cases h
  | cons c a ih =>
    rw [cut?] at h
    rw [List.cons_append, cut?]
    split at h
    · rename_i rest hrest
      simp only [Option.some.injEq, Prod.mk.injEq] at h
      obtain ⟨rfl, rfl⟩ := h
      have hlonger : dropPrefix? mark (c :: (a ++ b)) = some (rest ++ b) := by
        rw [dropPrefix?_eq_some_iff, ← List.cons_append, dropPrefix?_eq_some_iff.1 hrest, List.append_assoc]
      rw [hlonger]
    · rename_i hnone
      obtain ⟨⟨x', y'⟩, hcut, he⟩ := Option.map_eq_some_iff.1 h
      simp only [Prod.mk.injEq] at he
      obtain ⟨rfl, rfl⟩ := he
      -- the mark fits into the first text, so it would start that text already
      have hlength : mark.length ≤ (c :: a).length := by
        have := length_of_cut?_eq_some hcut
        rw [List.length_cons]
        omega
      have hnone' : dropPrefix? mark (c :: (a ++ b)) = none := dropPrefix?_eq_none_iff.2 fun hprefix =>
        dropPrefix?_eq_none_iff.1 hnone
          (List.prefix_of_prefix_length_le hprefix (List.prefix_append (c :: a) b) hlength)
      rw [hnone', ih hcut]
      rfl

/-- **A mark that cannot overlap itself is cut at where it is written**, when none stands before it. -/
theorem cut?_append_mark (hm : m ∉ tail) (ha : ¬m :: tail <:+: a) (b : List Char) :
    cut? (m :: tail) (a ++ m :: tail ++ b) = some (a, b) := by
  induction a with
  | nil =>
    have hprefix : dropPrefix? (m :: tail) (m :: (tail ++ b)) = some b := dropPrefix?_append (m :: tail) b
    rw [List.nil_append, List.cons_append, cut?, hprefix]
  | cons c a ih =>
    rw [List.infix_cons_iff, not_or] at ha
    have hnone : dropPrefix? (m :: tail) (c :: (a ++ m :: tail ++ b)) = none := by
      refine dropPrefix?_eq_none_iff.2 fun hprefix => ?_
      have hfront : c :: a ++ [m] <+: c :: (a ++ m :: tail ++ b) := ⟨tail ++ b, by simp⟩
      rcases List.prefix_or_prefix_of_prefix hprefix hfront with h | h
      · rcases List.prefix_concat_iff.1 h with h | h
        · cases h
          simp at hm
        · exact ha.1 h
      · obtain ⟨rest, hrest⟩ := h
        cases hrest
        simp at hm
    have ih := ih ha.2
    rw [List.cons_append, List.cons_append, cut?, hnone, ih]
    rfl

/-- The cut is made at the last mark. -/
theorem cutLast?_append_mark (hb : ¬m :: tail <:+: tail ++ b) (a : List Char) :
    cutLast? (m :: tail) (a ++ m :: tail ++ b) = some (a, b) := by
  induction a with
  | nil =>
    have hnone : cutLast? (m :: tail) (tail ++ b) = none := (cutLast?_eq_none_iff (List.cons_ne_nil _ _)).2 hb
    have hprefix : dropPrefix? (m :: tail) (m :: (tail ++ b)) = some b := dropPrefix?_append (m :: tail) b
    rw [List.nil_append, List.cons_append, cutLast?, hnone, hprefix]
    rfl
  | cons c a ih => rw [List.cons_append, List.cons_append, cutLast?, ih]

/-! ## Replacing -/

/-- The first mark gives way, whatever follows it. -/
theorem exists_replaceFirst_append (hm : mark ≠ []) (ha : mark <:+: a) :
    ∃ x y, a = x ++ mark ++ y ∧ ¬mark <:+: x ∧ ∀ new b, replaceFirst mark new (a ++ b) = x ++ new ++ (y ++ b) := by
  cases hcut : cut? mark a with
  | none => exact absurd ha ((cut?_eq_none_iff hm).1 hcut)
  | some parts =>
    obtain ⟨x, y⟩ := parts
    refine ⟨x, y, eq_of_cut?_eq_some hcut, not_infix_of_cut? hm hcut, fun new b => ?_⟩
    rw [replaceFirst, cut?_append hcut]

theorem replaceFirst_append_mark (hm : m ∉ tail) (ha : ¬m :: tail <:+: a) (new b : List Char) :
    replaceFirst (m :: tail) new (a ++ m :: tail ++ b) = a ++ new ++ b := by
  rw [replaceFirst, cut?_append_mark hm ha]

theorem replaceAll_of_cut? (hm : mark ≠ []) (h : cut? mark cs = some (x, y)) :
    replaceAll mark new cs = x ++ new ++ replaceAll mark new y := by
  rw [replaceAll, dif_neg hm]
  split <;> simp_all

theorem replaceAll_of_not_infix (h : ¬mark <:+: cs) : replaceAll mark new cs = cs := by
  have hm : mark ≠ [] := by
    rintro rfl
    exact h List.nil_infix
  have hnone := (cut?_eq_none_iff hm).2 h
  rw [replaceAll, dif_neg hm]
  split <;> simp_all

/-- What replaces the marks is shown if there is a mark. -/
theorem infix_replaceAll (hm : mark ≠ []) (h : mark <:+: cs) (new : List Char) : new <:+: replaceAll mark new cs := by
  cases hcut : cut? mark cs with
  | none => exact absurd h ((cut?_eq_none_iff hm).1 hcut)
  | some parts =>
    obtain ⟨x, y⟩ := parts
    rw [replaceAll_of_cut? hm hcut]
    exact ⟨x, replaceAll mark new y, rfl⟩

/-- **A mark that cannot overlap itself gives way where it is written**, whatever stands before it. -/
theorem replaceAll_append_mark (hm : m ∉ tail) (new a b : List Char) :
    replaceAll (m :: tail) new (a ++ m :: tail ++ b) =
      replaceAll (m :: tail) new a ++ new ++ replaceAll (m :: tail) new b := by
  have hne : m :: tail ≠ [] := List.cons_ne_nil _ _
  cases hcut : cut? (m :: tail) a with
  | none =>
    have ha := (cut?_eq_none_iff hne).1 hcut
    rw [replaceAll_of_cut? hne (cut?_append_mark hm ha b), replaceAll_of_not_infix ha]
  | some parts =>
    obtain ⟨x, y⟩ := parts
    have hshorter : y.length < a.length := by
      have := length_of_cut?_eq_some hcut
      rw [List.length_cons] at this
      omega
    have hlonger : cut? (m :: tail) (a ++ m :: tail ++ b) = some (x, y ++ m :: tail ++ b) := by
      rw [List.append_assoc, cut?_append hcut, List.append_assoc]
    rw [replaceAll_of_cut? hne hlonger, replaceAll_of_cut? hne hcut, replaceAll_append_mark hm new y b]
    simp only [List.append_assoc]
termination_by a.length

theorem length_replaceAll_le (h : new.length ≤ mark.length) (cs : List Char) :
    (replaceAll mark new cs).length ≤ cs.length := by
  fun_induction replaceAll mark new cs with
  | case1 cs => exact Nat.le_refl _
  | case2 cs hm x y hcut ih =>
    have := length_of_cut?_eq_some hcut
    simp only [List.length_append]
    omega
  | case3 cs hm hcut => exact Nat.le_refl _

theorem le_length_replaceAll (h : mark.length ≤ new.length) (cs : List Char) :
    cs.length ≤ (replaceAll mark new cs).length := by
  fun_induction replaceAll mark new cs with
  | case1 cs => exact Nat.le_refl _
  | case2 cs hm x y hcut ih =>
    have := length_of_cut?_eq_some hcut
    simp only [List.length_append]
    omega
  | case3 cs hm hcut => exact Nat.le_refl _

theorem replaceAll_self (mark cs : List Char) : replaceAll mark mark cs = cs := by
  fun_induction replaceAll mark mark cs with
  | case1 cs => rfl
  | case2 cs hm x y hcut ih => rw [ih, ← eq_of_cut?_eq_some hcut]
  | case3 cs hm hcut => rfl

/-- **A text stays as it is exactly when it holds no mark**, or the marks give way to themselves. -/
theorem replaceAll_eq_self_iff (hm : mark ≠ []) : replaceAll mark new cs = cs ↔ new = mark ∨ ¬mark <:+: cs := by
  constructor
  · intro h
    by_contra hnot
    rw [not_or, not_not] at hnot
    cases hcut : cut? mark cs with
    | none => exact (cut?_eq_none_iff hm).1 hcut hnot.2
    | some parts =>
      obtain ⟨x, y⟩ := parts
      rw [replaceAll_of_cut? hm hcut] at h
      have hsame : new ++ replaceAll mark new y = mark ++ y := by
        have := h.trans (eq_of_cut?_eq_some hcut)
        rwa [List.append_assoc, List.append_assoc, List.append_cancel_left_eq] at this
      have hlengths := congrArg List.length hsame
      rw [List.length_append, List.length_append] at hlengths
      have hlength : new.length = mark.length := by
        rcases Nat.le_total new.length mark.length with hle | hle
        · have := length_replaceAll_le hle y
          omega
        · have := le_length_replaceAll hle y
          omega
      exact hnot.1 (List.append_inj_left hsame hlength)
  · rintro (rfl | h)
    · exact replaceAll_self new cs
    · exact replaceAll_of_not_infix h

end Dialogue.Text
