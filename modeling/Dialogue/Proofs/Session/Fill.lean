import Mathlib
import Dialogue.Session.Fill
import Dialogue.Proofs.Text.Cut

/-!
# The parts of a text

A text that is filled in is read part by part. A brace between two texts keeps them apart: each of them is read as if
the other were not there (`Fill.parts_append`). A hole is read exactly where digits stand in braces
(`Fill.exists_of_hole_mem_parts`, `Fill.parts_hole`). Without a value for any of its holes a text is filled in as it is
written, but for the names of variables (`Fill.filled_eq_literal`).
-/

namespace Dialogue

namespace Fill

variable {a b cs rest : List Char} {c : Char}

/-! ## The parts of a text -/

theorem parts_hole {digits rest' : List Char} (h : hole? rest = some (digits, rest')) :
    parts ('\x7b' :: rest) = .hole digits :: parts rest' := by
  rw [parts]
  split <;> simp_all

theorem parts_variable {name rest' : List Char} (h : name? rest = some (name, rest')) :
    parts ('$' :: rest) = .variable name :: parts rest' := by
  rw [parts]
  split
  · simp_all
  · split <;> simp_all

theorem parts_char (hhole : c = '\x7b' → hole? rest = none) (hname : c = '$' → name? rest = none) :
    parts (c :: rest) = .char c :: parts rest := by
  rw [parts]
  split
  · simp_all
  · split <;> simp_all

/-! ## Texts one after the other -/

/-- **No part of the first text goes on in the second one**, since a brace is between them. -/
def Apart (a b : List Char) : Prop :=
  a = [] ∨ a.getLast? = some '\x7d' ∨ b.head? = some '\x7b'

theorem Apart.of_suffix {a' : List Char} (h : Apart a b) (hs : a' <:+ a) : Apart a' b := by
  obtain ⟨front, rfl⟩ := hs
  by_cases hnil : a' = []
  · exact .inl hnil
  · rcases h with h | h | h
    · exact absurd (List.append_eq_nil_iff.1 h).2 hnil
    · rw [List.getLast?_append_of_ne_nil _ hnil] at h
      exact .inr (.inl h)
    · exact .inr (.inr h)

theorem Apart.mem_or (h : Apart (c :: rest) b) (hc : c ≠ '\x7d') : '\x7d' ∈ rest ∨ b.head? = some '\x7b' := by
  rcases h with h | h | h
  · cases h
  · have hmem := List.mem_of_getLast? h
    rcases List.mem_cons.1 hmem with hmem | hmem
    · exact absurd hmem.symm hc
    · exact .inl hmem
  · exact .inr h

/-- What is taken from the front of a text is taken before the brace. -/
theorem span_append_of_brace {p : Char → Bool} (hopen : p '\x7b' = false) (hclose : p '\x7d' = false)
    (h : '\x7d' ∈ rest ∨ b.head? = some '\x7b') :
    (rest ++ b).takeWhile p = rest.takeWhile p ∧ (rest ++ b).dropWhile p = rest.dropWhile p ++ b := by
  rcases h with h | h
  · have hall : ¬∀ x ∈ rest, p x = true := fun hall => by cases hclose.symm.trans (hall _ h)
    have htake : (rest.takeWhile p).length ≠ rest.length := fun hlength =>
      hall (List.takeWhile_eq_self_iff.1 ((List.takeWhile_prefix p).eq_of_length hlength))
    rw [List.takeWhile_append, if_neg htake, List.dropWhile_append, if_neg (by simpa using hall)]
    exact ⟨rfl, rfl⟩
  · refine Text.span_append_of_head fun c hc => ?_
    cases h.symm.trans hc
    exact hopen

theorem hole?_append (h : '\x7d' ∈ rest ∨ b.head? = some '\x7b') :
    hole? (rest ++ b) = (hole? rest).map fun (digits, rest') => (digits, rest' ++ b) := by
  obtain ⟨htake, hdrop⟩ := span_append_of_brace (p := Char.isDigit) (by decide) (by decide) h
  unfold hole?
  rw [htake, hdrop]
  cases rest.takeWhile Char.isDigit with
  | nil => rfl
  | cons d digits =>
    cases hrest : rest.dropWhile Char.isDigit with
    | nil =>
      rcases h with h | h
      · exact absurd (List.dropWhile_eq_nil_iff.1 hrest _ h) (by decide)
      · obtain ⟨b', rfl⟩ := List.head?_eq_some_iff.1 h
        rfl
    | cons x rest' =>
      rw [List.cons_append]
      by_cases hx : x = '\x7d'
      · subst hx
        rfl
      · split
        · rename_i heq
          cases heq
          exact absurd rfl hx
        · split
          · rename_i heq
            cases heq
            exact absurd rfl hx
          · rfl

theorem name?_append (h : '\x7d' ∈ rest ∨ b.head? = some '\x7b') :
    name? (rest ++ b) = (name? rest).map fun (name, rest') => (name, rest' ++ b) := by
  cases rest with
  | nil =>
    obtain ⟨b', rfl⟩ := List.head?_eq_some_iff.1 (h.resolve_left List.not_mem_nil)
    rfl
  | cons c rest =>
    by_cases hc : Token.startsName c = true
    · have hrest : '\x7d' ∈ rest ∨ b.head? = some '\x7b' := by
        refine h.imp_left fun hmem => (List.mem_cons.1 hmem).resolve_left ?_
        rintro rfl
        exact absurd hc (by decide)
      obtain ⟨htake, hdrop⟩ := span_append_of_brace (p := Token.continuesName) (by decide) (by decide) hrest
      rw [List.cons_append, name?, name?, if_pos hc, if_pos hc, htake, hdrop]
      rfl
    · rw [List.cons_append, name?, name?, if_neg hc, if_neg hc]
      rfl

/-- **Texts that are apart are read one after the other.** -/
theorem parts_append (h : Apart a b) : parts (a ++ b) = parts a ++ parts b := by
  fun_induction parts a with
  | case1 => rfl
  | case2 c rest digits rest' hhole ih =>
    split at hhole
    · rename_i hc
      subst hc
      have hsuffix : rest' <:+ '\x7b' :: rest :=
        ⟨'\x7b' :: digits ++ ['\x7d'], by rw [eq_of_hole? hhole]; simp⟩
      have happend := hole?_append (h.mem_or (by decide))
      rw [hhole] at happend
      rw [List.cons_append, parts_hole happend, ih (h.of_suffix hsuffix)]
      rfl
    · cases hhole
  | case3 c rest _ name rest' hname ih =>
    split at hname
    · rename_i hc
      subst hc
      have hsuffix : rest' <:+ '$' :: rest := ⟨'$' :: name, by rw [eq_of_name? hname]; rfl⟩
      have happend := name?_append (h.mem_or (by decide))
      rw [hname] at happend
      rw [List.cons_append, parts_variable happend, ih (h.of_suffix hsuffix)]
      rfl
    · cases hname
  | case4 c rest hhole hname ih =>
    rw [List.cons_append, parts_char, ih (h.of_suffix (List.suffix_cons c rest))]
    · rfl
    · intro hc
      subst hc
      rw [dif_pos rfl] at hhole
      rw [hole?_append (h.mem_or (by decide)), hhole]
      rfl
    · intro hc
      subst hc
      rw [dif_pos rfl] at hname
      rw [name?_append (h.mem_or (by decide)), hname]
      rfl

/-! ## Holes -/

theorem digits_of_hole? {digits rest' : List Char} (h : hole? rest = some (digits, rest')) :
    digits ≠ [] ∧ ∀ d ∈ digits, d.isDigit = true := by
  unfold hole? at h
  split at h
  · rename_i htake _
    cases h
    exact ⟨List.cons_ne_nil _ _, fun d hd => List.mem_takeWhile_imp (htake ▸ hd)⟩
  · cases h

theorem hole?_digits {digits : List Char} (hne : digits ≠ []) (hdigits : ∀ d ∈ digits, d.isDigit = true) :
    hole? (digits ++ '\x7d' :: rest) = some (digits, rest) := by
  obtain ⟨htake, hdrop⟩ := Text.span_append_cons (c := '\x7d') hdigits (by decide) rest
  rw [hole?, htake, hdrop]
  cases digits with
  | nil => exact absurd rfl hne
  | cons d digits => rfl

/-- **Where a hole is read there are digits in braces.** -/
theorem exists_of_hole_mem_parts {digits : List Char} (h : .hole digits ∈ parts cs) : ∃ before after,
    cs = before ++ '\x7b' :: digits ++ '\x7d' :: after ∧ digits ≠ [] ∧ ∀ d ∈ digits, d.isDigit = true := by
  fun_induction parts cs with
  | case1 => cases h
  | case2 c rest found rest' hhole ih =>
    split at hhole
    · rename_i hc
      subst hc
      have hrest := eq_of_hole? hhole
      rcases List.mem_cons.1 h with h | h
      · cases h
        exact ⟨[], rest', by rw [hrest]; rfl, digits_of_hole? hhole⟩
      · obtain ⟨before, after, rfl, hdigits⟩ := ih h
        exact ⟨'\x7b' :: found ++ '\x7d' :: before, after, by rw [hrest]; simp, hdigits⟩
    · cases hhole
  | case3 c rest _ name rest' hname ih =>
    split at hname
    · rename_i hc
      subst hc
      have hrest := eq_of_name? hname
      obtain ⟨before, after, rfl, hdigits⟩ := ih ((List.mem_cons.1 h).resolve_left (by simp))
      exact ⟨'$' :: name ++ before, after, by rw [hrest]; simp, hdigits⟩
    · cases hname
  | case4 c rest _ _ ih =>
    obtain ⟨before, after, rfl, hdigits⟩ := ih ((List.mem_cons.1 h).resolve_left (by simp))
    exact ⟨c :: before, after, rfl, hdigits⟩

/-! ## Texts without holes -/

/-- **A text as it is written**, with each `$` and a name after it replaced by the text of the variable, if there is
one. -/
def literal (vars : Variables) (cs : List Char) : List Char :=
  match cs with
  | [] => []
  | c :: rest =>
    match _h : if c = '$' then name? rest else none with
    | some (name, rest') =>
      (vars.get? (.ofList ('$' :: name))).elim ('$' :: name) (fun value => value.text.toList) ++ literal vars rest'
    | none => c :: literal vars rest
termination_by cs.length
decreasing_by
  · split at _h
    · simp only [eq_of_name? _h, List.length_cons, List.length_append]
      omega
    · cases _h
  · simp

/-- A text with its holes and variables filled in. -/
def filled (values : List String) (vars : Variables) (cs : List Char) : List Char :=
  (parts cs).flatMap (Part.shown values vars)

variable {values : List String} {vars : Variables}

theorem literal_variable {name rest' : List Char} (h : name? rest = some (name, rest')) : literal vars ('$' :: rest) =
    (vars.get? (.ofList ('$' :: name))).elim ('$' :: name) (fun value => value.text.toList) ++ literal vars rest' := by
  rw [literal]
  split <;> simp_all

theorem literal_char (h : c = '$' → name? rest = none) : literal vars (c :: rest) = c :: literal vars rest := by
  rw [literal]
  split <;> simp_all

theorem literal_append_of_notMem (h : '$' ∉ a) : literal vars (a ++ b) = a ++ literal vars b := by
  induction a with
  | nil => rfl
  | cons c a ih =>
    have hc : c ≠ '$' := fun hc => h (hc ▸ List.mem_cons_self)
    rw [List.cons_append, literal_char fun he => absurd he hc, ih fun hmem => h (List.mem_cons_of_mem _ hmem)]
    rfl

/-- Without variables the text stays. -/
theorem literal_empty (cs : List Char) : literal ∅ cs = cs := by
  fun_induction literal ∅ cs with
  | case1 => rfl
  | case2 c rest name rest' hname ih =>
    split at hname
    · rename_i hc
      rw [Variables.get?_empty, ih, hc, eq_of_name? hname]
      rfl
    · cases hname
  | case3 c rest _ ih => rw [ih]

/-- **Where no number in braces has a value, the text stays as it is written.** -/
theorem filled_eq_literal (h : ∀ digits, .hole digits ∈ parts cs → values.length ≤ Nat.ofDigitChars 10 digits 0) :
    filled values vars cs = literal vars cs := by
  unfold filled
  fun_induction parts cs with
  | case1 => rw [literal]; rfl
  | case2 c rest digits rest' hhole ih =>
    split at hhole
    · rename_i hc
      subst hc
      have hdollar : '$' ∉ '\x7b' :: digits ++ ['\x7d'] := by
        intro hmem
        simp only [List.cons_append, List.mem_cons, List.mem_append, List.not_mem_nil, or_false] at hmem
        rcases hmem with hmem | hmem | hmem
        · cases hmem
        · exact absurd ((digits_of_hole? hhole).2 _ hmem) (by decide)
        · cases hmem
      have hwritten : '\x7b' :: rest = ('\x7b' :: digits ++ ['\x7d']) ++ rest' := by
        rw [eq_of_hole? hhole]
        simp
      rw [List.flatMap_cons, ih fun other hother => h other (List.mem_cons_of_mem _ hother), Part.shown,
        List.getElem?_eq_none (h digits List.mem_cons_self), hwritten, literal_append_of_notMem hdollar]
      rfl
    · cases hhole
  | case3 c rest _ name rest' hname ih =>
    split at hname
    · rename_i hc
      subst hc
      rw [List.flatMap_cons, ih fun other hother => h other (List.mem_cons_of_mem _ hother), literal_variable hname]
      rfl
    · cases hname
  | case4 c rest _ hname ih =>
    rw [List.flatMap_cons, ih fun other hother => h other (List.mem_cons_of_mem _ hother), literal_char]
    · rfl
    · intro hc
      subst hc
      rwa [dif_pos rfl] at hname

theorem filled_append (h : Apart a b) : filled values vars (a ++ b) = filled values vars a ++ filled values vars b := by
  rw [filled, parts_append h, List.flatMap_append]
  rfl

/-! ## How long a text gets -/

section Length

variable {n : Nat}

theorem length_shown_le (part : Part) :
    (part.shown (List.replicate n "") ∅).length ≤ part.spelled.length := by
  rcases part with c | digits | name
  · exact Nat.le_refl 1
  · by_cases h : Nat.ofDigitChars 10 digits 0 < n
    · rw [Part.shown, List.getElem?_replicate_of_lt h]
      exact Nat.zero_le _
    · rw [Part.shown, List.getElem?_eq_none (by simpa using h)]
      exact Nat.le_refl _
  · rw [Part.shown, Variables.get?_empty]
    exact Nat.le_refl _

theorem length_filled_le (cs : List Char) : (filled (List.replicate n "") ∅ cs).length ≤ cs.length := by
  have hspelled := congrArg List.length (flatMap_spelled_parts cs)
  rw [filled, List.length_flatMap, ← hspelled, List.length_flatMap]
  exact List.sum_le_sum fun part _ => length_shown_le part

/-- **A text gets shorter where an empty value is filled in.** -/
theorem length_filled_lt {digits : List Char} (h : .hole digits ∈ parts cs)
    (hlt : Nat.ofDigitChars 10 digits 0 < n) : (filled (List.replicate n "") ∅ cs).length < cs.length := by
  have hspelled := congrArg List.length (flatMap_spelled_parts cs)
  rw [filled, List.length_flatMap, ← hspelled, List.length_flatMap]
  refine List.sum_lt_sum _ _ (fun part _ => length_shown_le part) ⟨_, h, ?_⟩
  rw [Part.shown, List.getElem?_replicate_of_lt hlt]
  exact Nat.succ_pos _

end Length

end Fill

end Dialogue
