import Mathlib
import Dialogue.Proofs.Expr.Precedence
import Dialogue.Proofs.Format.Grammar

/-!
# Reading is the grammar

The reader of format functions agrees with the grammar: what is written at the front of a text is read off it, and what
is read off is written there. Every part of a function has its equivalence, for any text after it: names
(`plain_readName_eq_ok_iff`), strings and values, whose signs are read one by one (`stringBody?_sign`), choices, which
are read one by one as well (`plain_readChoices_choice`, `readChoices_cases`), and whole functions
(`plain_readFunction_eq_ok_iff`).

So the functions of a text, and the text with a mark in the place of each, are those of the way it splits
(`parse_eq_ok_iff`).
-/

namespace Dialogue.Format

variable {α : Type} {cs rest name text value : List Char}

/-- What was read, without the fact that fewer characters are left. -/
def plain {p : α × List Char → Prop} (r : Except SyntaxFault { x : α × List Char // p x }) :
    Except SyntaxFault (α × List Char) :=
  r.map Subtype.val

/-! ## Names and single characters -/

theorem skipBlanks_of_cons {c : Char} (h : Text.trimStart cs = c :: rest) :
    skipBlanks cs = .ok ⟨c :: rest, by rw [← h]; exact Text.length_trimStart_le cs⟩ := by
  simp [skipBlanks, h]

theorem skipBlanks_of_nil (h : Text.trimStart cs = []) : skipBlanks cs = .error .endOfLine := by
  simp [skipBlanks, h]

/-- Every reader skips blanks first, and fails when nothing else is left. -/
theorem exists_gap_of_skipBlanks {β : Type} {p : β × List Char → Prop} {r : β × List Char}
    {f : { r : List Char // r.length ≤ cs.length } → Except SyntaxFault { x : β × List Char // p x }}
    (h : plain (skipBlanks cs >>= f) = .ok r) :
    ∃ (gap : Gap) (c : Char) (after : List Char), cs = gap.1 ++ c :: after ∧ Text.trimStart cs = c :: after := by
  cases htrim : Text.trimStart cs with
  | nil =>
    rw [skipBlanks_of_nil htrim] at h
    cases h
  | cons c after =>
    obtain ⟨-, gap, hcs⟩ := trimStart_eq_cons_iff.1 htrim
    exact ⟨gap, c, after, hcs, rfl⟩

theorem plain_readName_eq_ok_iff : plain (readName cs) = .ok (name, rest) ↔
    IsName name ∧ Stops continuesName rest ∧ ∃ gap : Gap, cs = gap.1 ++ name ++ rest := by
  constructor
  · intro h
    obtain ⟨gap, c, after, rfl, htrim⟩ := exists_gap_of_skipBlanks h
    rw [readName, skipBlanks_of_cons htrim] at h
    simp only [bind, Except.bind] at h
    split at h
    · rename_i hc
      cases h
      refine ⟨⟨hc, fun d => List.mem_takeWhile_imp⟩, stops_dropWhile _ _, gap, ?_⟩
      rw [List.append_assoc, List.cons_append, List.takeWhile_append_dropWhile]
    · cases h
  · rintro ⟨hname, hrest, gap, rfl⟩
    cases name with
    | nil => exact hname.elim
    | cons c name =>
      have htrim : Text.trimStart (gap.1 ++ c :: name ++ rest) = c :: (name ++ rest) :=
        trimStart_eq_cons_iff.2 ⟨not_isBlank_of_startsName hname.1, gap, by simp⟩
      rw [readName, skipBlanks_of_cons htrim]
      simp only [bind, Except.bind, hname.1, if_true, takeWhile_append_of_stops hname.2 hrest,
        dropWhile_append_of_stops hname.2 hrest]
      rfl

theorem plain_readChar_eq_ok_iff {c : Char} (hc : Text.isBlank c = false) :
    plain (readChar c cs) = .ok ((), rest) ↔ ∃ gap : Gap, cs = gap.1 ++ c :: rest := by
  constructor
  · intro h
    obtain ⟨gap, d, after, rfl, htrim⟩ := exists_gap_of_skipBlanks h
    rw [readChar, skipBlanks_of_cons htrim] at h
    simp only [bind, Except.bind] at h
    split at h
    · rename_i hd
      cases h
      exact ⟨gap, by rw [hd]⟩
    · cases h
  · rintro ⟨gap, rfl⟩
    have htrim : Text.trimStart (gap.1 ++ c :: rest) = c :: rest := trimStart_eq_cons_iff.2 ⟨hc, gap, rfl⟩
    rw [readChar, skipBlanks_of_cons htrim]
    simp only [bind, Except.bind, if_true]
    rfl

/-! ## Strings and values -/

/-- **One sign is read before the rest of its string.** -/
theorem stringBody?_sign (sign : Sign) (cs : List Char) :
    (stringBody? (sign.written ++ cs)).map Subtype.val =
      ((stringBody? cs).map Subtype.val).map fun r => (sign.read valueMark ++ r.1, r.2) := by
  cases sign with
  | plain c h =>
    obtain ⟨hquote, hback, hvalue⟩ := h
    rw [show (Sign.plain c ⟨hquote, hback, hvalue⟩).written ++ cs = c :: cs from rfl, stringBody?]
    · simp only [Option.map_map, hvalue, if_false]
      rfl
    · exact hquote
    · exact fun he _ => hback he
    · exact fun d ds he _ => hback he
  | value =>
    rw [show Sign.value.written ++ cs = '%' :: cs from rfl, stringBody?]
    · simp only [Option.map_map, if_true]
      rfl
    all_goals simp
  | escaped c =>
    rw [show (Sign.escaped c).written ++ cs = '\\' :: c :: cs from rfl, stringBody?, Option.map_map, Option.map_map]
    rfl

/-- How a string can go on. -/
theorem sign_cases (cs : List Char) : cs = [] ∨ cs = ['\\'] ∨ (∃ after, cs = '"' :: after) ∨
    ∃ (sign : Sign) (after : List Char), cs = sign.written ++ after := by
  cases cs with
  | nil => exact .inl rfl
  | cons c cs =>
    by_cases hquote : c = '"'
    · exact .inr (.inr (.inl ⟨cs, by rw [hquote]⟩))
    by_cases hback : c = '\\'
    · cases cs with
      | nil => exact .inr (.inl (by rw [hback]))
      | cons d cs => exact .inr (.inr (.inr ⟨.escaped d, cs, by rw [hback]; rfl⟩))
    by_cases hvalue : c = '%'
    · exact .inr (.inr (.inr ⟨.value, cs, by rw [hvalue]; rfl⟩))
    · exact .inr (.inr (.inr ⟨.plain c ⟨hquote, hback, hvalue⟩, cs, rfl⟩))

/-- What is read of a string was closed, unless nothing is left after it: at the end of a text a backslash closes a
string too. -/
theorem exists_signs_of_stringBody? {cs text rest : List Char} (hrest : rest ≠ [])
    (h : (stringBody? cs).map Subtype.val = some (text, rest)) :
    ∃ signs : List Sign, cs = signs.flatMap Sign.written ++ '"' :: rest ∧ text = readSigns valueMark signs := by
  rcases sign_cases cs with rfl | rfl | ⟨after, rfl⟩ | ⟨sign, after, hafter⟩
  · rw [stringBody?] at h
    cases h
  · rw [stringBody?] at h
    cases h
    exact absurd rfl hrest
  · rw [stringBody?] at h
    cases h
    exact ⟨[], rfl, rfl⟩
  · have hshorter : after.length < cs.length := by
      rw [hafter, List.length_append]
      cases sign <;> simp [Sign.written]
    rw [hafter, stringBody?_sign, Option.map_eq_some_iff] at h
    obtain ⟨⟨t, r⟩, hread, he⟩ := h
    cases he
    obtain ⟨signs, rfl, rfl⟩ := exists_signs_of_stringBody? hrest hread
    exact ⟨sign :: signs, by simp [hafter], rfl⟩
termination_by cs.length

theorem stringBody?_signs (signs : List Sign) (rest : List Char) :
    (stringBody? (signs.flatMap Sign.written ++ '"' :: rest)).map Subtype.val =
      some (readSigns valueMark signs, rest) := by
  induction signs with
  | nil =>
    rw [List.flatMap_nil, List.nil_append, stringBody?]
    rfl
  | cons sign signs ih =>
    rw [List.flatMap_cons, List.append_assoc, stringBody?_sign, ih]
    rfl

theorem plain_readString_of_quote {after : List Char} (h : Text.trimStart cs = '"' :: after) :
    plain (readString cs) = match (stringBody? after).map Subtype.val with
      | some r => .ok r
      | none => .error .openString := by
  rw [readString, skipBlanks_of_cons h]
  simp only [bind, Except.bind]
  cases stringBody? after <;> rfl

theorem plain_readString_eq_ok_iff (hrest : rest ≠ []) : plain (readString cs) = .ok (text, rest) ↔
    ∃ (gap : Gap) (signs : List Sign), cs = gap.1 ++ writtenString signs ++ rest ∧
      text = readSigns valueMark signs := by
  constructor
  · intro h
    obtain ⟨gap, c, after, rfl, htrim⟩ := exists_gap_of_skipBlanks h
    by_cases hc : c = '"'
    · subst hc
      rw [plain_readString_of_quote htrim] at h
      split at h
      · rename_i r hbody
        cases h
        obtain ⟨signs, rfl, rfl⟩ := exists_signs_of_stringBody? hrest hbody
        exact ⟨gap, signs, by simp [writtenString], rfl⟩
      · cases h
    · rw [readString, skipBlanks_of_cons htrim] at h
      simp only [bind, Except.bind] at h
      split at h
      · rename_i he _
        exact absurd (List.cons.inj he).1 hc
      · cases h
  · rintro ⟨gap, signs, rfl, rfl⟩
    have htrim : Text.trimStart (gap.1 ++ writtenString signs ++ rest) =
        '"' :: (signs.flatMap Sign.written ++ '"' :: rest) :=
      trimStart_eq_cons_iff.2 ⟨by decide, gap, by simp [writtenString]⟩
    rw [plain_readString_of_quote htrim, stringBody?_signs]

/-- Before a quote a value is a string. -/
theorem plain_readValue_of_quote {after : List Char} (h : Text.trimStart cs = '"' :: after) :
    plain (readValue cs) = plain (readString ('"' :: after)) := by
  rw [readValue, skipBlanks_of_cons h]
  simp only [bind, Except.bind, if_true]
  cases readString ('"' :: after) <;> rfl

theorem plain_readValue_of_bare {c : Char} {after : List Char} (h : Text.trimStart cs = c :: after) (hc : c ≠ '"') :
    plain (readValue cs) = if continuesValue c then
      .ok (c :: after.takeWhile continuesValue, after.dropWhile continuesValue) else .error .noValue := by
  rw [readValue, skipBlanks_of_cons h]
  simp only [bind, Except.bind, hc, if_false]
  split <;> rfl

theorem not_isBlank_of_continuesValue {c : Char} (h : continuesValue c = true) : Text.isBlank c = false := by
  simp only [continuesValue, Bool.and_eq_true, Bool.not_eq_true'] at h
  exact h.1

theorem plain_readValue_eq_ok_iff (hrest : rest ≠ []) : plain (readValue cs) = .ok (value, rest) ↔
    ∃ (gap : Gap) (v : WrittenValue), cs = gap.1 ++ v.written ++ rest ∧ value = v.read valueMark ∧ v.Ends rest := by
  constructor
  · intro h
    obtain ⟨gap, c, after, rfl, htrim⟩ := exists_gap_of_skipBlanks h
    by_cases hc : c = '"'
    · subst hc
      rw [plain_readValue_of_quote htrim, plain_readString_eq_ok_iff hrest] at h
      obtain ⟨gap', signs, hafter, rfl⟩ := h
      exact ⟨gap.append gap', .quoted signs, by simp [hafter, Gap.append, WrittenValue.written], rfl, trivial⟩
    · rw [plain_readValue_of_bare htrim hc] at h
      split at h
      · rename_i hgoes
        cases h
        refine ⟨gap, .bare c (after.takeWhile continuesValue) hc ?_, ?_, rfl, stops_dropWhile _ _⟩
        · rintro d (_ | ⟨_, hd⟩)
          · exact hgoes
          · exact List.mem_takeWhile_imp hd
        · rw [WrittenValue.written, List.append_assoc, List.cons_append, List.takeWhile_append_dropWhile]
      · cases h
  · rintro ⟨gap, v, rfl, rfl, hends⟩
    cases v with
    | bare c cs hc h =>
      have hgoes := h c List.mem_cons_self
      have hcs : ∀ d ∈ cs, continuesValue d = true := fun d hd => h d (List.mem_cons_of_mem _ hd)
      have htrim : Text.trimStart (gap.1 ++ c :: cs ++ rest) = c :: (cs ++ rest) :=
        trimStart_eq_cons_iff.2 ⟨not_isBlank_of_continuesValue hgoes, gap, by simp⟩
      rw [WrittenValue.written, plain_readValue_of_bare htrim hc, if_pos hgoes, takeWhile_append_of_stops hcs hends,
        dropWhile_append_of_stops hcs hends]
      rfl
    | quoted signs =>
      have htrim : Text.trimStart (gap.1 ++ writtenString signs ++ rest) =
          '"' :: (signs.flatMap Sign.written ++ ['"'] ++ rest) :=
        trimStart_eq_cons_iff.2 ⟨by decide, gap, by simp [writtenString]⟩
      rw [WrittenValue.written, plain_readValue_of_quote htrim]
      exact (plain_readString_eq_ok_iff hrest).2 ⟨Gap.empty, signs, rfl, rfl⟩

/-! ## Choices -/

section Choices

variable {known choices : List (List Char × List Char)}

theorem plain_readChoices_of_end (h : Text.trimStart cs = ']' :: rest) :
    plain (readChoices known cs) = .ok (known, rest) := by
  rw [readChoices, skipBlanks_of_cons h]
  rfl

theorem plain_readChoices_of_nil (h : Text.trimStart cs = []) :
    plain (readChoices known cs) = .error .endOfLine := by
  rw [readChoices, skipBlanks_of_nil h]
  rfl

theorem plain_readChoices_of_cons {c : Char} {after : List Char} (h : Text.trimStart cs = c :: after) (hc : c ≠ ']') :
    plain (readChoices known cs) = (plain (readName (c :: after))).bind fun r₁ =>
      (plain (readChar '=' r₁.2)).bind fun r₂ => (plain (readString r₂.2)).bind fun r₃ =>
        if (known.lookup r₁.1).isSome then .error (.duplicate (.ofList r₁.1))
        else plain (readChoices (known ++ [(r₁.1, r₃.1)]) r₃.2) := by
  have hend : readEnd? (c :: after) = none := by
    rw [readEnd?]
    exact fun rest he => hc (List.cons.inj he).1
  rw [readChoices, skipBlanks_of_cons h]
  simp only [bind, Except.bind, hend]
  cases readName (c :: after) with
  | error fault => rfl
  | ok r₁ =>
    obtain ⟨⟨key, rest₁⟩, h₁⟩ := r₁
    simp only [plain, Except.map]
    cases readChar '=' rest₁ with
    | error fault => rfl
    | ok r₂ =>
      obtain ⟨⟨⟨⟩, rest₂⟩, h₂⟩ := r₂
      simp only
      cases readString rest₂ with
      | error fault => rfl
      | ok r₃ =>
        obtain ⟨⟨text, rest₃⟩, h₃⟩ := r₃
        simp only
        cases (known.lookup key).isSome with
        | true => rfl
        | false => cases readChoices (known ++ [(key, text)]) rest₃ <;> rfl

theorem writtenChoices_ne_nil (written : List WrittenChoice) (gap : Gap) : writtenChoices written gap ≠ [] := by
  simp [writtenChoices]

theorem writtenChoices_append_ne_nil (written : List WrittenChoice) (gap : Gap) (rest : List Char) :
    writtenChoices written gap ++ rest ≠ [] :=
  List.append_ne_nil_of_left_ne_nil (writtenChoices_ne_nil written gap) rest

theorem map_fst_choices (written : List WrittenChoice) :
    (written.map WrittenChoice.choice).map Prod.fst = written.map WrittenChoice.key := by
  rw [List.map_map]
  rfl

theorem isSome_lookup_iff {key : List Char} : (known.lookup key).isSome = true ↔ key ∈ known.map Prod.fst := by
  simp [List.lookup_isSome_iff]

/-- **One choice is read before the ones after it.** -/
theorem plain_readChoices_choice {c : WrittenChoice} (hnew : c.key ∉ known.map Prod.fst) (hrest : rest ≠ []) :
    plain (readChoices known (c.written ++ rest)) = plain (readChoices (known ++ [c.choice]) rest) := by
  obtain ⟨gap, key, isName, beforeSign, afterSign, signs⟩ := c
  cases key with
  | nil => exact isName.elim
  | cons d key =>
    have htrim : Text.trimStart (WrittenChoice.written ⟨gap, d :: key, isName, beforeSign, afterSign, signs⟩ ++ rest) =
        d :: (key ++ (beforeSign.1 ++ '=' :: (afterSign.1 ++ writtenString signs ++ rest))) :=
      trimStart_eq_cons_iff.2 ⟨not_isBlank_of_startsName isName.1, gap, by simp [WrittenChoice.written]⟩
    have hd : d ≠ ']' := by
      rintro rfl
      exact absurd isName.1 (by decide +kernel)
    have hname :
        plain (readName (d :: (key ++ (beforeSign.1 ++ '=' :: (afterSign.1 ++ writtenString signs ++ rest))))) =
          .ok (d :: key, beforeSign.1 ++ '=' :: (afterSign.1 ++ writtenString signs ++ rest)) :=
      plain_readName_eq_ok_iff.2 ⟨isName, stops_gap beforeSign (by decide +kernel), Gap.empty, rfl⟩
    have hsign : plain (readChar '=' (beforeSign.1 ++ '=' :: (afterSign.1 ++ writtenString signs ++ rest))) =
        .ok ((), afterSign.1 ++ writtenString signs ++ rest) :=
      (plain_readChar_eq_ok_iff (by decide)).2 ⟨beforeSign, rfl⟩
    have htext := (plain_readString_eq_ok_iff hrest).2 ⟨afterSign, signs, rfl, rfl⟩
    have hlookup : (known.lookup (d :: key)).isSome = false := by
      rwa [← Bool.not_eq_true, isSome_lookup_iff]
    rw [plain_readChoices_of_cons htrim hd, hname]
    show (plain (readChar '=' _)).bind _ = _
    rw [hsign]
    show (plain (readString _)).bind _ = _
    rw [htext]
    show (if (known.lookup (d :: key)).isSome then _ else plain (readChoices _ _)) = _
    rw [hlookup]
    rfl

/-- **How choices can go on**: with the closing bracket, or with a choice whose key is new. -/
theorem readChoices_cases (h : plain (readChoices known cs) = .ok (choices, rest)) :
    (∃ gap : Gap, cs = gap.1 ++ ']' :: rest ∧ choices = known) ∨
    ∃ (c : WrittenChoice) (after : List Char), cs = c.written ++ after ∧ c.key ∉ known.map Prod.fst ∧
      plain (readChoices (known ++ [c.choice]) after) = .ok (choices, rest) := by
  have hskip := h
  rw [readChoices] at hskip
  obtain ⟨gap, c, after, rfl, htrim⟩ := exists_gap_of_skipBlanks hskip
  by_cases hc : c = ']'
  · subst hc
    rw [plain_readChoices_of_end htrim] at h
    cases h
    exact .inl ⟨gap, rfl, rfl⟩
  · rw [plain_readChoices_of_cons htrim hc] at h
    obtain ⟨⟨key, rest₁⟩, hkey, h⟩ := Expr.of_bind_eq_ok h
    obtain ⟨⟨⟨⟩, rest₂⟩, hsign, h⟩ := Expr.of_bind_eq_ok h
    obtain ⟨⟨text, rest₃⟩, htext, h⟩ := Expr.of_bind_eq_ok h
    dsimp only at hsign htext h
    split at h
    · cases h
    rename_i hnew
    -- more is read after the string, so it does not end with the text
    have hne : rest₃ ≠ [] := by
      rintro rfl
      rw [plain_readChoices_of_nil rfl] at h
      cases h
    obtain ⟨hname, -, gap', hafter⟩ := plain_readName_eq_ok_iff.1 hkey
    obtain ⟨beforeSign, rfl⟩ := (plain_readChar_eq_ok_iff (by decide)).1 hsign
    obtain ⟨afterSign, signs, rfl, rfl⟩ := (plain_readString_eq_ok_iff hne).1 htext
    refine .inr ⟨⟨gap.append gap', key, hname, beforeSign, afterSign, signs⟩, rest₃, ?_, ?_, h⟩
    · simp [hafter, WrittenChoice.written, Gap.append]
    · rwa [← isSome_lookup_iff]

/-- Choices are read as they are written, by the recursion of the reader. -/
theorem exists_written_of_readChoices {cs : List Char} {known : List (List Char × List Char)}
    (hknown : (known.map Prod.fst).Nodup) (h : plain (readChoices known cs) = .ok (choices, rest)) :
    ∃ (written : List WrittenChoice) (gap : Gap), cs = writtenChoices written gap ++ rest ∧
      choices = known ++ written.map WrittenChoice.choice ∧ (choices.map Prod.fst).Nodup := by
  rcases readChoices_cases h with ⟨gap, rfl, rfl⟩ | ⟨c, after, hcs, hnew, h⟩
  · exact ⟨[], gap, by simp [writtenChoices], by simp, hknown⟩
  · have hshorter : after.length < cs.length := by
      simp only [hcs, WrittenChoice.written, List.length_append, List.length_cons]
      omega
    have hlonger : ((known ++ [c.choice]).map Prod.fst).Nodup := by
      rw [List.map_append, List.map_singleton, ← List.concat_eq_append]
      exact hknown.concat hnew
    obtain ⟨written, gap, rfl, hchoices, hnodup⟩ := exists_written_of_readChoices hlonger h
    exact ⟨c :: written, gap, by simp [hcs, writtenChoices], by simp [hchoices], hnodup⟩
termination_by cs.length

theorem plain_readChoices_written {written : List WrittenChoice} {known : List (List Char × List Char)}
    (hnodup : ((known ++ written.map WrittenChoice.choice).map Prod.fst).Nodup) (gap : Gap) (rest : List Char) :
    plain (readChoices known (writtenChoices written gap ++ rest)) =
      .ok (known ++ written.map WrittenChoice.choice, rest) := by
  induction written generalizing known with
  | nil =>
    rw [List.map_nil, List.append_nil]
    exact plain_readChoices_of_end (trimStart_eq_cons_iff.2 ⟨by decide, gap, by simp [writtenChoices]⟩)
  | cons c written ih =>
    have hnew : c.key ∉ known.map Prod.fst := by
      intro hold
      rw [List.map_append, List.nodup_append] at hnodup
      exact hnodup.2.2 _ hold _ List.mem_cons_self rfl
    have hsplit : writtenChoices (c :: written) gap ++ rest = c.written ++ (writtenChoices written gap ++ rest) := by
      simp [writtenChoices]
    rw [hsplit, plain_readChoices_choice hnew (writtenChoices_append_ne_nil _ _ _), ih (by simpa using hnodup)]
    simp

end Choices

/-! ## Functions -/

theorem WrittenValue.written_ne_nil (v : WrittenValue) : v.written ≠ [] := by
  cases v <;> exact List.cons_ne_nil _ _

theorem WrittenValue.ends_append_iff (v : WrittenValue) {a b : List Char} (ha : a ≠ []) :
    v.Ends (a ++ b) ↔ v.Ends a := by
  cases v with
  | bare => exact stops_append_iff ha
  | quoted => exact Iff.rfl

theorem WrittenFunction.stops_afterKind_iff {gap : Gap} {v : WrittenValue} :
    Stops continuesName (gap.1 ++ v.written ++ rest) ↔ Stops continuesName (gap.1 ++ v.written) :=
  stops_append_iff (List.append_ne_nil_of_right_ne_nil _ v.written_ne_nil)

variable {kind : FunctionKind} {function : Function}

theorem plain_readFunction (kind : FunctionKind) (cs : List Char) : plain (readFunction kind cs) =
    (plain (readValue cs)).bind fun r₁ => (plain (readChoices [] r₁.2)).map fun r₂ => (⟨kind, r₁.1, r₂.1⟩, r₂.2) := by
  rw [readFunction]
  cases readValue cs with
  | error fault => rfl
  | ok r₁ =>
    obtain ⟨⟨value, rest⟩, h₁⟩ := r₁
    show plain ((readChoices [] rest).bind _) = (plain (readChoices [] rest)).map _
    cases readChoices [] rest <;> rfl

/-- **A function is read as it is written**, and no other is. -/
theorem plain_readFunction_eq_ok_iff (hcs : Stops continuesName cs) :
    plain (readFunction kind cs) = .ok (function, rest) ↔
      ∃ F : WrittenFunction, F.kind = kind ∧ cs = F.afterKind ++ rest ∧ function = F.function := by
  rw [plain_readFunction]
  constructor
  · intro h
    obtain ⟨⟨value, rest₁⟩, hvalue, h⟩ := Expr.of_bind_eq_ok h
    obtain ⟨⟨choices, rest₂⟩, hchoices, h⟩ := Expr.of_map_eq_ok h
    cases h
    have hnone : (([] : List (List Char × List Char)).map Prod.fst).Nodup := List.nodup_nil
    obtain ⟨written, beforeEnd, hrest₁, rfl, hnodup⟩ := exists_written_of_readChoices hnone hchoices
    dsimp only at hrest₁
    subst hrest₁
    obtain ⟨gap, v, rfl, rfl, hends⟩ :=
      (plain_readValue_eq_ok_iff (writtenChoices_append_ne_nil _ _ _)).1 hvalue
    refine ⟨⟨Gap.empty, kind, gap, v, written, beforeEnd, WrittenFunction.stops_afterKind_iff.1 hcs,
      (v.ends_append_iff (writtenChoices_ne_nil _ _)).1 hends, ?_⟩, rfl, ?_, rfl⟩
    · rwa [← map_fst_choices]
    · simp [WrittenFunction.afterKind]
  · rintro ⟨F, rfl, rfl, rfl⟩
    have hvalue : plain (readValue (F.afterKind ++ rest)) =
        .ok (F.value.read valueMark, writtenChoices F.choices F.beforeEnd ++ rest) :=
      (plain_readValue_eq_ok_iff (writtenChoices_append_ne_nil _ _ _)).2
        ⟨F.beforeValue, F.value, by simp [WrittenFunction.afterKind], rfl,
          (F.value.ends_append_iff (writtenChoices_ne_nil _ _)).2 F.value_ends⟩
    have hnodup : (([] ++ F.choices.map WrittenChoice.choice).map Prod.fst).Nodup := by
      rw [List.nil_append, map_fst_choices]
      exact F.nodup
    have hchoices := plain_readChoices_written hnodup F.beforeEnd rest
    rw [hvalue]
    show (plain (readChoices [] _)).map _ = _
    rw [hchoices]
    rfl

theorem readKind?_eq_some_iff : (readKind? cs).map Subtype.val = some (kind, rest) ↔
    Stops continuesName rest ∧ ∃ gap : Gap, cs = gap.1 ++ kind.name ++ rest := by
  have hplain : (readKind? cs).map Subtype.val = some (kind, rest) ↔ plain (readName cs) = .ok (kind.name, rest) := by
    unfold readKind?
    cases readName cs with
    | error fault => simp [plain, Except.map]
    | ok r =>
      obtain ⟨⟨name, rest'⟩, h⟩ := r
      simp [plain, Except.map, FunctionKind.ofName?_eq_some_iff]
  rw [hplain, plain_readName_eq_ok_iff]
  exact and_iff_right kind.isName_name

/-! ## Texts -/

/-- The reader finds a kind just where a function opens. -/
theorem opens_cons_iff {c : Char} :
    Opens (c :: cs) ↔ c = '[' ∧ ∃ kind rest, (readKind? cs).map Subtype.val = some (kind, rest) := by
  simp only [readKind?_eq_some_iff]
  constructor
  · rintro ⟨gap, kind, rest, he, hstops⟩
    exact ⟨(List.cons.inj he).1, kind, rest, hstops, gap, (List.cons.inj he).2⟩
  · rintro ⟨rfl, kind, rest, hstops, gap, rfl⟩
    exact ⟨gap, kind, rest, rfl, hstops⟩

theorem parseFrom_char {index : Nat} {c : Char} (h : ¬Opens (c :: cs)) : parseFrom index (c :: cs) =
    (parseFrom index cs).map fun r => (c :: r.1, r.2) := by
  have hnone : (if c = '[' then readKind? cs else none) = none := by
    split
    · rename_i hc
      cases hkind : readKind? cs with
      | none => rfl
      | some r => exact absurd (opens_cons_iff.2 ⟨hc, r.1.1, r.1.2, by rw [hkind]; rfl⟩) h
    · rfl
  rw [parseFrom, hnone]
  cases parseFrom index cs <;> rfl

theorem parseFrom_opens {index : Nat} {kind : FunctionKind}
    (h : (readKind? cs).map Subtype.val = some (kind, rest)) : parseFrom index ('[' :: cs) =
      (plain (readFunction kind rest)).bind fun r =>
        (parseFrom (index + 1) r.2).map fun t => (functionMark index ++ t.1, r.1 :: t.2) := by
  cases hkind : readKind? cs with
  | none =>
    rw [hkind] at h
    cases h
  | some found =>
    obtain ⟨found, hlength⟩ := found
    rw [hkind] at h
    cases h
    have hsome : (if '[' = '[' then readKind? cs else none) = some ⟨(kind, rest), hlength⟩ := by rw [if_pos rfl, hkind]
    rw [parseFrom, hsome]
    simp only [bind, Except.bind]
    cases readFunction kind rest with
    | error fault => rfl
    | ok r =>
      obtain ⟨⟨function, after⟩, h'⟩ := r
      simp only [plain, Except.map]
      cases parseFrom (index + 1) after <;> rfl

variable {index : Nat} {parts : List Part} {text : List Char} {functions : List Function}

/-- The whole function is one step of the reader. -/
theorem parseFrom_written (F : WrittenFunction) (index : Nat) (cs : List Char) : parseFrom index (F.written ++ cs) =
    (parseFrom (index + 1) cs).map fun t => (functionMark index ++ t.1, F.function :: t.2) := by
  have hstops : Stops continuesName (F.afterKind ++ cs) := by
    rw [WrittenFunction.afterKind, List.append_assoc]
    exact WrittenFunction.stops_afterKind_iff.2 F.kind_stops
  have hkind : (readKind? (F.beforeKind.1 ++ F.kind.name ++ (F.afterKind ++ cs))).map Subtype.val =
      some (F.kind, F.afterKind ++ cs) := readKind?_eq_some_iff.2 ⟨hstops, F.beforeKind, rfl⟩
  have hfunction : plain (readFunction F.kind (F.afterKind ++ cs)) = .ok (F.function, cs) :=
    (plain_readFunction_eq_ok_iff hstops).2 ⟨F, rfl, rfl, rfl⟩
  rw [WrittenFunction.written, List.cons_append, List.append_assoc, parseFrom_opens hkind, hfunction]
  rfl

theorem parseFrom_of_splits (h : Splits cs parts) (index : Nat) :
    parseFrom index cs = .ok (marked index parts, functionsOf parts) := by
  induction h generalizing index with
  | nil => rw [parseFrom]; rfl
  | char hopens _ ih => rw [parseFrom_char hopens, ih]; rfl
  | function F _ ih => rw [parseFrom_written, ih]; rfl

theorem exists_splits_of_parseFrom {cs : List Char} {index : Nat} {r : List Char × List Function}
    (h : parseFrom index cs = .ok r) : ∃ parts, Splits cs parts := by
  cases cs with
  | nil => exact ⟨[], .nil⟩
  | cons c cs =>
    by_cases hopens : Opens (c :: cs)
    · obtain ⟨rfl, kind, rest, hkind⟩ := opens_cons_iff.1 hopens
      rw [parseFrom_opens hkind] at h
      obtain ⟨⟨function, after⟩, hfunction, h⟩ := Expr.of_bind_eq_ok h
      obtain ⟨t, hafter, -⟩ := Expr.of_map_eq_ok h
      obtain ⟨hstops, gap, rfl⟩ := readKind?_eq_some_iff.1 hkind
      obtain ⟨F, rfl, rfl, -⟩ := (plain_readFunction_eq_ok_iff hstops).1 hfunction
      have hwritten : '[' :: (gap.1 ++ F.kind.name ++ (F.afterKind ++ after)) =
          { F with beforeKind := gap }.written ++ after := by
        simp [WrittenFunction.written, WrittenFunction.afterKind]
      obtain ⟨parts, hparts⟩ := exists_splits_of_parseFrom hafter
      rw [hwritten]
      exact ⟨_, .function _ hparts⟩
    · rw [parseFrom_char hopens] at h
      obtain ⟨t, hcs, -⟩ := Expr.of_map_eq_ok h
      obtain ⟨parts, hparts⟩ := exists_splits_of_parseFrom hcs
      exact ⟨.char c :: parts, .char hopens hparts⟩
termination_by cs.length

/-- **A text is read as it splits into parts.** -/
theorem parse_eq_ok_iff : parse cs = .ok (text, functions) ↔
    ∃ parts, Splits cs parts ∧ text = marked 0 parts ∧ functions = functionsOf parts := by
  constructor
  · intro h
    obtain ⟨parts, hparts⟩ := exists_splits_of_parseFrom h
    cases h.symm.trans (parseFrom_of_splits hparts 0)
    exact ⟨parts, hparts, rfl, rfl⟩
  · rintro ⟨parts, hparts, rfl, rfl⟩
    exact parseFrom_of_splits hparts 0

end Dialogue.Format
