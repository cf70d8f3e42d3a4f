import Mathlib
import Dialogue.Proofs.Session.Fill

/-!
# Segments of a template

Where a template takes a value is settled by its text, the number of its holes and the names of the variables that are
set. So a template is a sequence of segments, each a text that stays or a place where something is inserted, and
filling it in shows them one after the other, whatever is inserted (`Fill.exists_segments`). What is inserted makes no
place, takes none away and joins with none.

* `Fill.parts_append_of_head`: a brace or a `$` starts a part, whatever is before it.
* `Fill.exists_of_isPlace`, `Fill.isPlace_ofPart`: the places are those where the number of a hole stands in braces, or
  a `$` with the name of a variable that is set and goes on no further.
-/

namespace Dialogue

namespace Text

theorem exists_digitChar {d : Char} (h : d.isDigit = true) : ∃ n, n < 10 ∧ d = Nat.digitChar n := by
  obtain ⟨hlow, hhigh⟩ := Char.isDigit_iff_toNat.1 h
  change 48 ≤ d.toNat at hlow
  change d.toNat ≤ 57 at hhigh
  refine ⟨d.toNat - 48, by omega, ?_⟩
  rw [← Char.toNat_inj, Nat.toNat_digitChar_of_lt_ten (by omega)]
  omega

/-- **Digits are zeros and then their number as it is written.** -/
theorem exists_zeros {digits : List Char} (hne : digits ≠ []) (hdigits : ∀ d ∈ digits, d.isDigit = true) :
    ∃ zeros, digits = List.replicate zeros '0' ++ natText (Nat.ofDigitChars 10 digits 0) := by
  induction digits using List.reverseRecOn with
  | nil => exact absurd rfl hne
  | append_singleton digits d ih =>
    obtain ⟨n, hn, rfl⟩ := exists_digitChar (hdigits d (by simp))
    have hvalue : Nat.ofDigitChars 10 (digits ++ [Nat.digitChar n]) 0 = 10 * Nat.ofDigitChars 10 digits 0 + n := by
      rw [Nat.ofDigitChars_append, Nat.ofDigitChars_cons_digitChar_of_lt_ten hn, Nat.ofDigitChars_nil]
    have hlast : natText n = [Nat.digitChar n] := Nat.toDigits_of_lt_base hn
    rw [hvalue]
    by_cases hnil : digits = []
    · subst hnil
      exact ⟨0, by simp [hlast]⟩
    · obtain ⟨zeros, hzeros⟩ := ih hnil fun d hd => hdigits d (List.mem_append_left _ hd)
      generalize Nat.ofDigitChars 10 digits 0 = value at hzeros
      rcases Nat.eq_zero_or_pos value with rfl | hpos
      · have hzero : natText 0 = ['0'] := Nat.toDigits_zero 10
        refine ⟨zeros + 1, ?_⟩
        rw [hzeros, hzero, Nat.mul_zero, Nat.zero_add, hlast, List.replicate_succ']
      · refine ⟨zeros, ?_⟩
        have hnumber : natText value ++ natText n = natText (10 * value + n) :=
          Nat.toDigits_append_toDigits (by decide) hpos hn
        rw [hzeros, List.append_assoc, ← hlast, hnumber]

end Text

namespace Fill

variable {count : Nat} {names : Finset String}

/-! ## Segments -/

/-- **A segment of a template** with so many holes, where the variables of these names are set: a text that stays, or a
place where something is inserted. The number of a hole may have zeros in front. -/
inductive Segment (count : Nat) (names : Finset String) where
  | literal (cs : List Char)
  | hole (zeros : Nat) (index : Fin count)
  | variable (name : List Char) (isSet : String.ofList ('$' :: name) ∈ names)

/-- **What is inserted**: a value for each hole, and a store in which exactly these variables are set. -/
structure Insertion (count : Nat) (names : Finset String) where
  values : List String
  vars : Variables
  length_values : values.length = count
  isSome_get?_iff (name : String) : (vars.get? name).isSome = true ↔ name ∈ names

namespace Insertion

/-- What is inserted in a hole. -/
def value (ins : Insertion count names) (index : Fin count) : String :=
  ins.values.get (index.cast ins.length_values.symm)

/-- What is inserted for a variable. -/
def text (ins : Insertion count names) {name : String} (isSet : name ∈ names) : String :=
  ((ins.vars.get? name).get ((ins.isSome_get?_iff name).2 isSet)).text

end Insertion

namespace Segment

/-- How a segment is written. -/
def spelled : Segment count names → List Char
  | .literal cs => cs
  | .hole zeros index => '\x7b' :: (List.replicate zeros '0' ++ Text.natText index) ++ ['\x7d']
  | .variable name _ => '$' :: name

/-- What a segment shows. -/
def shown (ins : Insertion count names) : Segment count names → List Char
  | .literal cs => cs
  | .hole _ index => (ins.value index).toList
  | .variable _ isSet => (ins.text isSet).toList

/-- **Something is inserted for the segment where this text is after it**: a name starts as names do and goes on as far
as it can. -/
def IsPlace (after : List Char) : Segment count names → Prop
  | .literal _ => False
  | .hole .. => True
  | .variable name _ =>
    (∃ first rest, name = first :: rest ∧ Token.startsName first = true ∧ ∀ c ∈ rest, Token.continuesName c = true) ∧
      ∀ c ∈ after.head?, Token.continuesName c = false

/-- The segment of a part. -/
def ofPart (count : Nat) (names : Finset String) : Part → Segment count names
  | .char c => .literal [c]
  | .hole digits =>
    if h : Nat.ofDigitChars 10 digits 0 < count then
      .hole (digits.length - (Text.natText (Nat.ofDigitChars 10 digits 0)).length) ⟨_, h⟩
    else .literal (Part.hole digits).spelled
  | .variable name =>
    if h : .ofList ('$' :: name) ∈ names then .variable name h else .literal (Part.variable name).spelled

theorem ofPart_hole (zeros : Nat) (index : Fin count) :
    ofPart count names (.hole (List.replicate zeros '0' ++ Text.natText index)) = .hole zeros index := by
  have hvalue : Nat.ofDigitChars 10 (List.replicate zeros '0' ++ Text.natText index) 0 = index := by
    rw [Nat.ofDigitChars_append, Nat.ofDigitChars_replicate_zero, Nat.mul_zero, Text.natText,
      Nat.ofDigitChars_ten_toDigits]
  simp [ofPart, hvalue]

theorem ofPart_variable {name : List Char} (h : String.ofList ('$' :: name) ∈ names) :
    ofPart count names (.variable name) = .variable name h :=
  dif_pos h

theorem spelled_ofPart {part : Part} {cs : List Char} (h : part ∈ parts cs) :
    (ofPart count names part).spelled = part.spelled := by
  cases part with
  | char c => rfl
  | hole digits =>
    obtain ⟨-, -, -, hne, hdigits⟩ := exists_of_hole_mem_parts h
    obtain ⟨zeros, hzeros⟩ := Text.exists_zeros hne hdigits
    by_cases hlt : Nat.ofDigitChars 10 digits 0 < count
    · have hhole : ofPart count names (.hole digits) = .hole zeros ⟨_, hlt⟩ := by
        conv_lhs => rw [hzeros]
        exact ofPart_hole zeros ⟨_, hlt⟩
      rw [hhole, spelled, ← hzeros]
      rfl
    · rw [ofPart, dif_neg hlt, spelled]
  | «variable» name =>
    rw [ofPart]
    split <;> rfl

theorem shown_ofPart (ins : Insertion count names) (part : Part) :
    (ofPart count names part).shown ins = part.shown ins.values ins.vars := by
  cases part with
  | char c => rfl
  | hole digits =>
    by_cases h : Nat.ofDigitChars 10 digits 0 < count
    · have hvalues : Nat.ofDigitChars 10 digits 0 < ins.values.length := by rwa [ins.length_values]
      rw [ofPart, dif_pos h, Part.shown, List.getElem?_eq_getElem hvalues]
      rfl
    · rw [ofPart, dif_neg h, Part.shown, List.getElem?_eq_none (by rw [ins.length_values]; omega)]
      rfl
  | «variable» name =>
    by_cases h : .ofList ('$' :: name) ∈ names
    · obtain ⟨value, hvalue⟩ := Option.isSome_iff_exists.1 ((ins.isSome_get?_iff _).2 h)
      have htext : ins.text h = value.text := congrArg Value.text (Option.get_of_eq_some _ hvalue)
      rw [ofPart, dif_pos h, Part.shown, hvalue, shown, htext]
      rfl
    · have hnone : ins.vars.get? (.ofList ('$' :: name)) = none := by
        rwa [← Option.not_isSome_iff_eq_none, ins.isSome_get?_iff]
      rw [ofPart, dif_neg h, Part.shown, hnone]
      rfl

end Segment

/-! ## Where places are -/

section Places

variable {a b cs rest : List Char}

/-- The text starts with a brace or a `$`, or it is empty. -/
def Starts (b : List Char) : Prop :=
  ∀ c ∈ b.head?, c = '\x7b' ∨ c = '$'

theorem hole?_append_of_head (h : Starts b) :
    hole? (rest ++ b) = (hole? rest).map fun (digits, rest') => (digits, rest' ++ b) := by
  obtain ⟨htake, hdrop⟩ := Text.span_append_of_head (a := rest) (b := b) (p := Char.isDigit) fun c hc => by
    rcases h c hc with rfl | rfl <;> decide
  unfold hole?
  rw [htake, hdrop]
  cases rest.takeWhile Char.isDigit with
  | nil => rfl
  | cons d digits =>
    cases rest.dropWhile Char.isDigit with
    | nil =>
      cases b with
      | nil => rfl
      | cons c b => rcases h c rfl with rfl | rfl <;> rfl
    | cons c rest' => by_cases hc : c = '\x7d' <;> simp [hc]

theorem name?_append_of_head (h : Starts b) :
    name? (rest ++ b) = (name? rest).map fun (name, rest') => (name, rest' ++ b) := by
  cases rest with
  | nil =>
    cases b with
    | nil => rfl
    | cons c b => rcases h c rfl with rfl | rfl <;> rfl
  | cons c rest =>
    obtain ⟨htake, hdrop⟩ := Text.span_append_of_head (a := rest) (b := b) (p := Token.continuesName) fun c hc => by
      rcases h c hc with rfl | rfl <;> decide
    rw [List.cons_append, name?, name?, htake, hdrop]
    split <;> rfl

/-- **A brace or a `$` starts a part**, whatever is before it. -/
theorem parts_append_of_head (h : Starts b) : parts (a ++ b) = parts a ++ parts b := by
  fun_induction parts a with
  | case1 => rfl
  | case2 c rest digits rest' hhole ih =>
    split at hhole
    · rename_i hc
      subst hc
      rw [List.cons_append, parts_hole (by rw [hole?_append_of_head h, hhole]; rfl), ih]
      rfl
    · cases hhole
  | case3 c rest _ name rest' hname ih =>
    split at hname
    · rename_i hc
      subst hc
      rw [List.cons_append, parts_variable (by rw [name?_append_of_head h, hname]; rfl), ih]
      rfl
    · cases hname
  | case4 c rest hhole hname ih =>
    rw [List.cons_append, parts_char, ih]
    · rfl
    · rintro rfl
      rw [dif_pos rfl] at hhole
      rw [hole?_append_of_head h, hhole]
      rfl
    · rintro rfl
      rw [dif_pos rfl] at hname
      rw [name?_append_of_head h, hname]
      rfl

/-- A name is read where it starts as names do and goes on as far as it can. -/
theorem name?_append_iff {name after : List Char} : name? (name ++ after) = some (name, after) ↔
    (∃ first rest, name = first :: rest ∧ Token.startsName first = true ∧ ∀ c ∈ rest, Token.continuesName c = true) ∧
      ∀ c ∈ after.head?, Token.continuesName c = false := by
  constructor
  · intro h
    cases name with
    | nil =>
      cases after with
      | nil => cases h
      | cons c after =>
        rw [List.nil_append, name?] at h
        split at h <;> cases h
    | cons first rest =>
      rw [List.cons_append, name?] at h
      split at h
      · rename_i hfirst
        simp only [Option.some.injEq, Prod.mk.injEq, List.cons.injEq, true_and] at h
        obtain ⟨htake, hdrop⟩ := h
        refine ⟨⟨first, rest, rfl, hfirst, fun c hc => List.mem_takeWhile_imp (htake ▸ hc)⟩, ?_⟩
        intro c hc
        have hhead := List.head?_dropWhile_not Token.continuesName (rest ++ after)
        rw [hdrop, Option.mem_def.1 hc] at hhead
        simpa using hhead
      · cases h
  · rintro ⟨⟨first, rest, rfl, hfirst, hrest⟩, hafter⟩
    obtain ⟨htake, hdrop⟩ := Text.span_append_of_head (a := rest) hafter
    rw [List.cons_append, name?, if_pos hfirst, htake, hdrop, List.takeWhile_eq_self_iff.2 hrest,
      List.dropWhile_eq_nil_iff.2 hrest]
    rfl

/-- The name of a variable among the parts is read where the parts after it are spelled. -/
theorem name?_of_parts {front back : List Part} {name : List Char} (h : parts cs = front ++ .variable name :: back) :
    name? (name ++ back.flatMap Part.spelled) = some (name, back.flatMap Part.spelled) := by
  fun_induction parts cs generalizing front with
  | case1 => simp at h
  | case2 c rest digits rest' hhole ih =>
    cases front with
    | nil => cases h
    | cons part front => exact ih (List.cons.inj h).2
  | case3 c rest _ found rest' hname ih =>
    cases front with
    | nil =>
      cases h
      split at hname
      · rwa [flatMap_spelled_parts, ← eq_of_name? hname]
      · cases hname
    | cons part front => exact ih (List.cons.inj h).2
  | case4 c rest _ _ ih =>
    cases front with
    | nil => cases h
    | cons part front => exact ih (List.cons.inj h).2

end Places

theorem flatMap_spelled_ofPart {ps : List Part} {cs : List Char} (h : ∀ part ∈ ps, part ∈ parts cs) :
    (ps.map (Segment.ofPart count names)).flatMap Segment.spelled = ps.flatMap Part.spelled := by
  rw [List.flatMap_map]
  exact List.flatMap_congr fun part hpart => Segment.spelled_ofPart (h part hpart)

/-- **Where a place is written, the template has it.** -/
theorem exists_of_isPlace (before : List Char) {after : List Char} {place : Segment count names}
    (h : place.IsPlace after) : ∃ part, Segment.ofPart count names part = place ∧
      parts (before ++ (place.spelled ++ after)) = parts before ++ part :: parts after := by
  cases place with
  | literal cs => cases h
  | hole zeros index =>
    refine ⟨.hole (List.replicate zeros '0' ++ Text.natText index), Segment.ofPart_hole zeros index, ?_⟩
    have hhole : hole? (List.replicate zeros '0' ++ Text.natText index ++ '\x7d' :: after) =
        some (List.replicate zeros '0' ++ Text.natText index, after) := by
      refine hole?_digits (by simp [Text.natText_ne_nil]) fun d hd => ?_
      rcases List.mem_append.1 hd with hd | hd
      · rw [List.eq_of_mem_replicate hd]
        rfl
      · exact Text.isDigit_of_mem_natText hd
    rw [parts_append_of_head (by simp [Starts, Segment.spelled])]
    simp only [Segment.spelled, List.cons_append, List.append_assoc, List.nil_append] at hhole ⊢
    rw [parts_hole hhole]
  | «variable» name isSet =>
    refine ⟨.variable name, Segment.ofPart_variable isSet, ?_⟩
    rw [parts_append_of_head (by simp [Starts, Segment.spelled])]
    exact congrArg _ (parts_variable (name?_append_iff.2 h))

/-- **A template is a sequence of segments**, settled by its text, the number of its holes and the names of the
variables that are set. They spell the template, and it is filled in by showing them one after the other, whatever is
inserted. A place is where one is written, and nowhere else. -/
theorem exists_segments (template : String) (count : Nat) (names : Finset String) :
    ∃ segments : List (Segment count names),
      segments.flatMap Segment.spelled = template.toList ∧
      (∀ ins : Insertion count names,
        fill template ins.values ins.vars = .ofList (segments.flatMap (Segment.shown ins))) ∧
      (∀ before place after, template.toList = before ++ (place.spelled ++ after) → place.IsPlace after →
        ∃ front back, segments = front ++ place :: back ∧
          front.flatMap Segment.spelled = before ∧ back.flatMap Segment.spelled = after) ∧
      ∀ front place back, segments = front ++ place :: back →
        (∃ cs, place = .literal cs) ∨ place.IsPlace (back.flatMap Segment.spelled) := by
  refine ⟨(parts template.toList).map (Segment.ofPart count names), ?_, ?_, ?_, ?_⟩
  · rw [flatMap_spelled_ofPart fun part hpart => hpart, flatMap_spelled_parts]
  · intro ins
    rw [fill, List.flatMap_map]
    exact congrArg String.ofList (List.flatMap_congr fun part _ => (Segment.shown_ofPart ins part).symm)
  · intro before place after heq hplace
    obtain ⟨part, rfl, hparts⟩ := exists_of_isPlace before hplace
    refine ⟨(parts before).map (Segment.ofPart count names), (parts after).map (Segment.ofPart count names), ?_, ?_, ?_⟩
    · rw [heq, hparts, List.map_append, List.map_cons]
    · rw [flatMap_spelled_ofPart fun part hpart => hpart, flatMap_spelled_parts]
    · rw [flatMap_spelled_ofPart fun part hpart => hpart, flatMap_spelled_parts]
  · intro front place back heq
    obtain ⟨front, rest, hparts, rfl, hrest⟩ := List.map_eq_append_iff.1 heq
    obtain ⟨part, back, rfl, rfl, rfl⟩ := List.map_eq_cons_iff.1 hrest
    have hback : ∀ p ∈ back, p ∈ parts template.toList := fun p hp => by simp [hparts, hp]
    rw [flatMap_spelled_ofPart hback]
    cases part with
    | char c => exact .inl ⟨_, rfl⟩
    | hole digits =>
      rw [Segment.ofPart]
      split
      · exact .inr trivial
      · exact .inl ⟨_, rfl⟩
    | «variable» name =>
      rw [Segment.ofPart]
      split
      · exact .inr (name?_append_iff.1 (name?_of_parts hparts))
      · exact .inl ⟨_, rfl⟩

/-- A number and a brace that are inserted close no hole, and a name that is inserted is none of a variable. -/
example : fill "\x7b0$x \x7b01\x7d $x" ["a", "$x"] (Variables.set ∅ "$x" (.string "1\x7d")) =
    "\x7b01\x7d $x 1\x7d" := by decide +kernel

end Fill

end Dialogue
