import Mathlib
import Dialogue.External.PluralRules
import Dialogue.Proofs.Format.Placing
import Dialogue.Proofs.Number.Characters
import Dialogue.Proofs.Text.Line

/-!
# What a format function is shown as

A function that stands alone says the string of the choice that it asks for, each bare `%` in it standing for the
value; without such a choice it says that there is none (`WrittenFunction.result`). It is shown by way of a mark that
stands for the value in all its strings, the string of the value included, and all marks of what is to be shown give way
to the value in the end.

* In the string of a choice that is all it takes, unless the string itself holds the mark: a bare `%` is never a part of
  another mark (`replaceAll_readSigns_eq_iff`).
* In the value the mark of a bare `%` stays, so it is looked for, and shown, as a part of the key.

So what is shown is what the function says just when no mark is mistaken (`WrittenFunction.expand_eq_result_iff`).
-/

namespace Dialogue.Format

open Plural

/-! ## Marks of the value -/

theorem valueMark_ne_nil : valueMark ≠ [] := by decide

theorem percent_notMem_valueMark : '%' ∉ valueMark := by decide

/-- No two marks overlap. -/
theorem replaceAll_append_valueMark (new x y : List Char) : Text.replaceAll valueMark new (x ++ valueMark ++ y) =
    Text.replaceAll valueMark new x ++ new ++ Text.replaceAll valueMark new y := by
  have hopen : '<' ∉ "VALUE PLACEHOLDER>".toList := by decide
  exact Text.replaceAll_append_mark hopen new x y

section Signs

variable {value x : List Char} {signs : List Sign}

/-- Signs by the places of the value; what the signs before a place say is gathered in a text. -/
@[elab_as_elim]
theorem signs_induction {P : List Char → List Sign → Prop} (nil : ∀ x, P x [])
    (text : ∀ x sign signs c, (∀ v, sign.read v = c) → P (x ++ c) signs → P x (sign :: signs))
    (value : ∀ x signs, P [] signs → P x (.value :: signs)) (x : List Char) (signs : List Sign) : P x signs := by
  induction signs generalizing x with
  | nil => exact nil x
  | cons sign signs ih =>
    cases sign with
    | plain c h => exact text x _ signs [c] (fun v => rfl) (ih _)
    | escaped c => exact text x _ signs (if isEscapable c then [c] else []) (fun v => rfl) (ih _)
    | value => exact value x signs (ih [])

theorem append_readSigns_cons {sign : Sign} {c : List Char} (hc : sign.read value = c) (x : List Char)
    (signs : List Sign) : x ++ readSigns value (sign :: signs) = x ++ c ++ readSigns value signs := by
  simp [readSigns, hc]

theorem append_readSigns_value (value x : List Char) (signs : List Sign) :
    x ++ readSigns value (.value :: signs) = x ++ value ++ readSigns value signs :=
  append_readSigns_cons rfl x signs

/-- A comparison of lengths that adds up holds between what is shown and what the string says. -/
theorem length_replaceAll_readSigns {R : Nat → Nat → Prop}
    (hadd : ∀ {a b c d : Nat} (k : Nat), R a b → R c d → R (a + k + c) (b + k + d))
    (hR : ∀ x : List Char, R (Text.replaceAll valueMark value x).length x.length) (x : List Char) (signs : List Sign) :
    R (Text.replaceAll valueMark value (x ++ readSigns valueMark signs)).length
      (x ++ readSigns value signs).length := by
  induction x, signs using signs_induction with
  | nil x => simpa [readSigns] using hR x
  | text x sign signs c hc ih =>
    rw [append_readSigns_cons (hc _), append_readSigns_cons (hc _)]
    exact ih
  | value x signs ih =>
    rw [append_readSigns_value, append_readSigns_value, replaceAll_append_valueMark]
    simpa [Nat.add_assoc] using hadd value.length (hR x) ih

/-- **What a string says is shown exactly when it holds no mark** besides those for a bare `%`: a mark across the place
of the value does not count. -/
theorem replaceAll_readSigns_eq_iff (hvalue : value ≠ valueMark) (x : List Char) (signs : List Sign) :
    Text.replaceAll valueMark value (x ++ readSigns valueMark signs) = x ++ readSigns value signs ↔
      ¬valueMark <:+: x ++ readSigns ['%'] signs := by
  have hself : ∀ x, Text.replaceAll valueMark value x = x ↔ ¬valueMark <:+: x := fun x =>
    (Text.replaceAll_eq_self_iff valueMark_ne_nil).trans (or_iff_right hvalue)
  induction x, signs using signs_induction with
  | nil x => simpa [readSigns] using hself x
  | text x sign signs c hc ih =>
    rw [append_readSigns_cons (hc _), append_readSigns_cons (hc _), append_readSigns_cons (hc _)]
    exact ih
  | value x signs ih =>
    have hsigns : Text.replaceAll valueMark value (readSigns valueMark signs) = readSigns value signs ↔
        ¬valueMark <:+: readSigns ['%'] signs := ih
    rw [append_readSigns_value, append_readSigns_value, append_readSigns_value, replaceAll_append_valueMark,
      List.append_assoc x ['%'], List.singleton_append, Text.infix_append_cons_iff percent_notMem_valueMark, not_or,
      ← hself, ← hsigns]
    constructor
    · intro h
      -- replacing makes both parts longer or both shorter, so neither can make up for the other
      have hlength := congrArg List.length h
      simp only [List.length_append] at hlength
      have hx : (Text.replaceAll valueMark value x).length = x.length := by
        rcases Nat.le_total value.length valueMark.length with hle | hle
        · have hR := Text.length_replaceAll_le hle
          have := hR x
          have := length_replaceAll_readSigns (R := (· ≤ ·)) (fun k => by omega) hR [] signs
          simp only [List.nil_append] at this
          omega
        · have hR := Text.le_length_replaceAll hle
          have := hR x
          have := length_replaceAll_readSigns (R := (· ≥ ·)) (fun k => by omega) hR [] signs
          simp only [List.nil_append] at this
          omega
      rw [List.append_assoc, List.append_assoc] at h
      obtain ⟨hx, h⟩ := List.append_inj h hx
      exact ⟨hx, List.append_cancel_left h⟩
    · rintro ⟨hx, hsigns⟩
      rw [hx, hsigns]

/-- A mark between the places of the value stays. -/
theorem infix_readSigns (h : valueMark <:+: x ++ readSigns ['%'] signs) (value : List Char) :
    valueMark <:+: x ++ readSigns value signs := by
  induction x, signs using signs_induction with
  | nil x => exact h
  | text x sign signs c hc ih =>
    rw [append_readSigns_cons (hc _)] at h ⊢
    exact ih h
  | value x signs ih =>
    rw [append_readSigns_value, List.append_assoc] at h
    rw [append_readSigns_value]
    rcases (Text.infix_append_cons_iff percent_notMem_valueMark).1 h with h | h
    · exact (h.trans (List.prefix_append x _).isInfix).trans (List.prefix_append _ _).isInfix
    · exact (ih h).trans (List.suffix_append _ _).isInfix

end Signs

/-! ## What a function says -/

theorem length_readSigns_le {a b : List Char} (hab : a.length ≤ b.length) (signs : List Sign) :
    (readSigns a signs).length ≤ (readSigns b signs).length := by
  induction signs with
  | nil => exact Nat.le_refl _
  | cons sign signs ih =>
    have hsign : (sign.read a).length ≤ (sign.read b).length := by
      cases sign with
      | value => exact hab
      | plain | escaped => exact Nat.le_refl _
    simp only [readSigns, List.flatMap_cons, List.length_append] at ih ⊢
    omega

namespace WrittenValue

/-- There is a bare `%` between its quotes. -/
def HasPercent : WrittenValue → Prop
  | .bare .. => False
  | .quoted signs => .value ∈ signs

variable {v : WrittenValue} {a b : List Char}

theorem read_eq_read (h : ¬v.HasPercent) (a b : List Char) : v.read a = v.read b := by
  cases v with
  | bare => rfl
  | quoted signs =>
    refine List.flatMap_congr fun sign hsign => ?_
    cases sign with
    | value => exact absurd hsign h
    | plain | escaped => rfl

theorem infix_read (h : v.HasPercent) (a : List Char) : a <:+: v.read a := by
  cases v with
  | bare => exact h.elim
  | quoted signs =>
    obtain ⟨before, after, rfl⟩ := List.append_of_mem h
    exact ⟨readSigns a before, readSigns a after, by simp [read, readSigns, Sign.read]⟩

theorem length_read_lt (h : v.HasPercent) (hab : a.length < b.length) : (v.read a).length < (v.read b).length := by
  cases v with
  | bare => exact h.elim
  | quoted signs =>
    obtain ⟨before, after, rfl⟩ := List.append_of_mem h
    have hsplit : ∀ v, readSigns v (before ++ .value :: after) = readSigns v before ++ v ++ readSigns v after := by
      simp [readSigns, Sign.read]
    have hbefore := length_readSigns_le hab.le before
    have hafter := length_readSigns_le hab.le after
    simp only [read, hsplit, List.length_append]
    omega

end WrittenValue

/-- What is shown when there is no choice for a key. -/
def noReplacement (key : List Char) : List Char :=
  "<no replacement for ".toList ++ key ++ ['>']

theorem length_noReplacement_lt {a b : List Char} (h : a.length < b.length) :
    (noReplacement a).length < (noReplacement b).length := by
  unfold noReplacement
  generalize "<no replacement for ".toList = message
  simp only [List.length_append, List.length_singleton]
  omega

namespace WrittenFunction

/-- **What the value says.** A bare `%` in it is one. -/
def meaning (F : WrittenFunction) : List Char :=
  F.value.read ['%']

/-- **The key of the choice that the function asks for.** -/
def key (rules : Use → Rule) (F : WrittenFunction) : Except KeyFault (List Char) :=
  match F.kind with
  | .select => .ok F.meaning
  | .plural => Function.category (rules .cardinal) F.meaning
  | .ordinal => Function.category (rules .ordinal) F.meaning

/-- The string of the choice with a given key. -/
def signs? (F : WrittenFunction) (key : List Char) : Option (List Sign) :=
  (F.choices.find? (·.key = key)).map WrittenChoice.signs

/-- **What the function says**: the string of the choice, each bare `%` standing for the value. -/
def result (F : WrittenFunction) (key : List Char) : List Char :=
  match F.signs? key with
  | some signs => readSigns F.meaning signs
  | none => noReplacement key

/-- **A mark of the value where there should be none**: in the string of the choice, with no bare `%` in it; or, when no
choice has the key, for a bare `%` in the value, or in a text that shows another value. -/
def Mistaken (F : WrittenFunction) (key : List Char) : Prop :=
  match F.signs? key with
  | some signs => valueMark <:+: readSigns ['%'] signs
  | none => F.value.HasPercent ∨ F.meaning ≠ valueMark ∧ valueMark <:+: noReplacement key

variable {F : WrittenFunction} {key : List Char}

theorem lookup_choices (F : WrittenFunction) (key : List Char) :
    F.function.choices.lookup key = (F.signs? key).map (readSigns valueMark) := by
  have hlookup : ∀ choices : List WrittenChoice, (choices.map WrittenChoice.choice).lookup key =
      ((choices.find? (·.key = key)).map WrittenChoice.signs).map (readSigns valueMark) := by
    intro choices
    induction choices with
    | nil => rfl
    | cons c choices ih =>
      by_cases hkey : c.key = key
      · simp [WrittenChoice.choice, hkey]
      · have hne : (key == c.key) = false := beq_eq_false_iff_ne.2 (Ne.symm hkey)
        simp [WrittenChoice.choice, List.lookup_cons, hkey, hne, ← ih]
  exact hlookup F.choices

/-- A name holds no character that no name goes on with. -/
theorem notMem_of_isName {c : Char} (hc : continuesName c = false) (h : IsName key) : c ∉ key := by
  cases key with
  | nil => exact List.not_mem_nil
  | cons d key =>
    have hd : continuesName d = true := by simp [continuesName, h.1]
    rintro (_ | ⟨_, hmem⟩)
    · rw [hc] at hd
      cases hd
    · rw [h.2 c hmem] at hc
      cases hc

theorem isName_of_signs? {signs : List Sign} (h : F.signs? key = some signs) : IsName key := by
  rw [signs?, Option.map_eq_some_iff] at h
  obtain ⟨c, hc, -⟩ := h
  have hkey := List.find?_some hc
  rw [decide_eq_true_eq] at hkey
  exact hkey ▸ c.isName

end WrittenFunction

/-- What writes a number holds no mark. -/
theorem lt_notMem_of_category {rule : Rule} {value key : List Char} (h : Function.category rule value = .ok key) :
    '<' ∉ value := by
  intro hmem
  rw [Function.category] at h
  split at h
  · cases h
  · rename_i number hread
    rw [Number.parseDouble?, Option.map_eq_some_iff] at hread
    obtain ⟨numeral, hread, -⟩ := hread
    have hall := Number.Numeral.all_isOfNumeral_of_read? hread
    exact absurd (List.all_eq_true.1 hall _ (Text.mem_trim_of_mem (by decide) hmem)) (by decide)

namespace WrittenFunction

variable {F : WrittenFunction} {rules : Use → Rule} {key : List Char}

/-! ## What it is shown as -/

theorem splits_written (F : WrittenFunction) : Splits F.written [.function F] := by
  have := Splits.function F .nil
  rwa [List.append_nil] at this

/-- A text that is one function is shown as the replacement of that function. -/
theorem expand_written (plurals : Plural.Rules) (F : WrittenFunction) (locale : String) :
    expand plurals (.ofList F.written) locale = ((plurals.of locale).mapError .noRules).bind fun rules =>
      ((F.function.key rules).mapError (.noKey · (.ofList F.written))).map fun key =>
        .ofList (F.function.replacement key) := by
  have hsplits : Splits (String.ofList F.written).toList [.function F] := by
    rw [String.toList_ofList]
    exact F.splits_written
  rw [expand_of_function plurals hsplits (List.cons_ne_nil _ _)]
  have hfill : ∀ rules, fill rules 0 (marked 0 [.function F]) (functionsOf [.function F]) =
      (F.function.key rules).map F.function.replacement := by
    intro rules
    have hfront : ¬functionMark 0 <:+: [] := by decide
    have hplace : ∀ new, Text.replaceFirst (functionMark 0) new (functionMark 0 ++ []) = new := fun new => by
      simpa using replaceFirst_functionMark hfront new []
    rw [functionsOf, functionsOf, marked, marked, fill]
    cases F.function.key rules with
    | error fault => rfl
    | ok key => exact congrArg Except.ok (hplace _)
  congr 1
  funext rules
  rw [hfill]
  cases F.function.key rules <;> rfl

/-- The key that is looked for is the one that the function asks for, unless there is a bare `%` in a value that is to
be the key itself. -/
theorem key_function (h : F.function.key rules = .ok key) :
    F.function.value = F.meaning ∧ ¬F.value.HasPercent ∧ F.key rules = .ok key ∨
      F.value.HasPercent ∧ F.key rules = .ok F.meaning ∧ key = F.function.value := by
  have hvalue : ¬F.value.HasPercent → F.function.value = F.meaning := fun hpercent =>
    WrittenValue.read_eq_read hpercent _ _
  have hcategory : ∀ {rule : Rule}, Function.category rule F.function.value = .ok key →
      ¬F.value.HasPercent := fun hcategory hpercent =>
    lt_notMem_of_category hcategory ((WrittenValue.infix_read hpercent valueMark).subset (by decide))
  obtain ⟨gap, kind, gap', value, choices, gap'', hstops, hends, hnodup⟩ := F
  cases kind with
  | select =>
    cases h
    by_cases hpercent : value.HasPercent
    · exact .inr ⟨hpercent, rfl, rfl⟩
    · exact .inl ⟨hvalue hpercent, hpercent, congrArg Except.ok (hvalue hpercent).symm⟩
  | plural =>
    have hpercent := hcategory h
    exact .inl ⟨hvalue hpercent, hpercent, by rw [WrittenFunction.key, ← hvalue hpercent]; exact h⟩
  | ordinal =>
    have hpercent := hcategory h
    exact .inl ⟨hvalue hpercent, hpercent, by rw [WrittenFunction.key, ← hvalue hpercent]; exact h⟩

/-- No choice can be asked for by the mark itself. -/
theorem meaning_ne_valueMark {signs : List Sign} (hkey : F.key rules = .ok key)
    (hsigns : F.signs? key = some signs) : F.meaning ≠ valueMark := by
  intro hmeaning
  have hmem : '<' ∈ F.meaning := by
    rw [hmeaning]
    decide
  unfold WrittenFunction.key at hkey
  split at hkey
  · cases hkey
    exact notMem_of_isName (by decide +kernel) (isName_of_signs? hsigns) hmem
  · exact lt_notMem_of_category hkey hmem
  · exact lt_notMem_of_category hkey hmem

theorem replacement_of_signs {signs : List Sign} (h : F.signs? key = some signs) : F.function.replacement key =
    Text.replaceAll valueMark F.function.value (readSigns valueMark signs) := by
  rw [Function.replacement, lookup_choices, h]
  rfl

theorem replacement_of_missing (h : F.signs? key = none) :
    F.function.replacement key = Text.replaceAll valueMark F.function.value (noReplacement key) := by
  rw [Function.replacement, lookup_choices, h]
  rfl

/-- Without a bare `%` in the value. -/
theorem replacement_of_not_hasPercent (hvalue : F.function.value = F.meaning) (hpercent : ¬F.value.HasPercent)
    (hkey : F.key rules = .ok key) :
    (F.function.replacement key = F.result key ↔ ¬F.Mistaken key) ∧
      (valueMark <:+: F.function.replacement key → valueMark <:+: F.result key) := by
  cases hsigns : F.signs? key with
  | none =>
    have hresult : F.result key = noReplacement key := by simp [result, hsigns]
    have hmistaken : F.Mistaken key ↔ F.meaning ≠ valueMark ∧ valueMark <:+: noReplacement key := by
      simp [Mistaken, hsigns, hpercent]
    rw [replacement_of_missing hsigns, hvalue, hresult, hmistaken, Text.replaceAll_eq_self_iff valueMark_ne_nil]
    refine ⟨by rw [not_and, or_iff_not_imp_left], fun hshown => ?_⟩
    by_contra hnone
    rw [Text.replaceAll_of_not_infix hnone] at hshown
    exact hnone hshown
  | some signs =>
    have hresult : F.result key = readSigns F.meaning signs := by simp [result, hsigns]
    have hmistaken : F.Mistaken key ↔ valueMark <:+: readSigns ['%'] signs := by simp [Mistaken, hsigns]
    have hshown : Text.replaceAll valueMark F.meaning (readSigns valueMark signs) = readSigns F.meaning signs ↔
        ¬valueMark <:+: readSigns ['%'] signs :=
      replaceAll_readSigns_eq_iff (meaning_ne_valueMark hkey hsigns) [] signs
    rw [replacement_of_signs hsigns, hvalue, hresult, hmistaken]
    refine ⟨hshown, fun hmark => ?_⟩
    by_cases h : valueMark <:+: readSigns ['%'] signs
    · exact infix_readSigns (x := []) h F.meaning
    · rwa [← hshown.2 h]

/-- With a bare `%` in the value, the key that is looked for holds the mark. -/
theorem replacement_of_hasPercent (hpercent : F.value.HasPercent) :
    F.function.replacement F.function.value ≠ F.result F.meaning ∧ F.Mistaken F.meaning ∧
      valueMark <:+: F.function.replacement F.function.value := by
  have hmissing : ∀ {key : List Char} (c : Char), continuesName c = false → c ∈ key → F.signs? key = none := by
    intro key c hc hmem
    cases hsigns : F.signs? key with
    | none => rfl
    | some signs => exact absurd hmem (notMem_of_isName hc (isName_of_signs? hsigns))
  have hmark : valueMark <:+: F.function.value := WrittenValue.infix_read hpercent valueMark
  have hvalue : F.signs? F.function.value = none := hmissing '<' (by decide +kernel) (hmark.subset (by decide))
  have hmeaning : F.signs? F.meaning = none :=
    hmissing '%' (by decide +kernel) ((WrittenValue.infix_read hpercent ['%']).subset List.mem_cons_self)
  have hresult : F.result F.meaning = noReplacement F.meaning := by simp [result, hmeaning]
  have hmistaken : F.Mistaken F.meaning := by simp [Mistaken, hmeaning, hpercent]
  rw [replacement_of_missing hvalue, hresult]
  refine ⟨fun h => ?_, hmistaken, ?_⟩
  · have hlonger : F.meaning.length < F.function.value.length :=
      WrittenValue.length_read_lt (a := ['%']) (b := valueMark) hpercent (by decide)
    have hle := Text.le_length_replaceAll hmark.length_le (noReplacement F.function.value)
    rw [h] at hle
    exact (length_noReplacement_lt hlonger).not_ge hle
  · have hmessage : valueMark <:+: noReplacement F.function.value :=
      (hmark.trans (List.suffix_append _ _).isInfix).trans (List.prefix_append _ _).isInfix
    exact hmark.trans (Text.infix_replaceAll valueMark_ne_nil hmessage _)

/-- **A function that stands alone is shown as what it says, unless a mark of the value is mistaken**, whatever the
plural rules are. -/
theorem expand_eq_result_iff {plurals : Plural.Rules} {locale out : String}
    (h : expand plurals (.ofList F.written) locale = .ok out) :
    ∃ rules key, plurals.of locale = .ok rules ∧ F.key rules = .ok key ∧
      (out.toList = F.result key ↔ ¬F.Mistaken key) ∧
      (valueMark <:+: out.toList → valueMark <:+: F.result key ∨ F.value.HasPercent) ∧
      (F.value.HasPercent → valueMark <:+: out.toList) := by
  rw [expand_written] at h
  obtain ⟨rules, hrules, h⟩ := Expr.of_bind_eq_ok h
  obtain ⟨key, hkey, rfl⟩ := Expr.of_map_eq_ok h
  rw [mapError_eq_ok_iff] at hrules hkey
  rw [String.toList_ofList]
  rcases key_function hkey with ⟨hvalue, hpercent, hasked⟩ | ⟨hpercent, hasked, rfl⟩
  · obtain ⟨hshown, hmark⟩ := replacement_of_not_hasPercent hvalue hpercent hasked
    exact ⟨rules, key, hrules, hasked, hshown, fun h => .inl (hmark h), fun h => absurd h hpercent⟩
  · obtain ⟨hne, hmistaken, hmark⟩ := replacement_of_hasPercent hpercent
    exact ⟨rules, F.meaning, hrules, hasked, iff_of_false hne (not_not_intro hmistaken),
      fun _ => .inr hpercent, fun _ => hmark⟩

/-- `[select "50%" a="x"]` -/
def fifty : WrittenFunction where
  beforeKind := .empty
  kind := .select
  beforeValue := .space
  value := .quoted [.plain '5' (by decide), .plain '0' (by decide), .value]
  choices := [⟨.space, ['a'], ⟨by decide +kernel, by simp⟩, .empty, .empty, [.plain 'x' (by decide)]⟩]
  beforeEnd := .empty
  kind_stops := stops_cons.2 (by decide +kernel)
  value_ends := trivial
  nodup := by decide

theorem fifty_mistaken :
    expand External.pluralRules (.ofList fifty.written) "en" =
        .ok "<no replacement for 5050<VALUE PLACEHOLDER>>" ∧
      ∃ rules key, External.pluralRules.of "en" = .ok rules ∧ fifty.key rules = .ok key ∧
        "<no replacement for 5050<VALUE PLACEHOLDER>>".toList ≠ fifty.result key := by
  have h : expand External.pluralRules (.ofList fifty.written) "en" =
      .ok "<no replacement for 5050<VALUE PLACEHOLDER>>" := by
    decide +kernel
  obtain ⟨rules, key, hrules, hkey, hresult, -⟩ := expand_eq_result_iff h
  refine ⟨h, rules, key, hrules, hkey, fun he => hresult.1 he ?_⟩
  cases hkey
  have hmissing : fifty.signs? fifty.meaning = none := by decide
  simp only [Mistaken, hmissing]
  exact .inl (by simp [fifty, WrittenValue.HasPercent])

end WrittenFunction

end Dialogue.Format
