import Mathlib
import Dialogue.External.PluralRules
import Dialogue.Format.Expand
import Dialogue.Proofs.Format.Reading
import Dialogue.Proofs.Text.Cut

/-!
# Where format functions are shown

A function is shown where the first copy of its mark stands, and its own mark is only one of the copies: the text around
the functions, or what was shown for an earlier one, may hold another. So the functions are shown in their own places,
and all that stands around them stays, when no copy stands before a mark (`Unmistaken`), as when no brace opens in what
is shown (`unmistaken_of_notMem`). Otherwise the first function that is mistaken is shown where the copy stands, and its
own mark stays in the text (`Misplaced`). One of the two happens to any text (`expand_eq_ok_iff`), and never both
(`Misplaced.not_unmistaken`).
-/

namespace Dialogue.Format

open Plural

namespace Function

/-- What a function with a key is shown as. -/
def shown (rules : Use → Rule) (function : Function) : List Char :=
  match function.key rules with
  | .ok key => function.replacement key
  | .error _ => []

end Function

/-- **The text that the functions are in place in.** -/
def inPlace (rules : Use → Rule) : List Part → List Char
  | [] => []
  | .char c :: parts => c :: inPlace rules parts
  | .function F :: parts => F.function.shown rules ++ inPlace rules parts

/-- The mark of a function behind these parts. -/
def nextMark (parts : List Part) : List Char :=
  functionMark (functionsOf parts).length

/-- **No mark is mistaken**: there is no copy of it in what is shown before it. -/
def Unmistaken (rules : Use → Rule) (parts : List Part) : Prop :=
  ∀ before F after, parts = before ++ .function F :: after → ¬nextMark before <:+: inPlace rules before

/-- **The first mark with a copy before it**: the function is shown in the place of the first copy, and its own mark
stays as a part of the text in which the functions after it are filled in. -/
def Misplaced (rules : Use → Rule) (parts : List Part) (out : List Char) : Prop :=
  ∃ before F after x y, parts = before ++ .function F :: after ∧ Unmistaken rules before ∧
    inPlace rules before = x ++ nextMark before ++ y ∧ ¬nextMark before <:+: x ∧
    fill rules ((functionsOf before).length + 1) (x ++ F.function.shown rules ++
      (y ++ nextMark before ++ marked ((functionsOf before).length + 1) after)) (functionsOf after) = .ok out

variable {rules : Use → Rule} {parts before after : List Part} {text out : List Char} {F : WrittenFunction}
  {function : Function} {index : Nat} {functions : List Function}

/-! ## Parts -/

theorem functionsOf_append (a b : List Part) : functionsOf (a ++ b) = functionsOf a ++ functionsOf b := by
  induction a with
  | nil => rfl
  | cons part a ih => cases part <;> simp [functionsOf, ih]

theorem inPlace_append (rules : Use → Rule) (a b : List Part) :
    inPlace rules (a ++ b) = inPlace rules a ++ inPlace rules b := by
  induction a with
  | nil => rfl
  | cons part a ih => cases part <;> simp [inPlace, ih]

/-- A text without functions is its own. -/
theorem marked_of_splits {cs : List Char} (h : Splits cs parts) (hnone : functionsOf parts = []) (index : Nat) :
    marked index parts = cs := by
  induction h with
  | nil => rfl
  | char _ _ ih => rw [marked, ih hnone]
  | function F _ _ => cases hnone

theorem Unmistaken.of_append (h : Unmistaken rules (before ++ after)) : Unmistaken rules before :=
  fun b F a he => h b F (a ++ after) (by rw [he, List.append_assoc, List.cons_append])

/-- If a mark is mistaken, there is a first one. -/
theorem exists_first_mistaken {before : List Part} (F : WrittenFunction) (after : List Part)
    (h : nextMark before <:+: inPlace rules before) :
    ∃ b G a, before ++ .function F :: after = b ++ .function G :: a ∧ Unmistaken rules b ∧
      nextMark b <:+: inPlace rules b := by
  by_cases hbefore : Unmistaken rules before
  · exact ⟨before, F, after, rfl, hbefore, h⟩
  · simp only [Unmistaken, not_forall, not_not] at hbefore
    obtain ⟨b, G, a, rfl, hcopy⟩ := hbefore
    obtain ⟨b', G', a', he, hfirst⟩ := exists_first_mistaken G (a ++ .function F :: after) hcopy
    exact ⟨b', G', a', by rw [← he, List.append_assoc, List.cons_append], hfirst⟩
termination_by before.length

/-- A text that is shown without an opening brace holds no mark. -/
theorem unmistaken_of_notMem (h : '\x7b' ∉ inPlace rules parts) : Unmistaken rules parts := by
  rintro before F after rfl ⟨x, y, hcopy⟩
  rw [inPlace_append, ← hcopy, nextMark, functionMark] at h
  simp at h

/-- The two ways of a text exclude each other. -/
theorem Misplaced.not_unmistaken (h : Misplaced rules parts out) : ¬Unmistaken rules parts := by
  obtain ⟨before, F, after, x, y, hparts, -, hcopy, -, -⟩ := h
  exact fun hall => hall before F after hparts ⟨x, y, hcopy.symm⟩

/-! ## Filling in -/

/-- A mark holds one brace that opens, so no two marks overlap. -/
theorem replaceFirst_functionMark {x : List Char} (h : ¬functionMark index <:+: x) (new y : List Char) :
    Text.replaceFirst (functionMark index) new (x ++ functionMark index ++ y) = x ++ new ++ y := by
  have hbrace : '\x7b' ∉ Text.natText index ++ ['\x7d'] := by
    intro h
    rcases List.mem_append.1 h with h | h
    · exact absurd (Text.isDigit_of_mem_natText h) (by decide)
    · simp at h
  exact Text.replaceFirst_append_mark hbrace h new y

/-- One function is filled in before the ones after it. -/
theorem fill_cons (hkey : ∃ key, function.key rules = .ok key) (index : Nat) (text : List Char)
    (functions : List Function) : fill rules index text (function :: functions) =
      fill rules (index + 1) (Text.replaceFirst (functionMark index) (function.shown rules) text) functions := by
  obtain ⟨key, hkey⟩ := hkey
  rw [fill, Function.shown, hkey]
  rfl

/-- Only functions with a key can be filled in. -/
theorem exists_key_of_fill (h : fill rules index text functions = .ok out) :
    ∀ function ∈ functions, ∃ key, function.key rules = .ok key := by
  induction functions generalizing index text with
  | nil => simp
  | cons function functions ih =>
    rw [fill] at h
    obtain ⟨key, hkey, h⟩ := Expr.of_bind_eq_ok h
    rintro f (_ | ⟨_, hf⟩)
    · exact ⟨key, hkey⟩
    · exact ih h f hf

/-- **Up to a mark with a copy before it, the functions are filled in where they stand.** -/
theorem fill_of_unmistaken (hkeys : ∀ function ∈ functionsOf before, ∃ key, function.key rules = .ok key)
    (h : Unmistaken rules before) (after : List Part) :
    fill rules 0 (marked 0 (before ++ after)) (functionsOf (before ++ after)) =
      fill rules (functionsOf before).length
        (inPlace rules before ++ marked (functionsOf before).length after) (functionsOf after) := by
  -- from the end, so that all before the last part is in place when its mark is looked for
  induction before using List.reverseRecOn generalizing after with
  | nil => rfl
  | append_singleton before part ih =>
    rw [functionsOf_append] at hkeys
    have hkeys' := fun f hf => hkeys f (List.mem_append_left _ hf)
    rw [List.append_assoc, ih hkeys' h.of_append]
    cases part with
    | char c => simp [functionsOf_append, inPlace_append, functionsOf, inPlace, marked]
    | function F =>
      have hmark : ¬nextMark before <:+: inPlace rules before := h before F [] rfl
      have hkey := hkeys F.function (List.mem_append_right _ List.mem_cons_self)
      rw [List.singleton_append, functionsOf, marked, fill_cons hkey, ← List.append_assoc,
        replaceFirst_functionMark hmark]
      simp [functionsOf_append, inPlace_append, functionsOf, inPlace]

/-- **A function whose mark has a copy before it is shown where the copy stands.** -/
theorem fill_of_copy
    (hkeys : ∀ function ∈ functionsOf (before ++ .function F :: after), ∃ key, function.key rules = .ok key)
    (h : Unmistaken rules before) {x y : List Char} (hcopy : inPlace rules before = x ++ nextMark before ++ y)
    (hx : ¬nextMark before <:+: x) :
    fill rules 0 (marked 0 (before ++ .function F :: after)) (functionsOf (before ++ .function F :: after)) =
      fill rules ((functionsOf before).length + 1) (x ++ F.function.shown rules ++
        (y ++ nextMark before ++ marked ((functionsOf before).length + 1) after)) (functionsOf after) := by
  rw [functionsOf_append] at hkeys
  have hbefore := fun f hf => hkeys f (List.mem_append_left _ hf)
  have hkey := hkeys F.function (List.mem_append_right _ List.mem_cons_self)
  have hsplit : inPlace rules before ++ (nextMark before ++ marked ((functionsOf before).length + 1) after) =
      x ++ nextMark before ++ (y ++ nextMark before ++ marked ((functionsOf before).length + 1) after) := by
    simp [hcopy]
  rw [fill_of_unmistaken hbefore h, functionsOf, marked, fill_cons hkey, ← nextMark, hsplit,
    nextMark, replaceFirst_functionMark hx]

/-- All functions are in place, or there is a first one that is not. -/
theorem fill_eq_ok_iff (hkeys : ∀ function ∈ functionsOf parts, ∃ key, function.key rules = .ok key) :
    fill rules 0 (marked 0 parts) (functionsOf parts) = .ok out ↔
      Unmistaken rules parts ∧ out = inPlace rules parts ∨ Misplaced rules parts out := by
  have hplaced : Unmistaken rules parts →
      fill rules 0 (marked 0 parts) (functionsOf parts) = .ok (inPlace rules parts) := by
    intro h
    have := fill_of_unmistaken hkeys h []
    rw [List.append_nil, marked, List.append_nil] at this
    exact this
  constructor
  · intro h
    by_cases hall : Unmistaken rules parts
    · cases h.symm.trans (hplaced hall)
      exact .inl ⟨hall, rfl⟩
    · simp only [Unmistaken, not_forall, not_not] at hall
      obtain ⟨before, F, after, rfl, hcopy⟩ := hall
      obtain ⟨b, G, a, he, hfirst, hcopy⟩ := exists_first_mistaken F after hcopy
      obtain ⟨x, y, hsplit, hx, -⟩ := Text.exists_replaceFirst_append (List.cons_ne_nil _ _) hcopy
      refine .inr ⟨b, G, a, x, y, he, hfirst, hsplit, hx, ?_⟩
      rw [← h]
      rw [he] at hkeys ⊢
      exact (fill_of_copy hkeys hfirst hsplit hx).symm
  · rintro (⟨hall, rfl⟩ | ⟨b, G, a, x, y, rfl, hfirst, hsplit, hx, h⟩)
    · exact hplaced hall
    · rw [fill_of_copy hkeys hfirst hsplit hx, h]

/-! ## Texts -/

theorem expand_of_no_function (plurals : Plural.Rules) {text : String} (hsplits : Splits text.toList parts)
    (hnone : functionsOf parts = []) (locale : String) : expand plurals text locale = .ok text := by
  have hparse : parse text.toList = .ok (text.toList, []) :=
    parse_eq_ok_iff.2 ⟨parts, hsplits, (marked_of_splits hsplits hnone 0).symm, hnone.symm⟩
  rw [expand, hparse]
  exact congrArg Except.ok String.ofList_toList

theorem expand_of_function (plurals : Plural.Rules) {text : String} (hsplits : Splits text.toList parts)
    (hsome : functionsOf parts ≠ []) (locale : String) : expand plurals text locale =
      ((plurals.of locale).mapError .noRules).bind fun rules =>
        ((fill rules 0 (marked 0 parts) (functionsOf parts)).mapError (.noKey · text)).map .ofList := by
  rw [expand, parse_eq_ok_iff.2 ⟨parts, hsplits, rfl, rfl⟩]
  cases hfunctions : functionsOf parts with
  | nil => exact absurd hfunctions hsome
  | cons function functions => rfl

/-- **What becomes of a text with format functions**, whatever the plural rules are. Without functions it stays,
whatever the locale. Otherwise the locale has its rules, each function has its key under them, and all functions are
shown in their places, or the first mark with a copy before it is mistaken. -/
theorem expand_eq_ok_iff (plurals : Plural.Rules) (text locale out : String) : expand plurals text locale = .ok out ↔
    ∃ parts, Splits text.toList parts ∧ (functionsOf parts = [] ∧ out = text ∨
      functionsOf parts ≠ [] ∧ ∃ rules, plurals.of locale = .ok rules ∧
        (∀ function ∈ functionsOf parts, ∃ key, function.key rules = .ok key) ∧
        (Unmistaken rules parts ∧ out.toList = inPlace rules parts ∨ Misplaced rules parts out.toList)) := by
  constructor
  · intro h
    cases hparse : parse text.toList with
    | error fault =>
      rw [expand, hparse] at h
      cases h
    | ok r =>
      obtain ⟨parts, hsplits, -, -⟩ := parse_eq_ok_iff.1 hparse
      refine ⟨parts, hsplits, ?_⟩
      by_cases hnone : functionsOf parts = []
      · rw [expand_of_no_function plurals hsplits hnone] at h
        cases h
        exact .inl ⟨hnone, rfl⟩
      · rw [expand_of_function plurals hsplits hnone] at h
        obtain ⟨rules, hrules, h⟩ := Expr.of_bind_eq_ok h
        obtain ⟨filled, hfill, rfl⟩ := Expr.of_map_eq_ok h
        rw [mapError_eq_ok_iff] at hrules hfill
        have hkeys := exists_key_of_fill hfill
        rw [String.toList_ofList]
        exact .inr ⟨hnone, rules, hrules, hkeys, (fill_eq_ok_iff hkeys).1 hfill⟩
  · rintro ⟨parts, hsplits, ⟨hnone, rfl⟩ | ⟨hsome, rules, hrules, hkeys, h⟩⟩
    · exact expand_of_no_function plurals hsplits hnone locale
    · rw [expand_of_function plurals hsplits hsome, hrules]
      show ((fill rules 0 (marked 0 parts) (functionsOf parts)).mapError _).map _ = _
      rw [(fill_eq_ok_iff hkeys).2 h]
      exact congrArg Except.ok String.ofList_toList

/-- The text before the function holds its mark. -/
example : expand External.pluralRules "\x7b0\x7d [select a a=\"x\"]" "en" = .ok "x \x7b0\x7d" := by
  decide +kernel

end Dialogue.Format
