import Mathlib
import Dialogue.Format.Syntax
import Dialogue.Proofs.Text.Cut

/-!
# The grammar of format functions

A format function as it is written: every sign of its strings, every gap between its parts, and what keeps the parts
from running into each other (`WrittenFunction`). A text is a row of characters and of such functions, where a bracket
is a character just when no function opens there (`Splits`).

A string is written with signs and says something only once it is known what a bare `%` stands for (`readSigns`).
-/

namespace Dialogue.Format

variable {cs rest : List Char}

/-! ## Spans -/

/-- A text that does not go on with characters of a kind. -/
def Stops (p : Char → Bool) (rest : List Char) : Prop :=
  ∀ c, rest.head? = some c → p c = false

/-- **Blanks between the parts of a function.** -/
abbrev Gap := { cs : List Char // ∀ c ∈ cs, Text.isBlank c = true }

def Gap.empty : Gap :=
  ⟨[], by simp⟩

def Gap.space : Gap :=
  ⟨[' '], fun c hc => by rw [List.mem_singleton.1 hc]; decide⟩

def Gap.append (a b : Gap) : Gap :=
  ⟨a.1 ++ b.1, fun c hc => (List.mem_append.1 hc).elim (a.2 c) (b.2 c)⟩

/-- A name: a letter or an underscore, and what may follow one. -/
def IsName : List Char → Prop
  | [] => False
  | c :: rest => startsName c = true ∧ ∀ d ∈ rest, continuesName d = true

section Spans

variable {p : Char → Bool} {a b : List Char} {c : Char}

theorem stops_dropWhile (p : Char → Bool) (cs : List Char) : Stops p (cs.dropWhile p) := by
  intro c hc
  have := List.head?_dropWhile_not p cs
  simpa [hc] using this

theorem stops_cons : Stops p (c :: rest) ↔ p c = false := by
  simp [Stops]

theorem stops_append_iff (ha : a ≠ []) : Stops p (a ++ b) ↔ Stops p a := by
  simp [Stops, List.head?_append_of_ne_nil _ ha]

theorem takeWhile_append_of_stops (ha : ∀ c ∈ a, p c = true) (hb : Stops p b) : (a ++ b).takeWhile p = a :=
  (Text.span_append_of_forall ha hb).1

theorem dropWhile_append_of_stops (ha : ∀ c ∈ a, p c = true) (hb : Stops p b) : (a ++ b).dropWhile p = b :=
  (Text.span_append_of_forall ha hb).2

/-- No letter and no numeral is a blank. -/
theorem continuesName_of_isBlank (h : Text.isBlank c = true) : continuesName c = false := by
  have hapart : ∀ r ∈ Text.blankRanges, ∀ s ∈ Text.letterRanges ++ Text.numeralRanges, r.2 < s.1 ∨ s.2 < r.1 := by
    decide +kernel
  simp only [Text.isBlank, Text.inRanges, List.any_eq_true, Bool.and_eq_true, decide_eq_true_eq] at h
  obtain ⟨r, hr, hlow, hhigh⟩ := h
  have hnone : ∀ ranges ⊆ Text.letterRanges ++ Text.numeralRanges, Text.inRanges ranges c.toNat = false := by
    intro ranges hsub
    rw [Text.inRanges, List.any_eq_false]
    intro s hs hin
    simp only [Bool.and_eq_true, decide_eq_true_eq] at hin
    rcases hapart r hr s (hsub hs) with h | h <;> omega
  have hunder : c ≠ '_' := by
    rintro rfl
    revert hlow hhigh
    revert r
    decide
  simp [continuesName, startsName, Text.isLetter, Text.isNumeral, hnone, hunder]

theorem not_isBlank_of_startsName (h : startsName c = true) : Text.isBlank c = false := by
  by_contra hblank
  rw [Bool.not_eq_false] at hblank
  have := continuesName_of_isBlank hblank
  simp [continuesName, h] at this

/-- A name ends at a gap, and at the character after it. -/
theorem stops_gap (gap : Gap) (hc : continuesName c = false) : Stops continuesName (gap.1 ++ c :: rest) := by
  obtain ⟨gap, hgap⟩ := gap
  cases gap with
  | nil => exact stops_cons.2 hc
  | cons d gap => exact stops_cons.2 (continuesName_of_isBlank (hgap d List.mem_cons_self))

theorem trimStart_eq_cons_iff :
    Text.trimStart cs = c :: rest ↔ Text.isBlank c = false ∧ ∃ gap : Gap, cs = gap.1 ++ c :: rest := by
  constructor
  · intro h
    refine ⟨?_, ⟨⟨cs.takeWhile Text.isBlank, fun d => List.mem_takeWhile_imp⟩, ?_⟩⟩
    · have hstops := stops_dropWhile Text.isBlank cs
      rw [← Text.trimStart, h] at hstops
      exact stops_cons.1 hstops
    · rw [← h]
      exact List.takeWhile_append_dropWhile.symm
  · rintro ⟨hc, ⟨gap, hgap⟩, rfl⟩
    exact dropWhile_append_of_stops hgap (stops_cons.2 hc)

end Spans

/-! ## What is written -/

/-- **A sign of a string between quotes.** -/
inductive Sign where
  | plain (c : Char) (h : c ≠ '"' ∧ c ≠ '\\' ∧ c ≠ '%')
  /-- A bare `%`: the place of the value. -/
  | value
  | escaped (c : Char)

namespace Sign

def written : Sign → List Char
  | .plain c _ => [c]
  | .value => ['%']
  | .escaped c => ['\\', c]

/-- What a sign stands for, by the text that a bare `%` stands for. -/
def read (value : List Char) : Sign → List Char
  | .plain c _ => [c]
  | .value => value
  | .escaped c => if isEscapable c then [c] else []

end Sign

/-- A string between quotes. -/
def writtenString (signs : List Sign) : List Char :=
  '"' :: (signs.flatMap Sign.written ++ ['"'])

/-- What a string says, by the text that a bare `%` stands for. -/
def readSigns (value : List Char) (signs : List Sign) : List Char :=
  signs.flatMap (Sign.read value)

/-- **A value as it is written.** -/
inductive WrittenValue where
  | bare (c : Char) (cs : List Char) (hc : c ≠ '"') (h : ∀ d ∈ c :: cs, continuesValue d = true)
  | quoted (signs : List Sign)

namespace WrittenValue

def written : WrittenValue → List Char
  | .bare c cs _ _ => c :: cs
  | .quoted signs => writtenString signs

/-- What a value says, by the text that a bare `%` between quotes stands for. -/
def read (value : List Char) : WrittenValue → List Char
  | .bare c cs _ _ => c :: cs
  | .quoted signs => readSigns value signs

/-- Without quotes a value only ends where a character follows that it cannot go on with. -/
def Ends (rest : List Char) : WrittenValue → Prop
  | .bare .. => Stops continuesValue rest
  | .quoted _ => True

end WrittenValue

/-- **A choice as it is written**, with the gap before it. -/
structure WrittenChoice where
  gap : Gap
  key : List Char
  isName : IsName key
  beforeSign : Gap
  afterSign : Gap
  signs : List Sign

namespace WrittenChoice

def written (c : WrittenChoice) : List Char :=
  c.gap.1 ++ c.key ++ c.beforeSign.1 ++ '=' :: (c.afterSign.1 ++ writtenString c.signs)

/-- The choice that is read. -/
def choice (c : WrittenChoice) : List Char × List Char :=
  (c.key, readSigns valueMark c.signs)

end WrittenChoice

namespace FunctionKind

def name : FunctionKind → List Char
  | .select => ['s', 'e', 'l', 'e', 'c', 't']
  | .plural => ['p', 'l', 'u', 'r', 'a', 'l']
  | .ordinal => ['o', 'r', 'd', 'i', 'n', 'a', 'l']

theorem ofName?_eq_some_iff {name : List Char} {kind : FunctionKind} :
    ofName? (.ofList name) = some kind ↔ name = kind.name := by
  constructor
  · intro h
    have hname : String.ofList name = String.ofList kind.name := by
      unfold ofName? at h
      split at h <;> cases h <;> assumption
    simpa using congrArg String.toList hname
  · rintro rfl
    cases kind <;> rfl

theorem isAlpha_of_mem_name {kind : FunctionKind} {c : Char} (h : c ∈ kind.name) : c.isAlpha = true := by
  have hall : kind.name.all Char.isAlpha = true := by cases kind <;> rfl
  exact List.all_eq_true.1 hall c h

theorem isName_name (kind : FunctionKind) : IsName kind.name := by
  have hstarts : ∀ c ∈ kind.name, startsName c = true := fun c hc => by
    simp [startsName, Text.isLetter_of_isAlpha (isAlpha_of_mem_name hc)]
  have hgoes : ∀ c ∈ kind.name, continuesName c = true := fun c hc => by simp [continuesName, hstarts c hc]
  cases kind <;>
    exact ⟨hstarts _ List.mem_cons_self, fun d hd => hgoes d (List.mem_cons_of_mem _ hd)⟩

end FunctionKind

/-- The choices and the end of a function. -/
def writtenChoices (choices : List WrittenChoice) (gap : Gap) : List Char :=
  choices.flatMap WrittenChoice.written ++ gap.1 ++ [']']

/-- **A format function as it is written.** No two of its choices have the same key. -/
structure WrittenFunction where
  beforeKind : Gap
  kind : FunctionKind
  beforeValue : Gap
  value : WrittenValue
  choices : List WrittenChoice
  beforeEnd : Gap
  kind_stops : Stops continuesName (beforeValue.1 ++ value.written)
  value_ends : value.Ends (writtenChoices choices beforeEnd)
  nodup : (choices.map WrittenChoice.key).Nodup

namespace WrittenFunction

/-- What follows the kind. -/
def afterKind (F : WrittenFunction) : List Char :=
  F.beforeValue.1 ++ F.value.written ++ writtenChoices F.choices F.beforeEnd

def written (F : WrittenFunction) : List Char :=
  '[' :: (F.beforeKind.1 ++ F.kind.name ++ F.afterKind)

/-- The function that is read. -/
def function (F : WrittenFunction) : Function where
  kind := F.kind
  value := F.value.read valueMark
  choices := F.choices.map WrittenChoice.choice

end WrittenFunction

/-- A function opens here: a bracket, and one of the three kinds as a whole name. -/
def Opens (cs : List Char) : Prop :=
  ∃ (gap : Gap) (kind : FunctionKind) (rest : List Char),
    cs = '[' :: (gap.1 ++ kind.name ++ rest) ∧ Stops continuesName rest

/-- **A part of a text.** -/
inductive Part where
  | char (c : Char)
  | function (F : WrittenFunction)

/-- **How a text splits into parts.** -/
inductive Splits : List Char → List Part → Prop where
  | nil : Splits [] []
  | char {c : Char} {cs : List Char} {parts : List Part} :
    ¬Opens (c :: cs) → Splits cs parts → Splits (c :: cs) (.char c :: parts)
  | function (F : WrittenFunction) {cs : List Char} {parts : List Part} :
    Splits cs parts → Splits (F.written ++ cs) (.function F :: parts)

/-- The functions of a row of parts. -/
def functionsOf : List Part → List Function
  | [] => []
  | .char _ :: parts => functionsOf parts
  | .function F :: parts => F.function :: functionsOf parts

/-- A row of parts with a mark for each function, numbered from `index` on. -/
def marked (index : Nat) : List Part → List Char
  | [] => []
  | .char c :: parts => c :: marked index parts
  | .function _ :: parts => functionMark index ++ marked (index + 1) parts

end Dialogue.Format
