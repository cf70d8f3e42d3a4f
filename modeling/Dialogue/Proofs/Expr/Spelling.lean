import Mathlib
import Dialogue.Proofs.Expr.Slices
import Dialogue.Proofs.Number.ReadBack
import Dialogue.Proofs.Text.Character

/-!
# Tokens as they are written

Every token that a text can have is written in one way or in several (`Spells`), and a row of tokens is written with
blanks between them (`Writes`). Whatever the tokens are and however each of them is written, scanning gives them back
(`scan_eq_of_writes`): a blank ends every token, and no token has a blank outside of its quotes.
-/

namespace Dialogue.Token

open Text (isBlank)

/-! ## How tokens are written -/

/-- **The tokens that are written with signs.** -/
def signs : List (List Char × Token) :=
  [(['('], .leftParen), ([')'], .rightParen), ([','], .comma), (['+'], .plus), (['-'], .minus), (['*'], .star),
    (['/'], .slash), (['%'], .percent), (['^'], .xor), (['='], .assign), (['=', '='], .equalTo), (['!'], .not),
    (['!', '='], .notEqualTo), (['>'], .greaterThan), (['>', '='], .greaterThanOrEqualTo), (['<'], .lessThan),
    (['<', '='], .lessThanOrEqualTo), (['&', '&'], .and), (['|', '|'], .or)]

/-- **The words that are no names.** -/
def reserved : List (String × Token) :=
  [("true", .true), ("false", .false), ("null", .null), ("and", .and), ("or", .or), ("xor", .xor), ("not", .not),
    ("is", .equalTo), ("eq", .equalTo), ("neq", .notEqualTo), ("gt", .greaterThan), ("gte", .greaterThanOrEqualTo),
    ("lt", .lessThan), ("lte", .lessThanOrEqualTo)]

/-- A name: an ASCII letter or an underscore, and then these and digits. -/
def isName : List Char → Bool
  | [] => Bool.false
  | c :: rest => startsName c && rest.all continuesName

/-- A character of a string; only quotes and backslashes have a backslash before them. -/
def escaped (c : Char) : List Char :=
  if c = '"' ∨ c = '\\' then ['\\', c] else [c]

/-- **How a token is written.** -/
inductive Spells : Token → List Char → Prop
  | sign {cs : List Char} {tok : Token} (h : (cs, tok) ∈ signs) : Spells tok cs
  | reserved {word : String} {tok : Token} (h : (word, tok) ∈ reserved) : Spells tok word.toList
  | number {x : Float32} (hsign : (Number.toBinary x).negative = Bool.false)
      (hfinite : (Number.toBinary x).isFinite Number.single = Bool.true) : Spells (.number x) (Number.text x).toList
  | string (s : String) : Spells (.string s) ('"' :: (s.toList.flatMap escaped ++ ['"']))
  | variable {name : List Char} (h : isName name = Bool.true) : Spells (.variable (.ofList ('$' :: name))) ('$' :: name)
  | identifier {name : String} (h : isName name.toList = Bool.true) (hword : name ∉ reserved.map Prod.fst) :
      Spells (.identifier name) name.toList

/-- A token that a text can have. -/
def Writable : Token → Prop
  | .number x => (Number.toBinary x).negative = Bool.false ∧ (Number.toBinary x).isFinite Number.single = Bool.true
  | .variable name => ∃ cs, isName cs = Bool.true ∧ name = .ofList ('$' :: cs)
  | .identifier name => isName name.toList = Bool.true ∧ name ∉ reserved.map Prod.fst
  | _ => True

theorem exists_spells_of_mem {tok : Token} (h : tok ∈ signs.map Prod.snd ∨ tok ∈ reserved.map Prod.snd) :
    ∃ cs, Spells tok cs := by
  rcases h with h | h
  · obtain ⟨⟨cs, _⟩, hmem, rfl⟩ := List.mem_map.1 h
    exact ⟨cs, .sign hmem⟩
  · obtain ⟨⟨word, _⟩, hmem, rfl⟩ := List.mem_map.1 h
    exact ⟨word.toList, .reserved hmem⟩

/-- Just these tokens are written in some way. -/
theorem exists_spells_iff {tok : Token} : (∃ cs, Spells tok cs) ↔ tok.Writable := by
  constructor
  · rintro ⟨cs, h⟩
    cases h with
    | sign h =>
      revert h
      cases tok <;> simp [signs, Writable]
    | reserved h =>
      revert h
      cases tok <;> simp [reserved, Writable]
    | number hsign hfinite => exact ⟨hsign, hfinite⟩
    | string s => trivial
    | «variable» h => exact ⟨_, h, rfl⟩
    | identifier h hword => exact ⟨h, hword⟩
  · intro h
    cases tok with
    | number x => exact ⟨_, .number h.1 h.2⟩
    | string s => exact ⟨_, .string s⟩
    | «variable» name =>
      obtain ⟨cs, hname, rfl⟩ := h
      exact ⟨_, .variable hname⟩
    | identifier name => exact ⟨_, .identifier h.1 h.2⟩
    | _ => exact exists_spells_of_mem (by decide)

/-- **How tokens are written one after the other**: with one blank or more between any two neighbours. -/
inductive Writes : List Token → List Char → Prop
  | nil : Writes [] []
  | single {tok : Token} {cs : List Char} (h : Spells tok cs) : Writes [tok] cs
  | cons {tok next : Token} {toks : List Token} {cs gap text : List Char} (h : Spells tok cs) (hne : gap ≠ [])
      (hblank : Text.allBlank gap = Bool.true) (hrest : Writes (next :: toks) text) :
      Writes (tok :: next :: toks) (cs ++ (gap ++ text))

/-! ## A token in front of a blank -/

theorem isBlank_eq_false_of_startsName {c : Char} (h : startsName c = Bool.true) : isBlank c = Bool.false := by
  rw [startsName, Bool.or_eq_true, decide_eq_true_eq] at h
  rcases h with h | rfl
  · exact Text.isBlank_eq_false_of_isAlpha h
  · decide

theorem isBlank_eq_false_of_continuesName {c : Char} (h : continuesName c = Bool.true) : isBlank c = Bool.false := by
  rcases (Bool.or_eq_true _ _).mp h with h | h
  · exact isBlank_eq_false_of_startsName h
  · exact Text.isBlank_eq_false_of_isDigit h

theorem isBlank_eq_false_of_continuesNumber {c : Char} (h : continuesNumber c = Bool.true) :
    isBlank c = Bool.false := by
  rw [continuesNumber, Bool.or_eq_true, decide_eq_true_eq] at h
  rcases h with h | rfl
  · exact Text.isBlank_eq_false_of_isDigit h
  · decide

theorem isDigit_eq_false_of_startsName {c : Char} (h : startsName c = Bool.true) : c.isDigit = Bool.false := by
  rw [startsName, Bool.or_eq_true, decide_eq_true_eq] at h
  rcases h with h | rfl
  · exact Text.isDigit_eq_false_of_isAlpha h
  · decide

/-- Nothing, or a text that starts with a blank. -/
def Parted (rest : List Char) : Prop :=
  ∀ c ∈ rest.head?, isBlank c = Bool.true

theorem parted_nil : Parted [] := by
  simp [Parted]

/-- **The token is read off the text**, whatever comes after a blank. -/
def ReadOff (tok : Token) (cs : List Char) : Prop :=
  ∃ c tail, cs = c :: tail ∧ isBlank c = Bool.false ∧
    ∀ rest, Parted rest → lexeme c (tail ++ rest) = .ok (tok, rest)

section ReadOff

variable {rest tail : List Char} {tok : Token} {cs : List Char}

/-- Characters of a kind that no blank is of end in front of a blank. -/
theorem span_of_parted {p : Char → Bool} (hp : ∀ {c}, p c = Bool.true → isBlank c = Bool.false)
    (htail : ∀ c ∈ tail, p c = Bool.true) (h : Parted rest) :
    (tail ++ rest).takeWhile p = tail ∧ (tail ++ rest).dropWhile p = rest := by
  refine Text.span_append_of_forall htail fun c hc => ?_
  rw [Bool.eq_false_iff]
  intro hpc
  exact absurd ((hp hpc).symm.trans (h c hc)) (by decide)

theorem orDouble_of_parted {second : Char} (double single : Token) (hsecond : isBlank second = Bool.false)
    (h : Parted rest) : orDouble second double single rest = (single, rest) := by
  cases rest with
  | nil => rfl
  | cons c rest =>
    have hne : c ≠ second := by
      rintro rfl
      exact absurd (hsecond.symm.trans (h c rfl)) (by decide)
    rw [orDouble, if_neg hne]

theorem readOff_sign {p : List Char × Token} (h : p ∈ signs) : ReadOff p.2 p.1 := by
  have hequals : isBlank '=' = Bool.false := by decide
  unfold signs at h
  fin_cases h
  all_goals refine ⟨_, _, rfl, by decide, fun rest hrest => ?_⟩
  -- Four of the signs are the first half of others.
  all_goals first
    | rfl
    | exact congrArg Except.ok (orDouble_of_parted _ _ hequals hrest)

/-- A name is read as far as it goes. -/
theorem readOff_name (h : isName cs = Bool.true) : ReadOff (ofWord (.ofList cs)) cs := by
  cases cs with
  | nil => cases h
  | cons c tail =>
    rw [isName, Bool.and_eq_true, List.all_eq_true] at h
    refine ⟨c, tail, rfl, isBlank_eq_false_of_startsName h.1, fun rest hrest => ?_⟩
    obtain ⟨htake, hdrop⟩ := span_of_parted isBlank_eq_false_of_continuesName h.2 hrest
    rw [lexeme_name (by rw [isDigit_eq_false_of_startsName h.1]; decide) h.1, htake, hdrop]

theorem reserved_isName : ∀ p ∈ reserved, isName p.1.toList = Bool.true ∧ ofWord p.1 = p.2 := by
  decide +kernel

theorem ofWord_of_notMem {word : String} (h : word ∉ reserved.map Prod.fst) : ofWord word = .identifier word := by
  unfold ofWord
  split
  case h_15 => rfl
  all_goals exact absurd (by decide +kernel) h

theorem readOff_variable {name : List Char} (h : isName name = Bool.true) :
    ReadOff (.variable (.ofList ('$' :: name))) ('$' :: name) := by
  refine ⟨'$', name, rfl, by decide, fun rest hrest => ?_⟩
  cases name with
  | nil => cases h
  | cons c tail =>
    rw [isName, Bool.and_eq_true, List.all_eq_true] at h
    have hname : ∀ d ∈ c :: tail, continuesName d = Bool.true :=
      List.forall_mem_cons.2 ⟨by rw [continuesName, h.1, Bool.true_or], h.2⟩
    obtain ⟨htake, hdrop⟩ := span_of_parted isBlank_eq_false_of_continuesName hname hrest
    rw [lexeme_dollar (by rw [List.cons_append, List.head?_cons]; exact h.1), htake, hdrop]

theorem readOff_number {x : Float32} (hsign : (Number.toBinary x).negative = Bool.false)
    (hfinite : (Number.toBinary x).isFinite Number.single = Bool.true) :
    ReadOff (.number x) (Number.text x).toList := by
  obtain ⟨d, tail, htext, hd, hpoints⟩ := Number.exists_toList_text hsign hfinite
  have htail : ∀ c ∈ tail, continuesNumber c = Bool.true := by simpa [continuesNumber] using hpoints
  refine ⟨d, tail, htext, Text.isBlank_eq_false_of_isDigit hd, fun rest hrest => ?_⟩
  obtain ⟨htake, hdrop⟩ := span_of_parted isBlank_eq_false_of_continuesNumber htail hrest
  rw [lexeme_digit hd, htake, hdrop, ← htext, Number.parse?_text]

/-- The characters of a string come out of their quotes. -/
theorem stringBody?_escaped (rest : List Char) : ∀ cs : List Char,
    stringBody? (cs.flatMap escaped ++ '"' :: rest) = some (cs, rest)
  | [] => by simp [stringBody?]
  | c :: cs => by
    rw [List.flatMap_cons, List.append_assoc, escaped]
    split
    · rename_i hc
      have hn : c ≠ 'n' := by rcases hc with rfl | rfl <;> decide
      simp [stringBody?, stringBody?_escaped rest cs, hn]
    · rename_i hc
      rw [not_or] at hc
      simp [stringBody?, stringBody?_escaped rest cs, hc.1, hc.2]

theorem readOff_string (s : String) : ReadOff (.string s) ('"' :: (s.toList.flatMap escaped ++ ['"'])) := by
  refine ⟨'"', _, rfl, by decide, fun rest _ => ?_⟩
  have hbody := stringBody?_escaped rest s.toList
  simp [lexeme, hbody]

/-- **Every token is read off however it is written.** -/
theorem Spells.readOff (h : Spells tok cs) : ReadOff tok cs := by
  cases h with
  | sign h => exact readOff_sign h
  | @reserved word _ h =>
    obtain ⟨hname, hword⟩ := reserved_isName _ h
    have hread := readOff_name hname
    rwa [String.ofList_toList, hword] at hread
  | number hsign hfinite => exact readOff_number hsign hfinite
  | string s => exact readOff_string s
  | «variable» h => exact readOff_variable h
  | @identifier name h hword =>
    have hread := readOff_name h
    rwa [String.ofList_toList, ofWord_of_notMem hword] at hread

end ReadOff

/-! ## Rows of tokens -/

theorem scanFrom_blanks {gap : List Char} (h : Text.allBlank gap = Bool.true) (rest : List Char) :
    scanFrom (gap ++ rest) = scanFrom rest := by
  induction gap with
  | nil => rfl
  | cons c gap ih =>
    obtain ⟨hc, hgap⟩ := (Bool.and_eq_true _ _).mp h
    rw [List.cons_append, scanFrom, if_pos hc, ih hgap]

theorem ReadOff.scanFrom {tok : Token} {toks : List Token} {cs rest : List Char} (h : ReadOff tok cs)
    (hrest : Parted rest) (hscan : scanFrom rest = .ok toks) : scanFrom (cs ++ rest) = .ok (tok :: toks) := by
  obtain ⟨c, tail, rfl, hblank, hread⟩ := h
  rw [List.cons_append, Token.scanFrom, if_neg (by rw [hblank]; decide)]
  split
  · rename_i heq
    cases (hread rest hrest).symm.trans heq
  · rename_i heq
    cases (hread rest hrest).symm.trans heq
    rw [hscan]

/-- **Scanning undoes writing.** -/
theorem Writes.scanFrom {toks : List Token} {text : List Char} (h : Writes toks text) : scanFrom text = .ok toks := by
  induction h with
  | nil => rw [Token.scanFrom]
  | @single tok cs h =>
    have hread := h.readOff.scanFrom parted_nil (by rw [Token.scanFrom])
    rwa [List.append_nil] at hread
  | @cons tok next toks cs gap text h hne hblank _ ih =>
    refine h.readOff.scanFrom ?_ (by rw [scanFrom_blanks hblank, ih])
    obtain ⟨c, gap, rfl⟩ := List.exists_cons_of_ne_nil hne
    intro d hd
    obtain rfl : c = d := by simpa using hd
    exact ((Bool.and_eq_true _ _).mp hblank).1

/-- **Scanning gives back what was written**: any tokens in any order, each in any of its spellings, with any blanks
between them. -/
theorem scan_eq_of_writes {toks : List Token} {text : List Char} (h : Writes toks text) : scan text = .ok toks := by
  rw [scan, h.scanFrom]

/-- Operators in both of their spellings, a name that starts like one, and a string with a quote in it. -/
theorem scan_eq_of_writes_mixed :
    let text := "!  not\u2003$x >= 2.5 and\tandy || \"a\\\"\\\\n\"".toList
    let toks : List Token := [.not, .not, .variable "$x", .greaterThanOrEqualTo, .number 2.5, .and,
      .identifier "andy", .or, .string "a\"\\n"]
    Writes toks text ∧ scan text = .ok toks := by
  intro text toks
  have htext : text = ['!'] ++ ([' ', ' '] ++ ("not".toList ++ (['\u2003'] ++ (['$', 'x'] ++ ([' '] ++ (['>', '='] ++
      ([' '] ++ ((Number.text 2.5).toList ++ ([' '] ++ ("and".toList ++ (['\t'] ++ ("andy".toList ++ ([' '] ++
      (['|', '|'] ++ ([' '] ++ ('"' :: ("a\"\\n".toList.flatMap escaped ++ ['"']))))))))))))))))) := by
    decide +kernel
  have hwrites : Writes toks text := by
    rw [htext]
    refine .cons (.sign ?_) ?_ ?_ <| .cons (.reserved ?_) ?_ ?_ <| .cons (.variable ?_) ?_ ?_ <|
      .cons (.sign ?_) ?_ ?_ <| .cons (.number ?_ ?_) ?_ ?_ <| .cons (.reserved ?_) ?_ ?_ <|
      .cons (.identifier ?_ ?_) ?_ ?_ <| .cons (.sign ?_) ?_ ?_ <| .single (.string _)
    all_goals decide +kernel
  exact ⟨hwrites, scan_eq_of_writes hwrites⟩

end Dialogue.Token
