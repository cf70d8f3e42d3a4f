import Mathlib
import Dialogue.Proofs.Expr.Precedence
import Dialogue.Proofs.Text.Slice

/-!
# Tokens by their offsets

A token that is a name, a word or a number is the slice between the offset of its first character and that of the
character after it. Each of these slices is a text, whatever the text is that is scanned (`Sliced.scan_eq`), so
expressions and assignments are read without a bad slice (`Sliced.parse_eq`, `Sliced.parseAssignment_eq`).
-/

namespace Dialogue

open Text (Sliced)
open Text.Sliced (slice slice_eq)

/-! ## What is left of a text -/

namespace Token

theorem stringBody?_suffix {cs s after : List Char} (h : stringBody? cs = some (s, after)) : after <:+ cs := by
  fun_induction stringBody? cs generalizing s after with
  | case1 => cases h
  | case2 rest =>
    cases h
    exact List.suffix_cons _ _
  | case3 c rest ih =>
    obtain ⟨⟨s', after'⟩, hbody, heq⟩ := Option.map_eq_some_iff.1 h
    cases heq
    exact (ih hbody).trans ((List.suffix_cons _ _).trans (List.suffix_cons _ _))
  | case4 c rest _ _ ih =>
    obtain ⟨⟨s', after'⟩, hbody, heq⟩ := Option.map_eq_some_iff.1 h
    cases heq
    exact (ih hbody).trans (List.suffix_cons _ _)

theorem orDouble_suffix (second : Char) (double single : Token) (rest : List Char) :
    (orDouble second double single rest).2 <:+ rest := by
  unfold orDouble
  split
  · split
    · exact List.suffix_cons _ _
    · exact List.suffix_rfl
  · exact List.suffix_rfl

/-- **A token is read from the front of a text.** -/
theorem lexeme_suffix {c : Char} {rest : List Char} {r : Token × List Char} (h : lexeme c rest = .ok r) :
    r.2 <:+ rest := by
  unfold lexeme at h
  split at h
  case h_16 =>
    split at h
    · rename_i hbody
      cases h
      exact stringBody?_suffix hbody
    · cases h
  case h_10 | h_11 | h_12 | h_13 =>
    cases h
    exact orDouble_suffix ..
  case h_14 | h_15 =>
    split at h
    · cases h
      exact List.suffix_cons _ _
    · cases h
  case h_17 =>
    split at h
    · cases h
      exact List.dropWhile_suffix _
    · cases h
  case h_18 =>
    split at h
    · split at h
      · cases h
        exact List.dropWhile_suffix _
      · cases h
    · split at h
      · cases h
        exact List.dropWhile_suffix _
      · cases h
  all_goals
    cases h
    exact List.suffix_rfl

/-! Tokens that go as far as characters of a kind. -/

section Words

variable {c : Char} {rest : List Char}

theorem lexeme_dollar (h : (rest.head?.map startsName).getD Bool.false = Bool.true) : lexeme '$' rest =
    .ok (.variable (.ofList ('$' :: rest.takeWhile continuesName)), rest.dropWhile continuesName) :=
  if_pos h

theorem lexeme_digit (h : c.isDigit = Bool.true) : lexeme c rest =
    match Number.parse? (c :: rest.takeWhile continuesNumber) with
    | some x => .ok (.number x, rest.dropWhile continuesNumber)
    | none => .error .badNumber := by
  unfold lexeme
  split
  case h_18 =>
    refine (if_pos h).trans ?_
    cases Number.parse? (c :: rest.takeWhile continuesNumber) <;> rfl
  all_goals exact absurd h (by decide)

theorem lexeme_name (hdigit : ¬ c.isDigit = Bool.true) (h : startsName c = Bool.true) : lexeme c rest =
    .ok (ofWord (.ofList (c :: rest.takeWhile continuesName)), rest.dropWhile continuesName) := by
  unfold lexeme
  split
  case h_18 => rw [if_neg hdigit, if_pos h]
  all_goals exact absurd h (by decide)

end Words

end Token

/-! ## Slices -/

namespace Token.Sliced

variable {text before : List Char} {c : Char} {rest : List Char}

/-- The offset of the characters that are left. -/
def place (text cs : List Char) : Nat :=
  byteLength text - byteLength cs

/-- **Reads the token that starts with `c`** in a text of which `c` and `rest` are left. -/
def lexeme (text : List Char) (c : Char) (rest : List Char) : Sliced (Except ScanCause (Token × List Char)) :=
  let word (p : Char → Bool) := slice .token text (place text (c :: rest)) (place text (rest.dropWhile p))
  if c = '$' ∧ (rest.head?.map startsName).getD Bool.false = Bool.true then
    (word continuesName).map fun name => .ok (.variable (.ofList name), rest.dropWhile continuesName)
  else if c.isDigit then
    (word continuesNumber).map fun digits =>
      match Number.parse? digits with
      | some x => .ok (.number x, rest.dropWhile continuesNumber)
      | none => .error .badNumber
  else if startsName c then
    (word continuesName).map fun name => .ok (ofWord (.ofList name), rest.dropWhile continuesName)
  else .ok (Token.lexeme c rest)

theorem slice_word (htext : text = before ++ c :: rest) (p : Char → Bool) :
    slice .token text (place text (c :: rest)) (place text (rest.dropWhile p)) = .ok (c :: rest.takeWhile p) := by
  have hrest : Token.byteLength rest = Token.byteLength (rest.takeWhile p) + Token.byteLength (rest.dropWhile p) := by
    rw [← Text.byteLength_append, List.takeWhile_append_dropWhile]
  refine slice_eq (a := before) (c := rest.dropWhile p) .token ?_ ?_ ?_
  · rw [htext, List.append_assoc, List.cons_append, List.takeWhile_append_dropWhile]
  · rw [place, htext, Text.byteLength_append]
    omega
  · rw [place, htext, Text.byteLength_append, Text.byteLength_cons, Text.byteLength_cons]
    omega

/-- **No slice of a token is bad.** -/
theorem lexeme_eq (htext : text = before ++ c :: rest) : lexeme text c rest = .ok (Token.lexeme c rest) := by
  unfold lexeme
  dsimp only
  rw [slice_word htext continuesName, slice_word htext continuesNumber]
  split_ifs with hdollar hdigit hname
  · obtain ⟨rfl, hstart⟩ := hdollar
    rw [lexeme_dollar hstart, Except.map]
  · rw [lexeme_digit hdigit, Except.map]
  · rw [lexeme_name hdigit hname, Except.map]
  · rfl

theorem length_lexeme {r : Token × List Char} (h : lexeme text c rest = .ok (.ok r)) : r.2.length ≤ rest.length := by
  have drop (p : Char → Bool) : (rest.dropWhile p).length ≤ rest.length := (List.dropWhile_sublist p).length_le
  unfold lexeme at h
  dsimp only at h
  split_ifs at h
  · obtain ⟨name, -, h⟩ := Expr.of_map_eq_ok h
    cases h
    exact drop _
  · obtain ⟨digits, -, h⟩ := Expr.of_map_eq_ok h
    split at h
    · cases h
      exact drop _
    · cases h
  · obtain ⟨name, -, h⟩ := Expr.of_map_eq_ok h
    cases h
    exact drop _
  · exact Token.length_lexeme (Except.ok.inj h)

/-- The tokens of what is left of a text. -/
def scanFrom (text cs : List Char) : Sliced (Except ScanFault (List Token)) :=
  match cs with
  | [] => .ok (.ok [])
  | c :: rest =>
    if Text.isBlank c then scanFrom text rest else
      match _h : lexeme text c rest with
      | .error bad => .error bad
      | .ok (.error cause) => .ok (.error ⟨cause, place text (c :: rest)⟩)
      | .ok (.ok (tok, after)) => (scanFrom text after).map fun found => found.map (tok :: ·)
termination_by cs.length
decreasing_by
  · simp
  · have := length_lexeme _h
    simp only [List.length_cons] at *
    omega

theorem scanFrom_error {cause : ScanCause} (hblank : ¬ Text.isBlank c = Bool.true)
    (h : lexeme text c rest = .ok (.error cause)) :
    scanFrom text (c :: rest) = .ok (.error ⟨cause, place text (c :: rest)⟩) := by
  rw [scanFrom, if_neg hblank]
  split <;> simp_all

theorem scanFrom_ok {tok : Token} {after : List Char} (hblank : ¬ Text.isBlank c = Bool.true)
    (h : lexeme text c rest = .ok (.ok (tok, after))) :
    scanFrom text (c :: rest) = (scanFrom text after).map fun found => found.map (tok :: ·) := by
  rw [scanFrom, if_neg hblank]
  split <;> simp_all

/-- **The tokens of a text.** -/
def scan (text : List Char) : Sliced (Except ScanFault (List Token)) :=
  scanFrom text text

theorem scanFrom_eq {cs : List Char} (htext : text = before ++ cs) : scanFrom text cs =
    .ok (match Token.scanFrom cs with
      | .ok toks => .ok toks
      | .error (cause, rest) => .error ⟨cause, place text rest⟩) := by
  fun_induction Token.scanFrom cs generalizing before with
  | case1 => rw [scanFrom]
  | case2 c rest hblank ih =>
    have hrest : text = (before ++ [c]) ++ rest := by rw [htext, List.append_assoc, List.singleton_append]
    rw [scanFrom, if_pos hblank, ih hrest]
  | case3 c rest hblank cause hlexeme =>
    rw [scanFrom_error hblank (by rw [lexeme_eq htext, hlexeme])]
  | case4 c rest hblank tok after hlexeme fault hfault ih =>
    obtain ⟨used, hused⟩ := Token.lexeme_suffix hlexeme
    have hrest : text = (before ++ c :: used) ++ after := by rw [htext, ← hused]; simp
    rw [scanFrom_ok hblank (by rw [lexeme_eq htext, hlexeme]), ih hrest, hfault]
    rfl
  | case5 c rest hblank tok after hlexeme toks htoks ih =>
    obtain ⟨used, hused⟩ := Token.lexeme_suffix hlexeme
    have hrest : text = (before ++ c :: used) ++ after := by rw [htext, ← hused]; simp
    rw [scanFrom_ok hblank (by rw [lexeme_eq htext, hlexeme]), ih hrest, htoks]
    rfl

/-- **No slice is bad when a text is scanned.** -/
theorem scan_eq (text : List Char) : scan text = .ok (Token.scan text) := by
  rw [scan, scanFrom_eq (List.nil_append text).symm, Token.scan]
  rfl

end Token.Sliced

namespace Expr.Sliced

/-- The tokens of a text, or the fault with its text. -/
def tokens (cs : List Char) : Sliced (Except ExprFault (List Token)) :=
  (Token.Sliced.scan cs).map fun found => found.mapError fun fault => ⟨.scan fault, .ofList cs⟩

/-- **The expression that a text writes.** -/
def parse (cs : List Char) : Sliced (Except ExprFault Expr) :=
  (tokens cs).map fun found => found.bind fun toks => (ofTokens toks).mapError fun cause => ⟨cause, .ofList cs⟩

/-- The assignment that the tokens of a text write. -/
def assignment (cs : List Char) : List Token → Except AssignFault (String × Expr)
  | .variable name :: rest =>
    let value (toks : List Token) : Except AssignFault (String × Expr) := do
      let ⟨(expr, rest), _⟩ ← (readOver 0 toks).mapError fun cause => .expr ⟨cause, .ofList cs⟩
      match rest with
      | [] => return (name, expr)
      | tok :: _ => .error (.trailing tok)
    match rest with
    | .identifier "to" :: toks | .assign :: toks => value toks
    | other => .error (.noTo other.head?)
  | other => .error (.noVariable other.head?)

/-- **Reads an assignment.** -/
def parseAssignment (cs : List Char) : Sliced (Except AssignFault (String × Expr)) :=
  (tokens cs).map fun found => (found.mapError .expr).bind (assignment cs)

theorem tokens_eq (cs : List Char) : tokens cs = .ok (Expr.tokens cs) := by
  rw [tokens, Token.Sliced.scan_eq]
  rfl

theorem parse_eq (cs : List Char) : parse cs = .ok (Expr.parse cs) := by
  rw [parse, tokens_eq]
  rfl

theorem parseAssignment_eq (cs : List Char) : parseAssignment cs = .ok (Expr.parseAssignment cs) := by
  rw [parseAssignment, tokens_eq]
  rfl

end Expr.Sliced

end Dialogue
