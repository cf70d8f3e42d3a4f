import Dialogue.Number.Basic
import Dialogue.Text.Blank
import Dialogue.Text.Integer
import Dialogue.Text.Quoted

/-!
# Tokens

An expression is read as a list of tokens. Blanks separate tokens and mean nothing else. Names are ASCII words, and some
words are operators or literals. A string stands between double quotes, where a backslash takes the next character as it
is, except that `\n` is a line end.

* `length_lexeme`: reading a token uses up part of the text.
-/

namespace Dialogue

/-- **A token of an expression.** -/
inductive Token where
  | number (x : Float32)
  | string (s : String)
  | variable (name : String)
  | identifier (name : String)
  | true
  | false
  | null
  | leftParen
  | rightParen
  | comma
  | plus
  | minus
  | star
  | slash
  | percent
  | assign
  | equalTo
  | notEqualTo
  | greaterThan
  | greaterThanOrEqualTo
  | lessThan
  | lessThanOrEqualTo
  | and
  | or
  | xor
  | not
deriving DecidableEq, Inhabited

/-- **Why a text is no list of tokens.** -/
inductive ScanCause where
  | unexpected (c : Char)
  | openString
  | badNumber
deriving DecidableEq, Repr

/-- A cause and the number of bytes before it. -/
structure ScanFault where
  cause : ScanCause
  offset : Nat
deriving DecidableEq, Repr

namespace ScanFault

/-- The wording of a fault; columns are counted from 1, in bytes. -/
def message (fault : ScanFault) : String :=
  let column := Text.showNat (fault.offset + 1)
  match fault.cause with
  | .unexpected c => "unexpected " ++ Text.quotedChar c ++ " at column " ++ column
  | .openString => "unterminated string starting at column " ++ column
  | .badNumber => "invalid number at column " ++ column

end ScanFault

namespace Token

/-! ## How messages name tokens -/

/-- The name of a token in messages. -/
def label : Token → String
  | .number x => "Number(" ++ Number.literalText x ++ ")"
  | .string s => "Str(" ++ Text.quoted s ++ ")"
  | .variable name => "Variable(" ++ Text.quoted name ++ ")"
  | .identifier name => "Identifier(" ++ Text.quoted name ++ ")"
  | .true => "True"
  | .false => "False"
  | .null => "Null"
  | .leftParen => "LeftParen"
  | .rightParen => "RightParen"
  | .comma => "Comma"
  | .plus => "Plus"
  | .minus => "Minus"
  | .star => "Star"
  | .slash => "Slash"
  | .percent => "Percent"
  | .assign => "Assign"
  | .equalTo => "EqualTo"
  | .notEqualTo => "NotEqualTo"
  | .greaterThan => "GreaterThan"
  | .greaterThanOrEqualTo => "GreaterThanOrEqualTo"
  | .lessThan => "LessThan"
  | .lessThanOrEqualTo => "LessThanOrEqualTo"
  | .and => "And"
  | .or => "Or"
  | .xor => "Xor"
  | .not => "Not"

/-- The name of a token that may be missing. -/
def labelOption : Option Token → String
  | some tok => "Some(" ++ tok.label ++ ")"
  | none => "None"

/-! ## Character classes -/

/-- A name starts with an ASCII letter or an underscore. -/
def startsName (c : Char) : Bool := c.isAlpha || c = '_'

/-- A name goes on with these and the ten digits. -/
def continuesName (c : Char) : Bool := startsName c || c.isDigit

/-- A number is written with these. -/
def continuesNumber (c : Char) : Bool := c.isDigit || c = '.'

/-! ## Lexemes -/

/-- **The token of a word**: an operator, a literal, or else a name. -/
def ofWord : String → Token
  | "true" => .true
  | "false" => .false
  | "null" => .null
  | "and" => .and
  | "or" => .or
  | "xor" => .xor
  | "not" => .not
  | "is" => .equalTo
  | "eq" => .equalTo
  | "neq" => .notEqualTo
  | "gt" => .greaterThan
  | "gte" => .greaterThanOrEqualTo
  | "lt" => .lessThan
  | "lte" => .lessThanOrEqualTo
  | word => .identifier word

/-- Reads a string up to its closing quote. -/
def stringBody? : List Char → Option (List Char × List Char)
  | [] => none
  | '"' :: rest => some ([], rest)
  | '\\' :: c :: rest => (stringBody? rest).map fun (s, after) => ((if c = 'n' then '\n' else c) :: s, after)
  | c :: rest => (stringBody? rest).map fun (s, after) => (c :: s, after)

/-- An operator of two characters, or the one of its first character alone. -/
def orDouble (second : Char) (double single : Token) : List Char → Token × List Char
  | c :: rest => if c = second then (double, rest) else (single, c :: rest)
  | [] => (single, [])

/-- **Reads the token that starts with `c`.** -/
def lexeme (c : Char) (rest : List Char) : Except ScanCause (Token × List Char) :=
  match c with
  | '(' => .ok (.leftParen, rest)
  | ')' => .ok (.rightParen, rest)
  | ',' => .ok (.comma, rest)
  | '+' => .ok (.plus, rest)
  | '-' => .ok (.minus, rest)
  | '*' => .ok (.star, rest)
  | '/' => .ok (.slash, rest)
  | '%' => .ok (.percent, rest)
  | '^' => .ok (.xor, rest)
  | '=' => .ok (orDouble '=' .equalTo .assign rest)
  | '!' => .ok (orDouble '=' .notEqualTo .not rest)
  | '>' => .ok (orDouble '=' .greaterThanOrEqualTo .greaterThan rest)
  | '<' => .ok (orDouble '=' .lessThanOrEqualTo .lessThan rest)
  | '&' =>
    match rest with
    | '&' :: rest => .ok (.and, rest)
    | _ => .error (.unexpected c)
  | '|' =>
    match rest with
    | '|' :: rest => .ok (.or, rest)
    | _ => .error (.unexpected c)
  | '"' =>
    match stringBody? rest with
    | some (s, rest) => .ok (.string (.ofList s), rest)
    | none => .error .openString
  | '$' =>
    if (rest.head?.map startsName).getD Bool.false then
      .ok (.variable (.ofList ('$' :: rest.takeWhile continuesName)), rest.dropWhile continuesName)
    else .error (.unexpected c)
  | c =>
    if c.isDigit then
      match Number.parse? (c :: rest.takeWhile continuesNumber) with
      | some x => .ok (.number x, rest.dropWhile continuesNumber)
      | none => .error .badNumber
    else if startsName c then
      .ok (ofWord (.ofList (c :: rest.takeWhile continuesName)), rest.dropWhile continuesName)
    else .error (.unexpected c)

/-! ## Nothing is read twice -/

theorem length_stringBody {cs s after : List Char} (h : stringBody? cs = some (s, after)) :
    after.length < cs.length := by
  fun_induction stringBody? cs generalizing s after with
  | case1 => simp at h
  | case2 rest => simp_all
  | case3 c rest ih | case4 c rest _ _ ih =>
    obtain ⟨⟨s', after'⟩, hb, he⟩ := Option.map_eq_some_iff.1 h
    simp only [Prod.mk.injEq] at he
    have := ih hb
    simp only [List.length_cons, ← he.2]
    omega

theorem length_orDouble (second : Char) (double single : Token) (rest : List Char) :
    (orDouble second double single rest).2.length ≤ rest.length := by
  unfold orDouble
  split
  · split <;> simp
  · simp

theorem length_lexeme {c : Char} {rest : List Char} {r : Token × List Char} (h : lexeme c rest = .ok r) :
    r.2.length ≤ rest.length := by
  have drop (p : Char → Bool) : (rest.dropWhile p).length ≤ rest.length := (List.dropWhile_sublist p).length_le
  unfold lexeme at h
  split at h
  case h_16 =>
    split at h
    · rename_i hs
      cases h
      exact Nat.le_of_lt (length_stringBody hs)
    · cases h
  case h_10 | h_11 | h_12 | h_13 =>
    cases h
    exact length_orDouble ..
  case h_14 | h_15 =>
    split at h
    · cases h
      simp
    · cases h
  case h_17 =>
    split at h
    · cases h
      exact drop _
    · cases h
  case h_18 =>
    split at h
    · split at h
      · cases h
        exact drop _
      · cases h
    · split at h
      · cases h
        exact drop _
      · cases h
  all_goals
    cases h
    exact Nat.le_refl _

/-! ## Scanning -/

/-- The tokens of a text, or a cause and the text from the place of the fault on. -/
def scanFrom (cs : List Char) : Except (ScanCause × List Char) (List Token) :=
  match cs with
  | [] => .ok []
  | c :: rest =>
    if Text.isBlank c then scanFrom rest else
      match _h : lexeme c rest with
      | .error cause => .error (cause, c :: rest)
      | .ok (tok, after) =>
        match scanFrom after with
        | .error fault => .error fault
        | .ok toks => .ok (tok :: toks)
termination_by cs.length
decreasing_by
  · simp
  · have := length_lexeme _h
    simp only [List.length_cons] at *
    omega

/-- The number of bytes of a text. -/
def byteLength (cs : List Char) : Nat :=
  cs.foldr (fun c length => c.utf8Size + length) 0

/-- **The tokens of a text.** -/
def scan (cs : List Char) : Except ScanFault (List Token) :=
  match scanFrom cs with
  | .ok toks => .ok toks
  | .error (cause, rest) => .error ⟨cause, byteLength cs - byteLength rest⟩

/-! ## Operators -/

/-- **The operators between two operands**: how tightly each binds, and the function that it calls. -/
def binary? : Token → Option (Nat × String)
  | .or => some (1, "Or")
  | .xor => some (2, "Xor")
  | .and => some (3, "And")
  | .equalTo => some (4, "EqualTo")
  | .notEqualTo => some (4, "NotEqualTo")
  | .greaterThan => some (5, "GreaterThan")
  | .greaterThanOrEqualTo => some (5, "GreaterThanOrEqualTo")
  | .lessThan => some (5, "LessThan")
  | .lessThanOrEqualTo => some (5, "LessThanOrEqualTo")
  | .plus => some (6, "Add")
  | .minus => some (6, "Minus")
  | .star => some (7, "Multiply")
  | .slash => some (7, "Divide")
  | .percent => some (7, "Modulo")
  | _ => none

end Token

end Dialogue
