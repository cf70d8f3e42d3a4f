import Dialogue.Number.Basic
import Dialogue.Text.Blank

/-!
# Values

What a variable holds, what an expression yields and what a function takes. Operators convert between the kinds: a
string on either side of `+` or of a comparison makes it one of texts, the other arithmetic takes numbers and `null`.

* `equals_iff`: two values are equal when they compare as equal.
* `compare?_null_number`: `null` compares as the number zero.
-/

namespace Dialogue

/-- **The kinds of values.** -/
inductive Kind where
  | string
  | bool
  | number
  | null
deriving DecidableEq, Repr

namespace Kind

/-- The name of a kind, in saved variables and in messages. -/
def name : Kind → String
  | .string => "string"
  | .bool => "bool"
  | .number => "number"
  | .null => "null"

/-- The kind of a given name. -/
def ofName? : String → Option Kind
  | "string" => some .string
  | "bool" => some .bool
  | "number" => some .number
  | "null" => some .null
  | _ => none

@[simp] theorem ofName?_name (k : Kind) : ofName? k.name = some k := by
  cases k <;> rfl

end Kind

/-- **A value of a script.** -/
inductive Value where
  | string (s : String)
  | bool (b : Bool)
  | number (x : Float32)
  | null
deriving DecidableEq, Inhabited

namespace Value

/-- The kind of a value. -/
def kind : Value → Kind
  | .string _ => .string
  | .bool _ => .bool
  | .number _ => .number
  | .null => .null

/-! ## Conversions -/

/-- **The value as text.** -/
def text : Value → String
  | .string s => s
  | .number x => Number.text x
  | .bool true => "True"
  | .bool false => "False"
  | .null => "null"

/-- **The value as a number.** A string is read as one, blanks around it apart; where that fails it counts as zero. -/
def toNumber : Value → Float32
  | .string s => (Number.parse? (Text.trim s.toList)).getD 0
  | .number x => x
  | .bool true => 1
  | .bool false => 0
  | .null => 0

/-- **The value as a condition**: strings that are not empty and numbers other than zero hold. -/
def isTrue : Value → Bool
  | .string s => !s.isEmpty
  | .bool b => b
  | .number x => Number.isTrue x
  | .null => false

/-- The value of a number of double precision. -/
def ofDouble (b : Number.Binary) : Value :=
  .number (Number.ofDouble b)

/-! ## Arithmetic -/

/-- An operation of two numbers, of which one may be `null`. -/
def arith? (op : Float32 → Float32 → Float32) : Value → Value → Option Value
  | .number x, .number y => some (.number (op x y))
  | .number x, .null => some (.number (op x 0))
  | .null, .number y => some (.number (op 0 y))
  | _, _ => none

/-- **Sum, or texts joined.** A number takes any value that is no string as its other side, two truth values add up, and
so do two `null`s. -/
def add? : Value → Value → Option Value
  | .string s, b => some (.string (s ++ b.text))
  | a, .string t => some (.string (a.text ++ t))
  | .number x, b => some (.number (x + b.toNumber))
  | a, .number y => some (.number (a.toNumber + y))
  | .bool a, .bool b => some (.number ((Value.bool a).toNumber + (Value.bool b).toNumber))
  | .null, .null => some (.number (0 + 0))
  | .bool _, .null | .null, .bool _ => none

def sub? : Value → Value → Option Value := arith? (· - ·)

def mul? : Value → Value → Option Value := arith? (· * ·)

def div? : Value → Value → Option Value := arith? (· / ·)

/-- The remainder of a division that rounds toward zero. -/
def mod? : Value → Value → Option Value := arith? Number.remainder

/-- The negative of a number. A blank string and `null` count as zero, anything else is no number. -/
def neg : Value → Value
  | .number x => .number (-x)
  | .string s => .number (if Text.allBlank s.toList then -0.0 else 0.0 / 0.0)
  | .null => .number (-0.0)
  | .bool _ => .number (0.0 / 0.0)

/-! ## Comparison -/

/-- **The order of two values**: that of their texts when one is a string, else that of their numbers. -/
def compare? : Value → Value → Option Ordering
  | .string s, b => some (compare s b.text)
  | a, .string t => some (compare a.text t)
  | a, b => Number.compare? a.toNumber b.toNumber

/-- Equality as scripts see it. -/
def equals (a b : Value) : Bool :=
  a.compare? b == some .eq

/-- **One kind and one content**, without conversion. Zero is its own negative, and what is no number differs from
itself. -/
def same : Value → Value → Bool
  | .string s, .string t => s == t
  | .bool a, .bool b => a == b
  | .number x, .number y => x == y
  | .null, .null => true
  | _, _ => false

/-! ## Laws -/

theorem equals_iff {a b : Value} : a.equals b ↔ a.compare? b = some .eq := by
  simp [equals]

theorem compare?_null_number (x : Float32) :
    compare? .null (.number x) = compare? (.number 0) (.number x) := rfl

end Value

end Dialogue
