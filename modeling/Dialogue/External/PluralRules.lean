import Dialogue.Plural.Basic

/-!
# A library of plural rules

The rules of sixteen languages, for the command to give to its sessions. Nothing else in the program knows them.

Rules look at how a number is written: at its integer part, at how many decimals it has, and at the decimals themselves.
The sign does not count, and neither do zeros at the end of the decimals. In each rule the first condition that holds
decides, and `other` is what is left. A locale names a language and maybe a script, a region and variants, as parts
between `-` or `_`; letters count in any case.

* `i_ofBinary`: the integer part is that of the number, not of its shortest numeral.
-/

namespace Dialogue.External

open Number Plural

/-! ## Operands -/

/-- **What plural rules see of a number.** -/
structure Operands where
  /-- The integer part. -/
  i : Nat
  /-- The number of decimals. -/
  v : Nat
  /-- The decimals, read as a number. -/
  f : Nat
  /-- The integer part again, when the number is a whole one. -/
  n : Option Nat
deriving DecidableEq, Repr

namespace Operands

/-- The largest integer part there is. -/
def limit : Nat := Text.wordLimit - 1

/-- **The operands of a number.** The integer part is exact; the decimals are those of the shortest numeral. -/
def ofBinary (b : Binary) : Operands :=
  let i := b.whole double limit
  match b.toNumeral double with
  | .finite _ digits exponent =>
    if 0 ≤ exponent then ⟨i, 0, 0, some i⟩
    else ⟨i, (-exponent).toNat, digits % Nat.pow 10 (-exponent).toNat, none⟩
  | .infinite _ | .nan => ⟨i, 0, 0, none⟩

theorem i_ofBinary (b : Binary) : (ofBinary b).i = b.whole double limit := by
  unfold ofBinary
  dsimp only
  split
  · split <;> rfl
  · rfl
  · rfl

end Operands

/-! ## Languages -/

/-- **The languages with rules.** -/
inductive Language where
  | arabic
  | danish
  | english
  | french
  | hebrew
  | irish
  | italian
  | japanese
  | latvian
  | lithuanian
  | macedonian
  | polish
  | russian
  | swedish
  | ukrainian
  | welsh
deriving DecidableEq, Repr

namespace Language

/-- The language of a code in small letters. -/
def ofCode? : String → Option Language
  | "ar" => some .arabic
  | "cy" => some .welsh
  | "da" => some .danish
  | "en" => some .english
  | "fr" => some .french
  | "ga" => some .irish
  | "he" => some .hebrew
  | "it" => some .italian
  | "ja" => some .japanese
  | "lt" => some .lithuanian
  | "lv" => some .latvian
  | "mk" => some .macedonian
  | "pl" => some .polish
  | "ru" => some .russian
  | "sv" => some .swedish
  | "uk" => some .ukrainian
  | _ => none

/-- The number lies between two others or equals one of them. -/
def between (low high n : Nat) : Bool := low ≤ n && n ≤ high

/-- The first category whose condition holds. -/
def firstOf (cases : List (Category × Bool)) : Category :=
  ((cases.find? Prod.snd).map Prod.fst).getD .other

/-- **The category of a number that counts.** -/
def cardinal (language : Language) (x : Operands) : Category :=
  let i := x.i
  let v := x.v
  let f := x.f
  let single := i = 1 && v = 0
  match language with
  | .english | .italian | .swedish => firstOf [(.one, single)]
  | .french => firstOf [(.one, i = 0 || i = 1)]
  | .polish => firstOf
      [(.few, v = 0 && between 2 4 (i % 10) && !between 12 14 (i % 100)),
       (.many, v = 0 && ((i ≠ 1 && between 0 1 (i % 10)) || between 5 9 (i % 10) || between 12 14 (i % 100))),
       (.one, single)]
  | .russian | .ukrainian => firstOf
      [(.few, v = 0 && between 2 4 (i % 10) && !between 12 14 (i % 100)),
       (.many, v = 0 && (i % 10 = 0 || between 5 9 (i % 10) || between 11 14 (i % 100))),
       (.one, v = 0 && i % 10 = 1 && i % 100 ≠ 11)]
  | .arabic => firstOf
      [(.few, between 3 10 i), (.many, between 11 99 i), (.one, x.n = some 1), (.two, x.n = some 2),
       (.zero, x.n = some 0)]
  | .japanese => .other
  | .welsh => firstOf
      [(.few, x.n = some 3), (.many, x.n = some 6), (.one, x.n = some 1), (.two, x.n = some 2), (.zero, x.n = some 0)]
  | .irish => firstOf
      [(.few, between 3 6 i && f = 0), (.many, between 7 10 i && f = 0), (.one, x.n = some 1), (.two, x.n = some 2)]
  | .lithuanian => firstOf
      [(.few, between 2 9 i), (.many, f ≠ 0), (.one, i % 10 = 1 && !between 11 19 i)]
  | .hebrew => firstOf
      [(.many, v = 0 && !between 0 10 i && f = 0 && i % 10 = 0), (.one, single), (.two, i = 2 && v = 0)]
  | .danish => firstOf [(.one, x.n = some 1 || (f ≠ 0 && (i = 0 || i = 1)))]
  | .latvian => firstOf
      [(.one, (i % 10 = 1 && i % 100 ≠ 11) || (v = 2 && f % 10 = 1 && f % 100 ≠ 11) || (v ≠ 2 && f % 10 = 1)),
       (.zero, i % 10 = 0 || between 11 19 i || (v = 2 && between 11 19 (f % 100)))]
  | .macedonian => firstOf
      [(.one, (v = 0 && i % 10 = 1 && i % 100 ≠ 11) || (f % 10 = 1 && f % 100 ≠ 11))]

/-- **The category of a number that orders.** -/
def ordinal (language : Language) (x : Operands) : Category :=
  let i := x.i
  match language with
  | .english => firstOf
      [(.few, i % 10 = 3 && i % 100 ≠ 13), (.one, i % 10 = 1 && i % 100 ≠ 11), (.two, i % 10 = 2 && i % 100 ≠ 12)]
  | .italian => firstOf [(.many, [8, 11, 80, 800].any fun n => x.n = some n)]
  | .swedish => firstOf [(.one, (i % 10 = 1 || i % 10 = 2) && i % 100 ≠ 11 && i % 100 ≠ 12)]
  | .french | .irish => firstOf [(.one, x.n = some 1)]
  | .ukrainian => firstOf [(.few, i % 10 = 3 && i % 100 ≠ 13)]
  | .welsh => firstOf
      [(.few, x.n = some 3 || x.n = some 4), (.many, x.n = some 5 || x.n = some 6), (.one, x.n = some 1),
       (.two, x.n = some 2), (.zero, [0, 7, 8, 9].any fun n => x.n = some n)]
  | .macedonian => firstOf
      [(.many, (i % 10 = 7 || i % 10 = 8) && i % 100 ≠ 17 && i % 100 ≠ 18), (.one, i % 10 = 1 && i % 100 ≠ 11),
       (.two, i % 10 = 2 && i % 100 ≠ 12)]
  | .polish | .russian | .arabic | .japanese | .lithuanian | .hebrew | .danish | .latvian => .other

/-- The rule for a use. -/
def rule (language : Language) : Use → Rule
  | .cardinal => fun number => .ok (language.cardinal (.ofBinary number))
  | .ordinal => fun number => .ok (language.ordinal (.ofBinary number))

end Language

/-! ## Locales -/

/-- **The parts of a locale.** -/
structure Locale where
  language : String
  script : Option String := none
  region : Option String := none
  variants : List String := []
deriving DecidableEq, Repr

namespace Locale

/-- A language has two to eight letters, but not four. -/
def isLanguage (part : List Char) : Bool :=
  2 ≤ part.length && part.length ≤ 8 && part.length ≠ 4 && part.all Char.isAlpha

/-- A script has four letters. -/
def isScript (part : List Char) : Bool :=
  part.length = 4 && part.all Char.isAlpha

/-- A region has two letters or three digits. -/
def isRegion (part : List Char) : Bool :=
  (part.length = 2 && part.all Char.isAlpha) || (part.length = 3 && part.all Char.isDigit)

/-- The characters that a part may hold at all: ASCII without the null character. -/
def isPlain (c : Char) : Bool := 0 < c.toNat && c.toNat < 0x80

/-- **A variant** has five to eight letters or digits, or it has four plain characters: then either the first is a digit,
or those after it are letters and digits. -/
def isVariant (part : List Char) : Bool :=
  if part.length = 4 then part.all isPlain && (part.head?.any Char.isDigit || part.tail.all Char.isAlphanum)
  else 5 ≤ part.length && part.length ≤ 8 && part.all Char.isAlphanum

/-- A part in small letters. -/
def lower (part : List Char) : String :=
  .ofList (part.map Char.toLower)

/-- Takes the first part as an optional one, when it can be. -/
def takeOption (is : List Char → Bool) : List (List Char) → Option String × List (List Char)
  | part :: rest => if is part then (some (lower part), rest) else (none, part :: rest)
  | [] => (none, [])

/-- **The parts of a text that is a locale.** -/
def parse? (cs : List Char) : Option Locale :=
  match cs.splitOnP fun c => c = '-' || c = '_' with
  | [] => none
  | language :: rest =>
    let (script, rest) := takeOption isScript rest
    let (region, rest) := takeOption isRegion rest
    if isLanguage language && rest.all isVariant then
      some { language := lower language, script, region, variants := rest.map lower }
    else none

/-- **The language that the locale is**, when it has rules. A script, a region or a variant leaves it without. -/
def language? (locale : Locale) : Option Language :=
  if locale.script.isNone && locale.region.isNone && locale.variants.isEmpty then Language.ofCode? locale.language
  else none

end Locale

/-- **The library.** A locale that is no bare language of the sixteen has no rules. -/
def pluralRules : Plural.Rules where
  locale? text := (Locale.parse? text.toList).map fun locale use =>
    match locale.language? with
    | some language => .ok (language.rule use)
    | none => .error "unknown locale"

end Dialogue.External
