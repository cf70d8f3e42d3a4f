import Dialogue.Text.Hidden

/-!
# Quoted text

A text shown inside a message stands between quotes. The quote itself, the backslash and the five controls with a name
of their own are written with a backslash; any other hidden character is written as `\u` with its number in braces.

* `quotedWith_of_plain`: a text of ordinary characters is quoted as it is.
-/

namespace Dialogue.Text

/-- The spelling of one character between quotes of the given kind. -/
def spell (quote c : Char) : List Char :=
  if c = '\x00' then ['\\', '0']
  else if c = '\t' then ['\\', 't']
  else if c = '\n' then ['\\', 'n']
  else if c = '\r' then ['\\', 'r']
  else if c = '\\' then ['\\', '\\']
  else if c = quote then ['\\', quote]
  else if isHidden c then ['\\', 'u', '\x7b'] ++ Nat.toDigits 16 c.toNat ++ ['\x7d']
  else [c]

/-- **A text between quotes.** -/
def quotedWith (quote : Char) (cs : List Char) : List Char :=
  quote :: cs.flatMap (spell quote) ++ [quote]

/-- A string between double quotes. -/
def quoted (s : String) : String :=
  String.ofList (quotedWith '"' s.toList)

/-- A character between single quotes. -/
def quotedChar (c : Char) : String :=
  String.ofList (quotedWith '\'' [c])

/-! ## Laws -/

/-- An ordinary character is spelt as itself. -/
theorem spell_of_plain {quote c : Char} (hq : c ≠ quote) (hb : c ≠ '\\') (h : 0x20 ≤ c.toNat) (h' : c.toNat < 0x7F) :
    spell quote c = [c] := by
  have hc : ∀ d : Char, d.toNat < 0x20 → c ≠ d := fun d hd he => by subst he; omega
  simp [spell, hq, hb, hc '\x00' (by decide), hc '\t' (by decide), hc '\n' (by decide), hc '\r' (by decide),
    not_isHidden_of_ascii h h']

theorem quotedWith_of_plain {quote : Char} {cs : List Char}
    (h : ∀ c ∈ cs, c ≠ quote ∧ c ≠ '\\' ∧ 0x20 ≤ c.toNat ∧ c.toNat < 0x7F) :
    quotedWith quote cs = quote :: cs ++ [quote] := by
  have : cs.flatMap (spell quote) = cs := by
    induction cs with
    | nil => rfl
    | cons c r ih =>
      obtain ⟨hq, hb, h1, h2⟩ := h c (by simp)
      simp [spell_of_plain hq hb h1 h2, ih fun d hd => h d (by simp [hd])]
  simp [quotedWith, this]

end Dialogue.Text
