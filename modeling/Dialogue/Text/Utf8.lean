import Dialogue.Text.Integer

/-!
# Texts as bytes

Bytes are read as a text when they are one in UTF-8. Other bytes are a text up to the first character that is none, and
there some of them are wrong, or the bytes end inside a character.

* `ofBytes_toUTF8`: the bytes of a text are read as the text.
-/

namespace Dialogue.Text

/-- **Where bytes are no longer a text.** -/
structure Utf8Fault where
  /-- The number of bytes before. -/
  index : Nat
  /-- The number of bytes there that are wrong; the character at the end may only be incomplete. -/
  wrong : Option Nat
deriving DecidableEq, Repr

namespace Utf8Fault

def message (fault : Utf8Fault) : String :=
  match fault.wrong with
  | some count => "invalid utf-8 sequence of " ++ showNat count ++ " bytes from index " ++ showNat fault.index
  | none => "incomplete utf-8 byte sequence from index " ++ showNat fault.index

end Utf8Fault

/-- The ranges of the bytes behind the first one of a character, if a character begins with it. -/
def rangesBehind? (first : UInt8) : Option (List (UInt8 × UInt8)) :=
  let all := (0x80, 0xbf)
  if first < 0x80 then some []
  else if 0xc2 ≤ first && first ≤ 0xdf then some [all]
  else if first = 0xe0 then some [(0xa0, 0xbf), all]
  else if first = 0xed then some [(0x80, 0x9f), all]
  else if 0xe1 ≤ first && first ≤ 0xef then some [all, all]
  else if first = 0xf0 then some [(0x90, 0xbf), all, all]
  else if 0xf1 ≤ first && first ≤ 0xf3 then some [all, all, all]
  else if first = 0xf4 then some [(0x80, 0x8f), all, all]
  else none

/-- Counts bytes in ranges. Where one is out of its range, the count so far is the fault; where they end, there is
none. -/
def countBytes (count : Nat) : List (UInt8 × UInt8) → List UInt8 → Except (Option Nat) Nat
  | [], _ => .ok count
  | _ :: _, [] => .error none
  | (low, high) :: ranges, b :: rest =>
    if low ≤ b && b ≤ high then countBytes (count + 1) ranges rest else .error (some count)

/-- The number of bytes of the character that begins with a byte. -/
def characterSize (first : UInt8) (rest : List UInt8) : Except (Option Nat) Nat :=
  match rangesBehind? first with
  | none => .error (some 1)
  | some ranges => countBytes 1 ranges rest

/-- **Where bytes from an index on are no longer a text.** -/
def utf8Fault (index : Nat) : List UInt8 → Utf8Fault
  | [] => ⟨index, none⟩
  | first :: rest =>
    match characterSize first rest with
    | .error wrong => ⟨index, wrong⟩
    | .ok size => utf8Fault (index + size) (rest.drop (size - 1))
termination_by bytes => bytes.length
decreasing_by
  rw [List.length_drop, List.length_cons]
  omega

/-- **The text of bytes.** -/
def ofBytes (bytes : ByteArray) : Except Utf8Fault String :=
  match String.fromUTF8? bytes with
  | some text => .ok text
  | none => .error (utf8Fault 0 bytes.toList)

/-! ## Laws -/

theorem ofBytes_toUTF8 (text : String) : ofBytes text.toUTF8 = .ok text := by
  have hread : String.fromUTF8? text.toUTF8 = some text := by
    rw [String.toUTF8_eq_toByteArray, String.fromUTF8?, dif_pos text.isValidUTF8]
    rfl
  rw [ofBytes, hread]

end Dialogue.Text
