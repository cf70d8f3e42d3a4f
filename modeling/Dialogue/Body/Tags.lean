import Dialogue.Text.Blank

/-!
# Tags

A line of dialogue may end in tags: words of `#` and at least one more character, each with blanks before it. They are
split off from the end, so a text keeps at least its first word.

A text in which the last blank before a possible tag is not an ASCII character has no split at all.

* `split`: the text before the tags, and the tags.
-/

namespace Dialogue

/-- **A text without a split**: its last blank takes more than one byte. -/
inductive TagFault where
  | wideBlank (c : Char)
deriving DecidableEq, Repr

namespace Tags

/-- A word that is a tag, without its `#`. -/
def tag? : List Char → Option (List Char)
  | '#' :: c :: rest => some (c :: rest)
  | _ => none

/-- **Splits tags off a reversed text** without blanks at its front. -/
def splitReversed (rev : List Char) : Except TagFault (List Char × List String) :=
  match _h : rev.dropWhile (!Text.isBlank ·) with
  | [] => .ok (rev, [])
  | c :: before =>
    if 1 < c.utf8Size then .error (.wideBlank c)
    else
      match tag? (rev.takeWhile (!Text.isBlank ·)).reverse with
      | none => .ok (rev, [])
      | some tag =>
        match splitReversed (Text.trimStart before) with
        | .error fault => .error fault
        | .ok (base, tags) => .ok (base, tags ++ [.ofList tag])
termination_by rev.length
decreasing_by
  have h₁ : (rev.dropWhile (!Text.isBlank ·)).length ≤ rev.length := (List.dropWhile_sublist _).length_le
  have h₂ := Text.length_trimStart_le before
  rw [_h] at h₁
  simp only [List.length_cons] at h₁
  omega

/-- **The text before the tags, and the tags in order.** -/
def split (cs : List Char) : Except TagFault (List Char × List String) :=
  match splitReversed (Text.trimStart cs.reverse) with
  | .error fault => .error fault
  | .ok (base, tags) => .ok (base.reverse, tags)

end Tags

end Dialogue
