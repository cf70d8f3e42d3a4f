/-!
# Cutting a text at a mark

`cut? mark cs` splits at the first occurrence of `mark` and `cutLast? mark cs` at the last; the mark itself is in
neither part. Replacing is cutting and joining.

* `dropPrefix?_eq_some_iff`: exactly a text that starts with the mark has a rest after it.
* `eq_of_cut?_eq_some`, `eq_of_cutLast?_eq_some`: the parts and the mark give the text back.
-/

namespace Dialogue.Text

/-- **The text after the mark**, when the mark starts it. -/
def dropPrefix? : (mark cs : List Char) → Option (List Char)
  | [], cs => some cs
  | _ :: _, [] => none
  | m :: mark, c :: cs => if m = c then dropPrefix? mark cs else none

/-- **Cuts at the first occurrence of the mark.** -/
def cut? (mark : List Char) : List Char → Option (List Char × List Char)
  | [] => none
  | c :: r =>
    match dropPrefix? mark (c :: r) with
    | some rest => some ([], rest)
    | none => (cut? mark r).map fun (before, after) => (c :: before, after)

/-- **Cuts at the last occurrence of the mark.** -/
def cutLast? (mark : List Char) : List Char → Option (List Char × List Char)
  | [] => none
  | c :: r =>
    match cutLast? mark r with
    | some (before, after) => some (c :: before, after)
    | none => (dropPrefix? mark (c :: r)).map fun rest => ([], rest)

/-- The text before the mark, when the mark ends it. -/
def dropSuffix? (mark cs : List Char) : Option (List Char) :=
  (dropPrefix? mark.reverse cs.reverse).map List.reverse

/-- The first occurrence of the mark, if any, gives way to `new`. -/
def replaceFirst (mark new cs : List Char) : List Char :=
  match cut? mark cs with
  | some (before, after) => before ++ new ++ after
  | none => cs

/-! ## Laws -/

theorem dropPrefix?_eq_some_iff : ∀ {mark cs rest : List Char}, dropPrefix? mark cs = some rest ↔ cs = mark ++ rest
  | [], cs, rest => by simp [dropPrefix?]
  | _ :: _, [], rest => by simp [dropPrefix?]
  | m :: mark, c :: cs, rest => by
    by_cases hc : m = c
    · simp [dropPrefix?, hc, dropPrefix?_eq_some_iff]
    · simp [dropPrefix?, hc, Ne.symm hc]

theorem eq_of_cut?_eq_some {mark : List Char} : ∀ {cs before after : List Char},
    cut? mark cs = some (before, after) → cs = before ++ mark ++ after
  | [], _, _, h => by simp [cut?] at h
  | c :: r, before, after, h => by
    simp only [cut?] at h
    split at h
    · rename_i rest hp
      simp only [Option.some.injEq, Prod.mk.injEq] at h
      obtain ⟨rfl, rfl⟩ := h
      simpa using dropPrefix?_eq_some_iff.1 hp
    · obtain ⟨⟨b, a⟩, hr, he⟩ := Option.map_eq_some_iff.1 h
      simp only [Prod.mk.injEq] at he
      obtain ⟨rfl, rfl⟩ := he
      simp [eq_of_cut?_eq_some hr]

theorem eq_of_cutLast?_eq_some {mark : List Char} : ∀ {cs before after : List Char},
    cutLast? mark cs = some (before, after) → cs = before ++ mark ++ after
  | [], _, _, h => by simp [cutLast?] at h
  | c :: r, before, after, h => by
    simp only [cutLast?] at h
    split at h
    · rename_i b a hr
      simp only [Option.some.injEq, Prod.mk.injEq] at h
      obtain ⟨rfl, rfl⟩ := h
      simp [eq_of_cutLast?_eq_some hr]
    · obtain ⟨rest, hp, he⟩ := Option.map_eq_some_iff.1 h
      simp only [Prod.mk.injEq] at he
      obtain ⟨rfl, rfl⟩ := he
      simpa using dropPrefix?_eq_some_iff.1 hp

theorem length_of_cut?_eq_some {mark cs before after : List Char} (h : cut? mark cs = some (before, after)) :
    cs.length = before.length + mark.length + after.length := by
  simp [eq_of_cut?_eq_some h, Nat.add_assoc]

/-- **Every occurrence of the mark**, found from the left without overlap, gives way to `new`. An empty mark occurs
nowhere. -/
def replaceAll (mark new cs : List Char) : List Char :=
  if _hm : mark = [] then cs else
    match _h : cut? mark cs with
    | some (before, after) => before ++ new ++ replaceAll mark new after
    | none => cs
termination_by cs.length
decreasing_by
  have := length_of_cut?_eq_some _h
  have := List.length_pos_iff.2 _hm
  omega

end Dialogue.Text
