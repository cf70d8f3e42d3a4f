import Mathlib
import Dialogue.Expr.Token
import Dialogue.Text.Cut

/-!
# Texts in bytes

A text may be cut at a byte offset, unless that lies beyond its end or inside of a character (`splitAt?_eq_some_iff`), and
so the bytes between two offsets need not be a text (`slice?_eq_some_iff`). What is computed with such slices has a result
only if each of them is a text: `Sliced`.
-/

namespace Dialogue.Text

open Token (byteLength)

variable {cs a b c : List Char} {d : Char} {n start stop : Nat}

/-! ## Byte offsets -/

@[simp] theorem byteLength_nil : byteLength [] = 0 := rfl

@[simp] theorem byteLength_cons (d : Char) (cs : List Char) : byteLength (d :: cs) = d.utf8Size + byteLength cs := rfl

@[simp] theorem byteLength_append (a b : List Char) : byteLength (a ++ b) = byteLength a + byteLength b := by
  induction a with
  | nil => simp
  | cons d a ih => simp [ih, Nat.add_assoc]

theorem byteLength_eq_zero : byteLength cs = 0 ↔ cs = [] := by
  cases cs with
  | nil => simp
  | cons d cs =>
    have := d.utf8Size_pos
    simp only [byteLength_cons, reduceCtorEq, iff_false]
    omega

/-- Only ASCII characters take one byte. -/
theorem one_lt_utf8Size_iff : 1 < d.utf8Size ↔ 128 ≤ d.toNat := by
  have hle : d.val ≤ 127 ↔ d.toNat ≤ 127 := UInt32.le_iff_toNat_le
  unfold Char.utf8Size
  dsimp only
  split_ifs with h₁ h₂ h₃
  · have := hle.1 h₁
    omega
  all_goals
    have := mt hle.2 h₁
    omega

/-- **Cuts a text at a byte offset**, unless that lies beyond its end or inside of a character. -/
def splitAt? : List Char → Nat → Option (List Char × List Char)
  | cs, 0 => some ([], cs)
  | [], _ + 1 => none
  | c :: cs, n + 1 =>
    if c.utf8Size ≤ n + 1 then (splitAt? cs (n + 1 - c.utf8Size)).map fun (a, b) => (c :: a, b) else none

theorem splitAt?_eq_some_iff : splitAt? cs n = some (a, b) ↔ cs = a ++ b ∧ byteLength a = n := by
  induction cs, n using splitAt?.induct generalizing a with
  | case1 cs =>
    simp only [splitAt?, Option.some.injEq, Prod.mk.injEq, byteLength_eq_zero]
    constructor
    · rintro ⟨rfl, rfl⟩
      exact ⟨rfl, rfl⟩
    · rintro ⟨rfl, rfl⟩
      exact ⟨rfl, rfl⟩
  | case2 n =>
    simp only [splitAt?, reduceCtorEq, List.nil_eq, List.append_eq_nil_iff, false_iff, not_and]
    rintro ⟨rfl, rfl⟩
    simp
  | case3 c cs n hle ih =>
    rw [splitAt?, if_pos hle, Option.map_eq_some_iff]
    constructor
    · rintro ⟨⟨a', b'⟩, hsplit, heq⟩
      obtain ⟨rfl, rfl⟩ := Prod.mk.inj heq
      obtain ⟨rfl, hlength⟩ := ih.1 hsplit
      refine ⟨rfl, ?_⟩
      rw [byteLength_cons]
      omega
    · rintro ⟨happend, hlength⟩
      cases a with
      | nil => simp at hlength
      | cons c' a =>
        rw [List.cons_append, List.cons.injEq] at happend
        obtain ⟨rfl, rfl⟩ := happend
        rw [byteLength_cons] at hlength
        exact ⟨(a, b), ih.2 ⟨rfl, by omega⟩, rfl⟩
  | case4 c cs n hle =>
    rw [splitAt?, if_neg hle]
    simp only [reduceCtorEq, false_iff, not_and]
    intro happend hlength
    cases a with
    | nil => simp at hlength
    | cons c' a =>
      rw [List.cons_append, List.cons.injEq] at happend
      obtain ⟨rfl, rfl⟩ := happend
      rw [byteLength_cons] at hlength
      omega

/-- **The characters between two byte offsets**, if the text can be cut at both and they are in order. -/
def slice? (cs : List Char) (start stop : Nat) : Option (List Char) :=
  if start ≤ stop then
    match splitAt? cs start with
    | some (_, rest) => (splitAt? rest (stop - start)).map Prod.fst
    | none => none
  else none

theorem slice?_eq_some_iff : slice? cs start stop = some b ↔
    ∃ a c, cs = a ++ b ++ c ∧ byteLength a = start ∧ byteLength a + byteLength b = stop := by
  unfold slice?
  constructor
  · intro h
    split_ifs at h with hle
    split at h
    · rename_i a rest hsplit
      obtain ⟨⟨b', c⟩, hrest, hb⟩ := Option.map_eq_some_iff.1 h
      dsimp only at hb
      subst hb
      obtain ⟨rfl, rfl⟩ := splitAt?_eq_some_iff.1 hsplit
      obtain ⟨rfl, hlength⟩ := splitAt?_eq_some_iff.1 hrest
      exact ⟨a, c, (List.append_assoc ..).symm, rfl, by omega⟩
    · cases h
  · rintro ⟨a, c, rfl, rfl, rfl⟩
    have hfirst : splitAt? (a ++ b ++ c) (byteLength a) = some (a, b ++ c) :=
      splitAt?_eq_some_iff.2 ⟨List.append_assoc .., rfl⟩
    have hrest : splitAt? (b ++ c) (byteLength a + byteLength b - byteLength a) = some (b, c) :=
      splitAt?_eq_some_iff.2 ⟨rfl, by omega⟩
    rw [if_pos (Nat.le_add_right ..), hfirst]
    simp only [hrest, Option.map_some]

/-! ## Searching -/

/-- The offset of the first occurrence of a mark. -/
def find? (mark cs : List Char) : Option Nat :=
  (cut? mark cs).map fun (before, _) => byteLength before

/-- The offset of the last occurrence of a mark. -/
def rfind? (mark cs : List Char) : Option Nat :=
  (cutLast? mark cs).map fun (before, _) => byteLength before

/-- The offset of the first blank. -/
def findBlank? (cs : List Char) : Option Nat :=
  if cs.all (!isBlank ·) then none else some (byteLength (cs.takeWhile (!isBlank ·)))

/-- The offset of the last blank. -/
def rfindBlank? (cs : List Char) : Option Nat :=
  match cs.reverse.dropWhile (!isBlank ·) with
  | [] => none
  | _ :: before => some (byteLength before.reverse)

theorem find?_eq_none {mark : List Char} (h : cut? mark cs = none) : find? mark cs = none := by
  rw [find?, h, Option.map_none]

theorem find?_eq_some {mark : List Char} (h : cut? mark cs = some (a, b)) : find? mark cs = some (byteLength a) := by
  rw [find?, h, Option.map_some]

theorem rfind?_eq_none {mark : List Char} (h : cutLast? mark cs = none) : rfind? mark cs = none := by
  rw [rfind?, h, Option.map_none]

theorem rfind?_eq_some {mark : List Char} (h : cutLast? mark cs = some (a, b)) :
    rfind? mark cs = some (byteLength a) := by
  rw [rfind?, h, Option.map_some]

/-- A mark does not begin with a character that is not its first. -/
theorem cut?_append_of_notMem {m : Char} {mark : List Char} (h : m ∉ a) : cut? (m :: mark) (a ++ cs) =
    (cut? (m :: mark) cs).map fun (before, after) => (a ++ before, after) := by
  induction a with
  | nil => simp
  | cons d a ih =>
    rw [List.mem_cons, not_or] at h
    rw [List.cons_append, cut?, dropPrefix?, if_neg h.1, ih h.2, Option.map_map]
    rfl

section Pairs

/-! A mark, and the first other mark behind it. -/

variable {opening mark before after inside rest : List Char} {m : Char}

theorem eq_of_cut?_of_cut? (h : cut? opening cs = some (before, after)) (h' : cut? mark after = some (inside, rest)) :
    cs = before ++ opening ++ inside ++ mark ++ rest := by
  rw [eq_of_cut?_eq_some h, eq_of_cut?_eq_some h']
  simp only [List.append_assoc]

/-- The other mark is found from the first one on, too. -/
theorem find?_marked (hm : m ∉ opening) (h : cut? (m :: mark) after = some (inside, rest)) :
    find? (m :: mark) (opening ++ inside ++ m :: mark ++ rest) = some (byteLength (opening ++ inside)) := by
  refine find?_eq_some (b := rest) ?_
  rw [eq_of_cut?_eq_some h] at h
  rw [List.append_assoc, List.append_assoc, cut?_append_of_notMem hm, ← List.append_assoc, h, Option.map_some]

theorem find?_unmarked (hm : m ∉ opening) (h : cut? (m :: mark) after = none) :
    find? (m :: mark) (opening ++ after) = none := by
  refine find?_eq_none ?_
  rw [cut?_append_of_notMem hm, h, Option.map_none]

end Pairs

/-! ## Slices -/

/-- Where a text is sliced. -/
inductive Site where
  /-- The angle brackets of a command. -/
  | command
  | keyword
  | tags
  /-- The arrow of an option. -/
  | arrow
  /-- The condition of an option. -/
  | condition
  | link
  /-- The braces of an expression in a text. -/
  | braces
  | token
deriving DecidableEq, Repr

/-- **A slice that is no text.** -/
structure BadSlice where
  site : Site
  text : List Char
  start : Nat
  stop : Nat

/-- **What is computed unless a slice is no text.** -/
abbrev Sliced (α : Type) := Except BadSlice α

namespace Sliced

/-- **The slice between two offsets.** -/
def slice (site : Site) (cs : List Char) (start stop : Nat) : Sliced (List Char) :=
  match slice? cs start stop with
  | some inside => .ok inside
  | none => .error ⟨site, cs, start, stop⟩

/-- **The slices up to an offset and from it on.** -/
def cutAt (site : Site) (cs : List Char) (n : Nat) :
    Sliced { p : List Char × List Char // cs = p.1 ++ p.2 ∧ byteLength p.1 = n } :=
  match h : splitAt? cs n with
  | some (a, b) => .ok ⟨(a, b), splitAt?_eq_some_iff.1 h⟩
  | none => .error ⟨site, cs, n, byteLength cs⟩

theorem ok_bind {α β : Type} (x : α) (f : α → Sliced β) : (Except.ok x >>= f) = f x := rfl

theorem slice_eq (site : Site) (hcs : cs = a ++ b ++ c) (hstart : byteLength a = start)
    (hstop : byteLength a + byteLength b = stop) : slice site cs start stop = .ok b := by
  rw [slice, slice?_eq_some_iff.2 ⟨a, c, hcs, hstart, hstop⟩]

theorem cutAt_eq (site : Site) (hcs : cs = a ++ b) (hn : byteLength a = n) :
    cutAt site cs n = .ok ⟨(a, b), hcs, hn⟩ := by
  unfold cutAt
  have hsplit := splitAt?_eq_some_iff.2 ⟨hcs, hn⟩
  split
  · rename_i heq
    rw [hsplit] at heq
    cases heq
    rfl
  · rename_i heq
    rw [hsplit] at heq
    cases heq

section Marks

/-! A text between two marks, by the offset of the first mark and that of the second from there. -/

variable {before opening inside closing rest : List Char} (site : Site)

theorem slice_inside (hcs : cs = before ++ opening ++ inside ++ closing ++ rest) (hn : byteLength opening = n) :
    slice site cs (byteLength before + n) (byteLength before + byteLength (opening ++ inside)) = .ok inside := by
  refine slice_eq (a := before ++ opening) (c := closing ++ rest) site ?_ ?_ ?_
  · rw [hcs, List.append_assoc]
  · rw [byteLength_append, hn]
  · rw [byteLength_append, byteLength_append, Nat.add_assoc]

theorem slice_marked (hcs : cs = before ++ opening ++ inside ++ closing ++ rest) (hn : byteLength closing = n) :
    slice site cs (byteLength before) (byteLength before + byteLength (opening ++ inside) + n) =
      .ok (opening ++ inside ++ closing) := by
  refine slice_eq (a := before) (c := rest) site ?_ rfl ?_
  · simp only [hcs, List.append_assoc]
  · rw [byteLength_append _ closing, hn, Nat.add_assoc]

theorem cutAt_marked (hcs : cs = before ++ opening ++ inside ++ closing ++ rest) (hn : byteLength closing = n) :
    ∃ h, cutAt site cs (byteLength before + byteLength (opening ++ inside) + n) =
      .ok ⟨(before ++ opening ++ inside ++ closing, rest), h⟩ :=
  ⟨_, cutAt_eq site hcs (by simp only [byteLength_append, ← hn, Nat.add_assoc])⟩

end Marks

/-- **Inside of a character a text cannot be cut.** -/
theorem cutAt_inside (site : Site) (hd : 1 < d.utf8Size) (hcs : cs = a ++ d :: b) (hn : byteLength a + 1 = n) :
    ∃ bad, cutAt site cs n = .error bad ∧ bad.site = site := by
  unfold cutAt
  split
  · rename_i x y hsplit
    obtain ⟨happend, hlength⟩ := splitAt?_eq_some_iff.1 hsplit
    rw [hcs, List.append_eq_append_iff] at happend
    rcases happend with ⟨rest, rfl, hrest⟩ | ⟨rest, rfl, -⟩
    · rw [byteLength_append] at hlength
      cases rest with
      | nil =>
        rw [byteLength_nil] at hlength
        omega
      | cons e rest =>
        cases hrest
        rw [byteLength_cons] at hlength
        omega
    · rw [byteLength_append] at hn
      omega
  · exact ⟨_, rfl, rfl⟩

end Sliced

end Dialogue.Text
