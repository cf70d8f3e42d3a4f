import Mathlib
import Dialogue.Body.Template
import Dialogue.Proofs.Session.Fill
import Dialogue.Proofs.Text.Line

/-!
# Filled templates

A text with expressions in braces becomes a template, and with the values of the expressions that becomes a text again.
Each hole then has its own value, and each other piece of the text is filled in on its own (`Template.fill_ofText`).
That is as it is written, exactly unless braces that hold no expression end in a number in braces: that number is taken for a
hole (`Template.fill_eq_render_iff`).
-/

namespace Dialogue

namespace Template

open Fill

variable {cs : List Char} {values : List String} {vars : Variables}

/-- The piece is a hole. -/
def Piece.isHole : Piece → Bool
  | .braces inside => (Expr.parse inside).isOk
  | .literal _ | .unclosed _ => false

/-- **The pieces of a text with values in the holes**, the first one in the first hole, and `write` of all others. -/
def render (write : List Char → List Char) : List String → List Piece → List Char
  | _, [] => []
  | values, piece :: rest =>
    if piece.isHole then (values.headD "").toList ++ render write values.tail rest
    else write piece.toList ++ render write values rest

/-! ## Pieces -/

/-- A piece as it is cut. -/
def Piece.WellCut : Piece → Prop
  | .literal cs => '\x7b' ∉ cs
  | .braces inside => '\x7d' ∉ inside
  | .unclosed rest => '\x7d' ∉ rest

theorem wellCut_of_mem_pieces {piece : Piece} (h : piece ∈ pieces cs) : piece.WellCut := by
  fun_induction pieces cs with
  | case1 cs hcut =>
    cases List.mem_singleton.1 h
    exact Text.notMem_of_cut?_eq_none hcut
  | case2 cs before after hcut hcut' =>
    rcases List.mem_cons.1 h with rfl | h
    · exact Text.notMem_of_cut? hcut
    · cases List.mem_singleton.1 h
      exact Text.notMem_of_cut?_eq_none hcut'
  | case3 cs before after hcut inside rest hcut' ih =>
    rcases List.mem_cons.1 h with rfl | h
    · exact Text.notMem_of_cut? hcut
    · rcases List.mem_cons.1 h with rfl | h
      · exact Text.notMem_of_cut? hcut'
      · exact ih h

theorem Piece.isHole_of_ok {inside : List Char} {expr : Expr} (h : Expr.parse inside = .ok expr) :
    (Piece.braces inside).isHole = true := by
  rw [isHole, h]
  rfl

theorem Piece.isHole_of_error {inside : List Char} {fault : ExprFault} (h : Expr.parse inside = .error fault) :
    (Piece.braces inside).isHole = false := by
  rw [isHole, h]
  rfl

/-- The number of holes. -/
theorem length_holes_build (ps : List Piece) (i : Nat) : (build i ps).2.1.length = ps.countP Piece.isHole := by
  induction ps generalizing i with
  | nil => rfl
  | cons piece rest ih =>
    cases piece with
    | literal cs | unclosed cs => exact ih i
    | braces inside =>
      rw [build]
      cases hparse : Expr.parse inside with
      | ok expr =>
        rw [List.countP_cons_of_pos (Piece.isHole_of_ok hparse), ← ih (i + 1)]
        rfl
      | error fault =>
        rw [List.countP_cons_of_neg (by rw [Piece.isHole_of_error hparse]; decide), ← ih i]

/-- A number in braces gives way to its value. -/
theorem filled_marker {i : Nat} {value : String} (h : values[i]? = some value) (rest : List Char) :
    filled values vars (marker i ++ rest) = value.toList ++ filled values vars rest := by
  have hhole : hole? (Text.natText i ++ '\x7d' :: rest) = some (Text.natText i, rest) :=
    hole?_digits (Text.natText_ne_nil i) fun _ => Text.isDigit_of_mem_natText
  have hvalue : Nat.ofDigitChars 10 (Text.natText i) 0 = i := Nat.ofDigitChars_ten_toDigits
  have hmarker : marker i ++ rest = '\x7b' :: (Text.natText i ++ '\x7d' :: rest) := by simp [marker]
  rw [hmarker, filled, parts_hole hhole, List.flatMap_cons, Part.shown, hvalue, h]
  rfl

/-- **The template of pieces, filled in**: each hole takes its value, the other pieces are filled in on their own. -/
theorem filled_build (vars : Variables) (cs : List Char) (values : List String) (i : Nat)
    (hlength : values.length = i + (pieces cs).countP Piece.isHole) :
    filled values vars (build i (pieces cs)).1 = render (filled values vars) (values.drop i) (pieces cs) := by
  fun_induction pieces cs generalizing i with
  | case1 cs hcut =>
    show filled values vars (cs ++ []) = filled values vars cs ++ []
    rw [List.append_nil, List.append_nil]
  | case2 cs before after hcut hcut' =>
    show filled values vars (before ++ ('\x7b' :: after ++ [])) =
      filled values vars before ++ (filled values vars ('\x7b' :: after) ++ [])
    rw [List.append_nil, List.append_nil, filled_append (.inr (.inr rfl))]
  | case3 cs before after hcut inside rest hcut' ih =>
    show filled values vars (before ++ (build i (.braces inside :: pieces rest)).1) =
      filled values vars before ++ render (filled values vars) (values.drop i) (.braces inside :: pieces rest)
    rw [build, render]
    cases hparse : Expr.parse inside with
    | ok expr =>
      have hhole := Piece.isHole_of_ok hparse
      rw [List.countP_cons_of_neg Bool.false_ne_true, List.countP_cons_of_pos hhole] at hlength
      have hi : i < values.length := by omega
      rw [if_pos hhole, List.drop_eq_getElem_cons hi]
      show filled values vars (before ++ (marker i ++ (build (i + 1) (pieces rest)).1)) = _
      rw [filled_append (.inr (.inr rfl)), filled_marker (List.getElem?_eq_getElem hi), ih (i + 1) (by omega)]
      rfl
    | error fault =>
      have hhole := Piece.isHole_of_error hparse
      rw [List.countP_cons_of_neg Bool.false_ne_true, List.countP_cons_of_neg (by rw [hhole]; decide)] at hlength
      have hclosed : ('\x7b' :: inside ++ ['\x7d']).getLast? = some '\x7d' := List.getLast?_concat ..
      have hsplit : '\x7b' :: inside ++ '\x7d' :: (build i (pieces rest)).1 =
          ('\x7b' :: inside ++ ['\x7d']) ++ (build i (pieces rest)).1 := by simp
      rw [if_neg (by rw [hhole]; decide)]
      show filled values vars (before ++ ('\x7b' :: inside ++ '\x7d' :: (build i (pieces rest)).1)) = _
      rw [filled_append (.inr (.inr rfl)), hsplit, filled_append (.inr (.inl hclosed)), ih i hlength]
      rfl

/-- **A text filled in**: each hole has its value, and each other piece is filled in on its own. -/
theorem fill_ofText (hlength : values.length = (ofText cs).1.holes.length) :
    Fill.fill (ofText cs).1.text values vars = .ofList (render (filled values vars) values (pieces cs)) := by
  have hholes : (ofText cs).1.holes.length = (pieces cs).countP Piece.isHole := length_holes_build (pieces cs) 0
  have hfilled := filled_build vars cs values 0 (by rw [hlength, hholes, Nat.zero_add])
  rw [List.drop_zero] at hfilled
  rw [← hfilled, Fill.fill, show (ofText cs).1.text.toList = (build 0 (pieces cs)).1 from String.toList_ofList]
  rfl

/-! ## What is written -/

section Render

variable {f g : List Char → List Char} {ps : List Piece}

theorem render_congr (h : ∀ p ∈ ps, p.isHole = false → f p.toList = g p.toList) :
    render f values ps = render g values ps := by
  induction ps generalizing values with
  | nil => rfl
  | cons p rest ih =>
    have hrest := fun values => @ih values fun q hq => h q (List.mem_cons_of_mem p hq)
    rw [render, render]
    split
    · rw [hrest]
    · rename_i hhole
      rw [h p List.mem_cons_self (by simpa using hhole), hrest]

theorem length_render_le (h : ∀ cs, (f cs).length ≤ (g cs).length) :
    (render f values ps).length ≤ (render g values ps).length := by
  induction ps generalizing values with
  | nil => exact Nat.le_refl 0
  | cons p rest ih =>
    rw [render, render]
    split
    · rw [List.length_append, List.length_append]
      exact Nat.add_le_add_left ih _
    · rw [List.length_append, List.length_append]
      exact Nat.add_le_add (h p.toList) ih

/-- What one piece loses, the whole text loses. -/
theorem length_render_lt (h : ∀ cs, (f cs).length ≤ (g cs).length) {p : Piece} (hp : p ∈ ps) (hhole : p.isHole = false)
    (hlt : (f p.toList).length < (g p.toList).length) :
    (render f values ps).length < (render g values ps).length := by
  induction ps generalizing values with
  | nil => cases hp
  | cons q rest ih =>
    rw [render, render]
    rcases List.mem_cons.1 hp with rfl | hp
    · rw [if_neg (by rw [hhole]; decide), if_neg (by rw [hhole]; decide), List.length_append, List.length_append]
      exact Nat.add_lt_add_of_lt_of_le hlt (length_render_le h)
    · split
      · rw [List.length_append, List.length_append]
        exact Nat.add_lt_add_left (ih hp) _
      · rw [List.length_append, List.length_append]
        exact Nat.add_lt_add_of_le_of_lt (h q.toList) (ih hp)

end Render

/-- **The end of a text in braces reads as a hole** of a template with so many holes. -/
def ReadsAsHole (holes : Nat) (inside : List Char) : Prop :=
  ∃ before digits, '\x7b' :: inside = before ++ '\x7b' :: digits ∧ digits ≠ [] ∧
    (∀ d ∈ digits, d.isDigit = true) ∧ Nat.ofDigitChars 10 digits 0 < holes

theorem readsAsHole_iff {holes : Nat} {inside : List Char} (h : '\x7d' ∉ inside) : ReadsAsHole holes inside ↔
    ∃ digits, .hole digits ∈ parts ('\x7b' :: inside ++ ['\x7d']) ∧ Nat.ofDigitChars 10 digits 0 < holes := by
  constructor
  · rintro ⟨before, digits, heq, hne, hdigits, hlt⟩
    refine ⟨digits, ?_, hlt⟩
    have hnumber : parts ('\x7b' :: (digits ++ ['\x7d'])) = [.hole digits] := by
      rw [parts_hole (hole?_digits hne hdigits), parts]
    rw [heq, List.append_assoc, parts_append (.inr (.inr rfl))]
    exact List.mem_append_right _ (hnumber ▸ List.mem_singleton_self _)
  · rintro ⟨digits, hmem, hlt⟩
    obtain ⟨before, after, heq, hne, hdigits⟩ := exists_of_hole_mem_parts hmem
    have hinside : '\x7d' ∉ '\x7b' :: inside := by simpa using h
    obtain ⟨heq, -, -⟩ := (List.append_cons_inj_of_notMem hinside List.not_mem_nil).1 heq
    exact ⟨before, digits, heq, hne, hdigits, hlt⟩

/-- A piece without a hole is filled in as it is written, if no end of braces in it reads as one. -/
theorem filled_piece {piece : Piece} (hcut : piece.WellCut)
    (h : ∀ inside, piece = .braces inside → ¬ReadsAsHole values.length inside) :
    filled values vars piece.toList = literal vars piece.toList := by
  refine filled_eq_literal fun digits hmem => ?_
  cases piece with
  | literal cs =>
    obtain ⟨before, after, heq, -⟩ := exists_of_hole_mem_parts hmem
    refine absurd ?_ hcut
    rw [show cs = _ from heq]
    simp
  | unclosed rest =>
    obtain ⟨before, after, heq, -⟩ := exists_of_hole_mem_parts hmem
    have hclose : '\x7d' ∈ '\x7b' :: rest := by
      rw [show '\x7b' :: rest = _ from heq]
      simp
    exact absurd ((List.mem_cons.1 hclose).resolve_left (by decide)) hcut
  | braces inside =>
    exact Nat.le_of_not_lt fun hlt => h inside rfl ((readsAsHole_iff hcut).2 ⟨digits, hmem, hlt⟩)

/-- **A text is filled in as it is written, exactly unless the end of a text in braces that is no expression reads as a
hole.** -/
theorem fill_eq_render_iff (cs : List Char) :
    (∀ (vars : Variables) (values : List String), values.length = (ofText cs).1.holes.length →
      Fill.fill (ofText cs).1.text values vars = .ofList (render (literal vars) values (pieces cs))) ↔
    ∀ inside, .braces inside ∈ pieces cs → (Expr.parse inside).isOk = false →
      ¬ReadsAsHole (ofText cs).1.holes.length inside := by
  constructor
  · intro h inside hmem hbad hreads
    have hcut : '\x7d' ∉ inside := wellCut_of_mem_pieces hmem
    obtain ⟨digits, hdigits, hlt⟩ := (readsAsHole_iff hcut).1 hreads
    generalize hempty : List.replicate (ofText cs).1.holes.length "" = values
    have hlength : values.length = (ofText cs).1.holes.length := by rw [← hempty, List.length_replicate]
    have heq := (fill_ofText hlength).symm.trans (h ∅ values hlength)
    have hle : ∀ text, (filled values ∅ text).length ≤ (literal ∅ text).length := fun text => by
      rw [literal_empty, ← hempty]
      exact length_filled_le text
    have hshorter : (filled values ∅ (Piece.braces inside).toList).length <
        (literal ∅ (Piece.braces inside).toList).length := by
      rw [literal_empty, ← hempty]
      exact length_filled_lt hdigits hlt
    have hlost : (render (filled values ∅) values (pieces cs)).length <
        (render (literal ∅) values (pieces cs)).length := length_render_lt hle hmem hbad hshorter
    rw [String.ofList_injective heq] at hlost
    exact Nat.lt_irrefl _ hlost
  · intro h vars values hlength
    rw [fill_ofText hlength]
    congr 1
    refine render_congr fun piece hpiece hhole => filled_piece (wellCut_of_mem_pieces hpiece) ?_
    rintro inside rfl
    rw [hlength]
    exact h inside hpiece hhole

example : Fill.fill (ofText "\x7b\x7b0\x7d \x7b1 + 1\x7d".toList).1.text ["2"] ∅ = "\x7b2 2" := by decide +kernel

end Template

end Dialogue
