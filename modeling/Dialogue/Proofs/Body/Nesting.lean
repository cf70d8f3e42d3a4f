import Mathlib
import Dialogue.Proofs.Body.Grammar
import Dialogue.Proofs.Expr.Precedence

/-!
# Scripts that nest

A fault of nesting is reported exactly when the lines of a script are no block (`Body.parse_nests`). That a block is read
without such a fault is in the grammar; here is the other way round. Each extent ends at a line of its kind that is no
part of an option's body (`BodyLine.isExtent_extent`), so unless the reading reports that there is no such line, or that
one is left over, what it cut is a part of the grammar (`Body.formed`). No line reports anything about nesting by itself
(`Item.sound_of_read`).
-/

namespace Dialogue

/-! ## Where extents end -/

namespace BodyLine

/-- The depth and the shield after a line. -/
def depthPast (depth : Nat) (start : Option Nat) (line : BodyLine) : Nat :=
  if start.any (· < line.indent) then depth else depthAfter depth line.item

def shieldPast (start : Option Nat) (line : BodyLine) : Option Nat :=
  if start.any (· < line.indent) then start else line.shieldAfter

/-- The indent of the option whose body a line after these would belong to, if it were deeper. -/
def shield (start : Option Nat) (lines : List BodyLine) : Option Nat :=
  lines.foldl shieldPast start

variable {stop : Item → Bool}

theorem extent_step {depth : Nat} {start : Option Nat} {line : BodyLine} {rest : List BodyLine}
    (h : start.any (· < line.indent) = false → depth = 0 → stop line.item = false) :
    extent stop depth start (line :: rest) =
      (line :: (extent stop (line.depthPast depth start) (line.shieldPast start) rest).1,
        (extent stop (line.depthPast depth start) (line.shieldPast start) rest).2) := by
  cases hs : start.any (· < line.indent) with
  | true => rw [extent, depthPast, shieldPast, hs, if_pos rfl, if_pos rfl, if_pos rfl]
  | false =>
    rw [extent_of_unshielded (unshielded_cons hs), extent_cons (h hs), depthPast, shieldPast, hs, if_neg Bool.false_ne_true,
      if_neg Bool.false_ne_true]

/-- An extent ends at its first line, or passes it. -/
theorem ends_or_passes (stop : Item → Bool) (depth : Nat) (start : Option Nat) (line : BodyLine) :
    (start.any (· < line.indent) = false ∧ depth = 0 ∧ stop line.item = true) ∨
      (start.any (· < line.indent) = false → depth = 0 → stop line.item = false) := by
  by_cases h : start.any (· < line.indent) = false ∧ depth = 0 ∧ stop line.item = true
  · exact .inl h
  · refine .inr fun hs hd => ?_
    rw [← Bool.not_eq_true]
    exact fun hstop => h ⟨hs, hd, hstop⟩

/-- **What an extent is.** -/
structure IsExtent (stop : Item → Bool) (depth : Nat) (start : Option Nat) (lines inside outside : List BodyLine) :
    Prop where
  whole : lines = inside ++ outside
  /-- It ends at a line that meets `stop` and is no part of the body of an option in it. -/
  ends : ∀ next ∈ outside.head?, stop next.item = true ∧ (shield start inside).any (· < next.indent) = false
  /-- It does not end earlier when nothing comes after it. -/
  closed : extent stop depth start inside = (inside, [])
  /-- What ends at fewer lines goes on where it ends. -/
  goesOn : ∀ stop' : Item → Bool, (∀ item, stop' item = true → stop item = true) →
    extent stop' depth start lines = (inside ++ (extent stop' 0 none outside).1, (extent stop' 0 none outside).2)

theorem isExtent_extent (depth : Nat) (start : Option Nat) (lines : List BodyLine) :
    IsExtent stop depth start lines (extent stop depth start lines).1 (extent stop depth start lines).2 := by
  induction lines generalizing depth start with
  | nil => exact ⟨rfl, by simp [extent], rfl, fun _ _ => rfl⟩
  | cons line rest ih =>
    rcases ends_or_passes stop depth start line with ⟨hs, rfl, hstop⟩ | hline
    · rw [extent_of_unshielded (unshielded_cons hs), extent_stop hstop]
      refine ⟨rfl, ?_, rfl, ?_⟩
      · intro next hnext
        obtain rfl : line = next := by simpa using hnext
        exact ⟨hstop, hs⟩
      · intro stop' _
        rw [extent_of_unshielded (unshielded_cons hs)]
        rfl
    · have hrest := ih (line.depthPast depth start) (line.shieldPast start)
      rw [extent_step hline]
      refine ⟨?_, hrest.ends, ?_, ?_⟩
      · rw [List.cons_append, ← hrest.whole]
      · rw [extent_step hline, hrest.closed]
      · intro stop' hstop'
        have hline' : start.any (· < line.indent) = false → depth = 0 → stop' line.item = false := by
          intro hs hd
          rw [← Bool.not_eq_true]
          intro h'
          have hstop := hstop' _ h'
          rw [hline hs hd] at hstop
          cases hstop
        rw [extent_step hline', hrest.goesOn stop' hstop']
        rfl

section Whole

/-! Where lines are cut, none is lost. -/

variable {lines inside outside : List BodyLine} {indent : Nat}

theorem extent_whole {depth : Nat} {start : Option Nat} (h : extent stop depth start lines = (inside, outside)) :
    lines = inside ++ outside := by
  rw [(isExtent_extent depth start lines).whole, h]

theorem group_whole (h : group indent lines = (inside, outside)) : lines = inside ++ outside := by
  cases h
  exact List.takeWhile_append_dropWhile.symm

theorem deeper_whole (h : deeper indent lines = (inside, outside)) : lines = inside ++ outside := by
  cases h
  exact List.takeWhile_append_dropWhile.symm

end Whole

theorem shield_append (start : Option Nat) (lines lines' : List BodyLine) :
    shield start (lines ++ lines') = shield (shield start lines) lines' :=
  List.foldl_append

/-- Past a line that is no part of an option's body. -/
theorem shield_cons {start : Option Nat} {line : BodyLine} {rest : List BodyLine}
    (h : start.any (· < line.indent) = false) : shield start (line :: rest) = shield line.shieldAfter rest := by
  rw [shield, List.foldl_cons, shieldPast, if_neg (by rw [h]; exact Bool.false_ne_true), shield]

theorem shield_inGroup {indent : Nat} {lines : List BodyLine} (h : ∀ l ∈ lines, l.inGroup indent = true) :
    shield (some indent) lines = some indent := by
  induction lines with
  | nil => rfl
  | cons line rest ih =>
    have hrest := ih fun l hl => h l (List.mem_cons_of_mem _ hl)
    by_cases hd : indent < line.indent
    · rw [shield, List.foldl_cons, shieldPast, if_pos (by simpa using hd)]
      exact hrest
    · have hoption : line.isOptionAt indent = true := by
        simpa [inGroup, hd] using h line List.mem_cons_self
      obtain ⟨text, condition, tags, hitem, hindent⟩ := exists_of_isOptionAt hoption
      rw [shield_cons (by simpa using hd), shieldAfter, hitem]
      simp only [hindent]
      exact hrest

end BodyLine

namespace Body

open BodyLine

/-! ## What is formed -/

/-- No fault of nesting is reported. -/
def Nested (diagnostics : List Diagnostic) : Prop :=
  ∀ d ∈ diagnostics, d.fault.isStructural = false

theorem nested_append {ds ds' : List Diagnostic} : Nested (ds ++ ds') ↔ Nested ds ∧ Nested ds' :=
  List.forall_mem_append

/-- Lines that may come after the lines of a block: they start with a line that ends the block. -/
def Fits (lines after : List BodyLine) : Prop :=
  ∀ next ∈ after.head?, continues next.item = true ∧ (shield none lines).any (· < next.indent) = false

/-- Lines that are a block if nothing is reported about how they nest. -/
def Formed (lines : List BodyLine) : Prop :=
  ∀ after, Nested (Body.block lines).diagnostics → Fits lines after →
    ∃ statements, Forms (.block statements) (lines ++ after) after

theorem nested_of_append {α : Type} {a b : Parsed α} (h : Nested (a ++ b).diagnostics) :
    Nested a.diagnostics ∧ Nested b.diagnostics :=
  nested_append.1 h

/-- Where the lines that a test holds for end. -/
theorem exists_span (p : BodyLine → Bool) (lines : List BodyLine) : ∃ inside outside, lines = inside ++ outside ∧
    (∀ l ∈ inside, p l = true) ∧ ∀ l ∈ outside.head?, p l = false := by
  refine ⟨lines.takeWhile p, lines.dropWhile p, List.takeWhile_append_dropWhile.symm, ?_, ?_⟩
  · intro l hl
    exact List.mem_takeWhile_imp hl
  · intro l hl
    have h := List.head?_dropWhile_not p lines
    rw [Option.mem_def.1 hl] at h
    simpa using h

/-- What fits after lines fits after the last of them, if these are no part of an option's body. -/
theorem Fits.of_append (used : List BodyLine) {rest after : List BodyLine} (h : Fits (used ++ rest) after)
    (hrest : Unshielded (shield none used) rest) : Fits rest after := by
  intro next hnext
  obtain ⟨hcontinues, hshield⟩ := h next hnext
  refine ⟨hcontinues, ?_⟩
  cases rest with
  | nil => rfl
  | cons line rest =>
    rwa [shield_append, shield_cons (hrest line rfl)] at hshield

/-- A branch of a conditional that nothing closes ends at a line that opens the next branch. -/
theorem exists_branch_of_isExtent {lines inside outside : List BodyLine} {next : BodyLine}
    (h : IsExtent continues 0 none lines inside (next :: outside))
    (hwhole : extent closes 0 none lines = (lines, [])) :
    ∃ condition, next.item = .branch condition ∧ extent closes 0 none outside = (outside, []) := by
  obtain ⟨hnext, -⟩ := h.ends next rfl
  have hgoes := h.goesOn closes closes_imp
  rw [hwhole, h.whole] at hgoes
  cases hitem : next.item with
  | opening _ | option _ _ _ | plain _ => rw [hitem] at hnext; cases hnext
  | closing =>
    rw [extent_stop (by rw [hitem]; rfl)] at hgoes
    cases (Prod.ext_iff.1 hgoes).2
  | branch condition =>
    rw [extent_cons (by rw [hitem]; exact fun _ => rfl), shieldAfter, hitem] at hgoes
    obtain ⟨hinside, houtside⟩ := Prod.ext_iff.1 hgoes
    have hinside := List.append_cancel_left hinside
    exact ⟨condition, rfl, Prod.ext (List.cons.inj hinside).2.symm houtside.symm⟩

/-- The lines after the first line of a branch, up to the line that closes the conditional. -/
theorem forms_of_clauses (after : List BodyLine) {line close : BodyLine} {lines : List BodyLine}
    (hformed : ∀ inside : List BodyLine, inside.length ≤ lines.length → Formed inside)
    (hnested : Nested (Body.clauses (line :: lines)).diagnostics)
    (hwhole : extent closes 0 none lines = (lines, [])) (hclose : close.item = .closing)
    (hshield : (shield none lines).any (· < close.indent) = false) :
    ∃ clauses, Forms (.clauses line.number line.item.condition? clauses) (lines ++ close :: after) after := by
  induction hn : lines.length using Nat.strong_induction_on generalizing line lines with | _ n ih
  have hextent : IsExtent continues 0 none lines _ _ := isExtent_extent 0 none lines
  generalize hin : (extent continues 0 none lines).1 = inside at hextent
  generalize hout : (extent continues 0 none lines).2 = outside at hextent
  have he : extent continues 0 none lines = (inside, outside) := Prod.ext hin hout
  obtain ⟨hfirst, hrest⟩ := nested_of_append (clauses_cons he ▸ hnested)
  obtain ⟨-, hbody⟩ := nested_append.1 hfirst
  obtain rfl : lines = inside ++ outside := hextent.whole
  have hinside : Formed inside := hformed inside (by simp)
  cases outside with
  | nil =>
    have hfits : Fits inside (close :: after) := by
      intro next hnext
      obtain rfl : close = next := by simpa using hnext
      rw [List.append_nil] at hshield
      exact ⟨by rw [hclose]; rfl, hshield⟩
    obtain ⟨body, hbody⟩ := hinside _ hbody hfits
    rw [List.append_nil]
    exact ⟨_, .last hbody hclose⟩
  | cons next outside =>
    obtain ⟨hnext, hunshielded⟩ := hextent.ends next rfl
    obtain ⟨condition, hitem, hpast⟩ := exists_branch_of_isExtent hextent hwhole
    have hlast : (shield none outside).any (· < close.indent) = false := by
      rw [shield_append, shield_cons hunshielded, shieldAfter, hitem] at hshield
      exact hshield
    have hfits : Fits inside (next :: (outside ++ close :: after)) := by
      intro l hl
      obtain rfl : next = l := by simpa using hl
      exact ⟨hnext, hunshielded⟩
    obtain ⟨body, hbody⟩ := hinside _ hbody hfits
    have hshorter : outside.length < n := by
      rw [← hn, List.length_append, List.length_cons]
      omega
    obtain ⟨clauses, hclauses⟩ := ih _ hshorter
      (fun inside' h => hformed inside' (h.trans (by rw [hn]; exact hshorter.le))) hrest hpast hlast rfl
    rw [hitem] at hclauses
    rw [List.append_assoc, List.cons_append]
    exact ⟨_, .branch hbody hitem hclauses⟩

/-- The lines of a group of options. -/
theorem forms_of_choices (indent : Nat) (after : List BodyLine) {lines : List BodyLine}
    (hformed : ∀ inside : List BodyLine, inside.length < lines.length → Formed inside)
    (hnested : Nested (Body.choices lines).diagnostics) (hgroup : ∀ l ∈ lines, l.inGroup indent = true)
    (hfirst : ∀ l ∈ lines.head?, l.isOptionAt indent = true)
    (hnext : ∀ l ∈ after.head?, l.inGroup indent = false) :
    ∃ choices, Forms (.choices indent choices) (lines ++ after) after ∧ (lines ≠ [] → choices ≠ []) := by
  induction hn : lines.length using Nat.strong_induction_on generalizing lines with | _ n ih
  cases lines with
  | nil =>
    refine ⟨[], .ended ?_, fun h => absurd rfl h⟩
    intro l hl
    exact (Bool.or_eq_false_iff.1 (hnext l hl)).2
  | cons line rest =>
    obtain ⟨text, condition, tags, hitem, rfl⟩ := exists_of_isOptionAt (hfirst line rfl)
    obtain ⟨inside, outside, rfl, hinside, houtside⟩ := exists_span (line.indent < ·.indent) rest
    have hdeeper : ∀ l ∈ inside, line.indent < l.indent := by simpa using hinside
    have hend : ∀ l ∈ outside.head?, l.indent ≤ line.indent := by simpa using houtside
    obtain ⟨hheader, hothers⟩ := nested_of_append (choices_option hitem (deeper_append hdeeper hend) ▸ hnested)
    obtain ⟨-, hbody⟩ := nested_append.1 hheader
    have hinside : Formed inside := hformed inside (by simp)
    obtain ⟨body, hbody⟩ := hinside [] hbody (by simp [Fits])
    rw [List.append_nil] at hbody
    have hoption : ∀ l ∈ outside.head?, l.isOptionAt line.indent = true := by
      intro l hl
      have hin := hgroup l (by simp [List.mem_of_mem_head? hl])
      have hle := hend l hl
      simpa [inGroup, hle.not_gt] using hin
    have hmiddle : ∀ l ∈ (outside ++ after).head?, l.indent ≤ line.indent := by
      intro l hl
      cases outside with
      | nil =>
        have hout := hnext l hl
        simp only [inGroup, Bool.or_eq_false_iff, decide_eq_false_iff_not, not_lt] at hout
        exact hout.1
      | cons l' outside => exact hend l hl
    have hshorter : outside.length < n := by
      rw [← hn, List.length_cons, List.length_append]
      omega
    obtain ⟨choices, hchoices, -⟩ := ih _ hshorter (fun inside' h => hformed inside' (h.trans (by rw [hn]; exact hshorter)))
      hothers (fun l hl => hgroup l (by simp [hl])) hoption rfl
    refine ⟨.mk line.number text condition tags body :: choices, ?_, fun _ => List.cons_ne_nil _ _⟩
    rw [List.cons_append, List.append_assoc]
    exact .choice hitem hdeeper hmiddle hbody hchoices

section Lines

variable {line : BodyLine} {rest : List BodyLine}

theorem formed_plain {statements : List Statement} (hline : line.item = .plain statements) (hrest : Formed rest) :
    Formed (line :: rest) := by
  intro after hnested hfits
  obtain ⟨-, hothers⟩ := nested_of_append (block_plain hline ▸ hnested)
  have hshield : shield none [line] = none := by
    rw [shield_cons rfl, shieldAfter, hline]
    rfl
  have hfits : Fits rest after := Fits.of_append [line] hfits (by rw [hshield]; exact unshielded_none rest)
  obtain ⟨more, hmore⟩ := hrest after hothers hfits
  exact ⟨_, .plain hline hmore⟩

theorem formed_opening {condition : Expr} (hline : line.item = .opening condition)
    (hformed : ∀ inside : List BodyLine, inside.length ≤ rest.length → Formed inside) : Formed (line :: rest) := by
  intro after hnested hfits
  have hextent : IsExtent closes 0 none rest _ _ := isExtent_extent 0 none rest
  generalize hin : (extent closes 0 none rest).1 = inside at hextent
  generalize hout : (extent closes 0 none rest).2 = outside at hextent
  have he : extent closes 0 none rest = (inside, outside) := Prod.ext hin hout
  obtain ⟨hthis, hothers⟩ := nested_of_append (block_opening hline he ▸ hnested)
  obtain ⟨hclauses, hmissing⟩ := nested_append.1 hthis
  obtain rfl : rest = inside ++ outside := hextent.whole
  cases outside with
  | nil => cases hmissing _ (List.mem_singleton_self _)
  | cons close outside =>
    obtain ⟨hcloses, hunshielded⟩ := hextent.ends close rfl
    have hclose : close.item = .closing := by
      cases h : close.item <;> rw [h] at hcloses <;> first | rfl | cases hcloses
    obtain ⟨clauses, hclauses⟩ := forms_of_clauses (outside ++ after)
      (fun inside' h => hformed inside' (h.trans (by simp))) hclauses hextent.closed hclose hunshielded
    have hshield : shield none (line :: (inside ++ [close])) = none := by
      rw [shield_cons rfl, shieldAfter, hline, shield_append, shield_cons hunshielded, shieldAfter, hclose]
      rfl
    have hfits : Fits outside after :=
      Fits.of_append (line :: (inside ++ [close])) (by simpa using hfits)
        (by rw [hshield]; exact unshielded_none outside)
    obtain ⟨more, hmore⟩ := hformed outside (by simp; omega) after hothers hfits
    rw [hline] at hclauses
    rw [List.cons_append, List.append_assoc, List.cons_append]
    exact ⟨_, .conditional hline hclauses hmore⟩

/-- A line that goes on with a conditional is no option. -/
theorem isOptionAt_of_continues (h : continues line.item = true) (indent : Nat) : line.isOptionAt indent = false := by
  rw [← Bool.not_eq_true]
  intro hoption
  obtain ⟨text, condition, tags, hitem, -⟩ := exists_of_isOptionAt hoption
  rw [hitem] at h
  cases h

theorem formed_option {text : Template} {condition : Option Expr} {tags : List String}
    (hline : line.item = .option text condition tags)
    (hformed : ∀ inside : List BodyLine, inside.length ≤ rest.length → Formed inside) : Formed (line :: rest) := by
  intro after hnested hfits
  obtain ⟨inside, outside, rfl, hgroup, hnext⟩ := exists_span (inGroup line.indent) rest
  obtain ⟨hchoices, hothers⟩ := nested_of_append (block_option hline (group_append hgroup hnext) ▸ hnested)
  have hoption : line.isOptionAt line.indent = true := isOptionAt_indent hline
  have hshield : shield none (line :: inside) = some line.indent := by
    rw [shield_cons rfl, shieldAfter, hline]
    exact shield_inGroup hgroup
  have hfits' : Fits outside after := by
    refine Fits.of_append (line :: inside) hfits ?_
    intro l hl
    have hout := hnext l hl
    simp only [inGroup, Bool.or_eq_false_iff] at hout
    rw [hshield]
    exact hout.1
  have hafter : ∀ l ∈ (outside ++ after).head?, l.inGroup line.indent = false := by
    intro l hl
    cases outside with
    | nil =>
      obtain ⟨hcontinues, hl⟩ := hfits l hl
      rw [List.append_nil, hshield] at hl
      simpa [inGroup, isOptionAt_of_continues hcontinues] using hl
    | cons l' outside => exact hnext l hl
  obtain ⟨choices, hforms, hne⟩ := forms_of_choices line.indent (outside ++ after)
    (fun inside' h => hformed inside' (by simp at h ⊢; omega)) hchoices
    (by simpa [inGroup, hoption] using hgroup) (by simpa using hoption) hafter
  obtain ⟨more, hmore⟩ := hformed outside (by simp) after hothers hfits'
  obtain ⟨choice, choices, rfl⟩ := List.exists_cons_of_ne_nil (hne (List.cons_ne_nil _ _))
  rw [List.cons_append, List.append_assoc]
  exact ⟨_, .options hforms hmore⟩

end Lines

/-- **Lines form a block** if nothing is reported about how they nest. -/
theorem formed (lines : List BodyLine) : Formed lines := by
  induction hn : lines.length using Nat.strong_induction_on generalizing lines with | _ n ih
  cases lines with
  | nil => exact fun after _ _ => ⟨[], .done after⟩
  | cons line rest =>
    have hshorter (inside : List BodyLine) (h : inside.length ≤ rest.length) : Formed inside :=
      ih inside.length (by rw [← hn, List.length_cons]; omega) inside rfl
    cases hitem : line.item with
    | plain statements => exact formed_plain hitem (hshorter rest le_rfl)
    | branch _ | closing =>
      intro after hnested _
      obtain ⟨hstray, -⟩ := nested_of_append (block_stray (by rw [hitem]; rfl) ▸ hnested)
      cases hstray _ (List.mem_singleton_self _)
    | opening condition => exact formed_opening hitem hshorter
    | option text condition tags => exact formed_option hitem hshorter

end Body

/-! ## What a line reports by itself -/

namespace Item

/-- None of the faults is one of nesting. -/
def Own (faults : List BodyFault) : Prop :=
  ∀ fault ∈ faults, fault.isStructural = false

theorem own_nil : Own [] := fun _ h => nomatch h

theorem own_singleton {fault : BodyFault} (h : fault.isStructural = false) : Own [fault] := by
  intro fault' hfault
  obtain rfl := List.mem_singleton.1 hfault
  exact h

theorem own_append {faults faults' : List BodyFault} : Own (faults ++ faults') ↔ Own faults ∧ Own faults' :=
  List.forall_mem_append

/-- What a line reports by itself: nothing about nesting, and nothing at all if it closes a conditional. -/
def Sound (noted : Noted Item) : Prop :=
  Own noted.2 ∧ (noted.1 = .closing → noted.2 = [])

theorem own_readText (cs : List Char) : Own (readText cs).2 := by
  intro fault h
  obtain ⟨template, -, rfl⟩ := List.mem_map.1 h
  rfl

theorem own_readCondition (cs : List Char) : Own (readCondition cs).2 := by
  unfold readCondition
  split
  · exact own_nil
  · exact own_singleton rfl

theorem sound_readCommand (number : Nat) (inside : List Char) : Sound (readCommand number inside) := by
  unfold readCommand
  dsimp only
  split
  · exact ⟨own_readCondition _, fun h => nomatch h⟩
  · exact ⟨own_readCondition _, fun h => nomatch h⟩
  · exact ⟨own_nil, fun _ => rfl⟩
  · exact ⟨own_nil, fun _ => rfl⟩
  · split
    · exact ⟨own_nil, fun h => nomatch h⟩
    · exact ⟨own_singleton rfl, fun h => nomatch h⟩
  · exact ⟨own_nil, fun h => nomatch h⟩
  · exact ⟨own_singleton rfl, fun h => nomatch h⟩
  · exact ⟨own_nil, fun h => nomatch h⟩
  · exact ⟨own_readText _, fun h => nomatch h⟩

theorem own_of_readLine {number : Nat} {cs : List Char} {read : Noted Statement} (h : readLine number cs = .ok read) :
    Own read.2 := by
  obtain ⟨⟨base, tags⟩, -, h⟩ := Expr.of_bind_eq_ok h
  cases h
  exact own_readText base

theorem own_of_readLeading {number : Nat} {cs : List Char} {read : Noted (List Statement)}
    (h : readLeading number cs = .ok read) : Own read.2 := by
  unfold readLeading at h
  split at h
  · cases h
    exact own_nil
  · obtain ⟨⟨line, faults⟩, hline, h⟩ := Expr.of_bind_eq_ok h
    cases h
    exact own_of_readLine hline

theorem own_readLink (number : Nat) (inside : List Char) : Own (readLink number inside).2 := by
  unfold readLink
  dsimp only
  split_ifs
  · exact own_singleton rfl
  · split
    · exact own_nil
    · exact own_readText _

theorem own_of_readLinks {number : Nat} {cs : List Char} {read : Links} (h : readLinks number cs = .ok read) :
    Own read.faults := by
  fun_induction readLinks number cs generalizing read with
  | case1 cs hcut =>
    cases h
    exact own_nil
  | case2 cs before after hcut hclose =>
    cases h
    exact own_singleton rfl
  | case3 cs before after hcut inside rest hclose ih =>
    obtain ⟨⟨lines, faults⟩, hlines, h⟩ := Expr.of_bind_eq_ok h
    obtain ⟨more, hmore, h⟩ := Expr.of_bind_eq_ok h
    cases h
    exact own_append.2 ⟨own_append.2 ⟨own_of_readLeading hlines, own_readLink number inside⟩, ih hmore⟩

theorem sound_of_readOption {cs : List Char} {read : Noted Item} (h : readOption cs = .ok read) : Sound read := by
  obtain ⟨⟨base, tags⟩, -, h⟩ := Expr.of_bind_eq_ok h
  dsimp only at h
  cases hcondition : (splitCondition base).2 with
  | none =>
    rw [hcondition] at h
    cases h
    exact ⟨own_append.2 ⟨own_nil, own_readText _⟩, fun h => nomatch h⟩
  | some source =>
    rw [hcondition] at h
    cases h
    exact ⟨own_append.2 ⟨own_readCondition _, own_readText _⟩, fun h => nomatch h⟩

theorem sound_of_readLinkLine {number : Nat} {cs : List Char} {read : Noted Item}
    (h : readLinkLine number cs = .ok read) : Sound read := by
  obtain ⟨found, hfound, h⟩ := Expr.of_bind_eq_ok h
  cases h
  refine ⟨own_append.2 ⟨own_of_readLinks hfound, ?_⟩, fun h => nomatch h⟩
  split
  · exact own_nil
  · exact own_singleton rfl

/-- **No line reports anything about nesting by itself.** -/
theorem sound_of_read {number : Nat} {text : List Char} {noted : Noted Item} (h : read number text = .ok noted) :
    Sound noted := by
  unfold read at h
  split at h
  · exact sound_of_readOption h
  · split at h
    · cases h
      exact sound_readCommand number _
    · split at h
      · exact sound_of_readLinkLine h
      · obtain ⟨⟨line, faults⟩, hline, h⟩ := Expr.of_bind_eq_ok h
        cases h
        exact ⟨own_of_readLine hline, fun h => nomatch h⟩

end Item

namespace Body

open BodyLine

/-! ## Scripts -/

/-- **Nothing is reported about how lines nest exactly when they form a block.** -/
theorem block_nested_iff {lines : List BodyLine} (h : ∀ line ∈ lines, Item.Sound (line.item, line.faults)) :
    Nested (Body.block lines).diagnostics ↔ ∃ statements, Forms (.block statements) lines [] := by
  constructor
  · intro hnested
    obtain ⟨statements, hforms⟩ := formed lines [] hnested (by simp [Fits])
    exact ⟨statements, by simpa using hforms⟩
  · rintro ⟨statements, hforms⟩
    have hread : IsRead lines [] (.block statements) := isRead_of_forms hforms lines (List.append_nil _).symm
    rw [hread fun line hl => (h line hl).2]
    intro d hd
    obtain ⟨line, hline, hd⟩ := List.mem_flatMap.1 hd
    obtain ⟨fault, hfault, rfl⟩ := List.mem_map.1 hd
    exact (h line hline).1 fault hfault

theorem exists_of_parse_eq_ok {src : String} {parsed : Parsed Statement} (h : parse src = .ok parsed) :
    ∃ lines, (kept src.toList).mapM BodyLine.read = .ok lines ∧ block lines = parsed := by
  obtain ⟨lines, hlines, h⟩ := Expr.of_bind_eq_ok h
  cases h
  exact ⟨lines, hlines, rfl⟩

theorem sound_of_mapM_read {texts : List (Nat × Nat × List Char)} {lines : List BodyLine}
    (h : texts.mapM BodyLine.read = .ok lines) : ∀ line ∈ lines, Item.Sound (line.item, line.faults) := by
  induction texts generalizing lines with
  | nil =>
    cases h
    exact fun _ hline => nomatch hline
  | cons text texts ih =>
    rw [List.mapM_cons] at h
    obtain ⟨line, hread, h⟩ := Expr.of_bind_eq_ok h
    obtain ⟨rest, hrest, h⟩ := Expr.of_bind_eq_ok h
    cases h
    obtain ⟨noted, hnoted, h⟩ := Expr.of_bind_eq_ok hread
    cases h
    exact List.forall_mem_cons.2 ⟨Item.sound_of_read hnoted, ih hrest⟩

/-- **A script nests exactly when its lines form a block.** Its lines are read one by one, each by itself. They form a
block exactly when no fault of nesting is reported; then the statements are those of the block, and nothing is reported
but what the lines report by themselves. -/
theorem parse_nests {src : String} {parsed : Parsed Statement} (h : parse src = .ok parsed) :
    ∃ lines, (kept src.toList).mapM BodyLine.read = .ok lines ∧
      ((∀ d ∈ parsed.diagnostics, d.fault.isStructural = false) ↔ ∃ statements, Forms (.block statements) lines []) ∧
      ∀ statements, Forms (.block statements) lines [] →
        parsed.items = statements ∧ parsed.diagnostics = lines.flatMap BodyLine.diagnostics := by
  obtain ⟨lines, hlines, rfl⟩ := exists_of_parse_eq_ok h
  have hsound := sound_of_mapM_read hlines
  refine ⟨lines, hlines, block_nested_iff hsound, ?_⟩
  intro statements hforms
  have hread : IsRead lines [] (.block statements) := isRead_of_forms hforms lines (List.append_nil _).symm
  rw [hread fun line hline => (hsound line hline).2]
  exact ⟨rfl, rfl⟩

/-- A conditional that ends deeper than it starts, with a group of options in a branch and a conditional in the body of
one of them. -/
def nestedSource : String :=
  "<<if $x>>\n-> A\n    <<if $y>>\n  a\n    <<endif>>\n-> B\n<<else>>\nb\n    <<endif>>\n"

theorem parse_nests_conditional_in_option : ∃ parsed lines statements, parse nestedSource = .ok parsed ∧
    (kept nestedSource.toList).mapM BodyLine.read = .ok lines ∧ lines.length = 9 ∧
    Forms (.block statements) lines [] ∧ parsed.items = statements ∧ parsed.diagnostics = [] := by
  have hquiet : (parse nestedSource).toOption.any (·.diagnostics.isEmpty) = true := by decide +kernel
  have hlength : ((kept nestedSource.toList).mapM BodyLine.read).toOption.map List.length = some 9 := by decide +kernel
  cases hparse : parse nestedSource with
  | error _ =>
    rw [hparse] at hquiet
    cases hquiet
  | ok parsed =>
    obtain ⟨lines, hlines, hnests, hshape⟩ := parse_nests hparse
    rw [hparse] at hquiet
    have hnone : parsed.diagnostics = [] := List.isEmpty_iff.1 hquiet
    obtain ⟨statements, hforms⟩ := hnests.1 (by rw [hnone]; exact fun _ h => nomatch h)
    rw [hlines] at hlength
    exact ⟨parsed, lines, statements, rfl, hlines, Option.some.inj hlength, hforms, (hshape _ hforms).1, hnone⟩

end Body

end Dialogue
