import Mathlib
import Dialogue.Body.Block
import Dialogue.Proofs.Text.Cut

/-!
# The grammar of blocks

How lines nest, said without extents: a block is a sequence of plain lines, conditionals and groups of options, and so
is each branch and each body in it (`Body.Forms`). Two ways to say where a block ends meet here: a conditional ends at a
line of its own, whatever the indents, and the body of an option ends at the first line that is not deeper.

* `Body.exists_passed`: the extents that the reading takes end in none of the lines of such a part.
* `Body.isRead_of_forms`: so a part is read as it is formed.
-/

namespace Dialogue

/-- **A fault of nesting.** -/
def BodyFault.isStructural : BodyFault → Bool
  | .stray _ | .missingEnd => true
  | _ => false

namespace BodyLine

/-! ## Extents -/

/-- The depth and the shield after a line outside of options' bodies. -/
def depthAfter (depth : Nat) : Item → Nat
  | .opening _ => depth + 1
  | .closing => depth - 1
  | _ => depth

def shieldAfter (line : BodyLine) : Option Nat :=
  match line.item with
  | .option .. => some line.indent
  | _ => none

/-- Two lists go on with the same line, if the first goes on at all. -/
def Follows (rest rest' : List BodyLine) : Prop :=
  ∀ line ∈ rest.head?, line ∈ rest'.head?

/-- The line that follows, if any, is no part of an option's body. -/
def Unshielded (start : Option Nat) (rest : List BodyLine) : Prop :=
  ∀ line ∈ rest.head?, start.any (· < line.indent) = false

theorem unshielded_none (rest : List BodyLine) : Unshielded none rest := fun _ _ => rfl

theorem unshielded_cons {start : Option Nat} {line : BodyLine} {rest : List BodyLine}
    (h : start.any (· < line.indent) = false) : Unshielded start (line :: rest) := by
  intro l hl
  obtain rfl : line = l := by simpa using hl
  exact h

variable {stop : Item → Bool}

theorem extent_of_unshielded {depth : Nat} {start : Option Nat} {lines : List BodyLine} (h : Unshielded start lines) :
    extent stop depth start lines = extent stop depth none lines := by
  cases lines with
  | nil => rfl
  | cons line rest =>
    have hs : start.any (· < line.indent) = false := h line (by simp)
    rw [extent, extent, hs]
    rfl

/-- A line of an option's body is passed. -/
theorem extent_shielded {depth indent : Nat} {line : BodyLine} {rest : List BodyLine} (h : indent < line.indent) :
    extent stop depth (some indent) (line :: rest) =
      (line :: (extent stop depth (some indent) rest).1, (extent stop depth (some indent) rest).2) := by
  rw [extent]
  simp [h]

theorem extent_deeper {depth indent : Nat} {rest : List BodyLine} : ∀ {lines : List BodyLine},
    (∀ l ∈ lines, indent < l.indent) → extent stop depth (some indent) (lines ++ rest) =
      (lines ++ (extent stop depth (some indent) rest).1, (extent stop depth (some indent) rest).2)
  | [], _ => rfl
  | line :: lines, h => by
    rw [List.cons_append, extent_shielded (h line List.mem_cons_self),
      extent_deeper fun l hl => h l (List.mem_cons_of_mem _ hl)]
    rfl

/-- A line that does not end the extent is passed. -/
theorem extent_cons {depth : Nat} {line : BodyLine} {rest : List BodyLine} (h : depth = 0 → stop line.item = false) :
    extent stop depth none (line :: rest) =
      (line :: (extent stop (depthAfter depth line.item) line.shieldAfter rest).1,
        (extent stop (depthAfter depth line.item) line.shieldAfter rest).2) := by
  have hstop : ¬ (depth = 0 ∧ stop line.item = true) := by
    rintro ⟨hd, hs⟩
    rw [h hd] at hs
    cases hs
  rw [extent, Option.any_none, if_neg Bool.false_ne_true, if_neg hstop]
  cases hitem : line.item <;> simp [depthAfter, shieldAfter, hitem]

theorem extent_stop {line : BodyLine} {rest : List BodyLine} (h : stop line.item = true) :
    extent stop 0 none (line :: rest) = ([], line :: rest) := by
  rw [extent, Option.any_none, if_neg Bool.false_ne_true, if_pos ⟨rfl, h⟩]

/-! ## Items -/

theorem closes_imp (item : Item) (h : closes item = true) : continues item = true := by
  cases item <;> first | rfl | cases h

theorem exists_of_isOptionAt {line : BodyLine} {indent : Nat} (h : line.isOptionAt indent = true) :
    ∃ text condition tags, line.item = .option text condition tags ∧ line.indent = indent := by
  unfold isOptionAt at h
  split at h
  · rename_i text condition tags hitem
    exact ⟨text, condition, tags, hitem, by simpa using h⟩
  · cases h

theorem isOptionAt_indent {line : BodyLine} {text : Template} {condition : Option Expr} {tags : List String}
    (h : line.item = .option text condition tags) : line.isOptionAt line.indent = true := by
  rw [isOptionAt, h]
  exact decide_eq_true rfl

theorem span_append {p : BodyLine → Bool} {inside outside : List BodyLine} (h : ∀ l ∈ inside, p l = true)
    (hnext : ∀ l ∈ outside.head?, p l = false) :
    ((inside ++ outside).takeWhile p, (inside ++ outside).dropWhile p) = (inside, outside) := by
  obtain ⟨htake, hdrop⟩ := Text.span_append_of_forall h hnext
  rw [htake, hdrop]

theorem group_append {indent : Nat} {inside outside : List BodyLine} (h : ∀ l ∈ inside, l.inGroup indent = true)
    (hnext : ∀ l ∈ outside.head?, l.inGroup indent = false) :
    group indent (inside ++ outside) = (inside, outside) :=
  span_append h hnext

theorem deeper_append {indent : Nat} {inside outside : List BodyLine} (h : ∀ l ∈ inside, indent < l.indent)
    (hnext : ∀ l ∈ outside.head?, l.indent ≤ indent) : deeper indent (inside ++ outside) = (inside, outside) :=
  span_append (by simpa using h) (by simpa using hnext)

end BodyLine

namespace Body

open BodyLine

/-! ## The grammar -/

/-- **What lines may form.** -/
inductive Part where
  /-- The statements of a block. -/
  | block (statements : List Statement)
  /-- The branches of a conditional after the line that opens the first of them, by its number and its condition. -/
  | clauses (number : Nat) (condition : Option Expr) (clauses : List Clause)
  /-- The options of a group, by their indent. -/
  | choices (indent : Nat) (choices : List Choice)

/-- **How lines nest.** `Forms part lines rest`: the lines start with such a part, before a rest.

* A block is a sequence of plain lines, conditionals and groups of options.
* Each branch of a conditional is a block, and a line that opens the next branch or closes the conditional follows it,
  whatever its indent.
* The options of a group have one indent, and there are as many as can be. The body of each is the run of deeper lines
  after it, as long as can be, and a block by itself. -/
inductive Forms : Part → List BodyLine → List BodyLine → Prop
  | done (rest : List BodyLine) : Forms (.block []) rest rest
  | plain {line : BodyLine} {lines rest : List BodyLine} {statements more : List Statement}
      (hline : line.item = .plain statements) (h : Forms (.block more) lines rest) :
      Forms (.block (statements ++ more)) (line :: lines) rest
  | conditional {line : BodyLine} {lines middle rest : List BodyLine} {condition : Expr} {clauses : List Clause}
      {more : List Statement} (hline : line.item = .opening condition)
      (hclauses : Forms (.clauses line.number (some condition) clauses) lines middle)
      (h : Forms (.block more) middle rest) : Forms (.block (.conditional clauses :: more)) (line :: lines) rest
  | options {indent : Nat} {lines middle rest : List BodyLine} {choice : Choice} {choices : List Choice}
      {more : List Statement} (hchoices : Forms (.choices indent (choice :: choices)) lines middle)
      (h : Forms (.block more) middle rest) : Forms (.block (.options (choice :: choices) :: more)) lines rest
  | last {number : Nat} {condition : Option Expr} {lines rest : List BodyLine} {line : BodyLine}
      {body : List Statement} (hbody : Forms (.block body) lines (line :: rest)) (hline : line.item = .closing) :
      Forms (.clauses number condition [.mk number condition body]) lines rest
  | branch {number : Nat} {condition next : Option Expr} {lines middle rest : List BodyLine} {line : BodyLine}
      {body : List Statement} {clauses : List Clause} (hbody : Forms (.block body) lines (line :: middle))
      (hline : line.item = .branch next) (h : Forms (.clauses line.number next clauses) middle rest) :
      Forms (.clauses number condition (.mk number condition body :: clauses)) lines rest
  | ended {indent : Nat} {rest : List BodyLine} (hend : ∀ line ∈ rest.head?, line.isOptionAt indent = false) :
      Forms (.choices indent []) rest rest
  | choice {line : BodyLine} {lines middle rest : List BodyLine} {text : Template} {condition : Option Expr}
      {tags : List String} {body : List Statement} {choices : List Choice}
      (hline : line.item = .option text condition tags) (hdeeper : ∀ l ∈ lines, line.indent < l.indent)
      (hend : ∀ l ∈ middle.head?, l.indent ≤ line.indent) (hbody : Forms (.block body) lines [])
      (h : Forms (.choices line.indent choices) middle rest) :
      Forms (.choices line.indent (.mk line.number text condition tags body :: choices)) (line :: (lines ++ middle))
        rest

/-! ## Extents of parts -/

/-- These lines are passed by every extent that ends at lines of conditionals only, and lead from one depth to another,
whatever comes after the next line. -/
def Passed (depth depth' : Nat) (used after : List BodyLine) : Prop :=
  ∀ (stop : Item → Bool) (rest : List BodyLine), (∀ item, stop item = true → continues item = true) →
    Follows rest after → extent stop depth none (used ++ rest) =
      (used ++ (extent stop depth' none rest).1, (extent stop depth' none rest).2)

theorem passed_nil (depth : Nat) (after : List BodyLine) : Passed depth depth [] after := fun _ _ _ _ => rfl

theorem follows_append {used rest after : List BodyLine} (h : Follows rest after) :
    Follows (used ++ rest) (used ++ after) := by
  cases used with
  | nil => exact h
  | cons line used => exact fun _ h => h

theorem Passed.append {a b c : Nat} {used used' after : List BodyLine} (h : Passed a b used (used' ++ after))
    (h' : Passed b c used' after) : Passed a c (used ++ used') after := by
  intro stop rest hstop hrest
  rw [List.append_assoc, h stop _ hstop (follows_append hrest), h' stop rest hstop hrest, List.append_assoc]

/-- The conditionals that are open before a part, and closed by it. -/
def Part.depth : Part → Nat
  | .clauses .. => 1
  | _ => 0

/-- A line that is no option is passed, unless the extent may end there. -/
theorem passed_cons {depth depth' : Nat} {line : BodyLine} {after : List BodyLine}
    (hstop : depth ≠ 0 ∨ continues line.item = false) (hdepth : depthAfter depth line.item = depth')
    (hshield : line.shieldAfter = none) : Passed depth depth' [line] after := by
  intro stop rest hs _
  have hline : depth = 0 → stop line.item = false := by
    intro hd
    rw [← Bool.not_eq_true]
    intro h
    rcases hstop with hne | hne
    · exact hne hd
    · rw [hs _ h] at hne
      cases hne
  rw [List.singleton_append, extent_cons hline, hdepth, hshield]
  rfl

/-- An option is passed with its body. -/
theorem passed_option {depth : Nat} {line : BodyLine} {lines after : List BodyLine} {text : Template}
    {condition : Option Expr} {tags : List String} (hline : line.item = .option text condition tags)
    (hdeeper : ∀ l ∈ lines, line.indent < l.indent) (hend : ∀ l ∈ after.head?, l.indent ≤ line.indent) :
    Passed depth depth (line :: lines) after := by
  intro stop rest hs hrest
  have hstop : depth = 0 → stop line.item = false := by
    intro _
    rw [← Bool.not_eq_true]
    intro h
    rw [hline] at h
    exact absurd (hs _ h) Bool.false_ne_true
  have hunshielded : Unshielded (some line.indent) rest := by
    intro l hl
    simpa using hend l (hrest l hl)
  rw [List.cons_append, extent_cons hstop]
  simp only [hline, depthAfter, shieldAfter]
  rw [extent_deeper hdeeper, extent_of_unshielded hunshielded]
  rfl

/-- **A part is passed**: extents end in none of its lines. -/
theorem exists_passed {part : Part} {lines rest : List BodyLine} (h : Forms part lines rest) :
    ∃ used, lines = used ++ rest ∧ ∀ depth, Passed (depth + part.depth) depth used rest := by
  induction h with
  | done rest => exact ⟨[], rfl, fun depth => passed_nil depth rest⟩
  | @plain line _ _ _ _ hline _ ih =>
    obtain ⟨used, rfl, hused⟩ := ih
    refine ⟨line :: used, rfl, fun depth => ?_⟩
    exact (passed_cons (.inr (by rw [hline]; rfl)) (by rw [hline]; rfl) (by rw [shieldAfter, hline])).append (hused depth)
  | @conditional line _ _ _ _ _ _ hline _ _ ihclauses ih =>
    obtain ⟨used, rfl, hused⟩ := ih
    obtain ⟨used', rfl, hused'⟩ := ihclauses
    refine ⟨line :: (used' ++ used), by simp, fun depth => ?_⟩
    exact (passed_cons (.inr (by rw [hline]; rfl)) (by rw [hline]; rfl) (by rw [shieldAfter, hline])).append
      ((hused' depth).append (hused depth))
  | options _ _ ihchoices ih =>
    obtain ⟨used, rfl, hused⟩ := ih
    obtain ⟨used', rfl, hused'⟩ := ihchoices
    exact ⟨used' ++ used, (List.append_assoc ..).symm, fun depth => (hused' depth).append (hused depth)⟩
  | @last _ _ _ _ line _ _ hline ih =>
    obtain ⟨used, rfl, hused⟩ := ih
    refine ⟨used ++ [line], by simp, fun depth => ?_⟩
    exact (hused (depth + 1)).append
      (passed_cons (.inl (Nat.succ_ne_zero depth)) (by rw [hline]; rfl) (by rw [shieldAfter, hline]))
  | @branch _ _ _ _ _ rest line _ _ _ hline _ ihbody ih =>
    obtain ⟨used, rfl, hused⟩ := ih
    obtain ⟨used', rfl, hused'⟩ := ihbody
    refine ⟨used' ++ line :: used, by simp, fun depth => ?_⟩
    have hcons : Passed (depth + 1) (depth + 1) [line] (used ++ rest) :=
      passed_cons (.inl (Nat.succ_ne_zero depth)) (by rw [hline]; rfl) (by rw [shieldAfter, hline])
    exact (hused' (depth + 1)).append (hcons.append (hused depth))
  | ended _ => exact ⟨[], rfl, fun depth => passed_nil depth _⟩
  | @choice line lines _ _ _ _ _ _ _ hline hdeeper hend _ _ _ ih =>
    obtain ⟨used, rfl, hused⟩ := ih
    refine ⟨line :: lines ++ used, by simp, fun depth => ?_⟩
    exact (passed_option hline hdeeper hend).append (hused depth)

/-! ## What is read -/

section Equations

variable {line : BodyLine} {rest : List BodyLine}

theorem block_plain {statements : List Statement} (h : line.item = .plain statements) :
    Body.block (line :: rest) = ⟨statements, line.diagnostics⟩ ++ Body.block rest := by
  rw [Body.block, h]

theorem block_stray (h : continues line.item = true) :
    Body.block (line :: rest) = ⟨[], [⟨line.number, .stray (.ofList line.text)⟩]⟩ ++ Body.block rest := by
  rw [Body.block]
  cases hitem : line.item <;> rw [hitem] at h <;> first | rfl | cases h

theorem block_opening {condition : Expr} {inside outside : List BodyLine} (h : line.item = .opening condition)
    (he : extent closes 0 none rest = (inside, outside)) : Body.block (line :: rest) =
      ⟨[.conditional (Body.clauses (line :: inside)).items], (Body.clauses (line :: inside)).diagnostics ++
        if outside.isEmpty then [⟨line.number, .missingEnd⟩] else []⟩ ++ Body.block (outside.drop 1) := by
  rw [Body.block, h, he]

theorem block_option {text : Template} {condition : Option Expr} {tags : List String} {inside outside : List BodyLine}
    (h : line.item = .option text condition tags) (hg : group line.indent rest = (inside, outside)) :
    Body.block (line :: rest) = ⟨[.options (Body.choices (line :: inside)).items],
      (Body.choices (line :: inside)).diagnostics⟩ ++ Body.block outside := by
  rw [Body.block, h, hg]

theorem clauses_cons {inside outside : List BodyLine} (he : extent continues 0 none rest = (inside, outside)) :
    Body.clauses (line :: rest) = ⟨[.mk line.number line.item.condition? (Body.block inside).items],
      line.diagnostics ++ (Body.block inside).diagnostics⟩ ++ Body.clauses outside := by
  rw [Body.clauses, he]

theorem choices_option {text : Template} {condition : Option Expr} {tags : List String}
    {inside outside : List BodyLine} (h : line.item = .option text condition tags)
    (hd : deeper line.indent rest = (inside, outside)) : Body.choices (line :: rest) =
      ⟨[.mk line.number text condition tags (Body.block inside).items],
        line.diagnostics ++ (Body.block inside).diagnostics⟩ ++ Body.choices outside := by
  rw [Body.choices, h, hd]

end Equations

/-- A line that closes a conditional has nothing to report. -/
def Quiet (lines : List BodyLine) : Prop :=
  ∀ line ∈ lines, line.item = .closing → line.faults = []

theorem quiet_append {lines lines' : List BodyLine} : Quiet (lines ++ lines') ↔ Quiet lines ∧ Quiet lines' :=
  List.forall_mem_append

theorem quiet_cons {line : BodyLine} {lines : List BodyLine} :
    Quiet (line :: lines) ↔ (line.item = .closing → line.faults = []) ∧ Quiet lines :=
  List.forall_mem_cons

/-- What is read of the lines of a part, and where the extents end that reading it takes. -/
def IsRead (used rest : List BodyLine) : Part → Prop
  | .block statements => Quiet used → Body.block used = ⟨statements, used.flatMap BodyLine.diagnostics⟩
  | .clauses number condition clauses => ∃ inside line, used = inside ++ [line] ∧ line.item = .closing ∧
      (∀ after, extent closes 0 none (inside ++ line :: after) = (inside, line :: after)) ∧
      (Quiet inside → ∀ head : BodyLine, head.number = number → head.item.condition? = condition →
        Body.clauses (head :: inside) = ⟨clauses, head.diagnostics ++ inside.flatMap BodyLine.diagnostics⟩)
  | .choices indent choices =>
      (Quiet used → Body.choices used = ⟨choices, used.flatMap BodyLine.diagnostics⟩) ∧
      (∀ line ∈ used, line.inGroup indent = true) ∧ (∀ line ∈ used.head?, line.isOptionAt indent = true) ∧
      (choices ≠ [] → used ≠ [] ∧ ∀ line ∈ rest.head?, line.inGroup indent = false)

theorem ended_of_choices_nil {indent : Nat} {lines rest : List BodyLine} (h : Forms (.choices indent []) lines rest) :
    lines = rest ∧ ∀ line ∈ rest.head?, line.isOptionAt indent = false := by
  cases h with
  | ended hend => exact ⟨rfl, hend⟩

section Rules

variable {line : BodyLine} {used inside rest : List BodyLine} {body more : List Statement}

theorem isRead_plain {statements : List Statement} (hline : line.item = .plain statements)
    (h : IsRead used rest (.block more)) : IsRead (line :: used) rest (.block (statements ++ more)) := by
  intro hquiet
  rw [block_plain hline, h (quiet_cons.1 hquiet).2]
  rfl

theorem isRead_conditional {condition : Expr} {clauses : List Clause} (hline : line.item = .opening condition)
    (hclauses : IsRead inside (used ++ rest) (.clauses line.number (some condition) clauses))
    (h : IsRead used rest (.block more)) :
    IsRead (line :: (inside ++ used)) rest (.block (.conditional clauses :: more)) := by
  intro hquiet
  obtain ⟨inside, close, rfl, hclose, hextent, hread⟩ := hclauses
  obtain ⟨hquiet₁, hquiet₂⟩ := quiet_append.1 (quiet_cons.1 hquiet).2
  obtain ⟨hinside, hlast⟩ := quiet_append.1 hquiet₁
  have hnone : close.diagnostics = [] := by
    rw [BodyLine.diagnostics, (quiet_cons.1 hlast).1 hclose]
    rfl
  have he : extent closes 0 none (inside ++ [close] ++ used) = (inside, close :: used) := by
    rw [List.append_assoc]
    exact hextent used
  have hhead : line.item.condition? = some condition := by rw [hline]; rfl
  rw [block_opening hline he, hread hinside line rfl hhead, List.drop_succ_cons, List.drop_zero, h hquiet₂]
  show Parsed.mk _ _ = Parsed.mk _ _
  simp [hnone]

theorem isRead_options {indent : Nat} {choice : Choice} {choices : List Choice}
    (hchoices : IsRead inside (used ++ rest) (.choices indent (choice :: choices)))
    (h : IsRead used rest (.block more)) :
    IsRead (inside ++ used) rest (.block (.options (choice :: choices) :: more)) := by
  intro hquiet
  obtain ⟨hread, hgroup, hfirst, hrest⟩ := hchoices
  obtain ⟨hne, hnext⟩ := hrest (List.cons_ne_nil _ _)
  obtain ⟨line, inside, rfl⟩ := List.exists_cons_of_ne_nil hne
  obtain ⟨hquiet₁, hquiet₂⟩ := quiet_append.1 hquiet
  obtain ⟨text, condition, tags, hline, hindent⟩ := exists_of_isOptionAt (hfirst line (by simp))
  have hg : group line.indent (inside ++ used) = (inside, used) := by
    rw [hindent]
    exact group_append (fun l hl => hgroup l (List.mem_cons_of_mem _ hl)) fun l hl =>
      hnext l (by rw [List.head?_append, hl]; rfl)
  rw [List.cons_append, block_option hline hg, hread hquiet₁, h hquiet₂]
  show Parsed.mk _ _ = Parsed.mk _ _
  simp

theorem isRead_last {number : Nat} {condition : Option Expr} (hline : line.item = .closing)
    (hpassed : Passed 0 0 inside (line :: rest)) (hbody : IsRead inside (line :: rest) (.block body)) :
    IsRead (inside ++ [line]) rest (.clauses number condition [.mk number condition body]) := by
  refine ⟨inside, line, rfl, hline, ?_, ?_⟩
  · intro after
    rw [hpassed closes (line :: after) closes_imp (by simp [Follows]), extent_stop (by rw [hline]; rfl),
      List.append_nil]
  · intro hquiet head hnumber hcondition
    have he : extent continues 0 none inside = (inside, []) := by
      have h := hpassed continues [] (fun _ h => h) (by simp [Follows])
      rwa [extent, List.append_nil] at h
    rw [clauses_cons he, hbody hquiet, hnumber, hcondition, Body.clauses]
    show Parsed.mk _ _ = Parsed.mk _ _
    simp

theorem isRead_branch {number : Nat} {condition next : Option Expr} {clauses : List Clause}
    (hline : line.item = .branch next) (hpassed : Passed 0 0 inside (line :: (used ++ rest)))
    (hbody : IsRead inside (line :: (used ++ rest)) (.block body))
    (h : IsRead used rest (.clauses line.number next clauses)) :
    IsRead (inside ++ line :: used) rest (.clauses number condition (.mk number condition body :: clauses)) := by
  obtain ⟨later, close, rfl, hclose, hextent, hread⟩ := h
  refine ⟨inside ++ line :: later, close, by simp, hclose, ?_, ?_⟩
  · intro after
    have hcons : extent closes 0 none (line :: (later ++ close :: after)) = (line :: later, close :: after) := by
      rw [extent_cons (by rw [hline]; exact fun _ => rfl)]
      simp only [hline, depthAfter, shieldAfter]
      rw [hextent after]
    rw [List.append_assoc, List.cons_append,
      hpassed closes (line :: (later ++ close :: after)) closes_imp (by simp [Follows]), hcons]
  · intro hquiet head hnumber hcondition
    obtain ⟨hquiet₁, hquiet₂⟩ := quiet_append.1 hquiet
    have he : extent continues 0 none (inside ++ line :: later) = (inside, line :: later) := by
      rw [hpassed continues (line :: later) (fun _ h => h) (by simp [Follows]),
        extent_stop (by rw [hline]; rfl), List.append_nil]
    rw [clauses_cons he, hbody hquiet₁, hnumber, hcondition,
      hread (quiet_cons.1 hquiet₂).2 line rfl (by rw [hline]; rfl)]
    show Parsed.mk _ _ = Parsed.mk _ _
    simp

theorem isRead_choice {text : Template} {condition : Option Expr} {tags : List String} {choices : List Choice}
    (hline : line.item = .option text condition tags) (hdeeper : ∀ l ∈ inside, line.indent < l.indent)
    (hend : ∀ l ∈ (used ++ rest).head?, l.indent ≤ line.indent)
    (hlast : choices = [] → used = [] ∧ ∀ l ∈ rest.head?, l.isOptionAt line.indent = false)
    (hbody : IsRead inside [] (.block body)) (h : IsRead used rest (.choices line.indent choices)) :
    IsRead (line :: (inside ++ used)) rest
      (.choices line.indent (.mk line.number text condition tags body :: choices)) := by
  obtain ⟨hread, hgroup, hfirst, hrest⟩ := h
  have hoption : line.isOptionAt line.indent = true := isOptionAt_indent hline
  refine ⟨?_, ?_, ?_, ?_⟩
  · intro hquiet
    obtain ⟨hquiet₁, hquiet₂⟩ := quiet_append.1 (quiet_cons.1 hquiet).2
    have hd : deeper line.indent (inside ++ used) = (inside, used) :=
      deeper_append hdeeper fun l hl => hend l (by rw [List.head?_append, hl]; rfl)
    rw [choices_option hline hd, hread hquiet₂, hbody hquiet₁]
    show Parsed.mk _ _ = Parsed.mk _ _
    simp
  · intro l hl
    rcases List.mem_cons.1 hl with rfl | hl
    · simp [inGroup, hoption]
    · rcases List.mem_append.1 hl with hl | hl
      · simp [inGroup, hdeeper l hl]
      · exact hgroup l hl
  · intro l hl
    obtain rfl : line = l := by simpa using hl
    exact hoption
  · intro _
    refine ⟨List.cons_ne_nil _ _, ?_⟩
    by_cases hchoices : choices = []
    · obtain ⟨rfl, hstop⟩ := hlast hchoices
      intro l hl
      simp [inGroup, hstop l hl, hend l hl]
    · exact (hrest hchoices).2

end Rules

/-- **A part is read as it is formed**, and nothing is reported but what its lines report by themselves. -/
theorem isRead_of_forms {part : Part} {lines rest : List BodyLine} (h : Forms part lines rest) :
    ∀ used, lines = used ++ rest → IsRead used rest part := by
  induction h with
  | done rest =>
    intro used hused _
    obtain rfl : used = [] := by simpa using hused
    rw [Body.block]
    rfl
  | @plain line _ _ _ _ hline h ih =>
    intro used hused
    obtain ⟨used', rfl, -⟩ := exists_passed h
    obtain rfl : line :: used' = used := List.append_cancel_right hused
    exact isRead_plain hline (ih used' rfl)
  | @conditional line _ _ _ _ _ _ hline hclauses h ihclauses ih =>
    intro used hused
    obtain ⟨used', rfl, -⟩ := exists_passed h
    obtain ⟨inside, rfl, -⟩ := exists_passed hclauses
    obtain rfl : line :: (inside ++ used') = used := List.append_cancel_right (by rw [← hused]; simp)
    exact isRead_conditional hline (ihclauses inside rfl) (ih used' rfl)
  | options hchoices h ihchoices ih =>
    intro used hused
    obtain ⟨used', rfl, -⟩ := exists_passed h
    obtain ⟨inside, rfl, -⟩ := exists_passed hchoices
    obtain rfl : inside ++ used' = used := List.append_cancel_right (by rw [← hused]; simp)
    exact isRead_options (ihchoices inside rfl) (ih used' rfl)
  | @last _ _ _ _ line _ hbody hline ih =>
    intro used hused
    obtain ⟨inside, rfl, hpassed⟩ := exists_passed hbody
    obtain rfl : inside ++ [line] = used := List.append_cancel_right (by rw [← hused]; simp)
    exact isRead_last hline (hpassed 0) (ih inside rfl)
  | @branch _ _ _ _ _ _ line _ _ hbody hline h ihbody ih =>
    intro used hused
    obtain ⟨used', rfl, -⟩ := exists_passed h
    obtain ⟨inside, rfl, hpassed⟩ := exists_passed hbody
    obtain rfl : inside ++ line :: used' = used := List.append_cancel_right (by rw [← hused]; simp)
    exact isRead_branch hline (hpassed 0) (ihbody inside rfl) (ih used' rfl)
  | ended _ =>
    intro used hused
    obtain rfl : used = [] := by simpa using hused
    refine ⟨fun _ => ?_, by simp, by simp, fun h => absurd rfl h⟩
    rw [Body.choices]
    rfl
  | @choice line inside _ rest _ _ _ _ _ hline hdeeper hend _ h ihbody ih =>
    intro used hused
    obtain ⟨used', rfl, -⟩ := exists_passed h
    obtain rfl : line :: (inside ++ used') = used := List.append_cancel_right (by rw [← hused]; simp)
    refine isRead_choice hline hdeeper hend ?_ (ihbody inside (List.append_nil _).symm) (ih used' rfl)
    intro hchoices
    rw [hchoices] at h
    obtain ⟨hrest, hstop⟩ := ended_of_choices_nil h
    exact ⟨List.append_left_eq_self.1 hrest, hstop⟩

end Body

end Dialogue
