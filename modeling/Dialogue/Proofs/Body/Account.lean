import Mathlib
import Dialogue.Proofs.Body.Cursor
import Dialogue.Proofs.Body.Indentation

/-!
# No line is lost

Each line of a script is taken once, and what becomes of it is seen in the tree or in what is reported
(`Body.parse_accounts`). The pass over the lines keeps an account of what it took each line for; the line numbers met on a
walk of the tree are those that the lines wrote, in the order of the lines, and what is reported is what was reported of
the lines (`Cursor.block_accounts`). Only a `<<stop>>` and a line that closes a conditional leave no trace
(`Item.leavesTrace_of_read`).
-/

namespace Dialogue

/-! ## The line numbers of a tree -/

/-! The line numbers met on a walk of the tree, each statement before what is in it. -/

namespace Preorder

mutual

def statement : Statement → List Nat
  | .line number _ _ | .command number _ | .set number _ _ | .link number _ _ | .jump number _ => [number]
  | .conditional branches => clauses branches
  | .options alternatives => choices alternatives
  | .stop => []

/-- **The line numbers of statements.** -/
def statements : List Statement → List Nat
  | [] => []
  | s :: rest => statement s ++ statements rest

def clauses : List Clause → List Nat
  | [] => []
  | .mk number _ body :: rest => number :: statements body ++ clauses rest

def choices : List Choice → List Nat
  | [] => []
  | .mk number _ _ _ body :: rest => number :: statements body ++ choices rest

end

theorem statements_append (a b : List Statement) : statements (a ++ b) = statements a ++ statements b := by
  induction a with
  | nil => simp [statements]
  | cons s a ih => simp [statements, ih]

theorem clauses_append (a b : List Clause) : clauses (a ++ b) = clauses a ++ clauses b := by
  induction a with
  | nil => simp [clauses]
  | cons c a ih =>
    cases c
    simp [clauses, ih]

theorem choices_append (a b : List Choice) : choices (a ++ b) = choices a ++ choices b := by
  induction a with
  | nil => simp [choices]
  | cons c a ih =>
    cases c
    simp [choices, ih]

mutual

theorem statement_renumber (f : Nat → Nat) (s : Statement) :
    statement (Renumber.statement f s) = (statement s).map f := by
  cases s with
  | line number _ _ | command number _ | set number _ _ | link number _ _ | jump number _ =>
    simp [statement, Renumber.statement]
  | conditional branches => simpa [statement, Renumber.statement] using clauses_renumber f branches
  | options alternatives => simpa [statement, Renumber.statement] using choices_renumber f alternatives
  | stop => simp [statement, Renumber.statement]

/-- The walk meets the new numbers where it met the old ones. -/
theorem statements_renumber (f : Nat → Nat) (ss : List Statement) :
    statements (Renumber.statements f ss) = (statements ss).map f := by
  match ss with
  | [] => simp [statements, Renumber.statements]
  | s :: ss =>
    rw [Renumber.statements, statements, statements, statement_renumber f s, statements_renumber f ss, List.map_append]

theorem clauses_renumber (f : Nat → Nat) (cs : List Clause) :
    clauses (Renumber.clauses f cs) = (clauses cs).map f := by
  match cs with
  | [] => simp [clauses, Renumber.clauses]
  | .mk number condition body :: cs =>
    rw [Renumber.clauses, clauses, clauses, statements_renumber f body, clauses_renumber f cs, List.map_append,
      List.map_cons]

theorem choices_renumber (f : Nat → Nat) (cs : List Choice) :
    choices (Renumber.choices f cs) = (choices cs).map f := by
  match cs with
  | [] => simp [choices, Renumber.choices]
  | .mk number text condition tags body :: cs =>
    rw [Renumber.choices, choices, choices, statements_renumber f body, choices_renumber f cs, List.map_append,
      List.map_cons]

end

end Preorder

/-! ## What a line leaves -/

namespace Item

/-- The statements of a line carry its number. -/
theorem eq_of_mem_statements {number : Nat} {text : List Char} {statements : List Statement} {faults : List BodyFault}
    (h : read number text = .ok (.plain statements, faults)) {n : Nat} (hn : n ∈ Preorder.statements statements) :
    n = number := by
  have hconst := read_renumber (fun _ => number) number text
  rw [h] at hconst
  obtain ⟨hitem, -⟩ := Prod.mk.inj (Except.ok.inj hconst)
  rw [Item.plain.inj hitem, Preorder.statements_renumber] at hn
  obtain ⟨-, -, rfl⟩ := List.mem_map.1 hn
  rfl

/-- A line that is `<<stop>>`. -/
def IsStop (text : List Char) : Prop :=
  ∃ inside, commandInside? text = some inside ∧ splitKeyword inside = (['s', 't', 'o', 'p'], [])

/-- What is read of a line leaves a trace: if it is statements, there is a line number in them or a fault. -/
def LeavesTrace (noted : Noted Item) : Prop :=
  ∀ statements, noted.1 = .plain statements → Preorder.statements statements ≠ [] ∨ noted.2 ≠ []

theorem leavesTrace_readCommand (number : Nat) (inside : List Char) :
    splitKeyword inside = (['s', 't', 'o', 'p'], []) ∨ LeavesTrace (readCommand number inside) := by
  unfold readCommand
  dsimp only
  split
  · exact .inr fun _ h => nomatch h
  · exact .inr fun _ h => nomatch h
  · exact .inr fun _ h => nomatch h
  · exact .inr fun _ h => nomatch h
  · split
    · refine .inr fun statements h => .inl ?_
      rw [← Item.plain.inj h]
      simp [Preorder.statements, Preorder.statement]
    · exact .inr fun _ _ => .inr (List.cons_ne_nil _ _)
  · rename_i hkeyword hrest
    refine .inl (Prod.ext ?_ hrest)
    rw [← String.toList_ofList (l := (splitKeyword inside).1), hkeyword]
    rfl
  · exact .inr fun _ _ => .inr (List.cons_ne_nil _ _)
  · refine .inr fun statements h => .inl ?_
    rw [← Item.plain.inj h]
    simp [Preorder.statements, Preorder.statement]
  · refine .inr fun statements h => .inl ?_
    rw [← Item.plain.inj h]
    simp [Preorder.statements, Preorder.statement]

theorem leavesTrace_of_readLine {number : Nat} {cs : List Char} {line : Statement} {faults : List BodyFault}
    (h : readLine number cs = .ok (line, faults)) : LeavesTrace (.plain [line], faults) := by
  obtain ⟨⟨base, tags⟩, -, h⟩ := Expr.of_bind_eq_ok h
  cases h
  intro statements hplain
  rw [← Item.plain.inj hplain]
  simp [Preorder.statements, Preorder.statement]

/-- A link is offered, or it is reported that it leads nowhere. -/
theorem readLink_ne_nil (number : Nat) (inside : List Char) :
    Preorder.statements (readLink number inside).1 ≠ [] ∨ (readLink number inside).2 ≠ [] := by
  unfold readLink
  dsimp only
  split_ifs
  · exact .inr (List.cons_ne_nil _ _)
  · split <;> simp [Preorder.statements, Preorder.statement]

theorem leavesTrace_of_readLinkLine {number : Nat} {cs : List Char} {noted : Noted Item}
    (hcut : (Text.cut? ['[', '['] cs).isSome) (h : readLinkLine number cs = .ok noted) : LeavesTrace noted := by
  obtain ⟨⟨before, after⟩, hcut⟩ := Option.isSome_iff_exists.1 hcut
  obtain ⟨found, hfound, h⟩ := Expr.of_bind_eq_ok h
  cases h
  intro statements hplain
  rw [← Item.plain.inj hplain, Preorder.statements_append]
  cases hclose : Text.cut? [']', ']'] after with
  | none =>
    rw [readLinks_of_not_closed hcut hclose] at hfound
    cases hfound
    exact .inr (List.cons_ne_nil _ _)
  | some closed =>
    obtain ⟨inside, rest⟩ := closed
    have htrace := readLink_ne_nil number inside
    rw [readLinks_of_closed hcut hclose] at hfound
    generalize readLink number inside = link at hfound htrace
    obtain ⟨⟨lines, faults⟩, -, hfound⟩ := Expr.of_bind_eq_ok hfound
    obtain ⟨more, -, hfound⟩ := Expr.of_bind_eq_ok hfound
    cases hfound
    rcases htrace with hlink | hfault
    · left
      simp [Preorder.statements_append, hlink]
    · right
      simp [hfault]

/-- **Every line but `<<stop>>` leaves a trace.** -/
theorem leavesTrace_of_read {number : Nat} {text : List Char} {noted : Noted Item} (h : read number text = .ok noted) :
    IsStop text ∨ LeavesTrace noted := by
  unfold read at h
  split at h
  · obtain ⟨_, _, _, hoption⟩ := exists_of_readOption h
    exact .inr fun statements hplain => by rw [hoption] at hplain; cases hplain
  · split at h
    · rename_i inside hinside
      cases h
      exact (leavesTrace_readCommand number inside).imp_left fun hstop => ⟨inside, hinside, hstop⟩
    · split at h
      · exact .inr (leavesTrace_of_readLinkLine ‹_› h)
      · obtain ⟨⟨line, faults⟩, hline, h⟩ := Expr.of_bind_eq_ok h
        cases h
        exact .inr (leavesTrace_of_readLine hline)

end Item

namespace Body

open BodyLine

/-! ## The account of a pass -/

/-- A line is taken for what it is. -/
def Suits : BodyLine × Role → Prop
  | (line, .plain) => ∃ statements, line.item = .plain statements
  | (line, .opening _) => ∃ condition, line.item = .opening condition
  | (line, .branch) => ∃ condition, line.item = .branch condition
  | (line, .closing) => line.item = .closing
  | (line, .option) => ∃ text condition tags, line.item = .option text condition tags
  | (line, .stray) => continues line.item = true

/-- **The line numbers that a line writes into the tree.** -/
def written : BodyLine × Role → List Nat
  | (line, .plain) =>
    match line.item with
    | .plain statements => Preorder.statements statements
    | _ => []
  | (line, .opening _) | (line, .branch) | (line, .option) => [line.number]
  | (_, .closing) | (_, .stray) => []

/-- **What is reported of a line.** -/
def reported : BodyLine × Role → List Diagnostic
  | (line, .opening false) => line.diagnostics ++ [⟨line.number, .missingEnd⟩]
  | (line, .stray) => [⟨line.number, .stray (.ofList line.text)⟩]
  | (_, .closing) => []
  | (line, .plain) | (line, .opening true) | (line, .branch) | (line, .option) => line.diagnostics

/-- **The account of what was read**: the lines taken wrote and reported all of it, but for what came with a line that
was taken before them. -/
structure Accounts {α : Type} (numbers : List α → List Nat) (before : List Nat × List Diagnostic) (parsed : Parsed α)
    (taken : List (BodyLine × Role)) : Prop where
  suits : ∀ e ∈ taken, Suits e
  walk : numbers parsed.items = before.1 ++ taken.flatMap written
  reports : parsed.diagnostics.Perm (before.2 ++ taken.flatMap reported)

namespace Accounts

variable {α : Type} {numbers : List α → List Nat} {before : List Nat × List Diagnostic} {parsed parsed' : Parsed α}
  {taken taken' : List (BodyLine × Role)}

theorem append (hadd : ∀ a b, numbers (a ++ b) = numbers a ++ numbers b) (h : Accounts numbers before parsed taken)
    (h' : Accounts numbers ([], []) parsed' taken') : Accounts numbers before (parsed ++ parsed') (taken ++ taken') where
  suits := List.forall_mem_append.2 ⟨h.suits, h'.suits⟩
  walk := by
    change numbers (parsed.items ++ parsed'.items) = _
    rw [hadd, h.walk, h'.walk, List.flatMap_append, List.nil_append, List.append_assoc]
  reports := by
    change (parsed.diagnostics ++ parsed'.diagnostics).Perm _
    rw [List.flatMap_append, ← List.append_assoc]
    exact h.reports.append h'.reports

/-- What came with a line is accounted for once the line is. -/
theorem cons {e : BodyLine × Role} (hsuits : Suits e) (h : Accounts numbers (written e, reported e) parsed taken) :
    Accounts numbers ([], []) parsed (e :: taken) where
  suits := List.forall_mem_cons.2 ⟨hsuits, h.suits⟩
  walk := h.walk
  reports := h.reports

theorem nothing (hnil : numbers [] = []) : Accounts numbers ([], []) ⟨[], []⟩ [] :=
  ⟨by simp, hnil, List.Perm.refl []⟩

theorem one {e : BodyLine × Role} (hsuits : Suits e) (hwalk : numbers parsed.items = written e)
    (hreports : parsed.diagnostics = reported e) : Accounts numbers ([], []) parsed [e] := by
  refine .cons hsuits ⟨by simp, ?_, ?_⟩
  · rw [hwalk, List.flatMap_nil, List.append_nil]
  · rw [hreports, List.flatMap_nil, List.append_nil]

theorem clause (line : BodyLine) {rest : List BodyLine} {body : Reading rest Statement}
    (h : Accounts Preorder.statements ([], []) body.parsed body.taken) :
    Accounts Preorder.clauses ([line.number], line.diagnostics) (body.clause line).parsed body.taken where
  suits := h.suits
  walk := by simpa [Reading.clause, Reading.as, Preorder.clauses] using h.walk
  reports := List.Perm.append_left line.diagnostics h.reports

theorem choice (line : BodyLine) (text : Template) (condition : Option Expr) (tags : List String)
    {rest : List BodyLine} {body : Reading rest Statement}
    (h : Accounts Preorder.statements ([], []) body.parsed body.taken) :
    Accounts Preorder.choices ([line.number], line.diagnostics) (body.choice line text condition tags).parsed
      body.taken where
  suits := h.suits
  walk := by simpa [Reading.choice, Reading.as, Preorder.choices] using h.walk
  reports := List.Perm.append_left line.diagnostics h.reports

theorem conditional {line : BodyLine} {rest : List BodyLine} {found : Reading rest Clause} (closed : Bool)
    (h : Accounts Preorder.clauses ([line.number], line.diagnostics) found.parsed found.taken) :
    Accounts Preorder.statements (written (line, .opening closed), reported (line, .opening closed))
      ⟨[.conditional found.parsed.items],
        found.parsed.diagnostics ++ if closed then [] else [⟨line.number, .missingEnd⟩]⟩ found.taken where
  suits := h.suits
  walk := by simpa [Preorder.statements, Preorder.statement, written] using h.walk
  reports := by
    cases closed with
    | true => simpa [reported] using h.reports
    | false =>
      have hmissing := h.reports.append_right [⟨line.number, .missingEnd⟩]
      rw [List.append_assoc] at hmissing
      simp only [Bool.false_eq_true, if_false, reported, List.append_assoc]
      exact hmissing.trans (List.perm_append_comm.append_left _)

theorem options {line : BodyLine} {rest : List BodyLine} {found : Reading rest Choice}
    (h : Accounts Preorder.choices ([line.number], line.diagnostics) found.parsed found.taken) :
    Accounts Preorder.statements (written (line, .option), reported (line, .option))
      ⟨[.options found.parsed.items], found.parsed.diagnostics⟩ found.taken where
  suits := h.suits
  walk := by simpa [Preorder.statements, Preorder.statement, written] using h.walk
  reports := h.reports

end Accounts

namespace Cursor

mutual

/-- **A block accounts for each line it takes.** -/
theorem block_accounts (parent : Option Nat) (depth : Nat) (lines : List BodyLine) :
    Accounts Preorder.statements ([], []) (block parent depth lines).parsed (block parent depth lines).taken := by
  match lines with
  | [] =>
    rw [block]
    exact .nothing rfl
  | line :: rest =>
    cases hleaves : leaves parent line with
    | true =>
      rw [block_leaves hleaves]
      exact .nothing rfl
    | false =>
      cases hitem : line.item with
      | plain statements =>
        rw [block_plain hleaves hitem]
        exact .append Preorder.statements_append (.one ⟨statements, hitem⟩ (by rw [written, hitem]; rfl) rfl)
          (block_accounts parent depth rest)
      | branch _ | closing =>
        have hcontinues : continues line.item = true := by rw [hitem]; rfl
        by_cases hdepth : depth = 0
        · rw [hdepth, block_stray hleaves hcontinues]
          exact .append Preorder.statements_append (.one hcontinues rfl rfl) (block_accounts parent 0 rest)
        · rw [block_continues hdepth hcontinues]
          exact .nothing rfl
      | opening condition =>
        have hlength := (clauses parent (depth + 1) line rest).1.length_rest_le
        rw [block_opening hleaves hitem rfl]
        exact .append Preorder.statements_append
          (.cons ⟨condition, hitem⟩ ((clauses_accounts parent (depth + 1) line rest).conditional _))
          (block_accounts parent depth (clauses parent (depth + 1) line rest).1.rest)
      | option text condition tags =>
        have hlength := (choices line text condition tags rest).length_rest_le
        rw [block_option hleaves hitem rfl]
        exact .append Preorder.statements_append
          (.cons ⟨text, condition, tags, hitem⟩ (choices_accounts line text condition tags rest).options)
          (block_accounts parent depth (choices line text condition tags rest).rest)
termination_by 2 * lines.length
decreasing_by
  all_goals
    simp only [List.length_cons]
    omega

theorem clauses_accounts (parent : Option Nat) (depth : Nat) (line : BodyLine) (rest : List BodyLine) :
    Accounts Preorder.clauses ([line.number], line.diagnostics) (clauses parent depth line rest).1.parsed
      (clauses parent depth line rest).1.taken := by
  have hbody := (block_accounts parent depth rest).clause line
  by_cases hend : ∀ l ∈ (block parent depth rest).rest.head?, leaves parent l = true ∨ continues l.item = false
  · rw [clauses_ended rfl hend]
    exact hbody
  · obtain ⟨next, hnext, hstays, hcontinues⟩ : ∃ next ∈ (block parent depth rest).rest.head?,
        leaves parent next = false ∧ continues next.item = true := by simpa using hend
    obtain ⟨more, hrest⟩ : ∃ more, (block parent depth rest).rest = next :: more := List.head?_eq_some_iff.1 hnext
    have hshorter : more.length < rest.length := Reading.length_lt_of_rest_eq hrest
    cases hitem : next.item with
    | opening _ | option _ _ _ | plain _ =>
      rw [hitem] at hcontinues
      cases hcontinues
    | closing =>
      rw [clauses_closing rfl hrest hstays hitem]
      exact hbody.append Preorder.clauses_append (.one hitem rfl rfl)
    | branch condition =>
      rw [clauses_branch rfl hrest hstays hitem rfl]
      exact hbody.append Preorder.clauses_append
        (.cons ⟨condition, hitem⟩ (clauses_accounts parent depth next more))
termination_by 2 * rest.length + 1
decreasing_by
  all_goals omega

theorem choices_accounts (line : BodyLine) (text : Template) (condition : Option Expr) (tags : List String)
    (rest : List BodyLine) : Accounts Preorder.choices ([line.number], line.diagnostics)
      (choices line text condition tags rest).parsed (choices line text condition tags rest).taken := by
  have hbody := (block_accounts (some line.indent) 0 rest).choice line text condition tags
  by_cases hend : ∀ l ∈ (block (some line.indent) 0 rest).rest.head?, l.isOptionAt line.indent = false
  · rw [choices_ended rfl hend]
    exact hbody
  · obtain ⟨next, hnext, hoption⟩ : ∃ next ∈ (block (some line.indent) 0 rest).rest.head?,
        next.isOptionAt line.indent = true := by simpa using hend
    obtain ⟨more, hrest⟩ : ∃ more, (block (some line.indent) 0 rest).rest = next :: more :=
      List.head?_eq_some_iff.1 hnext
    have hshorter : more.length < rest.length := Reading.length_lt_of_rest_eq hrest
    obtain ⟨text', condition', tags', hitem, hindent⟩ := exists_of_isOptionAt hoption
    rw [choices_option rfl hrest hitem hindent rfl]
    exact hbody.append Preorder.choices_append
      (.cons ⟨text', condition', tags', hitem⟩ (choices_accounts next text' condition' tags' more))
termination_by 2 * rest.length + 1
decreasing_by
  all_goals omega

end

end Cursor

/-! ## Lines and what they leave -/

section Lines

variable {e : BodyLine × Role}

/-- What a line writes carries its number. -/
theorem eq_of_mem_written (hread : Item.read e.1.number e.1.text = .ok (e.1.item, e.1.faults)) {n : Nat}
    (hn : n ∈ written e) : n = e.1.number := by
  obtain ⟨line, role⟩ := e
  cases role with
  | plain =>
    unfold written at hn
    dsimp only at hn hread ⊢
    split at hn
    · rename_i hitem
      rw [hitem] at hread
      exact Item.eq_of_mem_statements hread hn
    · cases hn
  | opening _ | branch | option => exact List.mem_singleton.1 hn
  | closing | stray => cases hn

theorem line_eq_of_mem_diagnostics {line : BodyLine} {d : Diagnostic} (hd : d ∈ line.diagnostics) :
    d.line = line.number := by
  obtain ⟨fault, -, rfl⟩ := List.mem_map.1 hd
  rfl

/-- What is reported of a line carries its number. -/
theorem line_eq_of_mem_reported {d : Diagnostic} (hd : d ∈ reported e) : d.line = e.1.number := by
  obtain ⟨line, role⟩ := e
  cases role with
  | opening closed =>
    cases closed with
    | true => exact line_eq_of_mem_diagnostics hd
    | false =>
      rcases List.mem_append.1 hd with hd | hd
      · exact line_eq_of_mem_diagnostics hd
      · rw [List.mem_singleton.1 hd]
  | stray => rw [List.mem_singleton.1 hd]
  | closing => cases hd
  | plain | branch | option => exact line_eq_of_mem_diagnostics hd

/-- A line is seen in the tree or in what is reported. -/
theorem exists_trace (hread : Item.read e.1.number e.1.text = .ok (e.1.item, e.1.faults)) (hsuits : Suits e)
    (hclosing : e.2 ≠ .closing) (hstop : ¬ Item.IsStop e.1.text) :
    e.1.number ∈ written e ∨ ∃ d ∈ reported e, d.line = e.1.number := by
  obtain ⟨line, role⟩ := e
  cases role with
  | closing => exact absurd rfl hclosing
  | opening _ | branch | option => exact .inl (List.mem_singleton_self _)
  | stray => exact .inr ⟨_, List.mem_singleton_self _, rfl⟩
  | plain =>
    obtain ⟨statements, hitem⟩ := hsuits
    rcases (Item.leavesTrace_of_read hread).resolve_left hstop statements hitem with hwritten | hfaults
    · obtain ⟨n, hn⟩ := List.exists_mem_of_ne_nil _ hwritten
      dsimp only at hitem hread
      rw [hitem] at hread
      obtain rfl := Item.eq_of_mem_statements hread hn
      left
      rw [written, hitem]
      exact hn
    · obtain ⟨fault, hfault⟩ := List.exists_mem_of_ne_nil _ hfaults
      exact .inr ⟨_, List.mem_map_of_mem hfault, rfl⟩

end Lines

/-! ## Scripts -/

/-- **The account of a script.** -/
structure IsAccount (src : String) (parsed : Parsed Statement) (taken : List (BodyLine × Role)) : Prop where
  /-- Every line of the script is taken, once and in its place. -/
  lines : (kept src.toList).mapM BodyLine.read = .ok (taken.map Prod.fst)
  suits : ∀ e ∈ taken, Suits e
  /-- A walk of the tree meets what the lines wrote, in their order. -/
  walk : Preorder.statements parsed.items = taken.flatMap written
  reports : parsed.diagnostics.Perm (taken.flatMap reported)
  /-- A line leaves a trace, unless it is `<<stop>>` or closes a conditional. -/
  trace : ∀ e ∈ taken, e.2 ≠ .closing → ¬ Item.IsStop e.1.text →
    e.1.number ∈ Preorder.statements parsed.items ∨ ∃ d ∈ parsed.diagnostics, d.line = e.1.number
  number_mem : ∀ n ∈ Preorder.statements parsed.items, n ∈ numbers src
  line_mem : ∀ d ∈ parsed.diagnostics, d.line ∈ numbers src
  ordered : (Preorder.statements parsed.items).Pairwise (· ≤ ·)

theorem isAccount_of_accounts {src : String} {parsed : Parsed Statement} {taken : List (BodyLine × Role)}
    (hlines : (kept src.toList).mapM BodyLine.read = .ok (taken.map Prod.fst))
    (h : Accounts Preorder.statements ([], []) parsed taken) : IsAccount src parsed taken := by
  have hread (e : BodyLine × Role) (he : e ∈ taken) :
      e.1.number ∈ numbers src ∧ Item.read e.1.number e.1.text = .ok (e.1.item, e.1.faults) := by
    obtain ⟨⟨number, indent, text⟩, hk, hline⟩ := exists_of_mem_lines hlines (List.mem_map_of_mem he)
    obtain ⟨rfl, -, rfl, hread⟩ := of_read_eq_ok hline
    exact ⟨List.mem_map_of_mem hk, hread⟩
  have hnumbers : taken.Pairwise fun a b => a.1.number < b.1.number := by
    have hgrow := pairwise_numbers src
    rwa [numbers, ← map_number_of_mapM_read hlines, List.pairwise_map, List.pairwise_map] at hgrow
  have hwalk : Preorder.statements parsed.items = taken.flatMap written := h.walk
  have hreports : parsed.diagnostics.Perm (taken.flatMap reported) := h.reports
  refine ⟨hlines, h.suits, hwalk, hreports, ?_, ?_, ?_, ?_⟩
  · intro e he hclosing hstop
    rcases exists_trace (hread e he).2 (h.suits e he) hclosing hstop with hn | ⟨d, hd, hline⟩
    · exact .inl (hwalk ▸ List.mem_flatMap_of_mem he hn)
    · exact .inr ⟨d, hreports.mem_iff.2 (List.mem_flatMap_of_mem he hd), hline⟩
  · intro n hn
    obtain ⟨e, he, hn⟩ := List.mem_flatMap.1 (hwalk ▸ hn)
    rw [eq_of_mem_written (hread e he).2 hn]
    exact (hread e he).1
  · intro d hd
    obtain ⟨e, he, hd⟩ := List.mem_flatMap.1 (hreports.mem_iff.1 hd)
    rw [line_eq_of_mem_reported hd]
    exact (hread e he).1
  · rw [hwalk, List.pairwise_flatMap]
    refine ⟨fun e he => ?_, ?_⟩
    · refine List.pairwise_of_forall_mem_list fun a ha b hb => ?_
      rw [eq_of_mem_written (hread e he).2 ha, eq_of_mem_written (hread e he).2 hb]
    · refine hnumbers.imp_of_mem fun ha hb hlt x hx y hy => ?_
      rw [eq_of_mem_written (hread _ ha).2 hx, eq_of_mem_written (hread _ hb).2 hy]
      exact hlt.le

/-- **No line of a script is lost.** The pass over its lines reads the script, takes every line once and leaves none, and
its account is one of the script. -/
theorem parse_accounts {src : String} {parsed : Parsed Statement} (h : parse src = .ok parsed) :
    ∃ lines, (kept src.toList).mapM BodyLine.read = .ok lines ∧ (Cursor.block none 0 lines).parsed = parsed ∧
      (Cursor.block none 0 lines).rest = [] ∧ IsAccount src parsed (Cursor.block none 0 lines).taken := by
  obtain ⟨lines, hlines, rfl⟩ := exists_of_parse_eq_ok h
  obtain ⟨hparsed, hrest⟩ := Cursor.block_eq lines
  have htaken := (Cursor.block none 0 lines).whole
  rw [hrest, List.append_nil] at htaken
  have haccounts := Cursor.block_accounts none 0 lines
  rw [hparsed] at haccounts
  exact ⟨lines, hlines, hparsed, hrest, isAccount_of_accounts (by rw [htaken, hlines]) haccounts⟩

/-- Lines of conditionals where none is open, at the top and in the body of an option, and a conditional that nothing
closes. -/
def strandedSource : String :=
  "<<else>>\n<<if $x>>\n-> A\n  <<endif>>\n  <<stop>>\n<<endif>>\n<<if $y>>\n"

theorem parse_accounts_stranded : ∃ parsed lines, parse strandedSource = .ok parsed ∧
    (kept strandedSource.toList).mapM BodyLine.read = .ok lines ∧ (Cursor.block none 0 lines).parsed = parsed ∧
    (Cursor.block none 0 lines).rest = [] ∧ IsAccount strandedSource parsed (Cursor.block none 0 lines).taken ∧
    Preorder.statements parsed.items = [2, 3, 7] ∧ parsed.diagnostics.map Diagnostic.line = [1, 4, 7] := by
  have hvalue : (parse strandedSource).toOption.map (fun parsed => (Preorder.statements parsed.items,
      parsed.diagnostics.map Diagnostic.line)) = some ([2, 3, 7], [1, 4, 7]) := by decide +kernel
  cases hparse : parse strandedSource with
  | error _ =>
    rw [hparse] at hvalue
    cases hvalue
  | ok parsed =>
    obtain ⟨lines, hlines, haccount⟩ := parse_accounts hparse
    rw [hparse] at hvalue
    obtain ⟨hwalk, hreports⟩ := Prod.mk.inj (Option.some.inj hvalue)
    exact ⟨parsed, lines, rfl, hlines, haccount.1, haccount.2.1, haccount.2.2, hwalk, hreports⟩

end Body

end Dialogue
