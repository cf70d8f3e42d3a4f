import Mathlib
import Dialogue.Proofs.Body.Kept
import Dialogue.Proofs.Body.Nesting

/-!
# Indentation

Only the order of the indents matters to how the lines of a script nest, and the numbers of the lines are only passed on
(`Body.parse_indentedAlike`). Two scripts whose lines have the same texts are the same lines with other numbers and
other indents (`BodyLine.move`). A line is read from its text (`Item.read_renumber`). Every extent ends at a comparison
of two indents, which comes out the same when the indents keep their order (`BodyLine.extent_move`,
`BodyLine.group_move`, `BodyLine.deeper_move`), so the parts of moved lines are the moved parts (`Body.block_move`).
-/

namespace Dialogue

/-! ## Other line numbers -/

namespace Renumber

section Tree

variable (f : Nat → Nat)

mutual

/-- **The statement with other line numbers.** -/
def statement : Statement → Statement
  | .line number text tags => .line (f number) text tags
  | .command number text => .command (f number) text
  | .set number name value => .set (f number) name value
  | .conditional branches => .conditional (clauses branches)
  | .link number label destination => .link (f number) label destination
  | .options alternatives => .options (choices alternatives)
  | .jump number destination => .jump (f number) destination
  | .stop => .stop

def statements : List Statement → List Statement
  | [] => []
  | s :: rest => statement s :: statements rest

def clauses : List Clause → List Clause
  | [] => []
  | .mk number condition body :: rest => .mk (f number) condition (statements body) :: clauses rest

def choices : List Choice → List Choice
  | [] => []
  | .mk number text condition tags body :: rest =>
    .mk (f number) text condition tags (statements body) :: choices rest

end

theorem statements_append (a b : List Statement) : statements f (a ++ b) = statements f a ++ statements f b := by
  induction a with
  | nil => simp [statements]
  | cons s a ih => simp [statements, ih]

theorem clauses_append (a b : List Clause) : clauses f (a ++ b) = clauses f a ++ clauses f b := by
  induction a with
  | nil => simp [clauses]
  | cons c a ih =>
    cases c
    simp [clauses, ih]

theorem choices_append (a b : List Choice) : choices f (a ++ b) = choices f a ++ choices f b := by
  induction a with
  | nil => simp [choices]
  | cons c a ih =>
    cases c
    simp [choices, ih]

def diagnostic (d : Diagnostic) : Diagnostic :=
  ⟨f d.line, d.fault⟩

/-- What is read, with other line numbers. -/
def parsed {α : Type} (items : List α → List α) (p : Parsed α) : Parsed α :=
  ⟨items p.items, p.diagnostics.map (diagnostic f)⟩

theorem parsed_append {α : Type} {items : List α → List α} (h : ∀ a b, items (a ++ b) = items a ++ items b)
    (p q : Parsed α) : parsed f items (p ++ q) = parsed f items p ++ parsed f items q := by
  change Parsed.mk (items (p.items ++ q.items)) ((p.diagnostics ++ q.diagnostics).map (diagnostic f)) = _
  rw [h, List.map_append]
  rfl

def item : Item → Item
  | .plain body => .plain (statements f body)
  | .opening condition => .opening condition
  | .branch condition => .branch condition
  | .closing => .closing
  | .option text condition tags => .option text condition tags

end Tree

end Renumber

/-! ## Lines are read from their texts -/

namespace Item

variable (f : Nat → Nat) (number : Nat)

theorem readCommand_renumber (inside : List Char) :
    readCommand (f number) inside = (Renumber.item f (readCommand number inside).1, (readCommand number inside).2) := by
  unfold readCommand
  dsimp only
  split
  · rfl
  · rfl
  · rfl
  · rfl
  · split <;> rfl
  · rfl
  · rfl
  · rfl
  · rfl

theorem readLine_renumber (cs : List Char) :
    readLine (f number) cs = (readLine number cs).map fun noted => (Renumber.statement f noted.1, noted.2) := by
  unfold readLine
  cases Tags.split cs <;> rfl

theorem readLink_renumber (inside : List Char) : readLink (f number) inside =
    (Renumber.statements f (readLink number inside).1, (readLink number inside).2) := by
  unfold readLink
  dsimp only
  split_ifs
  · rfl
  · split <;> rfl

theorem readLeading_renumber (cs : List Char) : readLeading (f number) cs =
    (readLeading number cs).map fun noted => (Renumber.statements f noted.1, noted.2) := by
  unfold readLeading
  split_ifs
  · rfl
  · rw [readLine_renumber]
    cases readLine number cs <;> rfl

/-- What a line with links holds, with another line number. -/
def Links.renumber (found : Links) : Links :=
  { found with lines := Renumber.statements f found.lines, links := Renumber.statements f found.links }

theorem readLinks_renumber (cs : List Char) :
    readLinks (f number) cs = (readLinks number cs).map (Links.renumber f) := by
  fun_induction readLinks number cs with
  | case1 cs hcut =>
    rw [readLinks_of_cut?_eq_none hcut]
    rfl
  | case2 cs before after hcut hclose =>
    rw [readLinks_of_not_closed hcut hclose]
    rfl
  | case3 cs before after hcut inside rest hclose ih =>
    rw [readLinks_of_closed hcut hclose, readLeading_renumber, readLink_renumber, ih]
    generalize readLink number inside = link
    cases readLeading number (Text.trim before) with
    | error fault => rfl
    | ok leading =>
      cases readLinks number rest with
      | error fault => rfl
      | ok more =>
        change Except.ok _ = Except.ok (Links.renumber f _)
        simp only [Links.renumber, Renumber.statements_append]

theorem readLinkLine_renumber (cs : List Char) : readLinkLine (f number) cs =
    (readLinkLine number cs).map fun noted => (Renumber.item f noted.1, noted.2) := by
  unfold readLinkLine
  rw [readLinks_renumber]
  cases readLinks number cs with
  | error fault => rfl
  | ok found =>
    have hempty : (Renumber.statements f found.links).isEmpty = found.links.isEmpty := by
      cases found.links <;> rfl
    change Except.ok _ = Except.ok (Renumber.item f _, _)
    rw [Renumber.item, Renumber.statements_append, ← hempty]
    rfl

theorem exists_of_readOption {cs : List Char} {noted : Noted Item} (h : readOption cs = .ok noted) :
    ∃ text condition tags, noted.1 = .option text condition tags := by
  obtain ⟨⟨base, tags⟩, -, h⟩ := Expr.of_bind_eq_ok h
  dsimp only at h
  cases hcondition : (splitCondition base).2 with
  | none =>
    rw [hcondition] at h
    cases h
    exact ⟨_, _, _, rfl⟩
  | some source =>
    rw [hcondition] at h
    cases h
    exact ⟨_, _, _, rfl⟩

/-- **A line is read from its text**, whatever its number. -/
theorem read_renumber (text : List Char) : read (f number) text =
    (read number text).map fun noted => (Renumber.item f noted.1, noted.2) := by
  unfold read
  split
  · rename_i rest _
    cases hread : readOption rest with
    | error fault => rfl
    | ok noted =>
      obtain ⟨text, condition, tags, hitem⟩ := exists_of_readOption hread
      change _ = Except.ok (Renumber.item f noted.1, noted.2)
      rw [hitem]
      exact congrArg Except.ok (Prod.ext hitem rfl)
  · split
    · rw [readCommand_renumber]
      rfl
    · split
      · exact readLinkLine_renumber f number text
      · rw [readLine_renumber]
        cases readLine number text <;> rfl

end Item

/-! ## Extents -/

namespace BodyLine

/-- **The line with another number and another indent.** -/
def move (f g : Nat → Nat) (line : BodyLine) : BodyLine :=
  { line with number := f line.number, indent := g line.indent, item := Renumber.item f line.item }

theorem read_move (f g : Nat → Nat) (number indent : Nat) (text : List Char) :
    read (f number, g indent, text) = (read (number, indent, text)).map (move f g) := by
  unfold read
  dsimp only
  rw [Item.read_renumber]
  cases Item.read number text <;> rfl

section Extents

variable {f g : Nat → Nat} {s : Set Nat} {lines inside outside : List BodyLine}

theorem diagnostics_move (line : BodyLine) :
    (line.move f g).diagnostics = line.diagnostics.map (Renumber.diagnostic f) := by
  rw [diagnostics, diagnostics, List.map_map]
  rfl

theorem continues_move (line : BodyLine) : continues (line.move f g).item = continues line.item := by
  cases h : line.item <;> simp [move, Renumber.item, continues, h]

theorem closes_move (line : BodyLine) : closes (line.move f g).item = closes line.item := by
  cases h : line.item <;> simp [move, Renumber.item, closes, h]

theorem any_move (hg : StrictMonoOn g s) {line : BodyLine} (hline : line.indent ∈ s) {shield : Option Nat}
    (hshield : ∀ indent ∈ shield, indent ∈ s) :
    (shield.map g).any (· < (line.move f g).indent) = shield.any (· < line.indent) := by
  cases shield with
  | none => rfl
  | some indent => exact decide_eq_decide.2 (hg.lt_iff_lt (hshield indent rfl) hline)

theorem past_move (hg : StrictMonoOn g s) {line : BodyLine} (hline : line.indent ∈ s) (depth : Nat)
    {shield : Option Nat} (hshield : ∀ indent ∈ shield, indent ∈ s) :
    (line.move f g).depthPast depth (shield.map g) = line.depthPast depth shield ∧
      (line.move f g).shieldPast (shield.map g) = (line.shieldPast shield).map g := by
  have hitem : depthAfter depth (line.move f g).item = depthAfter depth line.item ∧
      (line.move f g).shieldAfter = line.shieldAfter.map g := by
    cases h : line.item <;> simp [move, Renumber.item, depthAfter, shieldAfter, h]
  rw [depthPast, depthPast, shieldPast, shieldPast, any_move hg hline hshield, hitem.1, hitem.2]
  split <;> exact ⟨rfl, rfl⟩

/-- The shield after a line is its own indent, if it is not the one before it. -/
theorem mem_of_mem_shieldPast {line : BodyLine} (hline : line.indent ∈ s) {shield : Option Nat}
    (hshield : ∀ indent ∈ shield, indent ∈ s) : ∀ indent ∈ line.shieldPast shield, indent ∈ s := by
  intro indent h
  rw [shieldPast] at h
  split at h
  · exact hshield indent h
  · rw [shieldAfter] at h
    split at h
    · cases h
      exact hline
    · cases h

/-- **An extent of moved lines is the moved extent**, if their indents keep their order. -/
theorem extent_move (hg : StrictMonoOn g s) {stop : Item → Bool}
    (hstop : ∀ line : BodyLine, stop (line.move f g).item = stop line.item) {depth : Nat} {shield : Option Nat}
    (hshield : ∀ indent ∈ shield, indent ∈ s) (hs : ∀ line ∈ lines, line.indent ∈ s)
    (h : extent stop depth shield lines = (inside, outside)) :
    extent stop depth (shield.map g) (lines.map (move f g)) = (inside.map (move f g), outside.map (move f g)) := by
  induction lines generalizing depth shield inside with
  | nil =>
    cases h
    rfl
  | cons line rest ih =>
    have hline : line.indent ∈ s := hs line List.mem_cons_self
    have hany := any_move (f := f) hg hline hshield
    rw [List.map_cons]
    rcases ends_or_passes stop depth shield line with ⟨hunshielded, rfl, hend⟩ | hgoes
    · rw [extent_of_unshielded (unshielded_cons hunshielded), extent_stop hend] at h
      cases h
      rw [extent_of_unshielded (unshielded_cons (hany.trans hunshielded)), extent_stop ((hstop line).trans hend)]
      rfl
    · obtain ⟨hdepth, hpast⟩ := past_move (f := f) hg hline depth hshield
      rw [extent_step hgoes] at h
      cases h
      rw [extent_step (by rwa [hany, hstop]), hdepth, hpast,
        ih (mem_of_mem_shieldPast hline hshield) (fun l hl => hs l (List.mem_cons_of_mem _ hl)) rfl]
      rfl

theorem isOptionAt_move (hg : StrictMonoOn g s) {line : BodyLine} (hline : line.indent ∈ s) {indent : Nat}
    (hindent : indent ∈ s) : (line.move f g).isOptionAt (g indent) = line.isOptionAt indent := by
  cases h : line.item with
  | option text condition tags =>
    simp only [isOptionAt, move, Renumber.item, h]
    exact decide_eq_decide.2 (hg.injOn.eq_iff hline hindent)
  | opening _ | branch _ | closing | plain _ => simp [isOptionAt, move, Renumber.item, h]

/-- A test that comes out the same cuts moved lines at the same place. -/
theorem span_move {p q : BodyLine → Bool} (h : ∀ line ∈ lines, q (line.move f g) = p line) :
    (lines.map (move f g)).takeWhile q = (lines.takeWhile p).map (move f g) ∧
      (lines.map (move f g)).dropWhile q = (lines.dropWhile p).map (move f g) := by
  induction lines with
  | nil => exact ⟨rfl, rfl⟩
  | cons line rest ih =>
    have hline := h line List.mem_cons_self
    obtain ⟨htake, hdrop⟩ := ih fun l hl => h l (List.mem_cons_of_mem _ hl)
    cases hp : p line with
    | true => simp [hline, hp, htake, hdrop]
    | false => simp [hline, hp]

theorem group_move (hg : StrictMonoOn g s) (hs : ∀ line ∈ lines, line.indent ∈ s) {indent : Nat} (hindent : indent ∈ s)
    (h : group indent lines = (inside, outside)) :
    group (g indent) (lines.map (move f g)) = (inside.map (move f g), outside.map (move f g)) := by
  cases h
  have hspan : _ ∧ _ := span_move (f := f) (g := g) (p := inGroup indent) (q := inGroup (g indent)) fun line hl => by
    rw [inGroup, inGroup, isOptionAt_move hg (hs line hl) hindent]
    exact congrArg (· || _) (decide_eq_decide.2 (hg.lt_iff_lt hindent (hs line hl)))
  exact Prod.ext hspan.1 hspan.2

theorem deeper_move (hg : StrictMonoOn g s) (hs : ∀ line ∈ lines, line.indent ∈ s) {indent : Nat}
    (hindent : indent ∈ s) (h : deeper indent lines = (inside, outside)) :
    deeper (g indent) (lines.map (move f g)) = (inside.map (move f g), outside.map (move f g)) := by
  cases h
  have hspan : _ ∧ _ := span_move (f := f) (g := g) (p := (indent < ·.indent)) (q := (g indent < ·.indent)) fun line hl =>
    decide_eq_decide.2 (hg.lt_iff_lt hindent (hs line hl))
  exact Prod.ext hspan.1 hspan.2

end Extents

end BodyLine

namespace Body

open BodyLine

/-! ## Blocks -/

section Blocks

variable {f g : Nat → Nat} {s : Set Nat} {line : BodyLine} {rest : List BodyLine}

theorem item_move {item : Item} (h : line.item = item) : (line.move f g).item = Renumber.item f item := by
  rw [← h]
  rfl

mutual

/-- **A block of moved lines is the block, with other line numbers.** -/
theorem block_move (hg : StrictMonoOn g s) (lines : List BodyLine) (hs : ∀ l ∈ lines, l.indent ∈ s) :
    block (lines.map (move f g)) = Renumber.parsed f (Renumber.statements f) (block lines) := by
  match lines with
  | [] =>
    rw [List.map_nil, block]
    rfl
  | line :: rest =>
    obtain ⟨hline, hrest⟩ := List.forall_mem_cons.1 hs
    rw [List.map_cons]
    cases hitem : line.item with
    | plain body =>
      rw [block_plain (item_move hitem), block_plain hitem, block_move hg rest hrest,
        Renumber.parsed_append f (Renumber.statements_append f), diagnostics_move]
      rfl
    | branch _ | closing =>
      rw [block_stray (by rw [item_move hitem]; rfl), block_stray (by rw [hitem]; rfl), block_move hg rest hrest,
        Renumber.parsed_append f (Renumber.statements_append f)]
      rfl
    | opening condition =>
      obtain ⟨inside, outside, he⟩ : ∃ inside outside, extent closes 0 none rest = (inside, outside) := ⟨_, _, rfl⟩
      have hwhole := extent_whole he
      have hlength := (congrArg List.length hwhole).trans List.length_append
      obtain ⟨hinside, houtside⟩ := List.forall_mem_append.1 (hwhole ▸ hrest)
      have hmoved := extent_move hg (f := f) closes_move (by simp) hrest he
      have hmissing : (if (outside.map (move f g)).isEmpty then [(⟨f line.number, .missingEnd⟩ : Diagnostic)] else []) =
          (if outside.isEmpty then [⟨line.number, .missingEnd⟩] else []).map (Renumber.diagnostic f) := by
        cases outside <;> rfl
      rw [block_opening (item_move hitem) hmoved, block_opening hitem he,
        Renumber.parsed_append f (Renumber.statements_append f), ← List.map_cons,
        clauses_move hg (line :: inside) (List.forall_mem_cons.2 ⟨hline, hinside⟩), ← List.map_drop,
        block_move hg (outside.drop 1) (fun l hl => houtside l (List.mem_of_mem_drop hl))]
      refine congrArg (· ++ _) ?_
      simp only [Renumber.parsed, List.map_append, ← hmissing]
      rfl
    | option text condition tags =>
      obtain ⟨inside, outside, hgroup⟩ : ∃ inside outside, group line.indent rest = (inside, outside) := ⟨_, _, rfl⟩
      have hwhole := group_whole hgroup
      have hlength := (congrArg List.length hwhole).trans List.length_append
      obtain ⟨hinside, houtside⟩ := List.forall_mem_append.1 (hwhole ▸ hrest)
      rw [block_option (item_move hitem) (group_move hg hrest hline hgroup), block_option hitem hgroup,
        Renumber.parsed_append f (Renumber.statements_append f), ← List.map_cons,
        choices_move hg (line :: inside) (List.forall_mem_cons.2 ⟨hline, hinside⟩), block_move hg outside houtside]
      rfl
termination_by 3 * lines.length + 2
decreasing_by
  all_goals
    simp only [List.length_cons, List.length_drop]
    omega

theorem clauses_move (hg : StrictMonoOn g s) (lines : List BodyLine) (hs : ∀ l ∈ lines, l.indent ∈ s) :
    clauses (lines.map (move f g)) = Renumber.parsed f (Renumber.clauses f) (clauses lines) := by
  match lines with
  | [] =>
    rw [List.map_nil, clauses]
    rfl
  | line :: rest =>
    obtain ⟨hline, hrest⟩ := List.forall_mem_cons.1 hs
    obtain ⟨inside, outside, he⟩ : ∃ inside outside, extent continues 0 none rest = (inside, outside) := ⟨_, _, rfl⟩
    have hwhole := extent_whole he
    have hlength := (congrArg List.length hwhole).trans List.length_append
    obtain ⟨hinside, houtside⟩ := List.forall_mem_append.1 (hwhole ▸ hrest)
    have hmoved := extent_move hg (f := f) continues_move (by simp) hrest he
    have hcondition : (line.move f g).item.condition? = line.item.condition? := by
      cases hitem : line.item <;> rw [item_move hitem] <;> rfl
    rw [List.map_cons, clauses_cons hmoved, clauses_cons he, hcondition, block_move hg inside hinside,
      clauses_move hg outside houtside, diagnostics_move, Renumber.parsed_append f (Renumber.clauses_append f)]
    refine congrArg (· ++ _) ?_
    simp only [Renumber.parsed, List.map_append]
    rfl
termination_by 3 * lines.length + 1
decreasing_by
  all_goals
    simp only [List.length_cons]
    omega

theorem choices_move (hg : StrictMonoOn g s) (lines : List BodyLine) (hs : ∀ l ∈ lines, l.indent ∈ s) :
    choices (lines.map (move f g)) = Renumber.parsed f (Renumber.choices f) (choices lines) := by
  match lines with
  | [] =>
    rw [List.map_nil, choices]
    rfl
  | line :: rest =>
    obtain ⟨hline, hrest⟩ := List.forall_mem_cons.1 hs
    rw [List.map_cons]
    cases hitem : line.item with
    | option text condition tags =>
      obtain ⟨inside, outside, hd⟩ : ∃ inside outside, deeper line.indent rest = (inside, outside) := ⟨_, _, rfl⟩
      have hwhole := deeper_whole hd
      have hlength := (congrArg List.length hwhole).trans List.length_append
      obtain ⟨hinside, houtside⟩ := List.forall_mem_append.1 (hwhole ▸ hrest)
      rw [choices_option (item_move hitem) (deeper_move hg hrest hline hd), choices_option hitem hd,
        block_move hg inside hinside, choices_move hg outside houtside, diagnostics_move,
        Renumber.parsed_append f (Renumber.choices_append f)]
      refine congrArg (· ++ _) ?_
      simp only [Renumber.parsed, List.map_append]
      rfl
    | opening _ | branch _ | closing | plain _ =>
      rw [choices, item_move hitem, choices, hitem]
      rfl
termination_by 3 * lines.length + 1
decreasing_by
  all_goals
    simp only [List.length_cons]
    omega

end

end Blocks

/-! ## Scripts -/

/-- **Two scripts are indented alike**: their lines have the same texts, and a line is deeper than another in the one
exactly if it is in the other. -/
structure IndentedAlike (src src' : String) : Prop where
  texts_eq : texts src = texts src'
  lt_iff : ∀ p ∈ (indents src).zip (indents src'), ∀ q ∈ (indents src).zip (indents src'), p.1 < q.1 ↔ p.2 < q.2

/-- A list that changes only where another one does is a map of it. -/
theorem exists_eq_map {xs ys : List Nat} (hlength : xs.length = ys.length)
    (h : ∀ p ∈ xs.zip ys, ∀ q ∈ xs.zip ys, p.1 = q.1 → p.2 = q.2) :
    ∃ f : Nat → Nat, ys = xs.map f ∧ ∀ p ∈ xs.zip ys, f p.1 = p.2 := by
  classical
  let f (x : Nat) : Nat := if h : ∃ y, (x, y) ∈ xs.zip ys then h.choose else 0
  have hf : ∀ p ∈ xs.zip ys, f p.1 = p.2 := by
    intro p hp
    have hex : ∃ y, (p.1, y) ∈ xs.zip ys := ⟨p.2, hp⟩
    simp only [f, dif_pos hex]
    exact h _ hex.choose_spec p hp rfl
  refine ⟨f, ?_, hf⟩
  calc ys = (xs.zip ys).map Prod.snd := (List.map_snd_zip hlength.ge).symm
    _ = (xs.zip ys).map (f ∘ Prod.fst) := List.map_congr_left fun p hp => (hf p hp).symm
    _ = xs.map f := by rw [← List.map_map, List.map_fst_zip hlength.le]

theorem snd_eq_of_nodup {xs ys : List Nat} (h : xs.Nodup) : ∀ p ∈ xs.zip ys, ∀ q ∈ xs.zip ys, p.1 = q.1 → p.2 = q.2 := by
  intro p hp q hq heq
  obtain ⟨i, hi, rfl⟩ := List.getElem_of_mem hp
  obtain ⟨j, hj, rfl⟩ := List.getElem_of_mem hq
  simp only [List.getElem_zip] at heq ⊢
  obtain rfl : i = j := h.getElem_inj_iff.1 heq
  rfl

theorem eq_map_of_projections {f g : Nat → Nat} {lines lines' : List (Nat × Nat × List Char)}
    (hnumbers : lines'.map (·.1) = (lines.map (·.1)).map f) (hindents : lines'.map (·.2.1) = (lines.map (·.2.1)).map g)
    (htexts : lines'.map (·.2.2) = lines.map (·.2.2)) :
    lines' = lines.map fun (number, indent, text) => (f number, g indent, text) := by
  induction lines generalizing lines' with
  | nil => simpa using hnumbers
  | cons k lines ih =>
    cases lines' with
    | nil => simp at hnumbers
    | cons k' lines' =>
      simp only [List.map_cons, List.cons.injEq] at hnumbers hindents htexts ⊢
      exact ⟨Prod.ext hnumbers.1 (Prod.ext hindents.1 htexts.1), ih hnumbers.2 hindents.2 htexts.2⟩

/-- The lines of scripts that are indented alike differ in their numbers and indents only. -/
theorem IndentedAlike.exists_move {src src' : String} (h : IndentedAlike src src') :
    ∃ f g : Nat → Nat, StrictMonoOn g {indent | indent ∈ indents src} ∧
      kept src'.toList = (kept src.toList).map fun (number, indent, text) => (f number, g indent, text) := by
  have hlength : (kept src.toList).length = (kept src'.toList).length := by
    simpa [texts] using congrArg List.length h.texts_eq
  obtain ⟨f, hnumbers, -⟩ : ∃ f : Nat → Nat, numbers src' = (numbers src).map f ∧ _ :=
    exists_eq_map (by simpa [numbers] using hlength) (snd_eq_of_nodup ((pairwise_numbers src).imp ne_of_lt))
  have hlevel : (indents src).length = (indents src').length := by simpa [indents] using hlength
  obtain ⟨g, hindents, hg⟩ : ∃ g : Nat → Nat, indents src' = (indents src).map g ∧ _ := by
    refine exists_eq_map hlevel fun p hp q hq heq => ?_
    have hpq := h.lt_iff p hp q hq
    have hqp := h.lt_iff q hq p hp
    omega
  refine ⟨f, g, ?_, ?_⟩
  · intro a ha b hb hlt
    obtain ⟨p, hp, rfl⟩ := List.mem_map.1 ((List.map_fst_zip hlevel.le).symm ▸ ha)
    obtain ⟨q, hq, rfl⟩ := List.mem_map.1 ((List.map_fst_zip hlevel.le).symm ▸ hb)
    rw [hg p hp, hg q hq]
    exact (h.lt_iff p hp q hq).1 hlt
  · exact eq_map_of_projections hnumbers hindents h.texts_eq.symm

/-- The lines of scripts that are indented alike are read alike. -/
theorem mapM_read_move (f g : Nat → Nat) (kept : List (Nat × Nat × List Char)) :
    (kept.map fun (number, indent, text) => (f number, g indent, text)).mapM BodyLine.read =
      (kept.mapM BodyLine.read).map (List.map (move f g)) := by
  induction kept with
  | nil => rfl
  | cons k kept ih =>
    rw [List.map_cons, List.mapM_cons, List.mapM_cons, ih, read_move]
    cases BodyLine.read k with
    | error fault => rfl
    | ok line => cases kept.mapM BodyLine.read <;> rfl

/-- **Only the order of the indents matters.** Scripts that are indented alike are read alike, with the same statements
and the same reports in the same order, once the numbers of their lines are exchanged. -/
theorem parse_indentedAlike {src src' : String} (h : IndentedAlike src src') : ∃ f : Nat → Nat,
    numbers src' = (numbers src).map f ∧
      parse src' = (parse src).map (Renumber.parsed f (Renumber.statements f)) := by
  obtain ⟨f, g, hg, hkept⟩ := h.exists_move
  refine ⟨f, ?_, ?_⟩
  · rw [numbers, hkept, List.map_map, numbers, List.map_map]
    rfl
  · rw [parse, parse, hkept, mapM_read_move]
    cases hread : (kept src.toList).mapM BodyLine.read with
    | error fault => rfl
    | ok lines =>
      have hs : ∀ l ∈ lines, l.indent ∈ {indent | indent ∈ indents src} := fun l hl => by
        obtain ⟨k, hk, hline⟩ := exists_of_mem_lines hread hl
        have hindent : k.2.1 ∈ indents src := List.mem_map_of_mem hk
        rwa [← (of_read_eq_ok hline).2.1] at hindent
      exact congrArg Except.ok (block_move hg lines hs)

/-- A conditional that nothing closes, with a stray line in the body of an option. -/
def looseSource : String :=
  "<<if $x>>\n-> A\n <<else>>\n a\n-> B\n"

/-- The same lines, indented by tabs, between blank lines and a comment. -/
def looseSourceTabs : String :=
  "\n\t<<if $x>>\n\t-> A\n\t\t<<else>>\n// a\n\n\t\ta\n\t-> B"

theorem parse_indentedAlike_loose : IndentedAlike looseSource looseSourceTabs ∧
    numbers looseSource = [1, 2, 3, 4, 5] ∧ numbers looseSourceTabs = [2, 3, 4, 7, 8] ∧
    ∃ f : Nat → Nat, numbers looseSourceTabs = (numbers looseSource).map f ∧
      parse looseSourceTabs = (parse looseSource).map (Renumber.parsed f (Renumber.statements f)) := by
  have halike : IndentedAlike looseSource looseSourceTabs := ⟨by decide +kernel, by decide +kernel⟩
  exact ⟨halike, by decide +kernel, by decide +kernel, parse_indentedAlike halike⟩

end Body

end Dialogue
