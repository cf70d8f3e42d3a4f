import Mathlib
import Dialogue.Proofs.Body.Nesting

/-!
# One pass over the lines

The lines of a script are read in one pass. A block, the branches of a conditional and the options of a group each take
lines from the front and leave the rest to whoever asked for them: `Cursor.block`, `Cursor.clauses` and `Cursor.choices`.
A block ends before a line that is no deeper than the option it is the body of, and inside of a conditional also before a
line that goes on with it or ends it.

What is taken and what is left are always all the lines (`Reading.whole`). The pass reads the same tree as the parts that
are cut out first (`Cursor.block_reads`), and at the top it leaves nothing (`Cursor.block_eq`).
-/

namespace Dialogue

/-! ## Extents of parts that go on -/

namespace BodyLine

variable {stop : Item → Bool}

theorem extent_opening {line : BodyLine} {rest : List BodyLine} {condition : Expr}
    (hitem : line.item = .opening condition) (hstop : stop line.item = false) : extent stop 0 none (line :: rest) =
      (line :: (extent stop 1 none rest).1, (extent stop 1 none rest).2) := by
  rw [extent_cons fun _ => hstop, shieldAfter, hitem]
  rfl

theorem extent_option {line : BodyLine} {rest : List BodyLine} {text : Template} {condition : Option Expr}
    {tags : List String} (hitem : line.item = .option text condition tags) (hstop : stop line.item = false)
    (depth : Nat) : extent stop depth none (line :: rest) =
      (line :: (extent stop depth (some line.indent) rest).1, (extent stop depth (some line.indent) rest).2) := by
  rw [extent_cons fun _ => hstop, shieldAfter, hitem]
  rfl

/-- Lines that no extent ends at are all passed. -/
theorem extent_never (depth : Nat) (start : Option Nat) (lines : List BodyLine) :
    extent (fun _ => false) depth start lines = (lines, []) := by
  induction lines generalizing depth start with
  | nil => rfl
  | cons line rest ih => rw [extent_step fun _ _ => rfl, ih]

/-- **With one more conditional open**, an extent passes the line that closes it and goes on. -/
theorem extent_succ (stop : Item → Bool) {depth : Nat} {start : Option Nat} {lines inside outside : List BodyLine}
    (h : extent closes depth start lines = (inside, outside)) : extent stop (depth + 1) start lines =
      (inside ++ outside.take 1 ++ (extent stop 0 none (outside.drop 1)).1,
        (extent stop 0 none (outside.drop 1)).2) := by
  induction lines generalizing depth start inside with
  | nil =>
    cases h
    rfl
  | cons line rest ih =>
    rw [extent_step fun _ hd => absurd hd (Nat.succ_ne_zero depth)]
    rcases ends_or_passes closes depth start line with ⟨hs, rfl, hcloses⟩ | hpasses
    · rw [extent_of_unshielded (unshielded_cons hs), extent_stop hcloses] at h
      cases h
      cases hitem : line.item with
      | closing => simp [depthPast, shieldPast, hs, depthAfter, shieldAfter, hitem]
      | opening _ | branch _ | option _ _ _ | plain _ =>
        rw [hitem] at hcloses
        cases hcloses
    · rw [extent_step hpasses] at h
      have hdepth : line.depthPast (depth + 1) start = line.depthPast depth start + 1 := by
        unfold depthPast
        split_ifs with hs
        · rfl
        · cases hitem : line.item with
          | closing =>
            have : depth ≠ 0 := by
              intro hd
              have := hpasses (by simpa using hs) hd
              rw [hitem] at this
              cases this
            simp only [depthAfter]
            omega
          | opening _ | branch _ | option _ _ _ | plain _ => rfl
      cases h
      rw [hdepth, ih rfl]
      rfl

/-- An extent that ends at a line ends there whatever comes after it. -/
theorem extent_append_of_eq {depth : Nat} {start : Option Nat} {lines inside outside : List BodyLine} {next : BodyLine}
    (h : extent stop depth start lines = (inside, next :: outside)) (other : List BodyLine) :
    extent stop depth start (inside ++ next :: other) = (inside, next :: other) := by
  induction lines generalizing depth start inside with
  | nil => cases h
  | cons line rest ih =>
    rcases ends_or_passes stop depth start line with ⟨hs, rfl, hstop⟩ | hpasses
    · rw [extent_of_unshielded (unshielded_cons hs), extent_stop hstop] at h
      cases h
      rw [List.nil_append, extent_of_unshielded (unshielded_cons hs), extent_stop hstop]
    · rw [extent_step hpasses] at h
      obtain ⟨rfl, hout⟩ := Prod.mk.inj h
      rw [List.cons_append, extent_step hpasses, ih (Prod.ext rfl hout)]

/-- The lines of a group are passed. -/
theorem extent_inGroup (hstop : ∀ item, stop item = true → continues item = true) {depth indent : Nat}
    {inside : List BodyLine} (hinside : ∀ l ∈ inside, l.inGroup indent = true) (outside : List BodyLine) :
    extent stop depth (some indent) (inside ++ outside) =
      (inside ++ (extent stop depth (some indent) outside).1, (extent stop depth (some indent) outside).2) := by
  induction inside with
  | nil => rfl
  | cons line rest ih =>
    obtain ⟨hline, hrest⟩ := List.forall_mem_cons.1 hinside
    rw [List.cons_append]
    by_cases hdeeper : indent < line.indent
    · rw [extent_shielded hdeeper, ih hrest]
      rfl
    · obtain ⟨text, condition, tags, hitem, rfl⟩ := exists_of_isOptionAt (by simpa [inGroup, hdeeper] using hline)
      have hpasses : stop line.item = false := by
        rw [← Bool.not_eq_true]
        intro h
        have := hstop _ h
        rw [hitem] at this
        cases this
      rw [extent_of_unshielded (unshielded_cons (by simp)), extent_option hitem hpasses, ih hrest]
      rfl

end BodyLine

namespace Body

open BodyLine

theorem Parsed.append_nothing {α : Type} (p : Parsed α) : p ++ ⟨[], []⟩ = p := by
  change Parsed.mk (p.items ++ []) (p.diagnostics ++ []) = p
  rw [List.append_nil, List.append_nil]

/-! ## Readings -/

/-- **What a line is taken for.** -/
inductive Role where
  | plain
  /-- It opens a conditional. Some line closes that, or none does. -/
  | opening (closed : Bool)
  | branch
  | closing
  | option
  /-- It goes on with a conditional or ends one, but none is open. -/
  | stray
deriving DecidableEq, Repr

/-- **What is read from the front of some lines**: the lines that are taken, each once and in their order, and those that
are left. -/
structure Reading (lines : List BodyLine) (α : Type) where
  parsed : Parsed α
  taken : List (BodyLine × Role)
  rest : List BodyLine
  whole : taken.map Prod.fst ++ rest = lines

namespace Reading

variable {lines rest : List BodyLine} {α β : Type}

/-- No line is taken. -/
def nothing : Reading lines α :=
  ⟨⟨[], []⟩, [], lines, rfl⟩

/-- One line is taken. -/
def one (line : BodyLine) (role : Role) (parsed : Parsed α) : Reading (line :: rest) α :=
  ⟨parsed, [(line, role)], rest, rfl⟩

/-- A line is taken before others. -/
def after (line : BodyLine) (role : Role) (r : Reading rest α) : Reading (line :: rest) α :=
  ⟨r.parsed, (line, role) :: r.taken, r.rest, congrArg (line :: ·) r.whole⟩

/-- The lines are read as something else. -/
def as (r : Reading lines α) (parsed : Parsed β) : Reading lines β :=
  ⟨parsed, r.taken, r.rest, r.whole⟩

/-- One reading goes on where another leaves off. -/
def followedBy (r : Reading lines α) (h : r.rest = rest) (r' : Reading rest α) : Reading lines α where
  parsed := r.parsed ++ r'.parsed
  taken := r.taken ++ r'.taken
  rest := r'.rest
  whole := by rw [List.map_append, List.append_assoc, r'.whole, ← h, r.whole]

/-- The branch that a line opens, by its body. -/
def clause (line : BodyLine) (body : Reading rest Statement) : Reading rest Clause :=
  body.as ⟨[.mk line.number line.item.condition? body.parsed.items], line.diagnostics ++ body.parsed.diagnostics⟩

/-- The option that a line is, by its body. -/
def choice (line : BodyLine) (text : Template) (condition : Option Expr) (tags : List String)
    (body : Reading rest Statement) : Reading rest Choice :=
  body.as ⟨[.mk line.number text condition tags body.parsed.items], line.diagnostics ++ body.parsed.diagnostics⟩

theorem clause_parsed {line : BodyLine} {body : Reading rest Statement} {p : Parsed Statement} (h : body.parsed = p) :
    (body.clause line).parsed =
      ⟨[.mk line.number line.item.condition? p.items], line.diagnostics ++ p.diagnostics⟩ := by
  subst h
  rfl

theorem choice_parsed {line : BodyLine} {text : Template} {condition : Option Expr} {tags : List String}
    {body : Reading rest Statement} {p : Parsed Statement} (h : body.parsed = p) :
    (body.choice line text condition tags).parsed =
      ⟨[.mk line.number text condition tags p.items], line.diagnostics ++ p.diagnostics⟩ := by
  subst h
  rfl

theorem length_rest_le (r : Reading lines α) : r.rest.length ≤ lines.length := by
  have h := congrArg List.length r.whole
  rw [List.length_append] at h
  omega

theorem length_lt_of_rest_eq {r : Reading lines α} {next : BodyLine} {more : List BodyLine}
    (h : r.rest = next :: more) : more.length < lines.length := by
  have hle := r.length_rest_le
  rw [h, List.length_cons] at hle
  exact hle

end Reading

/-- The line is no deeper than the option whose body is read. -/
def leaves (parent : Option Nat) (line : BodyLine) : Bool :=
  parent.any (line.indent ≤ ·)

namespace Cursor

mutual

/-- **Reads a block**: at the top or in the body of an option, with some conditionals open. -/
def block (parent : Option Nat) (depth : Nat) (lines : List BodyLine) : Reading lines Statement :=
  match lines with
  | [] => .nothing
  | line :: rest =>
    if leaves parent line then .nothing
    else match line.item with
      | .plain statements =>
        (Reading.one line .plain ⟨statements, line.diagnostics⟩).followedBy rfl (block parent depth rest)
      | .branch _ | .closing =>
        if depth = 0 then
          (Reading.one line .stray ⟨[], [⟨line.number, .stray (.ofList line.text)⟩]⟩).followedBy rfl
            (block parent depth rest)
        else .nothing
      | .opening _ =>
        let found := clauses parent (depth + 1) line rest
        let missing := if found.2 then [] else [⟨line.number, .missingEnd⟩]
        let statement := ⟨[.conditional found.1.parsed.items], found.1.parsed.diagnostics ++ missing⟩
        ((found.1.after line (.opening found.2)).as statement).followedBy rfl (block parent depth found.1.rest)
      | .option text condition tags =>
        let found := choices line text condition tags rest
        let statement := ⟨[.options found.parsed.items], found.parsed.diagnostics⟩
        ((found.after line .option).as statement).followedBy rfl (block parent depth found.rest)
termination_by 2 * lines.length
decreasing_by
  all_goals simp only [List.length_cons]
  any_goals omega
  all_goals
    have h (n : Nat) : n ≤ rest.length → 2 * n < 2 * (rest.length + 1) := by omega
    exact h _ (Reading.length_rest_le _)

/-- **Reads the branches of a conditional** after the line that opens the first of them, and whether a line closes it. -/
def clauses (parent : Option Nat) (depth : Nat) (line : BodyLine) (rest : List BodyLine) :
    Reading rest Clause × Bool :=
  let body := block parent depth rest
  match h : body.rest with
  | [] => (body.clause line, false)
  | next :: more =>
    if leaves parent next then (body.clause line, false)
    else match next.item with
      | .branch _ =>
        let others := clauses parent depth next more
        ((body.clause line).followedBy h (others.1.after next .branch), others.2)
      | .closing => ((body.clause line).followedBy h (.one next .closing ⟨[], []⟩), true)
      | _ => (body.clause line, false)
termination_by 2 * rest.length + 1
decreasing_by
  · omega
  · have := Reading.length_lt_of_rest_eq h
    omega

/-- **Reads the options of a group** after the first of them. -/
def choices (line : BodyLine) (text : Template) (condition : Option Expr) (tags : List String) (rest : List BodyLine) :
    Reading rest Choice :=
  let body := block (some line.indent) 0 rest
  let this := body.choice line text condition tags
  match h : body.rest with
  | [] => this
  | next :: more =>
    match next.item with
    | .option text condition tags =>
      if next.indent = line.indent then
        this.followedBy h ((choices next text condition tags more).after next .option)
      else this
    | _ => this
termination_by 2 * rest.length + 1
decreasing_by
  · omega
  · have := Reading.length_lt_of_rest_eq h
    omega

end

section Equations

variable {parent : Option Nat} {depth : Nat} {line next : BodyLine} {rest more : List BodyLine}

theorem block_leaves (h : leaves parent line = true) : block parent depth (line :: rest) = .nothing := by
  rw [block, if_pos h]

theorem block_plain {statements : List Statement} (h : leaves parent line = false)
    (hitem : line.item = .plain statements) : block parent depth (line :: rest) =
      (Reading.one line .plain ⟨statements, line.diagnostics⟩).followedBy rfl (block parent depth rest) := by
  rw [block, if_neg (by simp [h]), hitem]

theorem block_stray (h : leaves parent line = false) (hitem : continues line.item = true) :
    block parent 0 (line :: rest) = (Reading.one line .stray
      ⟨[], [⟨line.number, .stray (.ofList line.text)⟩]⟩).followedBy rfl (block parent 0 rest) := by
  rw [block, if_neg (by simp [h])]
  cases h : line.item <;> rw [h] at hitem <;> first | rfl | cases hitem

theorem block_continues (hdepth : depth ≠ 0) (hitem : continues line.item = true) :
    block parent depth (line :: rest) = .nothing := by
  rw [block]
  split_ifs
  · rfl
  · cases h : line.item <;> rw [h] at hitem <;> first | exact if_neg hdepth | cases hitem

theorem block_opening {condition : Expr} {found : Reading rest Clause} {closed : Bool} (h : leaves parent line = false)
    (hitem : line.item = .opening condition) (hfound : clauses parent (depth + 1) line rest = (found, closed)) :
    block parent depth (line :: rest) = ((found.after line (.opening closed)).as
      ⟨[.conditional found.parsed.items], found.parsed.diagnostics ++
        if closed then [] else [⟨line.number, .missingEnd⟩]⟩).followedBy rfl (block parent depth found.rest) := by
  obtain ⟨rfl, rfl⟩ := Prod.mk.inj hfound
  rw [block, if_neg (by simp [h]), hitem]

theorem block_option {text : Template} {condition : Option Expr} {tags : List String} {found : Reading rest Choice}
    (h : leaves parent line = false) (hitem : line.item = .option text condition tags)
    (hfound : choices line text condition tags rest = found) : block parent depth (line :: rest) =
      ((found.after line .option).as ⟨[.options found.parsed.items], found.parsed.diagnostics⟩).followedBy rfl
        (block parent depth found.rest) := by
  subst hfound
  rw [block, if_neg (by simp [h]), hitem]

theorem clauses_ended {body : Reading rest Statement} (hbody : block parent depth rest = body)
    (hend : ∀ l ∈ body.rest.head?, leaves parent l = true ∨ continues l.item = false) :
    clauses parent depth line rest = (body.clause line, false) := by
  subst hbody
  rw [clauses]
  split
  · rfl
  · rename_i next more hrest
    have hnext := hend next (by rw [hrest]; rfl)
    split_ifs with hleaves
    · rfl
    · have hnext := hnext.resolve_left hleaves
      split
      · simp_all [continues]
      · simp_all [continues]
      · rfl

theorem clauses_closing {body : Reading rest Statement} (hbody : block parent depth rest = body)
    (hrest : body.rest = next :: more) (h : leaves parent next = false) (hitem : next.item = .closing) :
    clauses parent depth line rest = ((body.clause line).followedBy hrest (.one next .closing ⟨[], []⟩), true) := by
  subst hbody
  rw [clauses]
  split
  · rename_i hnone
    rw [hnone] at hrest
    cases hrest
  · rename_i next' more' hrest'
    obtain ⟨rfl, rfl⟩ := List.cons.inj (hrest'.symm.trans hrest)
    rw [if_neg (by simp [h]), hitem]

theorem clauses_branch {condition : Option Expr} {body : Reading rest Statement} {found : Reading more Clause}
    {closed : Bool} (hbody : block parent depth rest = body) (hrest : body.rest = next :: more)
    (h : leaves parent next = false) (hitem : next.item = .branch condition)
    (hfound : clauses parent depth next more = (found, closed)) : clauses parent depth line rest =
      ((body.clause line).followedBy hrest (found.after next .branch), closed) := by
  subst hbody
  obtain ⟨rfl, rfl⟩ := Prod.mk.inj hfound
  rw [clauses]
  split
  · rename_i hnone
    rw [hnone] at hrest
    cases hrest
  · rename_i next' more' hrest'
    obtain ⟨rfl, rfl⟩ := List.cons.inj (hrest'.symm.trans hrest)
    rw [if_neg (by simp [h]), hitem]

theorem choices_ended {text : Template} {condition : Option Expr} {tags : List String} {body : Reading rest Statement}
    (hbody : block (some line.indent) 0 rest = body)
    (hend : ∀ l ∈ body.rest.head?, l.isOptionAt line.indent = false) :
    choices line text condition tags rest = body.choice line text condition tags := by
  subst hbody
  rw [choices]
  split
  · rfl
  · rename_i next more hrest
    have hnext := hend next (by rw [hrest]; rfl)
    split
    · rename_i hitem
      rw [isOptionAt, hitem] at hnext
      exact if_neg (by simpa using hnext)
    · rfl

theorem choices_option {text text' : Template} {condition condition' : Option Expr} {tags tags' : List String}
    {body : Reading rest Statement} {found : Reading more Choice} (hbody : block (some line.indent) 0 rest = body)
    (hrest : body.rest = next :: more) (hitem : next.item = .option text' condition' tags')
    (hindent : next.indent = line.indent) (hfound : choices next text' condition' tags' more = found) :
    choices line text condition tags rest =
      (body.choice line text condition tags).followedBy hrest (found.after next .option) := by
  subst hbody hfound
  rw [choices]
  split
  · rename_i hnone
    rw [hnone] at hrest
    cases hrest
  · rename_i next' more' hrest'
    obtain ⟨rfl, rfl⟩ := List.cons.inj (hrest'.symm.trans hrest)
    rw [hitem]
    exact if_pos hindent

end Equations

/-! ## The pass and the extents -/

theorem unshielded_of_not_inGroup {indent : Nat} {rest : List BodyLine}
    (h : ∀ l ∈ rest.head?, l.inGroup indent = false) : Unshielded (some indent) rest :=
  fun l hl => (Bool.or_eq_false_iff.1 (h l hl)).1

/-- With conditionals open, a block ends at a line that goes on with one. -/
def endsAt (depth : Nat) (item : Item) : Bool :=
  depth ≠ 0 && continues item

theorem extent_endsAt_zero (lines : List BodyLine) : extent (endsAt 0) 0 none lines = (lines, []) :=
  extent_never 0 none lines

theorem endsAt_of_ne_zero {depth : Nat} (h : depth ≠ 0) : endsAt depth = continues := by
  funext item
  simp [endsAt, h]

theorem endsAt_imp (depth : Nat) (item : Item) (h : endsAt depth item = true) : continues item = true :=
  (Bool.and_eq_true_iff.1 h).2

theorem endsAt_of_not_continues {item : Item} (h : continues item = false) (depth : Nat) : endsAt depth item = false := by
  rw [endsAt, h, Bool.and_false]

/-- Lines that belong to the body of an option, before others that do not. -/
structure Reaches (parent : Option Nat) (inside outside : List BodyLine) : Prop where
  stays : ∀ l ∈ inside, leaves parent l = false
  ends : ∀ l ∈ outside.head?, leaves parent l = true

theorem Reaches.of_append {parent : Option Nat} (a : List BodyLine) {b outside : List BodyLine}
    (h : Reaches parent (a ++ b) outside) : Reaches parent b outside :=
  ⟨fun l hl => h.stays l (List.mem_append_right a hl), h.ends⟩

/-- What a reading is. -/
structure Reads {α : Type} {lines : List BodyLine} (r : Reading lines α) (parsed : Parsed α) (rest : List BodyLine) :
    Prop where
  parsed_eq : r.parsed = parsed
  rest_eq : r.rest = rest

theorem Reads.followedBy {α : Type} {lines rest left : List BodyLine} {r : Reading lines α} (h : r.rest = rest)
    {r' : Reading rest α} {parsed parsed' : Parsed α} (hr : r.parsed = parsed) (hr' : Reads r' parsed' left) :
    Reads (r.followedBy h r') (parsed ++ parsed') left :=
  ⟨congrArg₂ (· ++ ·) hr hr'.parsed_eq, hr'.rest_eq⟩

/-- The lines after an option that belong to its group are its deeper lines and, if an option of its indent follows
these, that one and the lines of its group. -/
theorem group_deeper {indent : Nat} {body after : List BodyLine} (hbody : ∀ l ∈ body, indent < l.indent)
    (hafter : ∀ l ∈ after.head?, l.indent ≤ indent) :
    group indent (body ++ after) = match after with
      | [] => (body, [])
      | next :: more =>
        if next.isOptionAt indent then (body ++ next :: (group indent more).1, (group indent more).2)
        else (body, next :: more) := by
  have hgroup : ∀ l ∈ body, l.inGroup indent = true := by
    intro l hl
    simp [inGroup, hbody l hl]
  cases after with
  | nil => exact group_append hgroup (by simp)
  | cons next more =>
    have hnext : next.indent ≤ indent := hafter next rfl
    rw [group, List.takeWhile_append_of_pos hgroup, List.dropWhile_append_of_pos hgroup]
    cases hoption : next.isOptionAt indent <;> simp [inGroup, hnext.not_gt, hoption, group]

/-- After an option in a block, its group ends within the lines that belong to the block. -/
theorem Reaches.group_append {parent : Option Nat} {line : BodyLine} {inside outside beyond : List BodyLine}
    (h : Reaches parent (line :: (inside ++ outside)) beyond) (hinside : ∀ l ∈ inside, l.inGroup line.indent = true)
    (houtside : ∀ l ∈ outside.head?, l.inGroup line.indent = false) :
    group line.indent (inside ++ (outside ++ beyond)) = (inside, outside ++ beyond) := by
  refine BodyLine.group_append hinside fun l hl => ?_
  cases outside with
  | cons l' outside => exact houtside l hl
  | nil =>
    have hline := h.stays line List.mem_cons_self
    have hl : leaves parent l = true := h.ends l hl
    cases parent with
    | none => cases hl
    | some indent =>
      have hlt : l.indent < line.indent := by
        simp only [leaves, Option.any_some, decide_eq_true_eq, decide_eq_false_iff_not] at hl hline
        omega
      rw [inGroup, Bool.or_eq_false_iff]
      refine ⟨decide_eq_false hlt.not_gt, ?_⟩
      rw [← Bool.not_eq_true]
      intro hoption
      obtain ⟨_, _, _, -, hindent⟩ := exists_of_isOptionAt hoption
      omega

/-- The statement of a conditional, and the block after the line that closes it. -/
theorem reads_opening {parent : Option Nat} {depth : Nat} {line : BodyLine} {condition : Expr}
    {lines rest inside outside more left : List BodyLine} {found : Reading lines Clause} {closed : Bool}
    (hline : leaves parent line = false) (hitem : line.item = .opening condition)
    (hfound : clauses parent (depth + 1) line lines = (found, closed))
    (he : extent closes 0 none rest = (inside, outside)) (hparsed : found.parsed = Body.clauses (line :: inside))
    (hclosed : closed = !outside.isEmpty) (hempty : outside = [] → more = [])
    (hmore : Reads (block parent depth found.rest) (Body.block more) left) :
    Reads (block parent depth (line :: lines)) (Body.block (line :: (inside ++ outside.take 1 ++ more))) left := by
  rw [block_opening hline hitem hfound]
  cases outside with
  | nil =>
    obtain rfl := hempty rfl
    have hinside : extent closes 0 none inside = (inside, []) := by
      rw [extent_whole he, List.append_nil] at he
      exact he
    simp only [List.take_nil, List.append_nil]
    rw [Body.block_opening hitem hinside]
    refine .followedBy rfl ?_ hmore
    simp [Reading.as, hparsed, hclosed]
  | cons close outside =>
    have hinside := extent_append_of_eq he more
    simp only [List.take_succ_cons, List.take_zero, List.append_assoc, List.singleton_append]
    rw [Body.block_opening hitem hinside]
    refine .followedBy rfl ?_ hmore
    simp [Reading.as, hparsed, hclosed]

/-- The statement of a group, and the block after it. -/
theorem reads_option {parent : Option Nat} {depth : Nat} {line : BodyLine} {text : Template} {condition : Option Expr}
    {tags : List String} {lines inside more left : List BodyLine} {found : Reading lines Choice}
    (hline : leaves parent line = false) (hitem : line.item = .option text condition tags)
    (hfound : choices line text condition tags lines = found)
    (hgroup : group line.indent (inside ++ more) = (inside, more))
    (hparsed : found.parsed = Body.choices (line :: inside))
    (hmore : Reads (block parent depth found.rest) (Body.block more) left) :
    Reads (block parent depth (line :: lines)) (Body.block (line :: (inside ++ more))) left := by
  rw [block_option hline hitem hfound, Body.block_option hitem hgroup]
  refine .followedBy rfl ?_ hmore
  simp [Reading.as, hparsed]

/-- The last option of a group. -/
theorem reads_choices_ended {line : BodyLine} {text : Template} {condition : Option Expr} {tags : List String}
    {lines inside outside : List BodyLine} (hitem : line.item = .option text condition tags)
    (hinside : ∀ l ∈ inside, line.indent < l.indent)
    (hbody : Reads (block (some line.indent) 0 lines) (Body.block inside) outside)
    (hend : ∀ l ∈ outside.head?, l.isOptionAt line.indent = false) :
    Reads (choices line text condition tags lines) (Body.choices (line :: inside)) outside := by
  have hdeeper : deeper line.indent inside = (inside, []) := by
    have h : deeper line.indent (inside ++ []) = (inside, []) := deeper_append hinside (by simp)
    rwa [List.append_nil] at h
  rw [choices_ended rfl (by rwa [hbody.rest_eq]), Body.choices_option hitem hdeeper, Body.choices, ← hbody.parsed_eq]
  exact ⟨(Parsed.append_nothing _).symm, hbody.rest_eq⟩

/-- An option, and the next one of its group. -/
theorem reads_choices_option {line next : BodyLine} {text text' : Template} {condition condition' : Option Expr}
    {tags tags' : List String} {lines body more inside left : List BodyLine}
    (hitem : line.item = .option text condition tags) (hdeeper : ∀ l ∈ body, line.indent < l.indent)
    (hbody : Reads (block (some line.indent) 0 lines) (Body.block body) (next :: more))
    (hnext : next.item = .option text' condition' tags') (hindent : next.indent = line.indent)
    (hmore : Reads (choices next text' condition' tags' more) (Body.choices (next :: inside)) left) :
    Reads (choices line text condition tags lines) (Body.choices (line :: (body ++ next :: inside))) left := by
  have hcut : deeper line.indent (body ++ next :: inside) = (body, next :: inside) := by
    refine deeper_append hdeeper fun l hl => ?_
    obtain rfl : next = l := by simpa using hl
    exact hindent.le
  rw [choices_option rfl hbody.rest_eq hnext hindent rfl, Body.choices_option hitem hcut]
  exact .followedBy _ (Reading.choice_parsed hbody.parsed_eq) ⟨hmore.parsed_eq, hmore.rest_eq⟩

/-- The last branch of a conditional that nothing closes. -/
theorem reads_clauses_ended {parent : Option Nat} {depth : Nat} {line : BodyLine} {lines inside beyond : List BodyLine}
    (hcut : extent continues 0 none inside = (inside, []))
    (hbody : Reads (block parent depth lines) (Body.block inside) beyond)
    (hend : ∀ l ∈ beyond.head?, leaves parent l = true) :
    Reads (clauses parent depth line lines).1 (Body.clauses (line :: inside)) beyond ∧
      (clauses parent depth line lines).2 = false := by
  rw [clauses_ended rfl (by rw [hbody.rest_eq]; exact fun l hl => .inl (hend l hl)), Body.clauses_cons hcut, Body.clauses,
    ← hbody.parsed_eq]
  exact ⟨⟨(Parsed.append_nothing _).symm, hbody.rest_eq⟩, rfl⟩

/-- The last branch of a conditional. -/
theorem reads_clauses_closing {parent : Option Nat} {depth : Nat} {line next : BodyLine}
    {lines inside more : List BodyLine} (hcut : extent continues 0 none inside = (inside, []))
    (hbody : Reads (block parent depth lines) (Body.block inside) (next :: more)) (hnext : leaves parent next = false)
    (hitem : next.item = .closing) :
    Reads (clauses parent depth line lines).1 (Body.clauses (line :: inside)) more ∧
      (clauses parent depth line lines).2 = true := by
  rw [clauses_closing rfl hbody.rest_eq hnext hitem, Body.clauses_cons hcut, Body.clauses]
  have hrest : ((block parent depth lines).clause line).rest = next :: more := hbody.rest_eq
  refine ⟨?_, rfl⟩
  exact .followedBy hrest (Reading.clause_parsed hbody.parsed_eq) ⟨rfl, rfl⟩

/-- A branch of a conditional, and the next one. -/
theorem reads_clauses_branch {parent : Option Nat} {depth : Nat} {line next : BodyLine} {condition : Option Expr}
    {lines body inside more left : List BodyLine} {closed : Bool}
    (hcut : extent continues 0 none (body ++ next :: inside) = (body, next :: inside))
    (hbody : Reads (block parent depth lines) (Body.block body) (next :: more)) (hnext : leaves parent next = false)
    (hitem : next.item = .branch condition)
    (hmore : Reads (clauses parent depth next more).1 (Body.clauses (next :: inside)) left ∧
      (clauses parent depth next more).2 = closed) :
    Reads (clauses parent depth line lines).1 (Body.clauses (line :: (body ++ next :: inside))) left ∧
      (clauses parent depth line lines).2 = closed := by
  rw [clauses_branch rfl hbody.rest_eq hnext hitem rfl, Body.clauses_cons hcut]
  have hrest : ((block parent depth lines).clause line).rest = next :: more := hbody.rest_eq
  refine ⟨?_, hmore.2⟩
  exact .followedBy hrest (Reading.clause_parsed hbody.parsed_eq) ⟨hmore.1.parsed_eq, hmore.1.rest_eq⟩

/-- A block of these lines takes them up to where its extent ends, and reads them as the block they are. -/
def BlockReads (lines : List BodyLine) : Prop :=
  ∀ {parent : Option Nat} {depth : Nat} {reach beyond inside outside : List BodyLine}, lines = reach ++ beyond →
    Reaches parent reach beyond → extent (endsAt depth) 0 none reach = (inside, outside) →
      Reads (block parent depth lines) (Body.block inside) (outside ++ beyond)

/-- **The branches of a conditional reach up to the line that closes it.** -/
theorem clauses_reads {parent : Option Nat} {depth : Nat} (hdepth : depth ≠ 0) (line : BodyLine)
    {lines reach beyond inside outside : List BodyLine}
    (hblock : ∀ lines' : List BodyLine, lines'.length ≤ lines.length → BlockReads lines')
    (hlines : lines = reach ++ beyond) (hreach : Reaches parent reach beyond)
    (he : extent closes 0 none reach = (inside, outside)) :
    Reads (clauses parent depth line lines).1 (Body.clauses (line :: inside)) (outside.drop 1 ++ beyond) ∧
      (clauses parent depth line lines).2 = !outside.isEmpty := by
  induction hn : lines.length using Nat.strong_induction_on generalizing line lines reach inside with | _ n ih
  have hextent : IsExtent continues 0 none reach _ _ := isExtent_extent 0 none reach
  generalize hin : (extent continues 0 none reach).1 = body at hextent
  generalize hout : (extent continues 0 none reach).2 = after at hextent
  have hcut : extent continues 0 none reach = (body, after) := Prod.ext hin hout
  have hbody : Reads (block parent depth lines) (Body.block body) (after ++ beyond) :=
    hblock lines le_rfl hlines hreach (endsAt_of_ne_zero hdepth ▸ hcut)
  have hgoes := hextent.goesOn closes closes_imp
  rw [he] at hgoes
  cases after with
  | nil =>
    obtain ⟨rfl, rfl⟩ := Prod.mk.inj hgoes
    simp only [extent, List.append_nil]
    exact reads_clauses_ended hextent.closed hbody hreach.ends
  | cons next more =>
    obtain ⟨hnext, -⟩ := hextent.ends next rfl
    have hwhole : reach = (body ++ [next]) ++ more := by simpa using hextent.whole
    have hstays : leaves parent next = false := hreach.stays next (by rw [hwhole]; simp)
    cases hitem : next.item with
    | opening _ | option _ _ _ | plain _ =>
      rw [hitem] at hnext
      cases hnext
    | closing =>
      rw [extent_stop (by rw [hitem]; rfl), List.append_nil] at hgoes
      obtain ⟨rfl, rfl⟩ := Prod.mk.inj hgoes
      exact reads_clauses_closing hextent.closed hbody hstays hitem
    | branch condition =>
      have hpasses : closes next.item = false := by rw [hitem]; rfl
      rw [extent_cons fun _ => hpasses, shieldAfter, hitem] at hgoes
      obtain ⟨rfl, rfl⟩ := Prod.mk.inj hgoes
      have hshorter : (more ++ beyond).length < n := by
        rw [← hn, hlines, hwhole]
        simp only [List.length_append, List.length_cons]
        omega
      have hmore := ih _ hshorter next (fun lines' h => hblock lines' (h.trans (by rw [hn]; exact hshorter.le))) rfl
        (Reaches.of_append (body ++ [next]) (hwhole ▸ hreach)) rfl rfl
      exact reads_clauses_branch (extent_append_of_eq hcut _) hbody hstays hitem hmore

/-- **The options of a group reach as far as the group.** -/
theorem choices_reads {line : BodyLine} {text : Template} {condition : Option Expr} {tags : List String}
    (hitem : line.item = .option text condition tags) {lines inside outside : List BodyLine}
    (hblock : ∀ lines' : List BodyLine, lines'.length ≤ lines.length → BlockReads lines')
    (hg : group line.indent lines = (inside, outside)) :
    Reads (choices line text condition tags lines) (Body.choices (line :: inside)) outside := by
  induction hn : lines.length using Nat.strong_induction_on generalizing line text condition tags lines inside with
    | _ n ih
  obtain ⟨body, after, rfl, hdeeper, hafter⟩ := exists_span (line.indent < ·.indent) lines
  have hdeeper : ∀ l ∈ body, line.indent < l.indent := by simpa using hdeeper
  have hafter : ∀ l ∈ after.head?, l.indent ≤ line.indent := by simpa using hafter
  have hreach : Reaches (some line.indent) body after :=
    ⟨by simpa [leaves] using hdeeper, by simpa [leaves] using hafter⟩
  have hbody : Reads (block (some line.indent) 0 (body ++ after)) (Body.block body) after :=
    hblock _ le_rfl rfl hreach (extent_endsAt_zero body)
  rw [group_deeper hdeeper hafter] at hg
  cases after with
  | nil =>
    obtain ⟨rfl, rfl⟩ := Prod.mk.inj hg
    exact reads_choices_ended hitem hdeeper hbody (by simp)
  | cons next more =>
    cases hoption : next.isOptionAt line.indent with
    | false =>
      simp only [hoption, Bool.false_eq_true, if_false] at hg
      obtain ⟨rfl, rfl⟩ := Prod.mk.inj hg
      exact reads_choices_ended hitem hdeeper hbody (by simpa using hoption)
    | true =>
      simp only [hoption, if_true] at hg
      obtain ⟨rfl, rfl⟩ := Prod.mk.inj hg
      obtain ⟨text', condition', tags', hnext, hindent⟩ := exists_of_isOptionAt hoption
      have hshorter : more.length < n := by
        rw [← hn]
        simp
        omega
      have hmore := ih _ hshorter hnext (fun lines' h => hblock lines' (h.trans (by rw [hn]; exact hshorter.le)))
        (by rw [hindent]) rfl
      exact reads_choices_option hitem hdeeper hbody hnext hindent hmore

/-- **A block is read as far as its extent reaches.** -/
theorem block_reads (lines : List BodyLine) : BlockReads lines := by
  induction hn : lines.length using Nat.strong_induction_on generalizing lines with | _ n ih
  intro parent depth reach beyond inside outside hlines hreach he
  subst hlines
  cases reach with
  | nil =>
    cases he
    rw [Body.block, List.nil_append]
    cases beyond with
    | nil => exact ⟨by rw [block]; rfl, by rw [block]; rfl⟩
    | cons l beyond =>
      rw [block_leaves (hreach.ends l rfl)]
      exact ⟨rfl, rfl⟩
  | cons line rest =>
    have hshorter (lines' : List BodyLine) (h : lines'.length ≤ (rest ++ beyond).length) : BlockReads lines' :=
      ih lines'.length (by rw [← hn, List.cons_append, List.length_cons]; omega) lines' rfl
    have hline : leaves parent line = false := hreach.stays line List.mem_cons_self
    have hrest : Reaches parent rest beyond := hreach.of_append [line]
    rw [List.cons_append]
    cases hitem : line.item with
    | plain statements =>
      have hnot : continues line.item = false := by rw [hitem]; rfl
      rw [extent_cons fun _ => endsAt_of_not_continues hnot depth, shieldAfter, hitem] at he
      obtain ⟨rfl, rfl⟩ := Prod.mk.inj he
      rw [block_plain hline hitem, Body.block_plain hitem]
      exact .followedBy rfl rfl (hshorter _ le_rfl rfl hrest rfl)
    | branch _ | closing =>
      have hcontinues : continues line.item = true := by rw [hitem]; rfl
      by_cases hdepth : depth = 0
      · subst hdepth
        rw [extent_endsAt_zero] at he
        obtain ⟨rfl, rfl⟩ := Prod.mk.inj he
        rw [block_stray hline hcontinues, Body.block_stray hcontinues]
        exact .followedBy rfl rfl (hshorter _ le_rfl rfl hrest (extent_endsAt_zero rest))
      · rw [endsAt_of_ne_zero hdepth, extent_stop hcontinues] at he
        obtain ⟨rfl, rfl⟩ := Prod.mk.inj he
        rw [block_continues hdepth hcontinues, Body.block]
        exact ⟨rfl, rfl⟩
    | opening condition =>
      have hnot : continues line.item = false := by rw [hitem]; rfl
      obtain ⟨inside₁, outside₁, he₁⟩ : ∃ inside₁ outside₁, extent closes 0 none rest = (inside₁, outside₁) := ⟨_, _, rfl⟩
      rw [extent_opening hitem (endsAt_of_not_continues hnot depth), extent_succ (endsAt depth) he₁] at he
      obtain ⟨rfl, rfl⟩ := Prod.mk.inj he
      obtain ⟨⟨hparsed, hleft⟩, hclosed⟩ := clauses_reads (Nat.succ_ne_zero depth) line hshorter rfl hrest he₁
      obtain rfl : rest = inside₁ ++ outside₁ := extent_whole he₁
      have hmore : Reaches parent (outside₁.drop 1) beyond := by
        refine Reaches.of_append (line :: (inside₁ ++ outside₁.take 1)) ?_
        rwa [List.cons_append, List.append_assoc, List.take_append_drop]
      refine reads_opening hline hitem rfl he₁ hparsed hclosed ?_
        (hshorter _ (Reading.length_rest_le _) hleft hmore rfl)
      rintro rfl
      rfl
    | option text condition tags =>
      have hnot : continues line.item = false := by rw [hitem]; rfl
      obtain ⟨inside₁, outside₁, rfl, hgroup, hnext⟩ := exists_span (inGroup line.indent) rest
      rw [extent_option hitem (endsAt_of_not_continues hnot depth), extent_inGroup (endsAt_imp depth) hgroup,
        extent_of_unshielded (unshielded_of_not_inGroup hnext)] at he
      obtain ⟨rfl, rfl⟩ := Prod.mk.inj he
      have hwhole := extent_whole (rfl : extent (endsAt depth) 0 none outside₁ = _)
      have hmore : group line.indent (inside₁ ++ (extent (endsAt depth) 0 none outside₁).1) =
          (inside₁, (extent (endsAt depth) 0 none outside₁).1) := by
        refine group_append hgroup fun l hl => hnext l ?_
        rw [hwhole]
        exact List.mem_head?_append_of_mem_head? hl
      obtain ⟨hparsed, hleft⟩ := choices_reads hitem (by simpa using hshorter) (hreach.group_append hgroup hnext)
      rw [List.append_assoc]
      exact reads_option hline hitem rfl hmore hparsed (hshorter _ (by
        have := Reading.length_rest_le (choices line text condition tags (inside₁ ++ (outside₁ ++ beyond)))
        simpa using this) hleft (hreach.of_append (line :: inside₁)) rfl)

/-- **At the top, the pass takes all lines**, and reads them as the block they are. -/
theorem block_eq (lines : List BodyLine) : Reads (block none 0 lines) (Body.block lines) [] :=
  block_reads lines (List.append_nil lines).symm ⟨fun _ _ => rfl, by simp⟩ (extent_endsAt_zero lines)

end Cursor

end Body

end Dialogue
