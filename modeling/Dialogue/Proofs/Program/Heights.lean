import Mathlib
import Dialogue.Proofs.Body.Dialect
import Dialogue.Proofs.Expr.Evaluation
import Dialogue.Proofs.Program.Targets

/-!
# Compiled code is balanced

Each position of a node has a height of the stack, whichever way the code takes there (`Balanced`): no instruction asks
for a value that is not there, nothing is left when a line or a command is shown, options are offered on an empty stack,
and the option that was taken is all that lies on it afterwards (`balanced_node`).

The height at a label can be told from the use of the label (`level`): conditions are still on the stack where a branch
or an option is skipped, and the label of the option that was taken is where its body begins. So each stretch of code has
its heights apart from the code around it (`Graded`), and they fit where two stretches meet (`Graded.append`).
-/

namespace Dialogue

/-- **Scripts in which no call has more than `2 ^ 24` arguments**, so that a single-precision number can count them. -/
def Dialect.small : Dialect := ⟨true, true, Expr.isSmall⟩

namespace Code

/-- **A group of options stands in the code**, with its jump to the option that was taken at this position and with these
labels of its own options. -/
inductive Group (code : Code) : Nat → List String → Prop where
  | mk {used p : Nat} {choices : List Choice} (h : At code p (statement used (.options choices)).1) :
      Group code (p + (headers (used + 1) choices).1.size + 1) (optionLabels (used + 1) choices)

/-- **What an instruction at a position asks of the height of the stack** before it and after it. `leads` says which
height a label has. -/
def Asks (small : Prop) (leads : String → Nat → Prop) (code : Code) (k before after : Nat) : Instruction → Prop
  | .jumpTo label => leads label before
  -- the condition stays on the stack, either way
  | .jumpIfFalse label => 1 ≤ before ∧ after = before ∧ leads label before
  | .jump => 1 ≤ before ∧ (∃ labels, Group code k labels) ∧
      ∀ labels, Group code k labels → ∀ label ∈ labels, leads label before
  | .runLine _ holes _ _ | .runCommand _ holes _ => holes ≤ before ∧ after = before - holes ∧ after = 0
  | .addOption _ holes _ _ _ _ => holes ≤ before ∧ after = before - holes
  | .showOptions => before = 0 ∧ after = 1
  | .pushString _ | .pushNumber _ | .pushBool _ | .pushNull | .pushVariable _ => after = before + 1
  | .pop => 1 ≤ before ∧ after = before - 1
  -- the number of parameters has been pushed just before
  | .callFunction _ _ => ∃ parameters, 0 < k ∧
      code.instructions[k - 1]? = some (.pushNumber (Number.ofNat parameters)) ∧
      (small → Number.toCount (Number.ofNat parameters) = parameters) ∧
      parameters + 1 ≤ before ∧ after = before - (parameters + 1) + 1
  | .storeVariable _ => 1 ≤ before ∧ after = before
  | .stop => before = 0
  | .runNode => before = 1

/-- **Heights of the stack at the positions of code** that every way through it respects. -/
structure Balanced (small : Prop) (code : Code) (height : Nat → Nat) : Prop where
  start : height 0 = 0
  asks : ∀ k i, code.instructions[k]? = some i →
    Asks small (fun label h => ∃ q, code.labels.lookup label = some q ∧ height q = h) code k
      (height k) (height (k + 1)) i

/-! ## Heights at labels -/

/-- **The height at a label**, by its use: at the end of a conditional or of a group nothing is left on the stack. -/
def level (label : String) : Nat :=
  if use label = "endif".toList ∨ use label = "group_end".toList then 0 else 1

theorem level_label (n : Nat) {word : String} (h : word.toList.head?.any Char.isDigit = false) :
    level (label n word) = if word.toList = "endif".toList ∨ word.toList = "group_end".toList then 0 else 1 := by
  rw [level, use_label n word h]

theorem level_endif (n : Nat) : level (label n "endif") = 0 := by
  rw [level_label n (by simp)]
  simp

theorem level_groupEnd (n : Nat) : level (label n "group_end") = 0 := by
  rw [level_label n (by simp)]
  simp

theorem level_skipclause (n : Nat) : level (label n "skipclause") = 1 := by
  rw [level_label n (by simp)]
  simp

theorem level_conditionalOption (n : Nat) : level (label n "conditional_option") = 1 := by
  rw [level_label n (by simp)]
  simp

theorem level_optionLabel (used : Nat) : level (optionLabel used) = 1 := by
  rw [optionLabel, level_label _ (by simp)]
  simp

theorem level_of_mem_optionLabels : ∀ {choices : List Choice} {used : Nat}, ∀ label ∈ optionLabels used choices,
    level label = 1
  | [], _ => fun _ h => absurd h List.not_mem_nil
  | _ :: _, used => List.forall_mem_cons.2 ⟨level_optionLabel used, level_of_mem_optionLabels⟩

theorem Group.level_eq_one {code : Code} {k : Nat} {labels : List String} (h : Group code k labels) :
    ∀ label ∈ labels, level label = 1 := by
  obtain ⟨-⟩ := h
  exact level_of_mem_optionLabels

/-! ## Heights of a stretch of code -/

/-- **A stretch of code leads from one height to another**, through heights that each of its instructions respects, and
with the height of its use at each label. -/
def Graded (small : Prop) (whole : Code) (p : Nat) (piece : Code) (a b : Nat) : Prop :=
  ∃ height : Nat → Nat, height p = a ∧ height (p + piece.size) = b ∧
    Each (fun k => Asks small (fun label h => level label = h) whole k (height k) (height (k + 1))) p piece ∧
    ∀ mark ∈ piece.labels, mark.2 ≤ piece.size ∧ level mark.1 = height (p + mark.2)

variable {small : Prop} {whole : Code} {p a b c : Nat}

theorem Graded.append {x y : Code} (hx : Graded small whole p x a b) (hy : Graded small whole (p + x.size) y b c) :
    Graded small whole p (x ++ y) a c := by
  obtain ⟨f, hfa, hfb, hf, hflabels⟩ := hx
  obtain ⟨g, hgb, hgc, hg, hglabels⟩ := hy
  -- the heights agree where the stretches meet
  have hright : ∀ k, p + x.size ≤ k → (if k < p + x.size then f k else g k) = g k := fun k hk =>
    if_neg (Nat.not_lt.2 hk)
  have hleft : ∀ k, k ≤ p + x.size → (if k < p + x.size then f k else g k) = f k := by
    intro k hk
    rcases Nat.lt_or_eq_of_le hk with hlt | rfl
    · exact if_pos hlt
    · rw [hright _ (Nat.le_refl _), hgb, hfb]
  refine ⟨fun k => if k < p + x.size then f k else g k, ?_, ?_, ?_, ?_⟩
  · exact (hleft p (Nat.le_add_right _ _)).trans hfa
  · rw [size_append, ← Nat.add_assoc]
    exact (hright _ (Nat.le_add_right _ _)).trans hgc
  · refine .append ?_ ?_
    · intro i instruction hi
      have hlt : i < x.size := (List.getElem?_eq_some_iff.1 hi).1
      have h := hf i instruction hi
      dsimp only
      rwa [hleft (p + i) (by omega), hleft (p + i + 1) (by omega)]
    · intro i instruction hi
      have h := hg i instruction hi
      dsimp only
      rwa [hright (p + x.size + i) (by omega), hright (p + x.size + i + 1) (by omega)]
  · intro mark hmark
    rw [size_append]
    rw [labels_append] at hmark
    rcases List.mem_append.1 hmark with hmark | hmark
    · obtain ⟨hle, hlevel⟩ := hflabels mark hmark
      exact ⟨by omega, by dsimp only; rw [hlevel, hleft _ (by omega)]⟩
    · obtain ⟨inner, hinner, rfl⟩ := List.mem_map.1 hmark
      obtain ⟨hle, hlevel⟩ := hglabels inner hinner
      refine ⟨by dsimp only; omega, ?_⟩
      dsimp only
      rw [hlevel, Nat.add_comm inner.2, ← Nat.add_assoc, hright _ (by omega)]

theorem graded_nil : Graded small whole p (ofList []) a a :=
  ⟨fun _ => a, rfl, rfl, each_nil, fun _ h => absurd h List.not_mem_nil⟩

theorem graded_mark {label : String} (h : level label = a) : Graded small whole p (mark label) a a := by
  refine ⟨fun _ => a, rfl, rfl, each_mark, fun m hm => ?_⟩
  rw [List.mem_singleton.1 hm]
  exact ⟨Nat.le_refl 0, h⟩

theorem graded_singleton {i : Instruction} (h : Asks small (fun label h => level label = h) whole p a b i) :
    Graded small whole p (ofList [i]) a b := by
  have hnext : (if p + 1 = p then a else b) = b := if_neg (Nat.succ_ne_self p)
  refine ⟨fun k => if k = p then a else b, if_pos rfl, hnext, each_cons ?_ each_nil,
    fun _ h => absurd h List.not_mem_nil⟩
  dsimp only
  rwa [if_pos rfl, hnext]

theorem graded_cons {i : Instruction} {is : List Instruction}
    (h : Asks small (fun label h => level label = h) whole p a b i)
    (hs : Graded small whole (p + 1) (ofList is) b c) : Graded small whole p (ofList (i :: is)) a c :=
  (graded_singleton h).append hs

theorem graded_pop : Graded small whole p (ofList [.pop]) (a + 1) a :=
  graded_singleton ⟨Nat.succ_pos a, rfl⟩

/-- Behind a jump the height may be any. -/
theorem graded_jumpTo {label : String} (h : level label = a) : Graded small whole p (ofList [.jumpTo label]) a b :=
  graded_singleton h

/-! ## Expressions -/

mutual

/-- **The code of an expression leaves one value** on what lies on the stack. -/
theorem graded_expr {line : Nat} : ∀ {e : Expr} {p a : Nat}, (small → e.isSmall = true) →
    At whole p (ofList (expr line e)) → Graded small whole p (ofList (expr line e)) a (a + 1)
  | .number _, _, _, _, _ | .string _, _, _, _, _ | .bool _, _, _, _, _ | .null, _, _, _, _
  | .variable _, _, _, _, _ => graded_singleton rfl
  | .call function arguments, p, a, hsmall, ha => by
    have hboth : small → arguments.length ≤ 16777216 ∧ Expr.areSmall arguments = true := by
      simpa [Expr.isSmall] using hsmall
    obtain ⟨harguments, hcall⟩ := at_ofList_append.1 ha
    have hcount : whole.instructions[p + (exprs line arguments).length]? =
      some (.pushNumber (Number.ofNat arguments.length)) := (at_cons.1 hcall).1
    rw [expr, ofList_append]
    refine .append (graded_exprs (fun h => (hboth h).2) harguments) (graded_cons rfl (graded_singleton ?_))
    refine ⟨arguments.length, by omega, ?_, fun h => Number.toCount_ofNat (hboth h).1, by omega, by omega⟩
    rwa [Nat.add_sub_cancel]

theorem graded_exprs {line : Nat} : ∀ {es : List Expr} {p a : Nat}, (small → Expr.areSmall es = true) →
    At whole p (ofList (exprs line es)) → Graded small whole p (ofList (exprs line es)) a (a + es.length)
  | [], _, _, _, _ => graded_nil
  | e :: rest, p, a, hsmall, ha => by
    have hboth : small → e.isSmall = true ∧ Expr.areSmall rest = true := by simpa [Expr.areSmall] using hsmall
    obtain ⟨he, hrest⟩ := at_ofList_append.1 ha
    rw [exprs, ofList_append, List.length_cons, Nat.add_comm rest.length, ← Nat.add_assoc]
    exact .append (graded_expr (fun h => (hboth h).1) he) (graded_exprs (fun h => (hboth h).2) hrest)

end

/-! ## Statements -/

/-- The code of a text and of the instruction that takes its holes. -/
theorem graded_text {line : Nat} {text : Template} {i : Instruction}
    (hsmall : small → Dialect.small.hasTemplate text = true) (ha : At whole p (ofList (exprs line text.holes ++ [i])))
    (hi : ∀ k, Asks small (fun label h => level label = h) whole k (a + text.holes.length) b i) :
    Graded small whole p (ofList (exprs line text.holes ++ [i])) a b := by
  have hholes : small → Expr.areSmall text.holes = true := fun h =>
    Expr.areSmall_of_forall (List.all_eq_true.1 (hsmall h))
  exact .append (graded_exprs hholes (at_ofList_append.1 ha).1) (graded_singleton (hi _))

/-- The code of a condition, which lies on the stack where it does not hold. -/
theorem graded_condition {line : Nat} {e : Expr} {skip : String} {is : List Instruction}
    (hsmall : small → e.isSmall = true) (ha : At whole p (ofList (expr line e ++ .jumpIfFalse skip :: is)))
    (hskip : level skip = a + 1) (his : ∀ k, Graded small whole k (ofList is) (a + 1) b) :
    Graded small whole p (ofList (expr line e ++ .jumpIfFalse skip :: is)) a b := by
  rw [ofList_append]
  exact (graded_expr hsmall (at_ofList_append.1 ha).1).append (graded_cons ⟨Nat.succ_pos a, rfl, hskip⟩ (his _))

theorem graded_addOption {line : Nat} {text : Template} {label : String} {tags : List String} {followAlone : Bool}
    (hsmall : small → Dialect.small.hasTemplate text = true)
    (ha : At whole p (ofList (exprs line text.holes ++
      [.addOption text.text text.holes.length label tags followAlone line]))) :
    Graded small whole p (ofList (exprs line text.holes ++
      [.addOption text.text text.holes.length label tags followAlone line])) a a :=
  graded_text hsmall ha fun _ => ⟨by omega, by omega⟩

/-- **The header of a group leaves the empty stack empty**; a condition lies below the holes of its option until the
option is added or skipped. -/
theorem graded_headers : ∀ {choices : List Choice} {used p : Nat},
    (small → Dialect.small.hasChoices choices = true) → At whole p (headers used choices).1 →
    Graded small whole p (headers used choices).1 0 0
  | [], _, _, _, _ => graded_nil
  | .mk line text none tags body :: rest, used, p, hsmall, ha => by
    have hparts : small → (Dialect.small.hasTemplate text = true ∧ Dialect.small.hasBody body = true) ∧
        Dialect.small.hasChoices rest = true := by simpa [Dialect.hasChoices] using hsmall
    simp only [headers] at ha ⊢
    exact (graded_addOption (fun h => (hparts h).1.1) ha.left).append (graded_headers (fun h => (hparts h).2) ha.right)
  | .mk line text (some condition) tags body :: rest, used, p, hsmall, ha => by
    have hparts : small → ((Dialect.small.hasTemplate text = true ∧ Dialect.small.allows condition = true) ∧
        Dialect.small.hasBody body = true) ∧ Dialect.small.hasChoices rest = true := by
      simpa [Dialect.hasChoices] using hsmall
    have hskip := level_conditionalOption (used + 2)
    simp only [headers] at ha ⊢
    have hcondition := graded_condition (fun h => (hparts h).1.1.2) ha.left.left.left.left hskip fun _ => graded_nil
    have hoffer := graded_addOption (a := 1) (fun h => (hparts h).1.1.1) ha.left.left.left.right
    exact (((hcondition.append hoffer).append (graded_mark hskip)).append graded_pop).append
      (graded_headers (fun h => (hparts h).2) ha.right)

mutual

/-- **The code of a statement leaves the empty stack empty.** -/
theorem graded_statement : ∀ {s : Statement} {used p : Nat}, (small → Dialect.small.hasStatement s = true) →
    At whole p (statement used s).1 → Graded small whole p (statement used s).1 0 0
  | .line .., _, _, hsmall, ha | .command .., _, _, hsmall, ha =>
    graded_text hsmall ha fun _ => ⟨by omega, by omega, rfl⟩
  | .set .., _, _, hsmall, ha => by
    rw [statement, ofList_append]
    exact .append (graded_expr hsmall (at_ofList_append.1 ha).1)
      (graded_cons ⟨by omega, rfl⟩ (graded_singleton ⟨by omega, by omega⟩))
  | .link _ none _, _, _, _, _ => graded_singleton ⟨Nat.le_refl 0, rfl⟩
  | .link _ (some _) _, _, _, hsmall, ha => graded_addOption hsmall ha
  | .jump .., _, _, _, _ => graded_cons rfl (graded_singleton rfl)
  | .stop, _, _, _, _ => graded_singleton rfl
  | .conditional branches, used, _, hsmall, ha => by
    rw [statement]
    exact .append (graded_clauses (level_endif _) hsmall (At.left ha)) (graded_mark (level_endif _))
  | .options choices, used, p, hsmall, ha => by
    have hlevel := level_groupEnd (used + 1)
    have hgroup := Group.mk ha
    simp only [statement] at ha ⊢
    obtain ⟨b, hbodies⟩ := graded_bodies hlevel hsmall ha.left.right
    have hjump : Asks small (fun label h => level label = h) whole (p + (headers (used + 1) choices).1.size + 1) 1 b
        .jump := ⟨Nat.le_refl 1, ⟨_, hgroup⟩, fun _ h => h.level_eq_one⟩
    have hshow : Graded small whole (p + (headers (used + 1) choices).1.size) (ofList [.showOptions, .jump]) 0 b :=
      graded_cons ⟨rfl, rfl⟩ (graded_singleton hjump)
    exact (((graded_headers hsmall ha.left.left.left).append hshow).append hbodies).append (graded_mark hlevel)

theorem graded_statements : ∀ {body : List Statement} {used p : Nat}, (small → Dialect.small.hasBody body = true) →
    At whole p (statements used body).1 → Graded small whole p (statements used body).1 0 0
  | [], _, _, _, _ => graded_nil
  | s :: rest, used, p, hsmall, ha => by
    have hparts : small → Dialect.small.hasStatement s = true ∧ Dialect.small.hasBody rest = true := by
      simpa [Dialect.hasBody] using hsmall
    rw [statements]
    exact .append (graded_statement (fun h => (hparts h).1) (At.left ha))
      (graded_statements (fun h => (hparts h).2) (At.right ha))

theorem graded_clauses : ∀ {branches : List Clause} {done : String} {used p : Nat}, level done = 0 →
    (small → Dialect.small.hasClauses branches = true) → At whole p (clauses done used branches).1 →
    Graded small whole p (clauses done used branches).1 0 0
  | [], _, _, _, _, _, _ => graded_nil
  | .mk _ none body :: rest, done, used, p, hdone, hsmall, ha => by
    have hparts : small → Dialect.small.hasBody body = true ∧ Dialect.small.hasClauses rest = true := by
      simpa [Dialect.hasClauses] using hsmall
    simp only [clauses] at ha ⊢
    exact ((graded_statements (fun h => (hparts h).1) ha.left.left).append (graded_jumpTo hdone)).append
      (graded_clauses hdone (fun h => (hparts h).2) ha.right)
  | .mk line (some condition) body :: rest, done, used, p, hdone, hsmall, ha => by
    have hparts : small → (Dialect.small.allows condition = true ∧ Dialect.small.hasBody body = true) ∧
        Dialect.small.hasClauses rest = true := by simpa [Dialect.hasClauses] using hsmall
    have hlevel := level_skipclause (used + 1)
    simp only [clauses] at ha ⊢
    have hcondition := graded_condition (fun h => (hparts h).1.1) ha.left.left.left.left.left hlevel fun _ =>
      graded_pop
    have hbody := graded_statements (fun h => (hparts h).1.2) ha.left.left.left.left.right
    exact (((((hcondition.append hbody).append (graded_jumpTo hdone)).append (graded_mark hlevel)).append
      graded_pop).append (graded_clauses hdone (fun h => (hparts h).2) ha.right))

/-- The bodies of a group are begun with the option that was taken on the stack. Without any there is nothing to jump
to, and the height before them may be what comes after them. -/
theorem graded_bodies : ∀ {choices : List Choice} {done : String} {header used p : Nat}, level done = 0 →
    (small → Dialect.small.hasChoices choices = true) → At whole p (bodies done header used choices).1 →
    ∃ a, Graded small whole p (bodies done header used choices).1 a 0
  | [], _, _, _, _, _, _, _ => ⟨0, graded_nil⟩
  | .mk _ text condition _ body :: rest, done, header, used, p, hdone, hsmall, ha => by
    have hparts : small → ((Dialect.small.hasTemplate text = true ∧ condition.all Dialect.small.allows = true) ∧
        Dialect.small.hasBody body = true) ∧ Dialect.small.hasChoices rest = true := by
      simpa only [Dialect.hasChoices, Bool.and_eq_true] using hsmall
    simp only [bodies] at ha ⊢
    obtain ⟨a, hrest⟩ := graded_bodies hdone (fun h => (hparts h).2) ha.right
    have hbody := graded_statements (fun h => (hparts h).1.2) ha.left.left.right
    exact ⟨1, ((((graded_mark (level_optionLabel header)).append graded_pop).append hbody).append
      (graded_jumpTo hdone)).append hrest⟩

end

theorem graded_ending (links : Bool) : Graded small whole p (ending links) 0 0 := by
  cases links with
  | false => exact graded_singleton rfl
  | true => exact graded_cons ⟨rfl, rfl⟩ (graded_singleton rfl)

/-! ## Nodes -/

/-- The labels of a group are set in the code in which it stands. -/
theorem Group.exists_lookup {k : Nat} {labels : List String} (h : Group whole k labels) :
    ∀ label ∈ labels, ∃ q, whole.labels.lookup label = some q := by
  obtain ⟨ha⟩ := h
  intro label hlabel
  obtain ⟨q, hq, -⟩ := (offering_headers (At.left ha)).ready label hlabel
  exact ⟨q, hq⟩

/-- **The code of every node is balanced.** Where no call has more arguments than a single-precision number can count,
each call takes from the stack just what the heights say. -/
theorem balanced_node (body : List Statement) :
    ∃ height, Balanced (Dialect.small.hasBody body = true) (node body) height := by
  have hgraded : Graded (Dialect.small.hasBody body = true) (node body) 0 (node body) 0 0 :=
    .append (graded_statements id (At.left (at_node body))) (graded_ending _)
  obtain ⟨height, hstart, -, heach, hlabels⟩ := hgraded
  -- a label that is found has the height of its use
  have hleads : ∀ {label : String}, (∃ q, (node body).labels.lookup label = some q) →
      ∃ q, (node body).labels.lookup label = some q ∧ height q = level label := by
    rintro label ⟨q, hq⟩
    obtain ⟨before, later, hsplit, -⟩ := List.lookup_eq_some_iff.1 hq
    have hmem : (label, q) ∈ (node body).labels := by
      rw [hsplit]
      exact List.mem_append_right _ List.mem_cons_self
    have hheight := (hlabels _ hmem).2
    rw [Nat.zero_add] at hheight
    exact ⟨q, hq, hheight.symm⟩
  refine ⟨height, hstart, fun k i hi => ?_⟩
  have hasks := heach k i hi
  rw [Nat.zero_add] at hasks
  cases i with
  | jumpTo label =>
    obtain ⟨q, hq, -⟩ := placed_node hi
    obtain ⟨q, hq, hheight⟩ := hleads ⟨q, hq⟩
    exact ⟨q, hq, hheight.trans hasks⟩
  | jumpIfFalse label =>
    obtain ⟨q, hq, -⟩ := placed_node hi
    obtain ⟨q, hq, hheight⟩ := hleads ⟨q, hq⟩
    exact ⟨hasks.1, hasks.2.1, q, hq, hheight.trans hasks.2.2⟩
  | jump =>
    refine ⟨hasks.1, hasks.2.1, fun labels hgroup label hlabel => ?_⟩
    obtain ⟨q, hq, hheight⟩ := hleads (hgroup.exists_lookup label hlabel)
    exact ⟨q, hq, hheight.trans (hasks.2.2 labels hgroup label hlabel)⟩
  | _ => exact hasks

end Code

end Dialogue
