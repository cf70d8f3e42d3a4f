import Mathlib
import Dialogue.Proofs.Program.Leads
import Dialogue.Proofs.Program.Nodes
import Dialogue.Proofs.Session.Silent
import Dialogue.Proofs.Walk.Basic

/-!
# A session in the place of a walk

A walk is loaded into a session at a position, with pending options and a stack (`Walk.load`). Here each piece of code
that a statement is made of is shown to do in the session what it stands for in the walk: evaluating (`silent_values`),
showing a line or a command (`stops_say`, `stops_tell`), adding an option (`silent_offer`), deciding a condition
(`silent_test`) and setting a variable (`silent_assign`).
-/

namespace Dialogue

/-- **A session plays a story**: it has the code of its nodes, and evaluates the expressions that are allowed in it as
the story does. Only where it is `mixed` a node may have both links and groups of options. -/
structure Plays (base : Session) (story : Story) (allows : Expr → Bool) (mixed : Prop) : Prop where
  plurals : base.plurals = story.plurals
  config : base.config = story.config
  code : ∀ title : String, (base.program[title]?).map CompiledNode.code = (story.body? title).map Code.node
  dialect : ∀ title body, story.body? title = some body → ∃ d : Dialect, d.hasBody body = true ∧
    d.links = Code.haveLink body ∧ d.allows = allows ∧ (d.links = true → d.groups = true → mixed)
  evaluate : ∀ view place es left, es.all allows = true →
    story.evaluate view place es left = Evaluator.onStack base.library view place es left

namespace Walk

/-- **A session that stands where a walk stands**, at a position of the code, with pending options and a stack. -/
def load (w : Walk) (base : Session) (position : Nat) (options : List PendingOption) (stack : List Value) : Session :=
  { base with
    machine := ⟨w.node, position, options, stack, w.finished⟩
    status := w.status
    visits := w.visits
    vars := w.vars
    reported := w.reported }

section Load

variable {base : Session} {story : Story} {allows : Expr → Bool} {mixed : Prop} {code : Code} {w : Walk} {p line : Nat}
  {options : List PendingOption}

/-- The values of expressions are put on the stack. -/
theorem silent_values (hp : Plays base story allows mixed) (hr : (w.load base p options w.left).Runs code)
    {es : List Expr} (hes : es.all allows = true) (ha : Code.At code p (Code.ofList (Code.exprs line es))) :
    ∃ stack, operands es.length stack = ((w.values story line es).1, (w.values story line es).2.left) ∧
      (es ≠ [] → stack ≠ []) ∧ Session.Silent (w.load base p options w.left)
        ((w.values story line es).2.load base (p + (Code.exprs line es).length) options stack) := by
  have h := Session.silent_exprs line es hr ha
  have hvalues : w.values story line es = ((Evaluator.onStack base.library (w.view base.config)
      (w.place base.config line) es w.left).1.1, { w.report (Evaluator.onStack base.library (w.view base.config)
        (w.place base.config line) es w.left).2 with left := (Evaluator.onStack base.library (w.view base.config)
          (w.place base.config line) es w.left).1.2 }) := by
    rw [hp.config, ← hp.evaluate _ _ _ _ hes]
    rfl
  rw [hvalues]
  refine ⟨_, rfl, ?_, h⟩
  intro hne
  obtain ⟨e, rest, rfl⟩ := List.exists_cons_of_ne_nil hne
  exact Expr.operateAll_ne_nil e rest w.left

/-- The value of a single expression is on top of the stack. -/
theorem silent_value (hp : Plays base story allows mixed) (hr : (w.load base p options w.left).Runs code) {e : Expr}
    (he : allows e = true) (ha : Code.At code p (Code.ofList (Code.expr line e))) :
    Session.Silent (w.load base p options w.left) ((w.value story line e).2.load base
      (p + (Code.expr line e).length) options ((w.value story line e).1 :: (w.value story line e).2.left)) := by
  have hexprs : Code.exprs line [e] = Code.expr line e := List.append_nil _
  rw [← hexprs] at ha ⊢
  obtain ⟨stack, hs, hne, h⟩ := silent_values hp hr (by rw [List.all_cons, he]; rfl) ha
  obtain ⟨top, rest, rfl⟩ := List.exists_cons_of_ne_nil (hne (List.cons_ne_nil e []))
  obtain ⟨hvalues, hleft⟩ := Prod.mk.inj hs
  have htop : (w.value story line e).1 = top := by
    simp only [value, ← hvalues]
    rfl
  rw [htop, show (w.value story line e).2.left = rest from hleft.symm]
  exact h

/-- A template is filled and expanded with the values that are taken from the stack. -/
theorem compose_load (hp : Plays base story allows mixed) {text : String} {holes : Nat} {values stack : List Value}
    (hs : operands holes stack = (values, w.left)) : (w.load base p options stack).compose text holes line =
      ((w.expand story line text values).1,
        (w.expand story line text values).2.load base p options (w.expand story line text values).2.left) := by
  obtain ⟨hvalues, hleft⟩ := Prod.mk.inj hs
  have hfill : (w.load base p options stack).fill text holes =
      (Fill.fill text (values.map Value.text) w.vars, w.load base p options w.left) := by
    rw [← hvalues, ← hleft]
    rfl
  have hplurals : (w.load base p options w.left).plurals = base.plurals := rfl
  have hconfig : (w.load base p options w.left).config = base.config := rfl
  simp only [Session.compose, hfill, hplurals, hconfig, expand, ← hp.plurals, ← hp.config]
  cases Format.expand base.plurals (Fill.fill text (values.map Value.text) w.vars) base.config.locale <;> rfl

/-- In the same node the same code runs. -/
theorem Frame.runs {w' : Walk} (h : Frame w w') {stack : List Value} (hr : (w.load base p options stack).Runs code)
    {p' : Nat} {options' : List PendingOption} {stack' : List Value} : (w'.load base p' options' stack').Runs code := by
  show (base.program[w'.node]?).map CompiledNode.code = some code
  rw [h.node]
  exact hr

theorem step_load {stack : List Value} {instruction : Instruction} (hr : (w.load base p options stack).Runs code)
    (hi : code.instructions[p]? = some instruction) :
    (w.load base p options stack).step = (w.load base (p + 1) options stack).execute instruction :=
  Session.step_eq hr hi

/-- A line of a template is put together with the values that are taken from the stack. -/
theorem composeLine_load (hp : Plays base story allows mixed) {text : Template} {tags : List String}
    {stack : List Value} (hs : operands text.holes.length stack =
      ((w.values story line text.holes).1, (w.values story line text.holes).2.left)) :
    ((w.values story line text.holes).2.load base p options stack).composeLine text.text text.holes.length tags line =
      ((w.say story line text tags).1,
        (w.say story line text tags).2.load base p options (w.say story line text tags).2.left) := by
  rw [Session.composeLine, compose_load hp hs]
  simp only [say, place, ← hp.config]
  rfl

/-- The code of a line shows it. -/
theorem stops_say (hp : Plays base story allows mixed) (hr : (w.load base p options w.left).Runs code) {text : Template}
    {tags : List String} (ht : text.holes.all allows = true) (ha : Code.At code p
      (Code.ofList (Code.exprs line text.holes ++ [.runLine text.text text.holes.length tags line])))
    (rest : List Statement) : Session.Stops code (w.load base p options w.left)
      (((w.say story line text tags).2.wait .awaitingLine rest).load base
        (p + (Code.exprs line text.holes).length + 1) options (w.say story line text tags).2.left,
      .event (.line (w.say story line text tags).1)) := by
  obtain ⟨hexprs, hline⟩ := Code.at_ofList_append.1 ha
  have hi := Code.at_singleton.1 hline
  obtain ⟨stack, hs, -, h⟩ := silent_values hp hr ht hexprs
  refine h.stops (Session.stops_event hi ?_)
  rw [step_load ((frame_values story w line _).runs hr) hi, Session.execute, composeLine_load hp hs]
  rfl

/-- The code of a command shows it. -/
theorem stops_tell (hp : Plays base story allows mixed) (hr : (w.load base p options w.left).Runs code)
    {text : Template} (ht : text.holes.all allows = true) (ha : Code.At code p
      (Code.ofList (Code.exprs line text.holes ++ [.runCommand text.text text.holes.length line])))
    (rest : List Statement) : Session.Stops code (w.load base p options w.left)
      (((w.tell story line text).2.wait .awaitingCommand rest).load base
        (p + (Code.exprs line text.holes).length + 1) options (w.tell story line text).2.left,
      .event (.command (w.tell story line text).1)) := by
  obtain ⟨hexprs, hcommand⟩ := Code.at_ofList_append.1 ha
  have hi := Code.at_singleton.1 hcommand
  obtain ⟨stack, hs, -, h⟩ := silent_values hp hr ht hexprs
  obtain ⟨hvalues, hleft⟩ := Prod.mk.inj hs
  refine h.stops (Session.stops_event hi ?_)
  rw [step_load ((frame_values story w line _).runs hr) hi, Session.execute]
  simp only [tell, ← hvalues, ← hleft]
  rfl

/-- The code of an option adds it to those that are pending. -/
theorem silent_offer (target : Target) (hp : Plays base story allows mixed)
    (hr : (w.load base p options w.left).Runs code) {text : Template} {tags : List String} {destination : String}
    {alone : Bool} (ht : text.holes.all allows = true) (ha : Code.At code p (Code.ofList
      (Code.exprs line text.holes ++ [.addOption text.text text.holes.length destination tags alone line]))) :
    Session.Silent (w.load base p options w.left) ((w.offer story line text tags target).load base
      (p + (Code.exprs line text.holes).length + 1) (options ++ [⟨(w.say story line text tags).1, destination, alone⟩])
      (w.offer story line text tags target).left) := by
  obtain ⟨hexprs, hadd⟩ := Code.at_ofList_append.1 ha
  have hi := Code.at_singleton.1 hadd
  obtain ⟨stack, hs, -, h⟩ := silent_values hp hr ht hexprs
  refine h.trans (.of_step ?_ (Nat.lt_succ_self _))
  rw [step_load ((frame_values story w line _).runs hr) hi, Session.execute, composeLine_load hp hs]
  rfl

/-- The code of a condition leaves its value on the stack, and jumps when it does not hold. -/
theorem silent_test (options : List PendingOption) (hp : Plays base story allows mixed)
    (hr : (w.load base p options w.left).Runs code) {condition : Expr} (hcond : allows condition = true)
    {skip : String} {q : Nat}
    (hexpr : Code.At code p (Code.ofList (Code.expr line condition)))
    (hi : code.instructions[p + (Code.expr line condition).length]? = some (.jumpIfFalse skip))
    (hl : code.labels.lookup skip = some q) (hlt : p + (Code.expr line condition).length < q) :
    Session.Silent (w.load base p options w.left) ((w.value story line condition).2.load base
      (if (w.value story line condition).1.isTrue then p + (Code.expr line condition).length + 1 else q) options
      ((w.value story line condition).1 :: (w.value story line condition).2.left)) := by
  have hr' : ∀ p', ((w.value story line condition).2.load base p' options
      ((w.value story line condition).1 :: (w.value story line condition).2.left)).Runs code := fun _ => hr
  have hstep := step_load (hr' _) hi
  refine (silent_value hp hr hcond hexpr).trans ?_
  by_cases hv : (w.value story line condition).1.isTrue = true
  · rw [if_pos hv]
    exact .of_step (hstep.trans (if_pos hv)) (Nat.lt_succ_self _)
  · rw [if_neg hv]
    exact .of_step (hstep.trans ((if_neg hv).trans (Session.jumpTo_eq (hr' _) hl))) hlt

/-- An instruction that takes the top of the stack. -/
theorem silent_pop {stack : List Value} (hr : (w.load base p options stack).Runs code)
    (hi : code.instructions[p]? = some .pop) :
    Session.Silent (w.load base p options stack) (w.load base (p + 1) options stack.tail) := by
  refine .of_step ((step_load hr hi).trans ?_) (Nat.lt_succ_self _)
  cases stack <;> rfl

/-- The code of an option while the value of its condition is on the stack. -/
theorem silent_offerUnder (hp : Plays base story allows mixed) {value : Value}
    (hr : (w.load base p options (value :: w.left)).Runs code) {text : Template} {tags : List String}
    {destination : String} {alone : Bool} (target : Target) (ht : text.holes.all allows = true)
    (ha : Code.At code p (Code.ofList (Code.exprs line text.holes ++
      [.addOption text.text text.holes.length destination tags alone line])))
    (hi : code.instructions[p + (Code.exprs line text.holes).length + 1]? = some .pop) :
    Session.Silent (w.load base p options (value :: w.left)) ((w.offerUnder story value line text tags target).load base
      (p + (Code.exprs line text.holes).length + 1 + 1)
      (options ++ [⟨((w.hold value).say story line text tags).1, destination, alone⟩])
      (w.offerUnder story value line text tags target).left) := by
  have hframe := (frame_hold w value).trans (frame_offer story (w.hold value) line text tags target)
  exact (silent_offer target hp ((frame_hold w value).runs hr) ht ha).trans (silent_pop (hframe.runs hr) hi)

/-- The code of an assignment. -/
theorem silent_assign (hp : Plays base story allows mixed) (hr : (w.load base p options w.left).Runs code)
    {name : String} {e : Expr} (he : allows e = true)
    (ha : Code.At code p (Code.ofList (Code.expr line e ++ [.storeVariable name, .pop]))) :
    Session.Silent (w.load base p options w.left) ((w.assign story line name e).load base
      (p + (Code.expr line e).length + 2) options (w.assign story line name e).left) := by
  obtain ⟨hexpr, hrest⟩ := Code.at_ofList_append.1 ha
  obtain ⟨hstore, hpop⟩ := Code.at_cons.1 hrest
  have hset : Session.Silent ((w.value story line e).2.load base (p + (Code.expr line e).length) options
      ((w.value story line e).1 :: (w.value story line e).2.left)) ((w.assign story line name e).load base
        (p + (Code.expr line e).length + 1) options ((w.value story line e).1 :: (w.assign story line name e).left)) :=
    .of_step (step_load ((frame_value story w line e).runs hr) hstore) (Nat.lt_succ_self _)
  have hrun : (w.load base (p + (Code.expr line e).length + 1) options w.left).Runs code := hr
  exact ((silent_value hp hr he hexpr).trans hset).trans (silent_pop hrun (Code.at_singleton.1 hpop))

end Load

end Walk

end Dialogue
