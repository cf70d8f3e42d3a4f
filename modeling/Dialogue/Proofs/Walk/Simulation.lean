import Mathlib
import Dialogue.Proofs.Walk.Tracks

/-!
# Compiled code does what is written

From a position that leads to statements a session does what a walk does with these statements (`meets_go`): the proof
goes along the walk, with the code of one statement after the other. A branch is found behind the conditions that do not
hold (`silent_branch`), and the header of a group adds the options that the walk offers (`silent_offerAll`).
-/

namespace Dialogue

variable {base : Session} {story : Story} {allows : Expr → Bool} {mixed : Prop} {d : Dialect} {code : Code}

/-! ## Jumps between statements -/

section Jumps

variable {w : Walk} {options : List PendingOption} {stack : List Value}

theorem silent_jump {p q : Nat} {label : String} (hh : Here base allows mixed w.node d code)
    (hi : code.instructions[p]? = some (.jumpTo label)) (hl : code.labels.lookup label = some q) (hlt : p < q) :
    Session.Silent (w.load base p options stack) (w.load base q options stack) :=
  .of_step ((Walk.step_load hh.runs_load hi).trans (Session.jumpTo_eq hh.runs_load hl)) hlt

/-- **Jumps lead to the next statement**, or to the end of the node. -/
theorem silent_begins {p : Nat} {todo : List Statement} (hh : Here base allows mixed w.node d code)
    (hl : Code.Leads d code p todo) : ∃ q,
      Session.Silent (w.load base p options stack) (w.load base q options stack) ∧ Code.Begins d code q todo := by
  induction hl with
  | ends h => exact ⟨_, .refl _, h⟩
  | next hd hs h => exact ⟨_, .refl _, _, hd, hs, h⟩
  | jumps hi hl hlt _ ih =>
    obtain ⟨q, hsilent, hq⟩ := ih
    exact ⟨q, (silent_jump hh hi hl hlt).trans hsilent, hq⟩

/-- A jump to the label of an option leads to its body. -/
theorem silent_marked {p : Nat} {label : String} {todo : List Statement} (hh : Here base allows mixed w.node d code)
    (hi : code.instructions[p]? = some .jump) (hm : Code.Marked d code p label todo) : ∃ q,
      Session.Silent (w.load base p options (.string label :: stack)) (w.load base q options stack) ∧
        Code.Leads d code q todo := by
  obtain ⟨q, hlt, hl, hpop, h⟩ := hm
  have hjump : Session.Silent (w.load base p options (.string label :: stack))
      (w.load base q options (.string label :: stack)) :=
    .of_step ((Walk.step_load hh.runs_load hi).trans (Session.jumpTo_eq hh.runs_load hl)) hlt
  exact ⟨q + 1, hjump.trans (Walk.silent_pop hh.runs_load hpop), h⟩

end Jumps

/-! ## Branches and groups -/

section Parts

variable (hp : Plays base story allows mixed)

include hp

/-- **The code of a conditional leads to the branch that is taken**, and to what comes after it. -/
theorem silent_branch {done : String} {rest : List Statement} {options : List PendingOption} :
    ∀ {branches : List Clause} {w : Walk} {p used : Nat}, Here base allows mixed w.node d code →
      d.hasClauses branches = true → Code.At code p (Code.clauses done used branches).1 →
      code.labels.lookup done = some (p + (Code.clauses done used branches).1.size) →
      Code.Leads d code (p + (Code.clauses done used branches).1.size) rest →
      ∃ q, Session.Silent (w.load base p options w.left)
          ((w.branch story branches).2.load base q options (w.branch story branches).2.left) ∧
        Code.Leads d code q ((w.branch story branches).1 ++ rest)
  | [], w, p, _, _, _, _, _, h => ⟨p, .refl _, h⟩
  | .mk _ none body :: others, w, p, used, hh, hd, ha, hl, h => by
    rw [Dialect.hasClauses, Bool.and_eq_true, Bool.and_eq_true] at hd
    simp only [Code.clauses, Code.at_append, Code.at_cons, Code.at_nil, and_true, Code.size_append, Code.size_ofList,
      List.length_singleton] at ha hl h
    obtain ⟨⟨hinside, hjump⟩, -⟩ := ha
    refine ⟨p, .refl _, ?_⟩
    show Code.Leads d code p (body ++ rest)
    exact Code.Leads.append hd.1.2 hinside (.jumps hjump hl (by omega) h)
  | .mk line (some condition) body :: others, w, p, used, hh, hd, ha, hl, h => by
    rw [Dialect.hasClauses, Bool.and_eq_true, Bool.and_eq_true] at hd
    simp only [Code.clauses, Code.at_append, Code.at_ofList_append, Code.at_cons, Code.at_mark, Code.at_nil, and_true,
      Code.size_append, Code.size_ofList, Code.size_mark, List.length_append, List.length_cons, List.length_nil,
      Nat.zero_add, Nat.add_zero, ← Nat.add_assoc] at ha hl h
    obtain ⟨⟨⟨⟨⟨⟨hexpr, htest, hpop⟩, hinside⟩, hjump⟩, hmark⟩, hpop'⟩, hothers⟩ := ha
    have hcond := hh.allows_eq_true hd.1.1
    have htest := Walk.silent_test options hp hh.runs_load hcond hexpr htest hmark (by omega)
    have hh' : Here base allows mixed (w.value story line condition).2.node d code := hh
    rw [Walk.branch]
    -- either way the value of the condition is taken from the stack: in the branch, or behind the label that skips it
    by_cases hv : (w.value story line condition).1.isTrue = true
    · rw [if_pos hv] at htest ⊢
      have hbody : Code.Leads d code (p + (Code.expr line condition).length + 1 + 1) (body ++ rest) :=
        Code.Leads.append hd.1.2 hinside (.jumps hjump hl (by omega) h)
      exact ⟨_, htest.trans (Walk.silent_pop hh'.runs_load hpop), hbody⟩
    · rw [if_neg hv] at htest ⊢
      obtain ⟨q, hsilent, hq⟩ := silent_branch hh' hd.2 hothers hl h
      exact ⟨q, (htest.trans (Walk.silent_pop hh'.runs_load hpop')).trans hsilent, hq⟩

/-- **The code of the header of a group adds the options that the walk offers.** -/
theorem silent_offerAll {start : Nat} {rest : List Statement} : ∀ {choices : List Choice} {w : Walk} {p used : Nat}
    {options : List PendingOption}, Here base allows mixed w.node d code → d.hasChoices choices = true →
      Code.At code p (Code.headers used choices).1 → Code.Ready d code start rest used choices →
      List.Forall₂ (Pends d fun label statements => Code.Marked d code start label (statements ++ rest)) options
        w.offers →
      ∃ options', Session.Silent (w.load base p options w.left) ((w.offerAll story choices).load base
          (p + (Code.headers used choices).1.size) options' (w.offerAll story choices).left) ∧
        List.Forall₂ (Pends d fun label statements => Code.Marked d code start label (statements ++ rest)) options'
          (w.offerAll story choices).offers
  | [], w, p, _, options, _, _, _, _, ho => ⟨options, .refl _, ho⟩
  | .mk line text none tags body :: others, w, p, used, options, hh, hd, ha, ⟨hmarked, hready⟩, ho => by
    rw [Dialect.hasChoices, Bool.and_eq_true, Bool.and_eq_true, Bool.and_eq_true] at hd
    simp only [Code.headers, Code.labelCount, Code.at_append, Code.size_append, Code.size_ofList, List.length_append,
      List.length_singleton, ← Nat.add_assoc] at ha hready ⊢
    obtain ⟨hoffer, hothers⟩ := ha
    have ht := hh.holes_allowed hd.1.1.1
    obtain ⟨options', hsilent, ho'⟩ := silent_offerAll (w := w.offer story line text tags (.body body))
      ((Walk.frame_offer story w line text tags _).here hh) hd.2 hothers hready (by
        rw [Walk.offers_offer]
        exact List.rel_append ho (.cons (.body hmarked) .nil))
    exact ⟨options', (Walk.silent_offer _ hp hh.runs_load ht hoffer).trans hsilent, ho'⟩
  | .mk line text (some condition) tags body :: others, w, p, used, options, hh, hd, ha, ⟨hmarked, hready⟩, ho => by
    rw [Dialect.hasChoices, Bool.and_eq_true, Bool.and_eq_true, Bool.and_eq_true] at hd
    simp only [Code.headers, Code.labelCount, Code.at_append, Code.at_mark, Code.at_cons, Code.at_nil, and_true,
      Code.size_append, Code.size_ofList, Code.size_mark, List.length_append, List.length_singleton, Nat.add_zero,
      ← Nat.add_assoc] at ha hready ⊢
    obtain ⟨⟨⟨⟨htest, hoffer⟩, hmark⟩, hpop⟩, hothers⟩ := ha
    obtain ⟨hexpr, hjump⟩ := Code.at_ofList_append.1 htest
    have hcond := hh.allows_eq_true hd.1.1.2
    have ht := hh.holes_allowed hd.1.1.1
    have htest := Walk.silent_test options hp hh.runs_load hcond hexpr (Code.at_singleton.1 hjump) hmark (by omega)
    generalize hvalue : w.value story line condition = result at htest
    obtain ⟨value, w₁⟩ := result
    have hframe : Walk.Frame w w₁ := by
      rw [show w₁ = (w.value story line condition).2 by rw [hvalue]]
      exact Walk.frame_value story w line condition
    have hoffers : w₁.offers = w.offers := by
      rw [show w₁ = (w.value story line condition).2 by rw [hvalue]]
      rfl
    have hh₁ := hframe.here hh
    rw [Walk.offerAll, hvalue]
    dsimp only at htest ⊢
    -- the value of the condition is taken from the stack only after the option, under whose text it lies
    by_cases hv : value.isTrue = true
    · rw [if_pos hv] at htest ⊢
      obtain ⟨options', hsilent, ho'⟩ := silent_offerAll (w := w₁.offerUnder story value line text tags (.body body))
        ((Walk.frame_offerUnder story w₁ line value text tags _).here hh₁) hd.2 hothers hready (by
          rw [Walk.offers_offerUnder, hoffers]
          exact List.rel_append ho (.cons (.body hmarked) .nil))
      have hrun : (w₁.load base (p + (Code.expr line condition).length + 1) options (value :: w₁.left)).Runs code :=
        hh₁.runs_load
      exact ⟨options', (htest.trans (Walk.silent_offerUnder hp hrun (.body body) ht hoffer hpop)).trans hsilent, ho'⟩
    · rw [if_neg hv] at htest ⊢
      obtain ⟨options', hsilent, ho'⟩ := silent_offerAll hh₁ hd.2 hothers hready (by rwa [hoffers])
      exact ⟨options', (htest.trans (Walk.silent_pop hh₁.runs_load hpop)).trans hsilent, ho'⟩

/-- The code of a link adds it to the options that are pending. -/
theorem silent_link {w : Walk} {p used line : Nat} {options : List PendingOption} {label : Option Template}
    {destination : String} (hh : Here base allows mixed w.node d code)
    (hd : d.hasStatement (.link line label destination) = true)
    (ha : Code.At code p (Code.statement used (.link line label destination)).1) :
    d.links = true ∧ Session.Silent (w.load base p options w.left)
      ((w.offer story line (label.getD ⟨destination, []⟩) [] (.link destination label.isNone)).load base
        (p + (Code.statement used (.link line label destination)).1.size)
        (options ++ [⟨(w.say story line (label.getD ⟨destination, []⟩) []).1, destination, label.isNone⟩])
        (w.offer story line (label.getD ⟨destination, []⟩) [] (.link destination label.isNone)).left) := by
  cases label with
  | none =>
    have hholes : (Template.mk destination []).holes.all allows = true := rfl
    exact ⟨hd, Walk.silent_offer _ hp hh.runs_load hholes ha⟩
  | some text =>
    rw [Dialect.hasStatement, Bool.and_eq_true] at hd
    refine ⟨hd.1, ?_⟩
    rw [Code.statement, Code.size_ofList, List.length_append, ← Nat.add_assoc]
    exact Walk.silent_offer (.link destination false) hp hh.runs_load (hh.holes_allowed hd.2) ha

/-! ## Whole walks -/

/-- The end of a node. -/
theorem meets_ending {w : Walk} {p : Nat} {options : List PendingOption} (hs : w.status = .running)
    (hf : w.finished = false) (hh : Here base allows mixed w.node d code) (ha : Code.At code p (Code.ending d.links))
    (ho : List.Forall₂ (Pends d fun _ _ => False) options w.offers) :
    Meets base allows mixed d code (w.load base p options w.left) w (w.present story false) := by
  cases hlinks : d.links with
  | true =>
    rw [hlinks] at ha
    obtain ⟨hshow, hrun⟩ := Code.at_cons.1 ha
    exact meets_present hp hs hf hh hshow (Code.at_singleton.1 hrun) Bool.noConfusion
      (ho.imp fun _ _ => Pends.mono fun _ _ => False.elim)
  | false =>
    rw [hlinks] at ha
    generalize hoffers : w.offers = offers at ho
    cases ho with
    | nil =>
      rw [Walk.present, hoffers]
      exact meets_finish hs hh (Code.at_singleton.1 ha) rfl
    | cons hfirst _ =>
      cases hfirst with
      | link hl => rw [hlinks] at hl; exact absurd hl Bool.false_ne_true
      | body h => exact h.elim

/-- **A group of options.** -/
theorem meets_options {w : Walk} {p used : Nat} {options : List PendingOption} {choices : List Choice}
    {rest : List Statement} (hs : w.status = .running) (hf : w.finished = false)
    (hh : Here base allows mixed w.node d code) (hd : d.hasStatement (.options choices) = true)
    (ha : Code.At code p (Code.statement used (.options choices)).1)
    (h : Code.Leads d code (p + (Code.statement used (.options choices)).1.size) rest)
    (ho : List.Forall₂ (Pends d fun _ _ => False) options w.offers) :
    Meets base allows mixed d code (w.load base p options w.left) w
      (((w.offerAll story choices).wait w.status rest).present story true) := by
  rw [Dialect.hasStatement, Bool.and_eq_true] at hd
  simp only [Code.statement, Code.at_append, Code.at_cons, Code.at_mark, Code.at_nil, and_true, Code.size_append,
    Code.size_ofList, Code.size_mark, List.length_cons, List.length_nil, Nat.add_zero, Nat.zero_add,
    ← Nat.add_assoc] at ha h
  obtain ⟨⟨⟨hheaders, hshow, hjump⟩, hbodies⟩, hdone⟩ := ha
  have hready := Code.ready_bodies hd.2 (Nat.lt_succ_self _) hbodies hdone h
  have hframe := Walk.frame_offerAll story w choices
  obtain ⟨options', hsilent, ho'⟩ := silent_offerAll hp hh hd.2 hheaders hready
    (ho.imp fun _ _ => Pends.mono fun _ _ => False.elim)
  have hwait : Walk.Frame w ((w.offerAll story choices).wait w.status rest) :=
    ⟨hframe.node, rfl, hframe.finished, hframe.strayed⟩
  have hload : ((w.offerAll story choices).wait w.status rest).load base (p + (Code.headers (used + 1) choices).1.size)
      options' (w.offerAll story choices).left = (w.offerAll story choices).load base
        (p + (Code.headers (used + 1) choices).1.size) options' (w.offerAll story choices).left := by
    simp only [Walk.load, Walk.wait, hframe.status]
  rw [← hload] at hsilent
  exact .of_silent hsilent hwait (meets_present (w := (w.offerAll story choices).wait w.status rest) hp hs
    (hwait.finished.trans hf) (hwait.here hh) hshow hjump (fun _ => hd.1)
    (ho'.imp fun _ _ => Pends.mono fun _ _ hm => ⟨rfl, hm⟩))

/-- **A session carries out the statements that its position leads to.** -/
theorem meets_go : ∀ (todo : List Statement) {w : Walk} {p : Nat} {options : List PendingOption}, w.status = .running →
    w.finished = false → Here base allows mixed w.node d code → Code.Leads d code p todo →
    List.Forall₂ (Pends d fun _ _ => False) options w.offers →
    Meets base allows mixed d code (w.load base p options w.left) w (w.go story todo)
  | [], w, p, options, hs, hf, hh, hl, ho => by
    obtain ⟨q, hsilent, ha⟩ := silent_begins hh hl
    have hwait : Session.Silent (w.load base p options w.left) ((w.wait w.status []).load base q options w.left) :=
      hsilent
    rw [Walk.go]
    exact .of_silent hwait (Walk.frame_wait w []) (meets_ending hp hs hf hh ha ho)
  | .line line text tags :: rest, w, p, options, hs, hf, hh, hl, ho => by
    obtain ⟨q, hsilent, used, hd, ha, h⟩ := silent_begins hh hl
    have hframe := Walk.frame_say story w line text tags
    rw [Code.statement, Code.size_ofList, List.length_append, List.length_singleton, ← Nat.add_assoc] at h
    rw [Walk.go]
    refine .agrees (hsilent.stops (Walk.stops_say hp hh.runs_load (hh.holes_allowed hd) ha rest)) rfl hframe.strayed ?_
    exact .going (.inr (.inl rfl)) (hframe.finished.trans hf) (hframe.here hh) h
      ((Walk.offers_say story w line text tags).symm ▸ ho)
  | .command line text :: rest, w, p, options, hs, hf, hh, hl, ho => by
    obtain ⟨q, hsilent, used, hd, ha, h⟩ := silent_begins hh hl
    rw [Code.statement, Code.size_ofList, List.length_append, List.length_singleton, ← Nat.add_assoc] at h
    rw [Walk.go]
    exact .agrees (hsilent.stops (Walk.stops_tell hp hh.runs_load (hh.holes_allowed hd) ha rest)) rfl rfl
      (.going (.inr (.inr rfl)) hf hh h ho)
  | .set line name e :: rest, w, p, options, hs, hf, hh, hl, ho => by
    obtain ⟨q, hsilent, used, hd, ha, h⟩ := silent_begins hh hl
    rw [Code.statement, Code.size_ofList, List.length_append, ← Nat.add_assoc] at h
    rw [Walk.go]
    refine .of_silent (hsilent.trans ?_) (Walk.frame_assign story w line name e) (meets_go rest hs hf hh h ho)
    exact Walk.silent_assign hp hh.runs_load (hh.allows_eq_true hd) ha
  | .conditional branches :: rest, w, p, options, hs, hf, hh, hl, ho => by
    obtain ⟨q, hsilent, used, hd, ha, h⟩ := silent_begins hh hl
    have hframe := Walk.frame_branch story w branches
    simp only [Code.statement, Code.at_append, Code.at_mark, Code.size_append, Code.size_mark, Nat.add_zero] at ha h
    obtain ⟨q', hbranch, h'⟩ := silent_branch hp hh hd ha.1 ha.2 h
    rw [Walk.go]
    exact .of_silent (hsilent.trans hbranch) hframe (meets_go _ (hframe.status.trans hs) (hframe.finished.trans hf)
      (hframe.here hh) h' ((Walk.offers_branch story w branches).symm ▸ ho))
  | .link line label destination :: rest, w, p, options, hs, hf, hh, hl, ho => by
    obtain ⟨q, hsilent, used, hd, ha, h⟩ := silent_begins hh hl
    obtain ⟨hlinks, hlink⟩ := silent_link hp hh hd ha
    have hframe := Walk.frame_offer story w line (label.getD ⟨destination, []⟩) [] (.link destination label.isNone)
    rw [Walk.go]
    refine .of_silent (hsilent.trans hlink) hframe (meets_go rest (hframe.status.trans hs) (hframe.finished.trans hf)
      (hframe.here hh) h ?_)
    rw [Walk.offers_offer]
    exact List.rel_append ho (.cons (.link hlinks) .nil)
  | .options choices :: rest, w, p, options, hs, hf, hh, hl, ho => by
    obtain ⟨q, hsilent, used, hd, ha, h⟩ := silent_begins hh hl
    rw [Walk.go]
    exact .of_silent hsilent (.refl w) (meets_options hp hs hf hh hd ha h ho)
  | .jump _ destination :: rest, w, p, options, hs, hf, hh, hl, ho => by
    obtain ⟨q, hsilent, used, -, ha, -⟩ := silent_begins hh hl
    obtain ⟨hpush, hrun⟩ := Code.at_cons.1 ha
    have hpushed : Session.Silent (w.load base q options w.left)
        (w.load base (q + 1) options (.string destination :: w.left)) :=
      .of_step (Walk.step_load hh.runs_load hpush) (Nat.lt_succ_self _)
    rw [Walk.go]
    exact .of_silent (hsilent.trans hpushed) (.refl w) (meets_leave hp hs hf hh (Code.at_singleton.1 hrun))
  | .stop :: rest, w, p, options, hs, hf, hh, hl, ho => by
    obtain ⟨q, hsilent, used, -, ha, -⟩ := silent_begins hh hl
    rw [Walk.go]
    exact .of_silent hsilent (.refl w) (meets_finish hs hh (Code.at_singleton.1 ha) rfl)
termination_by todo => Statement.weights todo
decreasing_by
  · exact Nat.lt_add_of_pos_left (Statement.weight_pos _)
  -- the branch that is taken weighs less than its conditional
  · have := Walk.weights_branch story w branches
    rw [Statement.weights_append, Statement.weights, Statement.weight]
    omega
  · exact Nat.lt_add_of_pos_left (Statement.weight_pos _)

end Parts

end Dialogue
