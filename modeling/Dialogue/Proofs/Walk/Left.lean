import Mathlib
import Dialogue.Proofs.Walk.Agreement

/-!
# Nothing is left over

Where every expression has its own value, a walk has no operands left over: the value of a condition is held only while
the option under it is offered (`Walk.left_offerUnder`). A session keeps on its stack what its walk has left over. So
whenever a host that plays plain nodes has to do something, the stack is empty, however long the dialogue has been going
on (`Session.stack_after`).
-/

namespace Dialogue

/-- **The evaluation leaves no operand over.** -/
def Evaluator.Clears (evaluate : Evaluator) : Prop :=
  ∀ view place es left, (evaluate view place es left).1.2 = left

theorem Evaluator.clears_direct (library : Library) : (direct library).Clears := fun _ _ _ _ => rfl

namespace Walk

theorem left_expand (story : Story) (w : Walk) (line : Nat) (text : String) (values : List Value) :
    (w.expand story line text values).2.left = w.left := by
  unfold expand
  dsimp only
  split <;> rfl

/-- Another node begins with nothing left over. -/
theorem left_leave (story : Story) (w : Walk) (destination : String) : (w.leave story destination).1.left = [] := by
  unfold leave
  split <;> rfl

theorem left_present (story : Story) {w : Walk} (hw : w.left = []) (grouped : Bool) :
    (w.present story grouped).1.left = [] := by
  unfold present
  split
  · exact hw
  · exact left_leave story _ _
  · exact hw

section Statements

variable {story : Story} (h : story.evaluate.Clears)

include h

theorem left_values (w : Walk) (line : Nat) (es : List Expr) : (w.values story line es).2.left = w.left :=
  h _ _ es w.left

theorem left_say (w : Walk) (line : Nat) (text : Template) (tags : List String) :
    (w.say story line text tags).2.left = w.left :=
  (left_expand story _ line text.text _).trans (left_values h w line text.holes)

theorem left_tell (w : Walk) (line : Nat) (text : Template) : (w.tell story line text).2.left = w.left :=
  left_values h w line text.holes

theorem left_value (w : Walk) (line : Nat) (e : Expr) : (w.value story line e).2.left = w.left :=
  left_values h w line [e]

theorem left_assign (w : Walk) (line : Nat) (name : String) (e : Expr) : (w.assign story line name e).left = w.left :=
  left_value h w line e

theorem left_branch : ∀ (w : Walk) (branches : List Clause), (w.branch story branches).2.left = w.left
  | _, [] | _, .mk _ none _ :: _ => rfl
  | w, .mk line (some condition) body :: rest => by
    rw [branch]
    split
    · exact left_value h w line condition
    · exact (left_branch _ rest).trans (left_value h w line condition)

theorem left_offer (w : Walk) (line : Nat) (text : Template) (tags : List String) (target : Target) :
    (w.offer story line text tags target).left = w.left :=
  left_say h w line text tags

/-- The value of a condition is held while the option is offered, and no longer. -/
theorem left_offerUnder (w : Walk) (value : Value) (line : Nat) (text : Template) (tags : List String)
    (target : Target) : (w.offerUnder story value line text tags target).left = w.left :=
  congrArg List.tail (left_offer h (w.hold value) line text tags target)

theorem left_offerAll : ∀ (w : Walk) (choices : List Choice), (w.offerAll story choices).left = w.left
  | _, [] => rfl
  | w, .mk line text none tags body :: rest => (left_offerAll _ rest).trans (left_offer h w line text tags _)
  | w, .mk line text (some condition) tags body :: rest => by
    simp only [offerAll]
    split
    · exact (left_offerAll _ rest).trans ((left_offerUnder h _ _ line text tags _).trans (left_value h w line condition))
    · exact (left_offerAll _ rest).trans (left_value h w line condition)

/-- **Carrying out statements leaves nothing over.** -/
theorem left_go {w : Walk} {todo : List Statement} (hw : w.left = []) : (w.go story todo).1.left = [] := by
  fun_induction go story w todo with
  | case1 w => exact left_present story (show (w.wait w.status []).left = [] from hw) false
  | case2 w line text tags rest shown w' heq =>
    have hleft := left_say h w line text tags
    rw [heq] at hleft
    exact hleft.trans hw
  | case3 w line text rest command w' heq =>
    have hleft := left_tell h w line text
    rw [heq] at hleft
    exact hleft.trans hw
  | case4 w line name e rest ih => exact ih ((left_assign h w line name e).trans hw)
  | case5 w branches rest ih => exact ih ((left_branch h w branches).trans hw)
  | case6 w line label destination rest ih => exact ih ((left_offer h w line _ _ _).trans hw)
  | case7 w choices rest =>
    have hwait : ((w.offerAll story choices).wait w.status rest).left = [] := (left_offerAll h w choices).trans hw
    exact left_present story hwait true
  | case8 w _ destination _ => exact left_leave story w destination
  | case9 w _ => exact hw

/-- **No call leaves anything over.** -/
theorem left_call {w : Walk} (hw : w.left = []) : ∀ c : HostCall, (w.call story c).1.left = []
  | .resume => by
    rw [call, resume]
    split
    · split
      · rfl
      · exact left_go h hw
    · exact hw
  | .acknowledgeLine | .acknowledgeCommand => by
    rw [call, acknowledge]
    split <;> exact hw
  | .choose index => by
    rw [call, choose]
    split
    · split <;> exact hw
    · exact hw
  | .edit change => hw

theorem left_after : ∀ (calls : List HostCall) {w : Walk}, w.left = [] → (after (call story) w calls).left = []
  | [], _, hw => hw
  | c :: rest, _, hw => left_after rest (left_call h hw c)

end Statements

end Walk

/-- While the host has to do something, a session has on its stack what its walk has left over. -/
theorem Tracks.stack_eq {base s : Session} {allows : Expr → Bool} {mixed : Prop} {w : Walk}
    (h : Tracks base allows mixed s w)
    (hs : s.status = .awaitingLine ∨ s.status = .awaitingCommand ∨ s.status = .awaitingChoice) :
    s.machine.stack = w.left := by
  rw [h.status_eq] at hs
  cases h with
  | going | asks => rfl
  | ended hw | finished hw | chose hw | follows hw => simp [hw] at hs

/-- **Nothing is left on the stack.** Whatever a host has done with plain nodes, the stack is empty whenever the host has
to acknowledge or to choose. -/
theorem Session.stack_after {session started : Session} {nodes : List Node} {title : String} {limit : Nat}
    (h : ∀ node ∈ nodes, node.isPlain = true) (hstart : session.start title nodes = .ok started)
    (hlimit : started.program.longest ≤ limit) (calls : List HostCall)
    (hs : (after (call limit) started calls).status = .awaitingLine ∨
      (after (call limit) started calls).status = .awaitingCommand ∨
      (after (call limit) started calls).status = .awaitingChoice) :
    (after (call limit) started calls).machine.stack = [] := by
  obtain ⟨hread, ht⟩ := of_start_eq_ok hstart
  obtain ⟨program, hp, heq⟩ := exists_start_eq session nodes title hread ht
  cases hstart.symm.trans heq
  have hplays := plays_direct session hp h
  have htracks : Tracks _ _ _ (after (call limit) _ calls) (after (Walk.call _) _ calls) :=
    (moments_eq_of_tracks hplays hlimit (tracks_begin session hread ht hplays) False.elim).2
  rw [htracks.stack_eq hs]
  exact Walk.left_after (Evaluator.clears_direct _) calls rfl

end Dialogue
