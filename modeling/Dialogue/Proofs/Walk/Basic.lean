import Mathlib
import Dialogue.Proofs.Expr.Evaluation
import Dialogue.Proofs.Session.Host

/-!
# Walking through a script

A walk carries out the statements of a node as they are written. It has no instructions, labels or positions: what is
still to be done is a list of statements, a branch that is taken and the body of an option that is chosen are put in
front of it, and at its end the node offers the links that were passed on the way. A link that is taken leads to another
node, whether it was offered at the end of its node or together with the options of a group; the walk remembers when a
group offered it (`Walk.strayed`).

* `Walk.go`: carries out statements until the host has to do something; `Walk.call`: a call of the host.
-/

namespace Dialogue

/-- **How expressions are evaluated**: their values from left to right and the operands that are left over, when some
were left over before, and what is reported. -/
abbrev Evaluator := View → Location → List Expr → List Value → (List Value × List Value) × List ScriptError

/-- Every expression has its own value, and no operand is ever left over. -/
def Evaluator.direct (library : Library) : Evaluator := fun view place es left =>
  (((Expr.evalAll library view place es).1, left), (Expr.evalAll library view place es).2)

/-- The values are those that the code of the expressions has on top of its stack in the end. -/
def Evaluator.onStack (library : Library) : Evaluator := fun view place es left =>
  (operands es.length (Expr.operateAll library view place es left).1, (Expr.operateAll library view place es left).2)

/-- **A script to walk through**: the statements of its nodes, and what stays as it is during a walk. -/
structure Story where
  plurals : Plural.Rules
  config : Config
  body? : String → Option (List Statement)
  evaluate : Evaluator

/-- **Where an option leads**: to the statements of its body, or to another node. -/
inductive Target where
  | body (statements : List Statement)
  /-- A link; one without a label of its own is taken without asking when it is the only option. -/
  | link (destination : String) (alone : Bool)

/-- An option, as it is shown and where it leads. -/
structure Offer where
  line : ShownLine
  target : Target

/-- **A walk through a script.** -/
structure Walk where
  node : String
  /-- What is still to be done in the node. -/
  todo : List Statement
  offers : List Offer := []
  /-- The options are offered by a group, and not by the end of the node. -/
  grouped : Bool := false
  left : List Value := []
  finished : Bool := false
  status : Status := .running
  visits : Visits := ∅
  vars : Variables := ∅
  reported : List ScriptError := []
  /-- The destination of the last link that was taken among the options of a group. -/
  strayed : Option String := none

/-! ## Weights -/

mutual

/-- What there is to do in a statement at most, options apart. -/
def Statement.weight : Statement → Nat
  | .conditional branches => Clause.weights branches + 1
  | _ => 1

def Statement.weights : List Statement → Nat
  | [] => 0
  | s :: rest => Statement.weight s + Statement.weights rest

def Clause.weights : List Clause → Nat
  | [] => 0
  | .mk _ _ body :: rest => Statement.weights body + Clause.weights rest

end

theorem Statement.weights_append (a b : List Statement) : weights (a ++ b) = weights a + weights b := by
  induction a with
  | nil => rw [List.nil_append, weights, Nat.zero_add]
  | cons s rest ih => rw [List.cons_append, weights, weights, ih, Nat.add_assoc]

theorem Statement.weight_pos : ∀ s : Statement, 0 < s.weight
  | .conditional _ => Nat.succ_pos _
  | .line .. | .command .. | .set .. | .link .. | .options _ | .jump .. | .stop => Nat.zero_lt_one

namespace Walk

/-- What can be read off a walk. -/
def view (w : Walk) (config : Config) : View where
  config := config
  status := w.status
  node := match w.status with
    | .idle | .complete => none
    | _ => some w.node
  visits := w.visits
  vars := w.vars

/-- A place in the node. -/
def place (w : Walk) (config : Config) (line : Nat) : Location :=
  ⟨config.file, w.node, line⟩

/-- Reports script errors. -/
def report (w : Walk) (errors : List ScriptError) : Walk :=
  { w with reported := w.reported ++ errors }

section Statements

variable (story : Story)

/-! ## Texts and conditions -/

/-- The values of expressions on a line. -/
def values (w : Walk) (line : Nat) (es : List Expr) : List Value × Walk :=
  let ((values, left), errors) := story.evaluate (w.view story.config) (w.place story.config line) es w.left
  (values, { w.report errors with left })

/-- A text with values in its holes, variables filled in and format functions expanded. Where that fails, the text stays
as it is filled. -/
def expand (w : Walk) (line : Nat) (text : String) (values : List Value) : String × Walk :=
  let filled := Fill.fill text (values.map Value.text) w.vars
  match Format.expand story.plurals filled story.config.locale with
  | .ok expanded => (expanded, w)
  | .error fault => (filled, w.report [⟨w.place story.config line, .format fault⟩])

/-- **The line that a template shows.** -/
def say (w : Walk) (line : Nat) (text : Template) (tags : List String) : ShownLine × Walk :=
  let (values, w) := w.values story line text.holes
  let (shown, w) := w.expand story line text.text values
  (⟨shown, tags, w.place story.config line⟩, w)

/-- The text of a command. -/
def tell (w : Walk) (line : Nat) (text : Template) : String × Walk :=
  let (values, w) := w.values story line text.holes
  (Fill.fill text.text (values.map Value.text) w.vars, w)

/-- The value of a single expression. -/
def value (w : Walk) (line : Nat) (e : Expr) : Value × Walk :=
  let (values, w) := w.values story line [e]
  (values.head?.getD .null, w)

/-- A variable takes the value of an expression. -/
def assign (w : Walk) (line : Nat) (name : String) (e : Expr) : Walk :=
  let (value, w) := w.value story line e
  { w with vars := w.vars.set name value }

/-- **The branch that is taken**: the first one whose condition holds, or that has none. -/
def branch (w : Walk) : List Clause → List Statement × Walk
  | [] => ([], w)
  | .mk _ none body :: _ => (body, w)
  | .mk line (some condition) body :: rest =>
    if (w.value story line condition).1.isTrue then (body, (w.value story line condition).2)
    else branch (w.value story line condition).2 rest

/-! ## Options -/

/-- One more option. -/
def offer (w : Walk) (line : Nat) (text : Template) (tags : List String) (target : Target) : Walk :=
  let (shown, w) := w.say story line text tags
  { w with offers := w.offers ++ [⟨shown, target⟩] }

/-- One more operand is left over. -/
def hold (w : Walk) (value : Value) : Walk :=
  { w with left := value :: w.left }

/-- One more option, while the value of its condition is still among the operands. -/
def offerUnder (w : Walk) (value : Value) (line : Nat) (text : Template) (tags : List String) (target : Target) :
    Walk :=
  let w := (w.hold value).offer story line text tags target
  { w with left := w.left.tail }

/-- **The options of a group**: those that have no condition, or one that holds. -/
def offerAll (w : Walk) : List Choice → Walk
  | [] => w
  | .mk line text none tags body :: rest => offerAll (w.offer story line text tags (.body body)) rest
  | .mk line text (some condition) tags body :: rest =>
    let (value, w) := w.value story line condition
    if value.isTrue then offerAll (w.offerUnder story value line text tags (.body body)) rest else offerAll w rest

/-! ## The end of a node -/

/-- The node is complete, and no other comes after it. -/
def finish (w : Walk) : Walk × Answer :=
  ({ w with finished := true, visits := w.visits.add w.node }, .shown (.nodeComplete w.node none))

/-- There is nothing left to walk through. -/
def close (w : Walk) : Walk :=
  { w with node := "", todo := [], offers := [], left := [], finished := false, status := .complete }

/-- At the beginning of another node, this one complete. -/
def enter (w : Walk) (node : String) (body : List Statement) : Walk :=
  { w with node, todo := body, offers := [], left := [], visits := w.visits.add w.node }

/-- **Another node comes next**, if there is one with that name. -/
def leave (w : Walk) (destination : String) : Walk × Answer :=
  match story.body? destination with
  | some body => (w.enter destination body, .shown (.nodeComplete w.node (some destination)))
  | none => (w.close, .refused (.nodeNotFound destination))

/-- A link is taken, at the end of the node or among the options of a group. -/
def take (w : Walk) (grouped : Bool) (destination : String) : Walk :=
  { w with offers := [], strayed := if grouped then some destination else w.strayed }

/-- **Offers the options**: without any the node is complete, and a single link may be taken at once. -/
def present (w : Walk) (grouped : Bool) : Walk × Answer :=
  match w.offers with
  | [] => w.finish
  | [⟨_, .link destination true⟩] => (w.take grouped destination).leave story destination
  | offers => ({ w with status := .awaitingChoice, grouped },
      .shown (.options (offers.zipIdx.map fun (offer, id) => (id, offer.line))))

/-! ## Walking -/

/-- The host has to do something before the rest is carried out. -/
def wait (w : Walk) (status : Status) (rest : List Statement) : Walk :=
  { w with status, todo := rest }

theorem weights_branch : ∀ (w : Walk) (branches : List Clause),
    Statement.weights (w.branch story branches).1 ≤ Clause.weights branches
  | _, [] => Nat.le_refl 0
  | _, .mk _ none _ :: _ => Nat.le_add_right _ _
  | w, .mk line (some condition) body :: rest => by
    rw [branch, Clause.weights]
    by_cases h : (w.value story line condition).1.isTrue = true
    · rw [if_pos h]
      exact Nat.le_add_right _ _
    · rw [if_neg h]
      exact (weights_branch _ rest).trans (Nat.le_add_left _ _)

/-- **Carries out statements** until the host has to do something. -/
def go (w : Walk) (todo : List Statement) : Walk × Answer :=
  match todo with
  | [] => (w.wait w.status []).present story false
  | .line line text tags :: rest =>
    let (shown, w) := w.say story line text tags
    (w.wait .awaitingLine rest, .shown (.line shown))
  | .command line text :: rest =>
    let (command, w) := w.tell story line text
    (w.wait .awaitingCommand rest, .shown (.command command))
  | .set line name value :: rest => go (w.assign story line name value) rest
  | .conditional branches :: rest => go (w.branch story branches).2 ((w.branch story branches).1 ++ rest)
  | .link line label destination :: rest =>
    go (w.offer story line (label.getD ⟨destination, []⟩) [] (.link destination label.isNone)) rest
  | .options choices :: rest => ((w.offerAll story choices).wait w.status rest).present story true
  | .jump _ destination :: _ => w.leave story destination
  | .stop :: _ => w.finish
termination_by Statement.weights todo
decreasing_by
  · exact Nat.lt_add_of_pos_left (Statement.weight_pos _)
  -- the branch that is taken weighs less than its conditional
  · have := weights_branch story w branches
    rw [Statement.weights_append, Statement.weights, Statement.weight]
    omega
  · exact Nat.lt_add_of_pos_left (Statement.weight_pos _)

/-- **Goes on with the walk.** -/
def resume (w : Walk) : Walk × Answer :=
  if w.status = .running then
    if w.finished then (w.close, .shown (.dialogueComplete w.node)) else w.go story w.todo
  else (w, .refused (.invalidState .resume w.status))

/-- Goes on after what the operation answers. -/
def acknowledge (w : Walk) (operation : Operation) : Walk × Answer :=
  if w.status = operation.status then ({ w with status := .running }, .accepted)
  else (w, .refused (.invalidState operation w.status))

/-- The body of an option is put before what is still to be done. -/
def takeBody (w : Walk) (statements : List Statement) : Walk :=
  { w with status := .running, offers := [], todo := statements ++ w.todo }

/-- Of a link only the jump to its destination is left to do. -/
def takeLink (w : Walk) (destination : String) : Walk :=
  { w.take w.grouped destination with status := .running, todo := [.jump 0 destination] }

/-- **Chooses an option.** -/
def choose (w : Walk) (index : Nat) : Walk × Answer :=
  if w.status = .awaitingChoice then
    match w.offers[index]? with
    | none => (w, .refused (.invalidOption index w.offers.length))
    | some ⟨_, .body statements⟩ => (w.takeBody statements, .accepted)
    | some ⟨_, .link destination _⟩ => (w.takeLink destination, .accepted)
  else (w, .refused (.invalidState .chooseOption w.status))

/-- **A call of the host.** -/
def call (w : Walk) : HostCall → Walk × Answer
  | .resume => w.resume story
  | .acknowledgeLine => w.acknowledge .acknowledgeLine
  | .acknowledgeCommand => w.acknowledge .acknowledgeCommand
  | .choose index => w.choose index
  | .edit change => ({ w with vars := change w.vars }, .accepted)

/-- Where a walk stands and what has been reported. -/
def see (w : Walk) : View × List ScriptError :=
  (w.view story.config, w.reported)

end Statements

section Calls

variable (story : Story) {w : Walk}

/-- Going on with a walk that is not at its end. -/
theorem call_resume_eq (hs : w.status = .running) (hf : w.finished = false) :
    w.call story .resume = w.go story w.todo := by
  rw [call, resume, if_pos hs, hf]
  exact if_neg Bool.false_ne_true

section Choose

variable (hs : w.status = .awaitingChoice) {index : Nat} {line : ShownLine}

include hs

/-- Choosing a link. -/
theorem call_choose_link {destination : String} {alone : Bool}
    (ho : w.offers[index]? = some ⟨line, .link destination alone⟩) :
    w.call story (.choose index) = (w.takeLink destination, .accepted) := by
  rw [call, choose, if_pos hs, ho]

/-- Choosing a body. -/
theorem call_choose_body {statements : List Statement} (ho : w.offers[index]? = some ⟨line, .body statements⟩) :
    w.call story (.choose index) = (w.takeBody statements, .accepted) := by
  rw [call, choose, if_pos hs, ho]

/-- No offer has that number. -/
theorem call_choose_of_none (ho : w.offers[index]? = none) :
    w.call story (.choose index) = (w, .refused (.invalidOption index w.offers.length)) := by
  rw [call, choose, if_pos hs, ho]

end Choose

end Calls

/-! ## What stays -/

/-- **A walk is still in the same node**, and waits for the same. -/
structure Frame (w w' : Walk) : Prop where
  node : w'.node = w.node
  status : w'.status = w.status
  finished : w'.finished = w.finished
  strayed : w'.strayed = w.strayed

namespace Frame

theorem refl (w : Walk) : Frame w w := ⟨rfl, rfl, rfl, rfl⟩

theorem trans {w w' w'' : Walk} (h : Frame w w') (h' : Frame w' w'') : Frame w w'' :=
  ⟨h'.node.trans h.node, h'.status.trans h.status, h'.finished.trans h.finished, h'.strayed.trans h.strayed⟩

end Frame

section Frames

variable (story : Story) (w : Walk) (line : Nat)

theorem frame_values (es : List Expr) : Frame w (w.values story line es).2 := ⟨rfl, rfl, rfl, rfl⟩

theorem frame_expand (text : String) (values : List Value) : Frame w (w.expand story line text values).2 := by
  unfold expand
  dsimp only
  split <;> exact ⟨rfl, rfl, rfl, rfl⟩

theorem offers_expand (text : String) (values : List Value) :
    (w.expand story line text values).2.offers = w.offers := by
  unfold expand
  dsimp only
  split <;> rfl

theorem frame_say (text : Template) (tags : List String) : Frame w (w.say story line text tags).2 :=
  (frame_values story w line text.holes).trans (frame_expand story _ line text.text _)

theorem offers_say (text : Template) (tags : List String) : (w.say story line text tags).2.offers = w.offers :=
  offers_expand story _ line text.text _

theorem frame_tell (text : Template) : Frame w (w.tell story line text).2 := frame_values story w line text.holes

theorem frame_offer (text : Template) (tags : List String) (target : Target) :
    Frame w (w.offer story line text tags target) :=
  (frame_say story w line text tags).trans ⟨rfl, rfl, rfl, rfl⟩

theorem offers_offer (text : Template) (tags : List String) (target : Target) :
    (w.offer story line text tags target).offers = w.offers ++ [⟨(w.say story line text tags).1, target⟩] := by
  rw [← offers_say story w line text tags]
  rfl

theorem frame_hold (value : Value) : Frame w (w.hold value) := ⟨rfl, rfl, rfl, rfl⟩

theorem frame_offerUnder (value : Value) (text : Template) (tags : List String) (target : Target) :
    Frame w (w.offerUnder story value line text tags target) :=
  (frame_hold w value).trans ((frame_offer story _ line text tags target).trans ⟨rfl, rfl, rfl, rfl⟩)

theorem offers_offerUnder (value : Value) (text : Template) (tags : List String) (target : Target) :
    (w.offerUnder story value line text tags target).offers =
      w.offers ++ [⟨((w.hold value).say story line text tags).1, target⟩] :=
  offers_offer story _ line text tags target

theorem frame_value (e : Expr) : Frame w (w.value story line e).2 := frame_values story w line [e]

theorem frame_assign (name : String) (e : Expr) : Frame w (w.assign story line name e) := ⟨rfl, rfl, rfl, rfl⟩

theorem frame_wait (rest : List Statement) : Frame w (w.wait w.status rest) := ⟨rfl, rfl, rfl, rfl⟩

theorem frame_branch : ∀ (w : Walk) (branches : List Clause), Frame w (w.branch story branches).2
  | w, [] => .refl w
  | w, .mk _ none _ :: _ => .refl w
  | w, .mk line (some condition) body :: rest => by
    rw [branch]
    split
    · exact frame_value story w line condition
    · exact (frame_value story w line condition).trans (frame_branch _ rest)

theorem offers_branch : ∀ (w : Walk) (branches : List Clause), (w.branch story branches).2.offers = w.offers
  | w, [] => rfl
  | w, .mk _ none _ :: _ => rfl
  | w, .mk line (some condition) body :: rest => by
    rw [branch]
    split
    · rfl
    · exact offers_branch _ rest

theorem frame_offerAll : ∀ (w : Walk) (choices : List Choice), Frame w (w.offerAll story choices)
  | w, [] => .refl w
  | w, .mk line text none tags body :: rest => (frame_offer story w line text tags _).trans (frame_offerAll _ rest)
  | w, .mk line text (some condition) tags body :: rest => by
    refine (frame_value story w line condition).trans ?_
    simp only [offerAll]
    split
    · exact (frame_offerUnder story _ line _ text tags _).trans (frame_offerAll _ rest)
    · exact frame_offerAll _ rest

end Frames

end Walk

end Dialogue
