import Mathlib
import Dialogue.Proofs.Walk.Load

/-!
# How sessions and walks correspond

A session tracks a walk when it stands where the walk stands: its position leads to what the walk has still to do, and
its pending options lead where the walk's offers lead (`Tracks`). At the end of a node and at a group the session does
with its options what the walk does (`meets_present`), but for a link that a group offers: the session looks for its
destination among the labels of the node.
-/

namespace Dialogue

/-- **A pending option stands for an offer**: a link with its destination, or a body whose label has a property. -/
inductive Pends (d : Dialect) (P : String → List Statement → Prop) : PendingOption → Offer → Prop where
  | link {line : ShownLine} {destination : String} {alone : Bool} (h : d.links = true) :
      Pends d P ⟨line, destination, alone⟩ ⟨line, .link destination alone⟩
  | body {line : ShownLine} {label : String} {statements : List Statement} (h : P label statements) :
      Pends d P ⟨line, label, false⟩ ⟨line, .body statements⟩

theorem Pends.mono {d : Dialect} {P Q : String → List Statement → Prop} (h : ∀ label statements, P label statements →
    Q label statements) {option : PendingOption} {offer : Offer} : Pends d P option offer → Pends d Q option offer
  | .link hd => .link hd
  | .body hP => .body (h _ _ hP)

/-- **The code and the dialect of a node** that runs. -/
structure Here (base : Session) (allows : Expr → Bool) (mixed : Prop) (node : String) (d : Dialect) (code : Code) :
    Prop where
  runs : (base.program[node]?).map CompiledNode.code = some code
  allowed : d.allows = allows
  mixes : d.links = true → d.groups = true → mixed

section Correspondence

variable (base : Session) (allows : Expr → Bool) (mixed : Prop)

/-- **A session stands where a walk stands.** -/
inductive Tracks : Session → Walk → Prop where
  /-- Nothing is left. -/
  | ended {w : Walk} (hs : w.status = .complete) : Tracks (w.load base 0 [] []) w
  /-- The last node is complete. -/
  | finished {w : Walk} {p : Nat} {options : List PendingOption} {stack : List Value} (hs : w.status = .running)
      (hf : w.finished = true) : Tracks (w.load base p options stack) w
  /-- Statements are still to be carried out. -/
  | going {w : Walk} {p : Nat} {options : List PendingOption} {d : Dialect} {code : Code}
      (hs : w.status = .running ∨ w.status = .awaitingLine ∨ w.status = .awaitingCommand) (hf : w.finished = false)
      (hh : Here base allows mixed w.node d code) (hl : Code.Leads d code p w.todo)
      (ho : List.Forall₂ (Pends d fun _ _ => False) options w.offers) : Tracks (w.load base p options w.left) w
  /-- The host has to choose. -/
  | asks {w : Walk} {p : Nat} {options : List PendingOption} {d : Dialect} {code : Code}
      (hs : w.status = .awaitingChoice) (hf : w.finished = false) (hh : Here base allows mixed w.node d code)
      (hi : code.instructions[p]? = some (if w.grouped then .jump else .runNode))
      (hg : w.grouped = true → d.groups = true)
      (ho : List.Forall₂ (Pends d fun label statements =>
        w.grouped = true ∧ Code.Marked d code p label (statements ++ w.todo)) options w.offers) :
      Tracks (w.load base p options w.left) w
  /-- The body of an option has been chosen. -/
  | chose {w : Walk} {p : Nat} {label : String} {d : Dialect} {code : Code} (hs : w.status = .running)
      (hf : w.finished = false) (hh : Here base allows mixed w.node d code) (hi : code.instructions[p]? = some .jump)
      (hm : Code.Marked d code p label w.todo) (ho : w.offers = []) :
      Tracks (w.load base p [] (.string label :: w.left)) w
  /-- A link has been chosen at the end of the node. -/
  | follows {w : Walk} {p : Nat} {destination : String} {d : Dialect} {code : Code} (hs : w.status = .running)
      (hf : w.finished = false) (hh : Here base allows mixed w.node d code)
      (hi : code.instructions[p]? = some .runNode) (ht : w.todo = [.jump 0 destination]) (ho : w.offers = []) :
      Tracks (w.load base p [] (.string destination :: w.left)) w

/-- **How a run of a session meets a walk**: either both agree, or the walk takes a link that a group offers and the
session looks for its destination among the labels of the node. -/
inductive Meets (d : Dialect) (code : Code) (s : Session) (w : Walk) (result : Walk × Answer) : Prop where
  | agrees {s' : Session} {outcome : Session.Outcome} (h : Session.Stops code s (s', outcome))
      (ha : outcome.answer = result.2) (hw : result.1.strayed = w.strayed)
      (ht : Tracks base allows mixed s' result.1)
  | strays {destination : String} (hw : result.1.strayed = some destination) (hl : d.links = true)
      (hg : d.groups = true)
      (h : code.labels.lookup destination = none →
        ∃ s', Session.Stops code s (s', .fault (.script ⟨s.location 0, .unknownLabel destination⟩)))

end Correspondence

variable {base : Session} {story : Story} {allows : Expr → Bool} {mixed : Prop} {d : Dialect} {code : Code} {w : Walk}

/-! ## What can be read off -/

section Reading

variable {s : Session}

theorem Tracks.status_eq (h : Tracks base allows mixed s w) : s.status = w.status := by
  cases h <;> rfl

/-- A host that has to choose is not at the end of the dialogue. -/
theorem Tracks.finished_eq_false (h : Tracks base allows mixed s w) (hs : w.status = .awaitingChoice) :
    w.finished = false := by
  cases h with
  | ended hc => rw [hs] at hc; cases hc
  | finished hc => rw [hs] at hc; cases hc
  | going _ hf => exact hf
  | asks _ hf => exact hf
  | chose _ hf => exact hf
  | follows _ hf => exact hf

/-- The host sees the same. -/
theorem Tracks.see_eq (h : Tracks base allows mixed s w) (hc : base.config = story.config) : s.see = w.see story := by
  rw [Walk.see, ← hc]
  cases h <;> rfl

end Reading

/-! ## Runs that meet walks -/

/-- What happens after steps that a host does not see. -/
theorem Meets.of_silent {w' : Walk} {p p' : Nat} {options options' : List PendingOption} {stack stack' : List Value}
    {result : Walk × Answer} (h : Session.Silent (w.load base p options stack) (w'.load base p' options' stack'))
    (hw : Walk.Frame w w') : Meets base allows mixed d code (w'.load base p' options' stack') w' result →
      Meets base allows mixed d code (w.load base p options stack) w result
  | .agrees hstop ha hstray ht => .agrees (h.stops hstop) ha (hstray.trans hw.strayed) ht
  | .strays hstray hlinks hgroups hstop => by
    refine .strays hstray hlinks hgroups ?_
    intro hlabel
    obtain ⟨s', hs'⟩ := hstop hlabel
    have hplace : (w'.load base p' options' stack').location 0 = (w.load base p options stack).location 0 := by
      show (⟨base.config.file, w'.node, 0⟩ : Location) = ⟨base.config.file, w.node, 0⟩
      rw [hw.node]
    rw [hplace] at hs'
    exact ⟨s', h.stops hs'⟩

theorem Here.runs_load {p : Nat} {options : List PendingOption} {stack : List Value}
    (hh : Here base allows mixed w.node d code) : (w.load base p options stack).Runs code :=
  hh.runs

theorem Here.allows_eq_true (hh : Here base allows mixed w.node d code) {e : Expr} (h : d.allows e = true) :
    allows e = true := by
  rw [← hh.allowed]
  exact h

theorem Here.holes_allowed (hh : Here base allows mixed w.node d code) {text : Template}
    (h : d.hasTemplate text = true) : text.holes.all allows = true := by
  rw [← hh.allowed]
  exact h

/-- The same node has the same code. -/
theorem Walk.Frame.here {w' : Walk} (h : Walk.Frame w w') (hh : Here base allows mixed w.node d code) :
    Here base allows mixed w'.node d code := by
  rw [h.node]
  exact hh

/-- A jump to a destination that is no label of the node. -/
theorem stops_unknown {p : Nat} {options : List PendingOption} {stack : List Value} {destination : String}
    (hh : Here base allows mixed w.node d code) (hi : code.instructions[p]? = some .jump)
    (hlabel : code.labels.lookup destination = none) :
    Session.Stops code (w.load base p options (.string destination :: stack))
      (w.load base (p + 1) options (.string destination :: stack),
        .fault (.script ⟨w.place base.config 0, .unknownLabel destination⟩)) := by
  refine Session.stops_fault hi ((Walk.step_load hh.runs_load hi).trans ?_)
  exact Session.jumpTo_of_lookup_eq_none hh.runs_load hlabel

/-- **The end of the last node.** -/
theorem meets_finish {p : Nat} {options : List PendingOption} {stack : List Value} (hs : w.status = .running)
    (hh : Here base allows mixed w.node d code) {instruction : Instruction}
    (hi : code.instructions[p]? = some instruction) (hx : (w.load base (p + 1) options stack).execute instruction =
      (w.load base (p + 1) options stack).finish) :
    Meets base allows mixed d code (w.load base p options stack) w w.finish := by
  have hstop : Session.Stops code (w.load base p options stack)
      (w.finish.1.load base (p + 1) options stack, .event (.nodeComplete w.node none)) :=
    Session.stops_event hi ((Walk.step_load hh.runs_load hi).trans hx)
  exact .agrees hstop rfl rfl (.finished hs rfl)

/-- **The way to another node.** -/
theorem meets_leave (hp : Plays base story allows mixed) {p : Nat} {options : List PendingOption} {stack : List Value}
    {destination : String} (hs : w.status = .running) (hf : w.finished = false)
    (hh : Here base allows mixed w.node d code) (hi : code.instructions[p]? = some .runNode) :
    Meets base allows mixed d code (w.load base p options (.string destination :: stack)) w
      (w.leave story destination) := by
  have hstep : (w.load base p options (.string destination :: stack)).step = _ := Walk.step_load hh.runs_load hi
  have hcontains : base.program.contains destination = (story.body? destination).isSome := by
    rw [Std.TreeMap.contains_eq_isSome_getElem?, ← Option.isSome_map, hp.code, Option.isSome_map]
  cases hb : story.body? destination with
  | none =>
    rw [hb, Option.isSome_none] at hcontains
    have hstop : Session.Stops code (w.load base p options (.string destination :: stack))
        (w.close.load base 0 [] [], .fault (.nodeNotFound destination)) :=
      Session.stops_fault hi (hstep.trans (if_neg (by rw [Bool.not_eq_true]; exact hcontains)))
    rw [show w.leave story destination = (w.close, .refused (.nodeNotFound destination)) by rw [Walk.leave, hb]]
    exact .agrees hstop rfl rfl (.ended rfl)
  | some body =>
    rw [hb, Option.isSome_some] at hcontains
    obtain ⟨d', hbody, hlinks, hallows, hmixed⟩ := hp.dialect destination body hb
    have hload : (w.enter destination body).load base 0 [] [] = (({ w.load base (p + 1) options stack with
        visits := w.visits.add w.node } : Session).enter destination) := by
      simp only [Walk.load, Walk.enter, hf]
      rfl
    have hstop : Session.Stops code (w.load base p options (.string destination :: stack))
        ((w.enter destination body).load base 0 [] [], .event (.nodeComplete w.node (some destination))) := by
      rw [hload]
      exact Session.stops_event hi (hstep.trans (if_pos hcontains))
    have hcode : (base.program[destination]?).map CompiledNode.code = some (Code.node body) := by
      rw [hp.code, hb, Option.map_some]
    rw [show w.leave story destination = (w.enter destination body, .shown (.nodeComplete w.node (some destination))) by
      rw [Walk.leave, hb]]
    exact .agrees hstop rfl rfl (.going (.inl hs) hf ⟨hcode, hallows, hmixed⟩ (Code.leads_node hbody hlinks) .nil)

/-! ## Offering options -/

/-- The host sees the same options. -/
theorem sight_offered {P : String → List Statement → Prop} {options : List PendingOption} {offers : List Offer}
    (h : List.Forall₂ (Pends d P) options offers) :
    ((Session.offered options).map fun option => (option.id, option.line)) =
      offers.zipIdx.map fun (offer, id) => (id, offer.line) := by
  have hlines : options.map PendingOption.line = offers.map Offer.line := by
    induction h with
    | nil => rfl
    | cons hfirst _ ih =>
      rw [List.map_cons, List.map_cons, ih]
      cases hfirst <;> rfl
  have hzip : (options.map PendingOption.line).zipIdx.map (fun (line, id) => (id, line)) =
      (offers.map Offer.line).zipIdx.map (fun (line, id) => (id, line)) := by rw [hlines]
  rw [List.zipIdx_map, List.zipIdx_map, List.map_map, List.map_map] at hzip
  rw [Session.offered, List.map_map]
  exact hzip

theorem Walk.strayed_leave (story : Story) (w : Walk) (destination : String) :
    (w.leave story destination).1.strayed = w.strayed := by
  unfold leave
  split <;> rfl

variable {q : Nat} {options : List PendingOption} {grouped : Bool}

/-- The host is asked. -/
theorem meets_ask (hf : w.finished = false) (hh : Here base allows mixed w.node d code)
    (hshow : code.instructions[q]? = some .showOptions)
    (hnext : code.instructions[q + 1]? = some (if grouped then .jump else .runNode))
    (hg : grouped = true → d.groups = true) (ho : List.Forall₂ (Pends d fun label statements =>
      grouped = true ∧ Code.Marked d code (q + 1) label (statements ++ w.todo)) options w.offers)
    (hx : (w.load base (q + 1) options w.left).showOptions =
      ({ w.load base (q + 1) options w.left with status := .awaitingChoice },
        .ok (some (.options (Session.offered options))))) :
    Meets base allows mixed d code (w.load base q options w.left) w ({ w with status := .awaitingChoice, grouped },
      .shown (.options (w.offers.zipIdx.map fun (offer, id) => (id, offer.line)))) := by
  have hstop : Session.Stops code (w.load base q options w.left)
      (({ w with status := .awaitingChoice, grouped } : Walk).load base (q + 1) options w.left,
        .event (.options (Session.offered options))) :=
    Session.stops_event hshow ((Walk.step_load hh.runs_load hshow).trans hx)
  refine .agrees hstop ?_ rfl (.asks rfl hf hh hnext hg ho)
  rw [← sight_offered ho]
  rfl

/-- A single link is taken without asking. -/
theorem meets_take (hp : Plays base story allows mixed) (hs : w.status = .running) (hf : w.finished = false)
    (hh : Here base allows mixed w.node d code) (hshow : code.instructions[q]? = some .showOptions)
    (hnext : code.instructions[q + 1]? = some (if grouped then .jump else .runNode))
    (hg : grouped = true → d.groups = true) (hl : d.links = true) {line : ShownLine} {destination : String} :
    Meets base allows mixed d code (w.load base q [⟨line, destination, true⟩] w.left) w
      ((w.take grouped destination).leave story destination) := by
  have hpush : Session.Silent (w.load base q [⟨line, destination, true⟩] w.left)
      ((w.take grouped destination).load base (q + 1) [] (.string destination :: w.left)) :=
    .of_step (Walk.step_load hh.runs_load hshow) (Nat.lt_succ_self _)
  cases grouped with
  | false => exact .of_silent hpush ⟨rfl, rfl, rfl, rfl⟩ (meets_leave hp hs hf hh hnext)
  | true =>
    have hh' : Here base allows mixed (w.take true destination).node d code := hh
    exact .strays ((Walk.strayed_leave story _ _).trans rfl) hl (hg rfl)
      fun hlabel => ⟨_, hpush.stops (stops_unknown hh' hnext hlabel)⟩

/-- **What is done with the options** at a group and at the end of a node. -/
theorem meets_present (hp : Plays base story allows mixed) (hs : w.status = .running) (hf : w.finished = false)
    (hh : Here base allows mixed w.node d code) (hshow : code.instructions[q]? = some .showOptions)
    (hnext : code.instructions[q + 1]? = some (if grouped then .jump else .runNode))
    (hg : grouped = true → d.groups = true) (ho : List.Forall₂ (Pends d fun label statements =>
      grouped = true ∧ Code.Marked d code (q + 1) label (statements ++ w.todo)) options w.offers) :
    Meets base allows mixed d code (w.load base q options w.left) w (w.present story grouped) := by
  have hask := meets_ask hf hh hshow hnext hg ho
  generalize hoffers : w.offers = offers at ho hask
  rw [Walk.present, hoffers]
  cases ho with
  | nil => exact meets_finish hs hh hshow rfl
  | cons hfirst hrest =>
    cases hfirst with
    | body h => cases hrest <;> exact hask rfl
    | @link line destination alone hl =>
      cases hrest with
      | nil =>
        cases alone with
        | true => exact meets_take hp hs hf hh hshow hnext hg hl
        | false => exact hask rfl
      | cons _ _ => cases alone <;> exact hask rfl

end Dialogue
