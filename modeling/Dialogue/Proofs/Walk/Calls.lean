import Mathlib
import Dialogue.Proofs.Walk.Simulation

/-!
# Calls keep sessions and walks together

Whatever a host does, a session that tracks a walk gives the same answer and tracks it afterwards, unless the call takes
a link that a group offers (`follows_of_tracks`). Where that destination is no label of the node, the session fails as
soon as it goes on.
-/

namespace Dialogue

namespace Program

/-- The length of the longest code in a program. -/
def longest (program : Program) : Nat :=
  (program.toList.map fun entry => entry.2.code.size).foldr max 0

theorem size_le_longest {program : Program} {title : String} {code : Code}
    (h : (program[title]?).map CompiledNode.code = some code) : code.size ≤ program.longest := by
  obtain ⟨node, hnode, rfl⟩ := Option.map_eq_some_iff.1 h
  have hmem : (title, node) ∈ program.toList := Std.TreeMap.mem_toList_iff_getElem?_eq_some.2 hnode
  rw [longest]
  generalize program.toList = entries at hmem
  induction entries with
  | nil => exact absurd hmem List.not_mem_nil
  | cons entry rest ih =>
    rw [List.map_cons, List.foldr_cons]
    rcases List.mem_cons.1 hmem with rfl | hmem
    · exact Nat.le_max_left _ _
    · exact (ih hmem).trans (Nat.le_max_right _ _)

end Program

section Calls

variable {base s : Session} {story : Story} {allows : Expr → Bool} {mixed : Prop} {w : Walk} {limit : Nat}

/-- A call, and going on after it. -/
def HostCall.goingOn : HostCall → List HostCall
  | .resume => [.resume]
  | c => [c, .resume]

/-- **How a call of a session follows a call of a walk.** -/
inductive Follows (base : Session) (story : Story) (allows : Expr → Bool) (mixed : Prop) (limit : Nat) (s : Session)
    (w : Walk) (c : HostCall) : Prop where
  | agrees (ha : (s.call limit c).2 = (w.call story c).2) (hw : (w.call story c).1.strayed = w.strayed)
      (ht : Tracks base allows mixed (s.call limit c).1 (w.call story c).1)
  | strays {destination : String} (hw : (w.call story c).1.strayed = some destination) (hm : mixed)
      (ha : c ≠ .resume → (s.call limit c).2 = (w.call story c).2)
      (h : (∀ code, (base.program[w.node]?).map CompiledNode.code = some code → code.labels.lookup destination = none) →
        (s.answers limit c.goingOn).getLast? =
          some (.refused (.script ⟨w.place base.config 0, .unknownLabel destination⟩)))

/-- Both give the same answer. -/
theorem follows_of_eq {c : HostCall} {s' : Session} {w' : Walk} {answer : Answer} (hs : s.call limit c = (s', answer))
    (hw : w.call story c = (w', answer)) (hstray : w'.strayed = w.strayed) (ht : Tracks base allows mixed s' w') :
    Follows base story allows mixed limit s w c := by
  refine .agrees ?_ ?_ ?_
  · rw [hs, hw]
  · rw [hw]
    exact hstray
  · rw [hs, hw]
    exact ht

/-- A walk that is met is followed. -/
theorem follows_of_meets {d : Dialect} {code : Code} (hlimit : base.program.longest ≤ limit) {p : Nat}
    {options : List PendingOption} {stack : List Value} (hs : w.status = .running) (hf : w.finished = false)
    (hh : Here base allows mixed w.node d code)
    (h : Meets base allows mixed d code (w.load base p options stack) w (w.go story w.todo)) :
    Follows base story allows mixed limit (w.load base p options stack) w .resume := by
  have hsize := (Program.size_le_longest hh.runs).trans hlimit
  have hgo := Walk.call_resume_eq story hs hf
  cases h with
  | agrees hstop ha hw ht =>
    have hresume := Session.resume_of_stops hs hf hstop hsize
    refine follows_of_eq ?_ hgo hw ht
    rw [Session.call, hresume, ← ha]
  | strays hw hl hg hstop =>
    refine .strays (by rw [hgo, hw]) (hh.mixes hl hg) (absurd rfl) ?_
    intro hlabel
    obtain ⟨s', hs'⟩ := hstop (hlabel code hh.runs)
    have hresume := Session.resume_of_stops hs hf hs' hsize
    rw [HostCall.goingOn, Session.answers, moments, List.map_cons, Session.call, hresume]
    rfl

/-- The dialogue is complete. -/
theorem follows_of_finished {p : Nat} {options : List PendingOption} {stack : List Value} (hs : w.status = .running)
    (hf : w.finished = true) : Follows base story allows mixed limit (w.load base p options stack) w .resume := by
  have hsession : (w.load base p options stack).call limit .resume =
      (w.close.load base 0 [] [], .shown (.dialogueComplete w.node)) := by
    rw [Session.call, Session.resume_of_finished hs hf]
    rfl
  have hwalk : w.call story .resume = (w.close, .shown (.dialogueComplete w.node)) := by
    rw [Walk.call, Walk.resume, if_pos hs, if_pos hf]
  exact follows_of_eq hsession hwalk rfl (.ended rfl)

/-- **Going on.** -/
theorem follows_resume (hp : Plays base story allows mixed) (hlimit : base.program.longest ≤ limit)
    (ht : Tracks base allows mixed s w) : Follows base story allows mixed limit s w .resume := by
  by_cases hrun : w.status = .running
  · cases ht with
    | ended hs => rw [hrun] at hs; cases hs
    | finished hs hf => exact follows_of_finished hs hf
    | going hs hf hh hl ho => exact follows_of_meets hlimit hrun hf hh (meets_go hp _ hrun hf hh hl ho)
    | asks hs => rw [hrun] at hs; cases hs
    | @chose _ _ _ d _ hs hf hh hi hm ho =>
      obtain ⟨q, hsilent, hleads⟩ := silent_marked hh hi hm
      have hoptions : List.Forall₂ (Pends d fun _ _ => False) [] w.offers := by
        rw [ho]
        exact .nil
      exact follows_of_meets hlimit hs hf hh (.of_silent hsilent (.refl w) (meets_go hp _ hs hf hh hleads hoptions))
    | follows hs hf hh hi htodo ho =>
      refine follows_of_meets hlimit hs hf hh ?_
      rw [htodo, Walk.go]
      exact meets_leave hp hs hf hh hi
  · have hs : s.status ≠ .running := by rwa [ht.status_eq]
    have hcall : s.call limit .resume = (s, .refused (.invalidState .resume w.status)) := by
      rw [Session.call, Session.resume_of_not_running hs, ht.status_eq]
      rfl
    refine follows_of_eq hcall ?_ rfl ht
    rw [Walk.call, Walk.resume, if_neg hrun]

/-- **Going on after a line or a command.** -/
theorem follows_acknowledge (ht : Tracks base allows mixed s w) {c : HostCall} {operation : Operation}
    (hop : operation.status = .awaitingLine ∨ operation.status = .awaitingCommand)
    (hs : s.call limit c = s.settle (do s.expect operation; return { s with status := .running }))
    (hw : w.call story c = w.acknowledge operation) : Follows base story allows mixed limit s w c := by
  by_cases hstatus : w.status = operation.status
  · have hexpect : s.expect operation = .ok () := if_pos (ht.status_eq.trans hstatus)
    rw [hexpect] at hs
    rw [Walk.acknowledge, if_pos hstatus] at hw
    have hnot : w.status ≠ .running ∧ w.status ≠ .complete ∧ w.status ≠ .awaitingChoice := by
      rw [hstatus]
      rcases hop with h | h <;> rw [h] <;> decide
    refine follows_of_eq hs hw rfl ?_
    cases ht with
    | ended hc => exact absurd hc hnot.2.1
    | finished hc => exact absurd hc hnot.1
    | going _ hf hh hl ho => exact .going (w := { w with status := .running }) (.inl rfl) hf hh hl ho
    | asks hc => exact absurd hc hnot.2.2
    | chose hc => exact absurd hc hnot.1
    | follows hc => exact absurd hc hnot.1
  · have hexpect : s.expect operation = .error (.invalidState operation w.status) := by
      rw [Session.expect, if_neg (by rwa [ht.status_eq]), ht.status_eq]
    rw [hexpect] at hs
    refine follows_of_eq hs ?_ rfl ht
    rw [hw, Walk.acknowledge, if_neg hstatus]

/-- A change of the variables. -/
theorem tracks_edit (ht : Tracks base allows mixed s w) (vars : Variables) :
    Tracks base allows mixed { s with vars } { w with vars } := by
  cases ht with
  | ended hs => exact .ended (w := { w with vars }) hs
  | finished hs hf => exact .finished (w := { w with vars }) hs hf
  | going hs hf hh hl ho => exact .going (w := { w with vars }) hs hf hh hl ho
  | asks hs hf hh hi hg ho => exact .asks (w := { w with vars }) hs hf hh hi hg ho
  | chose hs hf hh hi hm ho => exact .chose (w := { w with vars }) hs hf hh hi hm ho
  | follows hs hf hh hi ht ho => exact .follows (w := { w with vars }) hs hf hh hi ht ho

/-- A pending option is taken. -/
theorem call_choose_load {p index : Nat} {options : List PendingOption} {option : PendingOption}
    (hs : w.status = .awaitingChoice) (ho : options[index]? = some option) :
    (w.load base p options w.left).call limit (.choose index) = (({ w with status := .running } : Walk).load base p []
      (.string option.destination :: w.left), .accepted) := by
  have hexpect : (w.load base p options w.left).expect .chooseOption = .ok () := if_pos hs
  have ho' : (w.load base p options w.left).machine.options[index]? = some option := ho
  simp only [Session.call, Session.choose, hexpect, ho', bind, Except.bind]
  rfl

/-- No pending option has that number. -/
theorem call_choose_load_of_none {p index : Nat} {options : List PendingOption} (hs : w.status = .awaitingChoice)
    (ho : options[index]? = none) : (w.load base p options w.left).call limit (.choose index) =
      (w.load base p options w.left, .refused (.invalidOption index options.length)) := by
  have hexpect : (w.load base p options w.left).expect .chooseOption = .ok () := if_pos hs
  have ho' : (w.load base p options w.left).machine.options[index]? = none := ho
  simp only [Session.call, Session.choose, hexpect, ho', bind, Except.bind]
  rfl

/-- A link is taken among the options of a group. -/
theorem follows_of_grouped {d : Dialect} {code : Code} (hlimit : base.program.longest ≤ limit) {p index : Nat}
    {options : List PendingOption} {line : ShownLine} {destination : String} {alone : Bool}
    (hs : w.status = .awaitingChoice) (hf : w.finished = false) (hh : Here base allows mixed w.node d code)
    (hi : code.instructions[p]? = some .jump) (hl : d.links = true) (hg : d.groups = true)
    (ho : options[index]? = some ⟨line, destination, alone⟩) {w' : Walk}
    (hw : w.call story (.choose index) = (w', .accepted)) (hw' : w'.strayed = some destination) :
    Follows base story allows mixed limit (w.load base p options w.left) w (.choose index) := by
  refine .strays (by rw [hw, hw']) (hh.mixes hl hg) (fun _ => by rw [hw, call_choose_load hs ho]) ?_
  intro hlabel
  have hh' : Here base allows mixed ({ w with status := .running } : Walk).node d code := hh
  have hstop : Session.Stops code
      (({ w with status := .running } : Walk).load base p [] (.string destination :: w.left)) _ :=
    stops_unknown hh' hi (hlabel code hh.runs)
  have hresume := Session.resume_of_stops rfl hf hstop ((Program.size_le_longest hh.runs).trans hlimit)
  rw [HostCall.goingOn, Session.answers, moments, moments, List.map_cons, List.map_cons, call_choose_load hs ho,
    Session.call, hresume]
  · rfl
  · exact HostCall.noConfusion

theorem exists_getElem?_of_forall₂ {α β : Type} {R : α → β → Prop} {index : Nat} {b : β} :
    ∀ {as : List α} {bs : List β}, List.Forall₂ R as bs → bs[index]? = some b → ∃ a, as[index]? = some a ∧ R a b := by
  induction index with
  | zero =>
    rintro _ _ (_ | ⟨hfirst, hrest⟩) h
    · cases h
    · cases h
      exact ⟨_, rfl, hfirst⟩
  | succ index ih =>
    rintro _ _ (_ | ⟨hfirst, hrest⟩) h
    · cases h
    · exact ih hrest h

/-- **Choosing.** -/
theorem follows_choose (hlimit : base.program.longest ≤ limit) (ht : Tracks base allows mixed s w) (index : Nat) :
    Follows base story allows mixed limit s w (.choose index) := by
  by_cases hstatus : w.status = .awaitingChoice
  · cases ht with
    | ended hs => rw [hstatus] at hs; cases hs
    | finished hs => rw [hstatus] at hs; cases hs
    | going hs => rw [hstatus] at hs; rcases hs with hs | hs | hs <;> cases hs
    | chose hs => rw [hstatus] at hs; cases hs
    | follows hs => rw [hstatus] at hs; cases hs
    | @asks _ p options d code hs hf hh hi hg ho =>
      rcases hoffer : w.offers[index]? with _ | ⟨line, target⟩
      · have hnone : options[index]? = none := by
          rw [List.getElem?_eq_none_iff] at hoffer ⊢
          rwa [ho.length_eq]
        refine follows_of_eq (call_choose_load_of_none hs hnone) ?_ rfl (.asks hs hf hh hi hg ho)
        rw [Walk.call_choose_of_none story hs hoffer, ho.length_eq]
      · obtain ⟨option, hoption, hpends⟩ := exists_getElem?_of_forall₂ ho hoffer
        cases hpends with
        | @link _ destination alone hl =>
          have hwalk := Walk.call_choose_link story hs hoffer
          by_cases hgrouped : w.grouped = true
          · rw [if_pos hgrouped] at hi
            exact follows_of_grouped hlimit hs hf hh hi hl (hg hgrouped) hoption hwalk (if_pos hgrouped)
          · rw [if_neg hgrouped] at hi
            refine follows_of_eq (call_choose_load hs hoption) hwalk (if_neg hgrouped) ?_
            exact .follows (w := w.takeLink destination) rfl hf hh hi rfl rfl
        | @body _ label statements h =>
          rw [if_pos h.1] at hi
          refine follows_of_eq (call_choose_load hs hoption) (Walk.call_choose_body story hs hoffer) rfl ?_
          exact .chose (w := w.takeBody statements) rfl hf hh hi h.2 rfl
  · have hexpect : s.expect .chooseOption = .error (.invalidState .chooseOption w.status) := by
      rw [Session.expect, if_neg (by rwa [ht.status_eq]), ht.status_eq]
    have hcall : s.call limit (.choose index) = (s, .refused (.invalidState .chooseOption w.status)) := by
      rw [Session.call, Session.choose, hexpect]
      rfl
    refine follows_of_eq hcall ?_ rfl ht
    rw [Walk.call, Walk.choose, if_neg hstatus]

/-- **A session follows a walk that it tracks**, whatever the host does. -/
theorem follows_of_tracks (hp : Plays base story allows mixed) (hlimit : base.program.longest ≤ limit)
    (ht : Tracks base allows mixed s w) : ∀ c : HostCall, Follows base story allows mixed limit s w c
  | .resume => follows_resume hp hlimit ht
  | .acknowledgeLine => follows_acknowledge ht (.inl rfl) rfl rfl
  | .acknowledgeCommand => follows_acknowledge ht (.inr rfl) rfl rfl
  | .choose index => follows_choose hlimit ht index
  | .edit change => by
    have hvars : s.vars = w.vars := by cases ht <;> rfl
    refine .agrees rfl rfl ?_
    show Tracks base allows mixed { s with vars := change s.vars } { w with vars := change w.vars }
    rw [hvars]
    exact tracks_edit ht _

end Calls

end Dialogue
