import Mathlib
import Dialogue.Proofs.Session.Request
import Dialogue.Proofs.Walk.Agreement

/-!
# Phases of a dialogue

A dialogue plays a node, or has completed the last one, or is over. What one instruction does is said once
(`Session.reaches_execute`), and so for a run (`Session.reaches_run`) and for any request that does not end the dialogue
(`Session.exists_moves`): each leads from one phase to the next, and what it shows belongs to the phase it comes from.
-/

namespace Dialogue

/-- The line stands in a node. -/
def ShownLine.StandsIn (file : Option String) (node : String) (line : ShownLine) : Prop :=
  line.location.file = file ∧ line.location.node = node

namespace Session

/-! ## Playing a node -/

/-- **A node runs**: the program has it, and the options that are kept come from it. -/
structure Playing (file : Option String) (node : String) (status : Status) (s : Session) : Prop where
  config : s.config.file = file
  current : s.machine.node = node
  known : s.program.contains node = true
  unfinished : s.machine.finished = false
  status : s.status = status
  options : ∀ option ∈ s.machine.options, option.line.StandsIn file node

/-- **The last node is complete.** -/
structure Done (node : String) (s : Session) : Prop where
  current : s.machine.node = node
  finished : s.machine.finished = true
  status : s.status = .running

/-- **Nothing changes** but the stack, the position, the variables and what is reported. -/
structure Keeps (s s' : Session) : Prop where
  config : s'.config = s.config
  program : s'.program = s.program
  status : s'.status = s.status
  node : s'.machine.node = s.machine.node
  options : s'.machine.options = s.machine.options
  finished : s'.machine.finished = s.machine.finished

namespace Keeps

variable {s s' s'' : Session}

theorem refl (s : Session) : Keeps s s := ⟨rfl, rfl, rfl, rfl, rfl, rfl⟩

theorem trans (h : Keeps s s') (h' : Keeps s' s'') : Keeps s s'' where
  config := h'.config.trans h.config
  program := h'.program.trans h.program
  status := h'.status.trans h.status
  node := h'.node.trans h.node
  options := h'.options.trans h.options
  finished := h'.finished.trans h.finished

theorem location (h : Keeps s s') (line : Nat) : s'.location line = s.location line := by
  rw [Session.location, Session.location, h.config, h.node]

end Keeps

/-- **Nothing changes** but the stack, the variables and what is reported. -/
structure Stays (s s' : Session) : Prop extends Keeps s s' where
  position : s'.machine.position = s.machine.position
  visits : s'.visits = s.visits

namespace Stays

variable {s s' s'' : Session}

theorem refl (s : Session) : Stays s s := ⟨.refl s, rfl, rfl⟩

theorem trans (h : Stays s s') (h' : Stays s' s'') : Stays s s'' where
  toKeeps := h.toKeeps.trans h'.toKeeps
  position := h'.position.trans h.position
  visits := h'.visits.trans h.visits

end Stays

section Staying

variable (s : Session)

theorem stays_push (value : Value) : Stays s (s.push value) := ⟨⟨rfl, rfl, rfl, rfl, rfl, rfl⟩, rfl, rfl⟩

theorem stays_report (error : ScriptError) : Stays s (s.report error) := ⟨⟨rfl, rfl, rfl, rfl, rfl, rfl⟩, rfl, rfl⟩

theorem stays_pop : Stays s s.pop.2 := by
  unfold pop
  split
  · exact .refl s
  · exact ⟨⟨rfl, rfl, rfl, rfl, rfl, rfl⟩, rfl, rfl⟩

theorem stays_popMany (count : Nat) : Stays s (s.popMany count).2 := ⟨⟨rfl, rfl, rfl, rfl, rfl, rfl⟩, rfl, rfl⟩

theorem stays_fill (text : String) (holes : Nat) : Stays s (s.fill text holes).2 := s.stays_popMany holes

theorem stays_compose (text : String) (holes line : Nat) : Stays s (s.compose text holes line).2 := by
  unfold compose
  dsimp only
  split
  · exact s.stays_fill text holes
  · exact (s.stays_fill text holes).trans (stays_report _ _)

theorem stays_composeLine (text : String) (holes : Nat) (tags : List String) (line : Nat) :
    Stays s (s.composeLine text holes tags line).2 :=
  s.stays_compose text holes line

theorem location_composeLine (text : String) (holes : Nat) (tags : List String) (line : Nat) :
    (s.composeLine text holes tags line).1.location = s.location line :=
  (s.stays_compose text holes line).location line

theorem stays_callFunction (function : String) (line : Nat) : Stays s (s.callFunction function line) := by
  unfold callFunction
  dsimp only
  have hpopped := s.stays_pop.trans (s.pop.2.stays_popMany (Number.toCount s.pop.1.toNumber))
  split
  · exact hpopped.trans (stays_push _ _)
  · exact (hpopped.trans (stays_report _ _)).trans (stays_push _ _)

theorem stays_setVariable (name : String) (value : Value) : Stays s { s with vars := s.vars.set name value } :=
  ⟨⟨rfl, rfl, rfl, rfl, rfl, rfl⟩, rfl, rfl⟩

end Staying

variable {file : Option String} {node : String} {status : Status} {s s' : Session}

theorem Playing.keeps (h : Playing file node status s) (hk : Keeps s s') : Playing file node status s' where
  config := by rw [hk.config, h.config]
  current := by rw [hk.node, h.current]
  known := by rw [hk.program, h.known]
  unfinished := by rw [hk.finished, h.unfinished]
  status := by rw [hk.status, h.status]
  options := by rw [hk.options]; exact h.options

/-- What a node shows stands in it. -/
theorem Playing.standsIn (h : Playing file node status s) (text : String) (holes : Nat) (tags : List String)
    (line : Nat) : (s.composeLine text holes tags line).1.StandsIn file node := by
  rw [ShownLine.StandsIn, location_composeLine]
  exact ⟨h.config, h.current⟩

theorem Playing.wait (h : Playing file node status s) (status' : Status) :
    Playing file node status' { s with status := status' } :=
  ⟨h.config, h.current, h.known, h.unfinished, rfl, h.options⟩

/-- A session that has started plays the node it starts with. -/
theorem playing_of_start {session started : Session} {title : String} {nodes : List Node}
    (h : session.start title nodes = .ok started) : Playing session.config.file title .running started := by
  obtain ⟨hread, ht⟩ := of_start_eq_ok h
  obtain ⟨program, hp, hstart⟩ := exists_start_eq session nodes title hread ht
  cases h.symm.trans hstart
  have hknown : program.contains title = true := by
    rw [hp.contains, Node.isSome_scriptOf? hread, ht]
  exact ⟨rfl, rfl, hknown, rfl, rfl, fun _ ho => absurd ho List.not_mem_nil⟩

theorem Playing.currentNode_eq (h : Playing file node status s) (hstatus : status ≠ .idle ∧ status ≠ .complete) :
    s.currentNode = some node := by
  have hs := h.status
  subst hs
  unfold currentNode
  split
  · exact absurd ‹_› hstatus.1
  · exact absurd ‹_› hstatus.2
  · rw [h.current]

/-! ## Steps and runs -/

/-- How a step ends, as the end of a run. -/
def Progress.outcome : Progress → Outcome
  | .ok none => .unfinished
  | .ok (some event) => .event event
  | .error fault => .fault fault

/-- **What a node leads to**, by one step or by a run. -/
inductive Reaches (file : Option String) (node : String) : Session → Outcome → Prop
  | unfinished {s : Session} (h : Playing file node .running s) : Reaches file node s .unfinished
  | line {s : Session} {line : ShownLine} (h : Playing file node .awaitingLine s) (hline : line.StandsIn file node) :
      Reaches file node s (.event (.line line))
  | options {s : Session} {options : List OfferedOption} (h : Playing file node .awaitingChoice s)
      (hoptions : ∀ option ∈ options, option.line.StandsIn file node) :
      Reaches file node s (.event (.options options))
  | command {s : Session} {text : String} (h : Playing file node .awaitingCommand s) :
      Reaches file node s (.event (.command text))
  | next {s : Session} {other : String} (h : Playing file other .running s) :
      Reaches file node s (.event (.nodeComplete node (some other)))
  | last {s : Session} (h : Done node s) : Reaches file node s (.event (.nodeComplete node none))
  | missing {s : Session} {other : String} (h : s.status = .complete) : Reaches file node s (.fault (.nodeNotFound other))
  | stuck {s : Session} {error : ScriptError} (h : Playing file node .running s) :
      Reaches file node s (.fault (.script error))

theorem reaches_jumpTo (h : Playing file node .running s) (label : String) :
    Reaches file node (s.jumpTo label).1 (Progress.outcome (s.jumpTo label).2) := by
  unfold jumpTo
  split
  · exact .unfinished ⟨h.config, h.current, h.known, h.unfinished, h.status, h.options⟩
  · exact .stuck h

theorem reaches_finish (h : Playing file node .running s) :
    Reaches file node s.finish.1 (Progress.outcome s.finish.2) := by
  have hnode := h.current
  subst hnode
  exact .last ⟨rfl, rfl, h.status⟩

theorem reaches_runNode (h : Playing file node .running s) (other : String) :
    Reaches file node (s.runNode other).1 (Progress.outcome (s.runNode other).2) := by
  have hnode := h.current
  subst hnode
  unfold runNode
  split
  · rename_i hknown
    exact .next ⟨h.config, rfl, hknown, rfl, h.status, fun _ ho => absurd ho List.not_mem_nil⟩
  · exact .missing rfl

theorem reaches_showOptions (h : Playing file node .running s) :
    Reaches file node s.showOptions.1 (Progress.outcome s.showOptions.2) := by
  unfold showOptions
  split
  · exact reaches_finish h
  · exact .unfinished ⟨h.config, h.current, h.known, h.unfinished, h.status, fun _ ho => absurd ho List.not_mem_nil⟩
  · apply Reaches.options (h.wait .awaitingChoice)
    intro option hoption
    obtain ⟨⟨pending, id⟩, hpending, rfl⟩ := List.mem_map.1 hoption
    exact h.options pending (List.fst_mem_of_mem_zipIdx hpending)

/-- **One instruction of a node.** -/
theorem reaches_execute (h : Playing file node .running s) (instruction : Instruction) :
    Reaches file node (s.execute instruction).1 (Progress.outcome (s.execute instruction).2) := by
  cases instruction with
  | jumpTo label => exact reaches_jumpTo h label
  | jump =>
    rw [execute]
    split
    · exact reaches_jumpTo h _
    · exact .stuck h
  | runLine text holes tags line =>
    exact .line ((h.keeps (s.stays_composeLine text holes tags line).toKeeps).wait _) (h.standsIn text holes tags line)
  | runCommand text holes line => exact .command ((h.keeps (s.stays_fill text holes).toKeeps).wait _)
  | addOption text holes destination tags followAlone line =>
    have hs := h.keeps (s.stays_composeLine text holes tags line).toKeeps
    refine .unfinished ⟨hs.config, hs.current, hs.known, hs.unfinished, hs.status, ?_⟩
    intro option hoption
    rcases List.mem_append.1 hoption with hoption | hoption
    · exact hs.options option hoption
    · rw [List.mem_singleton.1 hoption]
      exact h.standsIn text holes tags line
  | showOptions => exact reaches_showOptions h
  | pushString _ | pushNumber _ | pushBool _ | pushNull | pushVariable _ =>
    exact .unfinished (h.keeps (s.stays_push _).toKeeps)
  | jumpIfFalse label =>
    rw [execute]
    split
    · exact .unfinished h
    · exact reaches_jumpTo h label
  | pop => exact .unfinished (h.keeps s.stays_pop.toKeeps)
  | callFunction function line => exact .unfinished (h.keeps (s.stays_callFunction function line).toKeeps)
  | storeVariable name =>
    rw [execute]
    split
    · exact .unfinished h
    · exact .unfinished (h.keeps (s.stays_setVariable name _).toKeeps)
  | stop => exact reaches_finish h
  | runNode => exact reaches_runNode (h.keeps s.stays_pop.toKeeps) s.pop.1.text

theorem reaches_step (h : Playing file node .running s) :
    Reaches file node s.step.1 (Progress.outcome s.step.2) := by
  unfold step
  split
  · rename_i hnone
    have hknown := h.known
    rw [← h.current, Std.TreeMap.contains_eq_isSome_getElem?, hnone] at hknown
    cases hknown
  · have hadvanced : Playing file node .running { s with machine.position := s.machine.position + 1 } :=
      h.keeps ⟨rfl, rfl, rfl, rfl, rfl, rfl⟩
    exact reaches_execute hadvanced _

/-- **A run of a node**, by induction on the steps that it may take. -/
theorem reaches_run (h : Playing file node .running s) (limit : Nat) :
    Reaches file node (s.run limit).1 (s.run limit).2 := by
  induction limit generalizing s with
  | zero => exact .unfinished h
  | succ limit ih =>
    have hstep := reaches_step h
    unfold run
    split
    · rename_i hs
      rw [hs] at hstep
      cases hstep with
      | unfinished hplaying => exact ih hplaying
    · rename_i hs
      rwa [hs] at hstep
    · rename_i hs
      rwa [hs] at hstep

end Session

/-! ## Phases -/

/-- **What a dialogue is at.** -/
inductive Phase where
  | playing (node : String)
  /-- The last node is complete, and nobody has been told that nothing comes after it. -/
  | done (node : String)
  | ended

namespace Phase

/-- **The session is at this phase.** -/
inductive Holds (file : Option String) : Phase → Session → Prop
  | playing {node : String} {status : Status} {s : Session} (h : s.Playing file node status)
      (hstatus : status ≠ .idle ∧ status ≠ .complete) : Holds file (.playing node) s
  | done {node : String} {s : Session} (h : s.Done node) : Holds file (.done node) s
  | ended {s : Session} (h : s.status = .complete) : Holds file .ended s

end Phase

/-- The answer shows something. -/
def Answer.isShown : Answer → Bool
  | .shown _ => true
  | _ => false

/-- What a node shows while it plays. -/
def Sight.StandsIn (file : Option String) (node : String) : Sight → Prop
  | .line shown => shown.StandsIn file node
  | .options offered => ∀ option ∈ offered, option.2.StandsIn file node
  | .command _ => True
  | .nodeComplete .. | .dialogueComplete _ => False

/-- **What a request may be answered at a phase, and the phase after it.** -/
inductive Moves (file : Option String) : Phase → Request → Answer → Phase → Prop
  | shows {node : String} {sight : Sight} (h : sight.StandsIn file node) :
      Moves file (.playing node) (.call .resume) (.shown sight) (.playing node)
  | next (node other : String) :
      Moves file (.playing node) (.call .resume) (.shown (.nodeComplete node (some other))) (.playing other)
  | last (node : String) : Moves file (.playing node) (.call .resume) (.shown (.nodeComplete node none)) (.done node)
  | missing (node other : String) :
      Moves file (.playing node) (.call .resume) (.refused (.nodeNotFound other)) .ended
  | ends (node : String) : Moves file (.done node) (.call .resume) (.shown (.dialogueComplete node)) .ended
  | stays {phase : Phase} {request : Request} {answer : Answer} (hshown : answer.isShown = false)
      (hresume : request = .call .resume →
        (∀ node, phase ≠ .done node) ∧ ∀ other, answer ≠ .refused (.nodeNotFound other)) :
      Moves file phase request answer phase

section Moving

variable {file : Option String} {phase : Phase} {s : Session}

theorem Phase.Holds.running {node : String} (h : s.Playing file node .running) : (Phase.playing node).Holds file s :=
  .playing h (by decide)

/-- What is not allowed now is refused, and the phase stays. -/
theorem exists_moves_of_not_allowed {limit : Nat} {call : HostCall} {operation : Operation} (h : phase.Holds file s)
    (hcall : call.operation? = some operation) (hne : s.status ≠ operation.status)
    (hdone : call = .resume → ∀ node, phase ≠ .done node) :
    ∃ phase', Moves file phase (.call call) (s.call limit call).2 phase' ∧ phase'.Holds file (s.call limit call).1 := by
  rw [Session.call_of_not_allowed hcall hne]
  refine ⟨phase, .stays rfl fun hresume => ⟨hdone (Request.call.inj hresume), ?_⟩, h⟩
  intro other hother
  cases hother

/-- What a node leads to moves the dialogue on. -/
theorem exists_moves_of_reaches {node : String} {outcome : Session.Outcome} (h : s.Reaches file node outcome) :
    ∃ phase', Moves file (.playing node) (.call .resume) outcome.answer phase' ∧ phase'.Holds file s := by
  cases h with
  | unfinished h => exact ⟨.playing node, .stays rfl fun _ => ⟨nofun, nofun⟩, .running h⟩
  | line h hline => exact ⟨.playing node, .shows hline, .playing h (by decide)⟩
  | options h hoptions =>
    refine ⟨.playing node, .shows ?_, .playing h (by decide)⟩
    intro option hoption
    obtain ⟨offered, hoffered, rfl⟩ := List.mem_map.1 hoption
    exact hoptions offered hoffered
  | command h => exact ⟨.playing node, .shows trivial, .playing h (by decide)⟩
  | @next other h => exact ⟨.playing other, .next node other, .running h⟩
  | last h => exact ⟨.done node, .last node, .done h⟩
  | @missing other h => exact ⟨.ended, .missing node other, .ended h⟩
  | stuck h => exact ⟨.playing node, .stays rfl fun _ => ⟨nofun, nofun⟩, .running h⟩

/-- **What a run shows belongs to the phase it comes from.** -/
theorem exists_moves_resume (limit : Nat) (h : phase.Holds file s) : ∃ phase',
    Moves file phase (.call .resume) (s.call limit .resume).2 phase' ∧
      phase'.Holds file (s.call limit .resume).1 := by
  cases h with
  | ended hended => exact exists_moves_of_not_allowed (.ended hended) rfl (by rw [hended]; decide) nofun
  | @done node _ hdone =>
    rw [Session.call, Session.resume_of_finished hdone.status hdone.finished, hdone.current]
    exact ⟨.ended, .ends node, .ended rfl⟩
  | @playing node status _ hplaying hstatus =>
    by_cases hrunning : status = .running
    · subst hrunning
      have hexpect : s.expect .resume = .ok () := if_pos hplaying.status
      rw [Session.call, Session.resume, hexpect, hplaying.unfinished]
      exact exists_moves_of_reaches (Session.reaches_run hplaying limit)
    · refine exists_moves_of_not_allowed (.playing hplaying hstatus) rfl ?_ (by simp)
      rw [hplaying.status]
      exact hrunning

/-- What changes neither the machine nor the status leaves the phase as it is. -/
theorem Phase.Holds.keeps {s' : Session} (h : phase.Holds file s) (hk : s.Keeps s') : phase.Holds file s' := by
  cases h with
  | playing h hstatus => exact .playing (h.keeps hk) hstatus
  | done h => exact .done ⟨by rw [hk.node, h.current], by rw [hk.finished, h.finished], by rw [hk.status, h.status]⟩
  | ended h => exact .ended (by rw [hk.status, h])

/-- While the host has to do something, a node runs. -/
theorem Phase.Holds.exists_playing (h : phase.Holds file s) (hrunning : s.status ≠ .running)
    (hcomplete : s.status ≠ .complete) : ∃ node, phase = .playing node ∧ s.Playing file node s.status := by
  cases h with
  | @playing node _ _ h =>
    have hstatus := h.status
    subst hstatus
    exact ⟨node, rfl, h⟩
  | done h => exact absurd h.status hrunning
  | ended h => exact absurd h hcomplete

/-- An acknowledgement. -/
theorem exists_moves_acknowledge (limit : Nat) {call : HostCall} {operation : Operation} (h : phase.Holds file s)
    (hcall : call.operation? = some operation) (hrunning : operation.status ≠ .running)
    (hcomplete : operation.status ≠ .complete)
    (hdoes : s.status = operation.status → s.call limit call = ({ s with status := .running }, .accepted)) :
    ∃ phase', Moves file phase (.call call) (s.call limit call).2 phase' ∧
      phase'.Holds file (s.call limit call).1 := by
  have hresume : call ≠ .resume := by
    rintro rfl
    cases hcall
    exact hrunning rfl
  by_cases hs : s.status = operation.status
  · obtain ⟨node, rfl, hplaying⟩ := h.exists_playing (by rw [hs]; exact hrunning) (by rw [hs]; exact hcomplete)
    rw [hdoes hs]
    exact ⟨.playing node, .stays rfl fun hr => absurd (Request.call.inj hr) hresume,
      .running (hplaying.wait .running)⟩
  · exact exists_moves_of_not_allowed h hcall hs fun hr => absurd hr hresume

/-- A choice. -/
theorem exists_moves_choose (limit index : Nat) (h : phase.Holds file s) :
    ∃ phase', Moves file phase (.call (.choose index)) (s.call limit (.choose index)).2 phase' ∧
      phase'.Holds file (s.call limit (.choose index)).1 := by
  by_cases hs : s.status = .awaitingChoice
  · obtain ⟨node, rfl, hplaying⟩ := h.exists_playing (by rw [hs]; decide) (by rw [hs]; decide)
    cases hoption : s.machine.options[index]? with
    | none =>
      rw [Session.call_choose_none hs hoption]
      exact ⟨.playing node, .stays rfl nofun, h⟩
    | some option =>
      rw [Session.call_choose hs hoption]
      exact ⟨.playing node, .stays rfl nofun, .running ⟨hplaying.config, hplaying.current, hplaying.known,
        hplaying.unfinished, rfl, fun _ ho => absurd ho List.not_mem_nil⟩⟩
  · exact exists_moves_of_not_allowed h rfl hs nofun

/-- **Any request that does not end the dialogue moves it on.** -/
theorem exists_moves (limit : Nat) {request : Request} (h : phase.Holds file s) (hends : s.endsAt request = false) :
    ∃ phase', Moves file phase request (s.request limit request).2 phase' ∧
      phase'.Holds file (s.request limit request).1 := by
  cases request with
  | start title nodes =>
    obtain ⟨fault, hrequest⟩ := Session.request_start_of_not_endsAt limit hends
    rw [hrequest]
    exact ⟨phase, .stays rfl nofun, h⟩
  | stop => cases hends
  | relink change => exact ⟨phase, .stays rfl nofun, h.keeps ⟨rfl, rfl, rfl, rfl, rfl, rfl⟩⟩
  | call call =>
    cases call with
    | resume => exact exists_moves_resume limit h
    | acknowledgeLine =>
      exact exists_moves_acknowledge limit h rfl (by decide) (by decide) Session.call_acknowledgeLine
    | acknowledgeCommand =>
      exact exists_moves_acknowledge limit h rfl (by decide) (by decide) Session.call_acknowledgeCommand
    | choose index => exact exists_moves_choose limit index h
    | edit change => exact ⟨phase, .stays rfl nofun, h.keeps ⟨rfl, rfl, rfl, rfl, rfl, rfl⟩⟩

end Moving

end Dialogue
