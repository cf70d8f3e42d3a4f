import Mathlib
import Dialogue.Proofs.Program.Jumps
import Dialogue.Proofs.Session.Course
import Dialogue.Proofs.Session.Phases

/-!
# Where a session stands

Between any two steps a session stands in one of five ways (`Machine.Stands`): nothing runs, the last node is complete,
a node is on its way, the host is asked, or the next instruction jumps to the option that was taken. What can be pending
is a link of the node, or an option of a group that is yet to be offered. One step leads from standing to standing
(`Session.steps_step`), and moves forward in the code of its node unless it follows a link whose destination is the name
of a label further back (`Session.TurnsBack`). So does every turn of a session (`Course.stands_take`).
-/

namespace Dialogue

/-- **Taken at a position, the option leads forward**, unless it is a link. -/
def Behind (body : List Statement) (p : Nat) (destination : String) : Prop :=
  destination ∈ Code.allLinks body ∨ ∃ q, (Code.node body).labels.lookup destination = some q ∧ p < q

/-- **An option that is pending at a position** is a link, or belongs to a group that is yet to be offered. -/
def Pending (body : List Statement) (p : Nat) (destination : String) : Prop :=
  destination ∈ Code.allLinks body ∨ Code.Awaited (Code.node body) p destination

namespace Machine

/-- **A node is on its way.** -/
structure Inside (nodes : List Node) (body : List Statement) (m : Machine) : Prop where
  script : Node.scriptOf? nodes m.node = some body
  unfinished : m.finished = false
  lt : m.position < (Code.node body).size

/-- **How a machine stands** in a dialogue of these nodes. -/
inductive Stands (nodes : List Node) (m : Machine) : Status → Prop where
  /-- Nothing runs. -/
  | fresh {status : Status} (hs : status = .idle ∨ status = .complete) (hm : m = {}) : Stands nodes m status
  /-- The last node is complete. -/
  | finished {body : List Statement} (hscript : Node.scriptOf? nodes m.node = some body) (hf : m.finished = true) :
      Stands nodes m .running
  | going {status : Status} {body : List Statement}
      (hs : status = .running ∨ status = .awaitingLine ∨ status = .awaitingCommand) (h : Inside nodes body m)
      (hjump : (Code.node body).instructions[m.position]? ≠ some .jump)
      (ho : ∀ option ∈ m.options, Pending body m.position option.destination) : Stands nodes m status
  | asks {body : List Statement} (h : Inside nodes body m) (hne : m.options ≠ [])
      (ho : ∀ option ∈ m.options, Behind body m.position option.destination) : Stands nodes m .awaitingChoice
  /-- The next instruction jumps to the option that was taken. -/
  | takes {body : List Statement} {destination : String} {stack : List Value} (h : Inside nodes body m)
      (hjump : (Code.node body).instructions[m.position]? = some .jump)
      (hstack : m.stack = .string destination :: stack) (hb : Behind body m.position destination)
      (ho : m.options = []) : Stands nodes m .running

end Machine

namespace Session

/-- **A session stands** in a dialogue of these nodes, and has their code. -/
structure Standing (nodes : List Node) (s : Session) : Prop where
  program : s.program.Holds nodes
  stands : s.machine.Stands nodes s.status

/-- **The session is about to follow a link of the node** whose destination is the name of a label further back. -/
def TurnsBack (nodes : List Node) (s : Session) : Prop :=
  ∃ body destination stack q, Node.scriptOf? nodes s.machine.node = some body ∧
    (Code.node body).instructions[s.machine.position]? = some .jump ∧ s.machine.stack = .string destination :: stack ∧
    destination ∈ Code.allLinks body ∧ (Code.node body).labels.lookup destination = some q ∧ q ≤ s.machine.position

/-- **What one step of a node leads to.** -/
inductive Steps (nodes : List Node) (s : Session) : Session × Progress → Prop where
  | on {s' : Session} (h : s'.Standing nodes) (hs : s'.status = .running) (hf : s'.machine.finished = false)
      (hn : s'.machine.node = s.machine.node) (hlt : s.machine.position < s'.machine.position ∨ s.TurnsBack nodes) :
      Steps nodes s (s', .ok none)
  | shows {s' : Session} {event : Event} (h : s'.Standing nodes)
      (ho : s'.status = .awaitingChoice → event = .options (offered s'.machine.options)) :
      Steps nodes s (s', .ok (some event))
  | fails {s' : Session} {fault : SessionFault} (h : s'.Standing nodes) (hs : s'.status ≠ .awaitingChoice)
      (hfault : fault ≠ .nodeNotFound s.machine.node) : Steps nodes s (s', .error fault)

end Session

/-! ## Options that are pending -/

section Pending

variable {body : List Statement} {p : Nat} {destination : String}

/-- **After the instruction the code goes on at the next one**, with the same options, unless it jumps. -/
def Instruction.goesOn : Instruction → Bool
  | .showOptions | .stop | .runNode => false
  | _ => true

theorem Instruction.ne_showOptions {i : Instruction} (h : i.goesOn = true) : i ≠ .showOptions := by
  rintro rfl
  cases h

theorem Code.lt_size_of_goesOn {i : Instruction} (hi : (node body).instructions[p]? = some i) (h : i.goesOn = true) :
    p + 1 < (node body).size := by
  refine lt_size_node hi ?_ ?_ <;> rintro rfl <;> cases h

/-- An instruction that does not offer options keeps them pending. -/
theorem Pending.next {i : Instruction} (h : Pending body p destination)
    (hi : (Code.node body).instructions[p]? = some i) (hshow : i ≠ .showOptions) :
    Pending body (p + 1) destination := by
  rcases h with h | ⟨names, j, hoffering, hname⟩
  · exact .inl h
  · refine .inr ⟨names, j, hoffering.mono (Nat.le_succ p) ?_, hname⟩
    refine Nat.lt_of_le_of_ne hoffering.le ?_
    rintro rfl
    exact hshow (Option.some.inj (hi.symm.trans hoffering.shows))

/-- Where options are offered, those that are pending lead forward. -/
theorem Pending.behind (h : Pending body p destination)
    (hi : (Code.node body).instructions[p]? = some .showOptions) : Behind body (p + 1) destination := by
  rcases h with h | ⟨names, j, hoffering, hname⟩
  · exact .inl h
  · rcases Nat.lt_or_eq_of_le hoffering.le with hlt | rfl
    · obtain ⟨i, hi', hgathers⟩ := hoffering.gathers p (Nat.le_refl p) hlt
      cases hi.symm.trans hi'
      cases hgathers
    · exact .inr (hoffering.ready _ hname)

/-- A jump to a label leaves only links pending. -/
theorem Pending.jumpTo {label : String} (h : Pending body p destination)
    (hi : (Code.node body).instructions[p]? = some (.jumpTo label)) (q : Nat) : Pending body q destination := by
  rcases h with h | ⟨names, j, hoffering, hname⟩
  · exact .inl h
  · rcases Nat.lt_or_eq_of_le hoffering.le with hlt | rfl
    · obtain ⟨i, hi', hgathers⟩ := hoffering.gathers p (Nat.le_refl p) hlt
      cases hi.symm.trans hi'
      cases hgathers
    · cases hi.symm.trans hoffering.shows

/-- A condition in the header of a group does not lead out of it. -/
theorem Pending.jumpIfFalse {label : String} {q : Nat} (h : Pending body p destination)
    (hi : (Code.node body).instructions[p]? = some (.jumpIfFalse label))
    (hl : (Code.node body).labels.lookup label = some q) : Pending body q destination := by
  rcases h with h | ⟨names, j, hoffering, hname⟩
  · exact .inl h
  · rcases Nat.lt_or_eq_of_le hoffering.le with hlt | rfl
    · obtain ⟨i, hi', hgathers⟩ := hoffering.gathers p (Nat.le_refl p) hlt
      cases hi.symm.trans hi'
      obtain ⟨q', hl', hpq, hqj⟩ := hgathers
      cases hl.symm.trans hl'
      exact .inr ⟨names, j, hoffering.mono (Nat.le_of_lt hpq) hqj, hname⟩
    · cases hi.symm.trans hoffering.shows

/-- The instruction after one that does not offer options is no jump to what was taken. -/
theorem Code.next_ne_jump {i : Instruction} (hi : (node body).instructions[p]? = some i) (hshow : i ≠ .showOptions) :
    (node body).instructions[p + 1]? ≠ some .jump := by
  intro hjump
  obtain ⟨j, hj, hshows⟩ := placed_node hjump
  cases hj
  exact hshow (Option.some.inj (hi.symm.trans hshows))

end Pending

/-! ## Steps -/

namespace Session

variable {nodes : List Node} {body : List Statement} {s s' : Session} {i : Instruction}

/-- The session after it has read the next instruction. -/
def read (s : Session) : Session :=
  { s with machine.position := s.machine.position + 1 }

theorem runs_of_script (hp : s.program.Holds nodes) (h : Node.scriptOf? nodes s.machine.node = some body) :
    s.Runs (Code.node body) := by
  rw [Runs, hp, h]
  rfl

/-- While a node is not complete, it is on its way. -/
theorem Standing.exists_inside (h : s.Standing nodes) (hs : s.status = .running) (hf : s.machine.finished = false) :
    ∃ body, s.machine.Inside nodes body := by
  have hstands := h.stands
  rw [hs] at hstands
  cases hstands with
  | fresh hs => rcases hs with hs | hs <;> cases hs
  | finished _ hfinished => cases hf.symm.trans hfinished
  | going _ hinside | takes hinside => exact ⟨_, hinside⟩

theorem step_inside (hp : s.program.Holds nodes) (h : s.machine.Inside nodes body)
    (hi : (Code.node body).instructions[s.machine.position]? = some i) : s.step = s.read.execute i :=
  step_eq (runs_of_script hp h.script) hi

section Next

variable (hp : s.program.Holds nodes) (h : s.machine.Inside nodes body)
  (hi : (Code.node body).instructions[s.machine.position]? = some i) (hon : i.goesOn = true)

include hp h hi hon

/-- **At the next instruction** the session stands as before, when the machine only went on. -/
theorem standing_next {u : Session} (hk : s.read.Stays u) (options : List PendingOption) {status : Status}
    (hs : status = .running ∨ status = .awaitingLine ∨ status = .awaitingCommand)
    (ho : ∀ option ∈ options, Pending body (s.machine.position + 1) option.destination) :
    Standing nodes { u with machine := { u.machine with options }, status } where
  program := by
    show u.program.Holds nodes
    rw [hk.program]
    exact hp
  stands := by
    have hposition : u.machine.position = s.machine.position + 1 := hk.position
    have hinside : Machine.Inside nodes body { u.machine with options } := by
      refine ⟨?_, ?_, ?_⟩
      · show Node.scriptOf? nodes u.machine.node = some body
        rw [hk.node]
        exact h.script
      · show u.machine.finished = false
        rw [hk.finished]
        exact h.unfinished
      · show u.machine.position < _
        rw [hposition]
        exact Code.lt_size_of_goesOn hi hon
    refine .going hs hinside ?_ ?_
    · show (Code.node body).instructions[u.machine.position]? ≠ _
      rw [hposition]
      exact Code.next_ne_jump hi (Instruction.ne_showOptions hon)
    · show ∀ option ∈ options, Pending body u.machine.position _
      rw [hposition]
      exact ho

omit hp h in
/-- What was pending is pending at the next instruction. -/
theorem pending_next (ho : ∀ option ∈ s.machine.options, Pending body s.machine.position option.destination)
    {u : Session} (hk : s.read.Stays u) :
    ∀ option ∈ u.machine.options, Pending body (s.machine.position + 1) option.destination := by
  intro option hoption
  rw [hk.options] at hoption
  exact (ho option hoption).next hi (Instruction.ne_showOptions hon)

/-- An instruction that only works on the stack and the variables. -/
theorem steps_stays (hs : s.status = .running)
    (ho : ∀ option ∈ s.machine.options, Pending body s.machine.position option.destination) {u : Session}
    (hk : s.read.Stays u) : Steps nodes s (u, .ok none) := by
  have hstatus : u.status = .running := hk.status.trans hs
  have hposition : u.machine.position = s.machine.position + 1 := hk.position
  have hstanding := standing_next hp h hi hon hk u.machine.options (.inl hstatus) (pending_next hi hon ho hk)
  exact .on hstanding hstatus (hk.finished.trans h.unfinished) hk.node (.inl (by omega))

/-- An instruction that shows a line or a command. -/
theorem steps_shows
    (ho : ∀ option ∈ s.machine.options, Pending body s.machine.position option.destination) {u : Session}
    (hk : s.read.Stays u) {status : Status} (hs : status = .awaitingLine ∨ status = .awaitingCommand) (event : Event) :
    Steps nodes s ({ u with status }, .ok (some event)) := by
  refine .shows (standing_next hp h hi hon hk u.machine.options (.inr hs) (pending_next hi hon ho hk)) ?_
  rintro rfl
  rcases hs with hs | hs <;> cases hs

/-- An instruction that adds an option. -/
theorem steps_adds (hs : s.status = .running)
    (ho : ∀ option ∈ s.machine.options, Pending body s.machine.position option.destination) {u : Session}
    (hk : s.read.Stays u) {option : PendingOption}
    (hoption : Pending body (s.machine.position + 1) option.destination) :
    Steps nodes s ({ u with machine.options := u.machine.options ++ [option] }, .ok none) := by
  have hstatus : u.status = .running := hk.status.trans hs
  have hposition : u.machine.position = s.machine.position + 1 := hk.position
  have hstanding := standing_next hp h hi hon hk (u.machine.options ++ [option]) (.inl hstatus) (by
    intro other hother
    rcases List.mem_append.1 hother with hother | hother
    · exact pending_next hi hon ho hk other hother
    · rwa [List.mem_singleton.1 hother])
  refine .on hstanding hstatus (hk.finished.trans h.unfinished) hk.node (.inl ?_)
  show s.machine.position < u.machine.position
  omega

end Next

/-- **A jump to a label of the node** stands before an instruction. -/
theorem standing_jump (hp : s.program.Holds nodes) (h : s.machine.Inside nodes body) (hs : s.status = .running)
    {label : String} {q : Nat} (hl : (Code.node body).labels.lookup label = some q)
    (ho : ∀ option ∈ s.machine.options, Pending body q option.destination) :
    Standing nodes { s with machine.position := q } where
  program := hp
  stands := .going (.inl hs) ⟨h.script, h.unfinished, (Code.lookup_node hl).1⟩ (Code.lookup_node hl).2 ho

/-- A jump to a label that stands ahead. -/
theorem steps_jumpTo (hp : s.program.Holds nodes) (h : s.machine.Inside nodes body) (hs : s.status = .running)
    {label : String} {q : Nat} (hl : (Code.node body).labels.lookup label = some q) (hlt : s.machine.position < q)
    (ho : ∀ option ∈ s.machine.options, Pending body q option.destination) :
    Steps nodes s (s.read.jumpTo label) := by
  have hr : s.read.Runs (Code.node body) := runs_of_script hp h.script
  rw [jumpTo_eq hr hl]
  exact .on (standing_jump hp h hs hl ho) hs h.unfinished rfl (.inl hlt)

/-- **A jump to what was taken.** -/
theorem steps_jump (hp : s.program.Holds nodes) (h : s.machine.Inside nodes body) (hs : s.status = .running)
    (hi : (Code.node body).instructions[s.machine.position]? = some .jump) {destination : String} {stack : List Value}
    (hstack : s.machine.stack = .string destination :: stack) (hb : Behind body s.machine.position destination)
    (ho : s.machine.options = []) : Steps nodes s (s.read.jumpTo destination) := by
  have hr : s.read.Runs (Code.node body) := runs_of_script hp h.script
  cases hl : (Code.node body).labels.lookup destination with
  | none =>
    rw [jumpTo_of_lookup_eq_none hr hl]
    refine .fails ?_ (by rw [show s.read.status = .running from hs]; decide) nofun
    refine standing_next hp h hi rfl (.refl s.read) s.machine.options (.inl hs) ?_
    intro option hoption
    rw [ho] at hoption
    cases hoption
  | some q =>
    rw [jumpTo_eq hr hl]
    refine .on (standing_jump (s := s.read) hp ⟨h.script, h.unfinished, ?_⟩ hs hl ?_) hs h.unfinished rfl ?_
    · exact Code.lt_size_of_goesOn hi rfl
    · intro option hoption
      rw [show s.read.machine.options = [] from ho] at hoption
      cases hoption
    · by_cases hlt : s.machine.position < q
      · exact .inl hlt
      · rcases hb with hlink | ⟨q', hl', hlt'⟩
        · exact .inr ⟨body, destination, stack, q, h.script, hi, hstack, hlink, hl, Nat.le_of_not_lt hlt⟩
        · cases hl.symm.trans hl'
          exact absurd hlt' hlt

/-- The last node is complete. -/
theorem steps_finish (hp : s.program.Holds nodes) (h : s.machine.Inside nodes body) (hs : s.status = .running) :
    Steps nodes s s.read.finish := by
  refine .shows ⟨hp, ?_⟩ ?_
  · show Machine.Stands nodes { s.read.machine with finished := true } s.status
    rw [hs]
    exact .finished h.script rfl
  · intro hchoice
    cases hs.symm.trans hchoice

/-- **The way to another node**, with any stack. -/
theorem steps_runNode (hp : s.program.Holds nodes) (h : s.machine.Inside nodes body) (hs : s.status = .running)
    {u : Session} (hk : s.read.Stays u) (other : String) : Steps nodes s (u.runNode other) := by
  have hprogram : u.program.Holds nodes := by
    rw [hk.program]
    exact hp
  have hstatus : u.status = .running := hk.status.trans hs
  have hcontains := hprogram.contains other
  unfold runNode
  split
  · rename_i hknown
    rw [hknown] at hcontains
    obtain ⟨body', hscript⟩ := Option.isSome_iff_exists.1 hcontains.symm
    refine .shows ⟨hprogram, ?_⟩ ?_
    · show Machine.Stands nodes { node := other } u.status
      rw [hstatus]
      exact .going (.inl rfl) ⟨hscript, rfl, Code.size_node_pos body'⟩ (Code.tidy_node body').head
        fun _ ho => absurd ho List.not_mem_nil
    · intro hchoice
      cases hstatus.symm.trans hchoice
  · rename_i hunknown
    refine .fails ⟨hprogram, .fresh (.inr rfl) rfl⟩ nofun ?_
    intro hfault
    cases hfault
    rw [hcontains, h.script] at hunknown
    exact hunknown rfl

/-- **Options are offered**, or there is only one to take, or none. -/
theorem steps_showOptions (hp : s.program.Holds nodes) (h : s.machine.Inside nodes body) (hs : s.status = .running)
    (hi : (Code.node body).instructions[s.machine.position]? = some .showOptions)
    (ho : ∀ option ∈ s.machine.options, Pending body s.machine.position option.destination) :
    Steps nodes s s.read.showOptions := by
  have hnext : s.machine.position + 1 < (Code.node body).size := Code.lt_size_node hi (by simp) (by simp)
  have hbehind : ∀ option ∈ s.machine.options, Behind body (s.machine.position + 1) option.destination :=
    fun option hoption => (ho option hoption).behind hi
  unfold showOptions
  split
  · exact steps_finish hp h hs
  · rename_i line destination hoptions
    refine .on ⟨hp, ?_⟩ hs h.unfinished rfl (.inl (Nat.lt_succ_self _))
    have hlone : Behind body (s.machine.position + 1) destination :=
      hbehind ⟨line, destination, true⟩ (by rw [show s.machine.options = _ from hoptions]; exact List.mem_cons_self)
    show Machine.Stands nodes _ s.status
    rw [hs]
    by_cases hjump : (Code.node body).instructions[s.machine.position + 1]? = some .jump
    · exact .takes ⟨h.script, h.unfinished, hnext⟩ hjump rfl hlone rfl
    · exact .going (.inl rfl) ⟨h.script, h.unfinished, hnext⟩ hjump fun _ ho => absurd ho List.not_mem_nil
  · rename_i hnone hlone
    exact .shows ⟨hp, .asks ⟨h.script, h.unfinished, hnext⟩ hnone hbehind⟩ fun _ => rfl

/-- **One step of a node that is on its way.** -/
theorem steps_going (hp : s.program.Holds nodes) (h : s.machine.Inside nodes body) (hs : s.status = .running)
    (hjump : (Code.node body).instructions[s.machine.position]? ≠ some .jump)
    (ho : ∀ option ∈ s.machine.options, Pending body s.machine.position option.destination) : Steps nodes s s.step := by
  obtain ⟨i, hi⟩ : ∃ i, (Code.node body).instructions[s.machine.position]? = some i :=
    ⟨_, List.getElem?_eq_getElem h.lt⟩
  rw [step_inside hp h hi]
  cases i with
  | jumpTo label =>
    obtain ⟨q, hl, hlt⟩ := Code.placed_node hi
    exact steps_jumpTo hp h hs hl hlt fun option hoption => (ho option hoption).jumpTo hi q
  | jump => exact absurd hi hjump
  | runLine text holes tags line =>
    exact steps_shows hp h hi rfl ho (s.read.stays_composeLine text holes tags line) (.inl rfl) _
  | runCommand text holes line =>
    exact steps_shows hp h hi rfl ho (s.read.stays_fill text holes) (.inr rfl) _
  | addOption text holes destination tags followAlone line =>
    have hk := s.read.stays_composeLine text holes tags line
    exact steps_adds hp h hi rfl hs ho hk (Code.placed_node hi)
  | showOptions => exact steps_showOptions hp h hs hi ho
  | pushString _ | pushNumber _ | pushBool _ | pushNull | pushVariable _ =>
    exact steps_stays hp h hi rfl hs ho (s.read.stays_push _)
  | jumpIfFalse label =>
    obtain ⟨q, hl, hlt⟩ := Code.placed_node hi
    rw [execute]
    split
    · exact steps_stays hp h hi rfl hs ho (.refl s.read)
    · exact steps_jumpTo hp h hs hl hlt fun option hoption => (ho option hoption).jumpIfFalse hi hl
  | pop => exact steps_stays hp h hi rfl hs ho s.read.stays_pop
  | callFunction function line =>
    exact steps_stays hp h hi rfl hs ho (s.read.stays_callFunction function line)
  | storeVariable name =>
    rw [execute]
    split
    · exact steps_stays hp h hi rfl hs ho (.refl s.read)
    · exact steps_stays hp h hi rfl hs ho (s.read.stays_setVariable name _)
  | stop => exact steps_finish hp h hs
  | runNode => exact steps_runNode hp h hs s.read.stays_pop _

/-- **One step leads from standing to standing.** -/
theorem steps_step (h : s.Standing nodes) (hs : s.status = .running) (hf : s.machine.finished = false) :
    Steps nodes s s.step := by
  have hstands := h.stands
  rw [hs] at hstands
  cases hstands with
  | fresh hs => rcases hs with hs | hs <;> cases hs
  | finished _ hfinished => cases hf.symm.trans hfinished
  | going _ hinside hjump ho => exact steps_going h.program hinside hs hjump ho
  | takes hinside hjump hstack hb ho =>
    rw [step_inside h.program hinside hjump, execute, show s.read.machine.stack = _ from hstack]
    exact steps_jump h.program hinside hs hjump hstack hb ho

/-! ## Runs -/

/-- **How a run of a node ends.** Where the host is asked, it has just been shown the options. -/
structure Ends (nodes : List Node) (node : String) (result : Session × Outcome) : Prop where
  standing : result.1.Standing nodes
  asked : result.1.status = .awaitingChoice → result.2 = .event (.options (offered result.1.machine.options))
  found : result.2 ≠ .fault (.nodeNotFound node)

/-- **A run leads from standing to standing**, by induction on the steps that it may take. -/
theorem ends_run (h : s.Standing nodes) (hs : s.status = .running) (hf : s.machine.finished = false) (limit : Nat) :
    Ends nodes s.machine.node (s.run limit) := by
  induction limit generalizing s with
  | zero =>
    refine ⟨h, ?_, by simp [run]⟩
    intro hchoice
    cases hs.symm.trans hchoice
  | succ limit ih =>
    have hstep := steps_step h hs hf
    unfold run
    generalize s.step = result at hstep
    cases hstep with
    | on h' hs' hf' hn _ =>
      rw [← hn]
      exact ih h' hs' hf'
    | shows h' ho =>
      refine ⟨h', ?_, by simp⟩
      intro hchoice
      rw [ho hchoice]
    | fails h' hs' hfault =>
      refine ⟨h', fun hchoice => absurd hchoice hs', ?_⟩
      intro hfound
      exact hfault (Outcome.fault.inj hfound)

theorem ends_resume (h : s.Standing nodes) (hs : s.status = .running) (limit : Nat) :
    Ends nodes s.machine.node (s.resume limit) := by
  cases hf : s.machine.finished with
  | true =>
    rw [resume_of_finished hs hf]
    exact ⟨⟨h.program, .fresh (.inr rfl) rfl⟩, nofun, nofun⟩
  | false =>
    rw [resume_of_unfinished hs hf]
    exact ends_run h hs hf limit

/-! ## Requests -/

theorem standing_of_begins {title : String} (h : s.Begins nodes title) : s.Standing nodes where
  program := h.program
  stands := by
    obtain ⟨body, hscript⟩ := h.script
    rw [h.machine, h.status]
    exact .going (.inl rfl) ⟨hscript, rfl, Code.size_node_pos body⟩ (Code.tidy_node body).head
      fun _ ho => absurd ho List.not_mem_nil

/-- After a line or a command the node goes on. -/
theorem standing_acknowledged (h : s.Standing nodes) (hs : s.status = .awaitingLine ∨ s.status = .awaitingCommand) :
    Standing nodes { s with status := .running } where
  program := h.program
  stands := by
    have hstands := h.stands
    generalize s.status = status at hs hstands
    cases hstands with
    | fresh hfresh => rcases hs with rfl | rfl <;> rcases hfresh with hfresh | hfresh <;> cases hfresh
    | finished | asks | takes => rcases hs with hs | hs <;> cases hs
    | going _ hinside hjump ho => exact .going (.inl rfl) hinside hjump ho

/-- An option is taken. -/
theorem standing_chosen (h : s.Standing nodes) (hs : s.status = .awaitingChoice) {option : PendingOption}
    (hoption : option ∈ s.machine.options) : Standing nodes { s with
      status := .running
      machine := { s.machine with stack := .string option.destination :: s.machine.stack, options := [] } } where
  program := h.program
  stands := by
    have hstands := h.stands
    rw [hs] at hstands
    cases hstands with
    | fresh hfresh => rcases hfresh with hfresh | hfresh <;> cases hfresh
    | going hgoing => rcases hgoing with hgoing | hgoing | hgoing <;> cases hgoing
    | @asks body hinside _ ho =>
      by_cases hjump : (Code.node body).instructions[s.machine.position]? = some .jump
      · exact .takes ⟨hinside.script, hinside.unfinished, hinside.lt⟩ hjump rfl (ho option hoption) rfl
      · exact .going (.inl rfl) ⟨hinside.script, hinside.unfinished, hinside.lt⟩ hjump
          fun _ hnone => absurd hnone List.not_mem_nil

end Session

namespace Course

/-- **A session and its past**: the session stands, and a host that is asked has been shown the options last. -/
structure Standing (c : Course) : Prop where
  session : c.session.Standing c.nodes
  asked : c.session.status = .awaitingChoice →
    c.events.getLast? = some (.options (Session.offered c.session.machine.options))

variable {c : Course}

/-- A turn that ends no dialogue, and after which the host is asked only if nothing has happened. -/
theorem standing_call {s : Session} (h : c.Standing) (hs : s.Standing c.nodes)
    (hasked : s.status = .awaitingChoice → s.machine = c.session.machine ∧ c.session.status = .awaitingChoice) :
    Standing { c with session := s } where
  session := hs
  asked := by
    intro hchoice
    obtain ⟨hmachine, hbefore⟩ := hasked hchoice
    show c.events.getLast? = some (.options (Session.offered s.machine.options))
    rw [hmachine]
    exact h.asked hbefore

theorem standing_resume (h : c.Standing) (limit : Nat) : (c.take ⟨limit, .call .resume⟩).Standing := by
  rw [take_resume]
  by_cases hs : c.session.status = .running
  · have hends := Session.ends_resume h.session hs limit
    refine ⟨hends.standing, ?_⟩
    intro hchoice
    show (c.events ++ (c.session.resume limit).2.event?.toList).getLast? = _
    rw [hends.asked hchoice]
    exact List.getLast?_concat ..
  · rw [Session.resume_of_not_running hs]
    refine ⟨h.session, ?_⟩
    show _ → (c.events ++ []).getLast? = _
    rw [List.append_nil]
    exact h.asked

/-- What is not allowed now changes nothing. -/
theorem standing_refused (h : c.Standing) (limit : Nat) {call : HostCall} {operation : Operation}
    (hcall : call.operation? = some operation) (hs : c.session.status ≠ operation.status) :
    Standing { c with session := (c.session.call limit call).1 } := by
  rw [Session.call_of_not_allowed hcall hs]
  exact h

theorem standing_acknowledge (h : c.Standing) (limit : Nat) {call : HostCall} {operation : Operation}
    (hcall : call.operation? = some operation)
    (hop : operation.status = .awaitingLine ∨ operation.status = .awaitingCommand)
    (hdoes : c.session.status = operation.status →
      c.session.call limit call = ({ c.session with status := .running }, .accepted)) :
    Standing { c with session := (c.session.call limit call).1 } := by
  by_cases hs : c.session.status = operation.status
  · rw [hdoes hs]
    exact standing_call h (Session.standing_acknowledged h.session (by rwa [hs])) nofun
  · exact standing_refused h limit hcall hs

theorem standing_choose (h : c.Standing) (limit index : Nat) :
    Standing { c with session := (c.session.call limit (.choose index)).1 } := by
  by_cases hs : c.session.status = .awaitingChoice
  · cases hoption : c.session.machine.options[index]? with
    | none =>
      rw [Session.call_choose_none hs hoption]
      exact h
    | some option =>
      rw [Session.call_choose hs hoption]
      exact standing_call h (Session.standing_chosen h.session hs (List.mem_of_getElem? hoption)) nofun
  · exact standing_refused h limit rfl hs

/-- **Every turn leads from standing to standing.** -/
theorem standing_take (h : c.Standing) (turn : Turn) : (c.take turn).Standing := by
  obtain ⟨limit, request⟩ := turn
  cases request with
  | start title nodes =>
    cases hstart : c.session.start title nodes with
    | error fault =>
      rw [take_start_error hstart]
      exact h
    | ok started =>
      have hbegins := Session.begins_of_start hstart
      rw [take_start_ok hstart]
      refine ⟨Session.standing_of_begins hbegins, ?_⟩
      intro hchoice
      cases hbegins.status.symm.trans hchoice
  | stop => exact standing_call h ⟨h.session.program, .fresh (.inl rfl) rfl⟩ nofun
  | relink change => exact standing_call h ⟨h.session.program, h.session.stands⟩ fun hchoice => ⟨rfl, hchoice⟩
  | call call =>
    cases call with
    | resume => exact standing_resume h limit
    | edit change => exact standing_call h ⟨h.session.program, h.session.stands⟩ fun hchoice => ⟨rfl, hchoice⟩
    | acknowledgeLine => exact standing_acknowledge h limit rfl (.inl rfl) Session.call_acknowledgeLine
    | acknowledgeCommand => exact standing_acknowledge h limit rfl (.inr rfl) Session.call_acknowledgeCommand
    | choose index => exact standing_choose h limit index

/-- **So does every course of a session.** -/
theorem standing_course (plurals : Plural.Rules) (config : Config) (turns : List Turn) :
    ((Session.new plurals config).course turns).Standing := by
  have hempty : Program.Holds ∅ [] := Program.holds_empty
  have hnew : Standing { session := Session.new plurals config } := ⟨⟨hempty, .fresh (.inl rfl) rfl⟩, nofun⟩
  exact Session.course_induction (P := Standing) hnew (fun _ turn h => standing_take h turn) turns

end Course

end Dialogue
