import Mathlib
import Dialogue.External.PluralRules
import Dialogue.Proofs.Session.Phases

/-!
# The shape of a run

From one successful start to the end of the dialogue a host sees nodes follow one another (`Session.shape_exchanges`).
The phases that the dialogue goes through carry the proof (`Passes`): a node is completed only while it plays, the
dialogue only after its last node, and nothing comes after its end.
-/

namespace Dialogue

/-- **The node that runs** after these exchanges, if one does: the last completed node has named it. -/
def nodeAfter (node : Option String) (exchanges : List Exchange) : Option String :=
  exchanges.foldl (fun node x => match x.answer with
    | .shown (.nodeComplete _ next) => next
    | _ => node) node

/-- The host has been told that there is nothing left to run, or that the next node does not exist. -/
def Exchange.isEnd (x : Exchange) : Prop :=
  (∃ node, x.answer = .shown (.dialogueComplete node)) ∨
    x.request = .call .resume ∧ ∃ node, x.answer = .refused (.nodeNotFound node)

/-- **What a run from a node on looks like.** -/
structure Shape (config : Config) (start : String) (exchanges : List Exchange) : Prop where
  /-- The first node to be completed is the first one to run, and each later one was named by the one before. -/
  completes : ∀ (before : List Exchange) (x : Exchange) (later : List Exchange), exchanges = before ++ x :: later →
    ∀ (node : String) (next : Option String), x.answer = .shown (.nodeComplete node next) →
      nodeAfter (some start) before = some node
  /-- Lines stand in the node that runs. -/
  line : ∀ (before : List Exchange) (x : Exchange) (later : List Exchange), exchanges = before ++ x :: later →
    ∀ line : ShownLine, x.answer = .shown (.line line) →
      line.location.file = config.file ∧ nodeAfter (some start) before = some line.location.node
  /-- So do all options that are offered. -/
  options : ∀ (before : List Exchange) (x : Exchange) (later : List Exchange), exchanges = before ++ x :: later →
    ∀ options : List (Nat × ShownLine), x.answer = .shown (.options options) → ∀ option ∈ options,
      option.2.location.file = config.file ∧ nodeAfter (some start) before = some option.2.location.node
  /-- That node is the current one. -/
  current : ∀ (before : List Exchange) (x : Exchange) (later : List Exchange), exchanges = before ++ x :: later →
    ∀ node : String, nodeAfter (some start) (before ++ [x]) = some node → (∀ y ∈ before ++ [x], ¬ y.isEnd) →
      x.after.currentNode = some node
  /-- When a node is completed with none after it, the next run completes the dialogue. -/
  last : ∀ (before : List Exchange) (x : Exchange) (between : List Exchange) (y : Exchange) (later : List Exchange),
    exchanges = before ++ x :: (between ++ y :: later) → ∀ node : String,
      x.answer = .shown (.nodeComplete node none) → (∀ z ∈ between, z.request ≠ .call .resume) →
      y.request = .call .resume → y.answer = .shown (.dialogueComplete node)
  /-- The dialogue is completed after such a node only. -/
  afterLast : ∀ (before : List Exchange) (x : Exchange) (later : List Exchange), exchanges = before ++ x :: later →
    ∀ node : String, x.answer = .shown (.dialogueComplete node) → ∃ (before' : List Exchange) (y : Exchange)
      (between : List Exchange), before = before' ++ y :: between ∧ y.answer = .shown (.nodeComplete node none) ∧
        ∀ z ∈ between, z.answer.isShown = false
  /-- After the end nothing is shown, so the dialogue is completed once. -/
  once : ∀ (before : List Exchange) (x : Exchange) (later : List Exchange), exchanges = before ++ x :: later →
    x.isEnd → ∀ y ∈ later, y.answer.isShown = false
  /-- After the end no node runs. -/
  ended : ∀ (before : List Exchange) (x : Exchange) (later : List Exchange), exchanges = before ++ x :: later →
    x.isEnd → ∀ y ∈ x :: later, y.after.status = .complete ∧ y.after.currentNode = none
  /-- After the end no call is allowed, and none changes anything. -/
  refused : ∀ (before : List Exchange) (x : Exchange) (later : List Exchange), exchanges = before ++ x :: later →
    x.isEnd → ∀ y ∈ later, ∀ (call : HostCall) (operation : Operation), y.request = .call call →
      call.operation? = some operation →
      y.answer = .refused (.invalidState operation .complete) ∧ y.after = y.before

/-! ## The phases of a run -/

/-- **The phases that exchanges go through.** -/
inductive Passes (file : Option String) : Phase → List Exchange → Phase → Prop
  | nil (phase : Phase) : Passes file phase [] phase
  | cons {x : Exchange} {rest : List Exchange} {phase phase' phase'' : Phase}
      (hmoves : Moves file phase x.request x.answer phase') (hbefore : phase.Holds file x.before)
      (hafter : phase'.Holds file x.after) (hrest : Passes file phase' rest phase'') :
      Passes file phase (x :: rest) phase''

section Passing

variable {file : Option String} {phase phase' : Phase}

theorem exists_passes (limit : Nat) {s : Session} {requests : List Request} (h : phase.Holds file s)
    (hrequests : s.goesOn limit requests = true) : ∃ phase', Passes file phase (s.exchanges limit requests) phase' := by
  induction requests generalizing s phase with
  | nil => exact ⟨phase, .nil phase⟩
  | cons request rest ih =>
    rw [Session.goesOn, Bool.and_eq_true, Bool.not_eq_true'] at hrequests
    obtain ⟨middle, hmoves, hmiddle⟩ := exists_moves limit h hrequests.1
    obtain ⟨phase', hrest⟩ := ih hmiddle hrequests.2
    exact ⟨phase', .cons hmoves h hmiddle hrest⟩

theorem exists_of_passes_append {before later : List Exchange} (h : Passes file phase (before ++ later) phase') :
    ∃ middle, Passes file phase before middle ∧ Passes file middle later phase' := by
  induction before generalizing phase with
  | nil => exact ⟨phase, .nil phase, h⟩
  | cons x before ih =>
    cases h with
    | cons hmoves hbefore hafter hrest =>
      obtain ⟨middle, hfirst, hlater⟩ := ih hrest
      exact ⟨middle, .cons hmoves hbefore hafter hfirst, hlater⟩

/-- The node that runs at a phase. -/
def Phase.node? : Phase → Option String
  | .playing node => some node
  | .done _ | .ended => none

/-- What has ended stays so, and shows nothing. -/
theorem ended_of_passes {xs : List Exchange} (h : Passes file .ended xs phase) : phase = .ended ∧
    ∀ x ∈ xs, x.answer.isShown = false ∧ x.before.status = .complete ∧ x.after.status = .complete := by
  induction xs with
  | nil =>
    cases h
    exact ⟨rfl, fun _ hx => absurd hx List.not_mem_nil⟩
  | cons x xs ih =>
    cases h with
    | cons hmoves hbefore hafter hrest =>
      cases hmoves with
      | stays hshown _ =>
        obtain ⟨hphase, hxs⟩ := ih hrest
        cases hbefore with | ended hbefore
        cases hafter with | ended hafter
        exact ⟨hphase, List.forall_mem_cons.2 ⟨⟨hshown, hbefore, hafter⟩, hxs⟩⟩

theorem node?_of_moves {x : Exchange} (h : Moves file phase x.request x.answer phase') (hended : phase' ≠ .ended) :
    nodeAfter phase.node? [x] = phase'.node? := by
  obtain ⟨before, request, answer, after⟩ := x
  cases h with
  | @shows node sight hsight =>
    cases sight <;> first | rfl | exact hsight.elim
  | next | last => rfl
  | missing | ends => exact absurd rfl hended
  | stays hshown _ =>
    cases answer <;> first | rfl | cases hshown

/-- **Until the dialogue has ended the node that runs is the one that was named last.** -/
theorem nodeAfter_of_passes {xs : List Exchange} (h : Passes file phase xs phase') (hended : phase' ≠ .ended) :
    nodeAfter phase.node? xs = phase'.node? := by
  induction h with
  | nil => rfl
  | @cons x rest phase middle phase' hmoves hbefore hafter hrest ih =>
    have hmiddle : middle ≠ .ended := by
      rintro rfl
      exact hended (ended_of_passes hrest).1
    rw [← ih hended, ← node?_of_moves hmoves hmiddle]
    rfl

theorem phase_of_passes_done {xs : List Exchange} {node : String} (h : Passes file (.done node) xs phase)
    (hxs : ∀ x ∈ xs, x.request ≠ .call .resume) : phase = .done node := by
  induction xs with
  | nil =>
    cases h
    rfl
  | cons x xs ih =>
    obtain ⟨hx, hrest⟩ := List.forall_mem_cons.1 hxs
    cases h with
    | cons hmoves _ _ hpasses =>
      obtain ⟨before, request, answer, after⟩ := x
      cases hmoves with
      | ends => exact absurd rfl hx
      | stays => exact ih hpasses hrest

/-- A last node has been completed, and nothing was shown since. -/
theorem exists_of_passes_done {xs : List Exchange} {node : String} (h : Passes file phase xs (.done node)) :
    (phase = .done node ∧ ∀ x ∈ xs, x.answer.isShown = false) ∨ ∃ before x later, xs = before ++ x :: later ∧
      x.answer = .shown (.nodeComplete node none) ∧ ∀ y ∈ later, y.answer.isShown = false := by
  induction xs generalizing phase with
  | nil =>
    cases h
    exact .inl ⟨rfl, fun _ hx => absurd hx List.not_mem_nil⟩
  | cons x xs ih =>
    cases h with
    | @cons _ _ _ middle _ hmoves _ _ hrest =>
      rcases ih hrest with ⟨rfl, hquiet⟩ | ⟨before, y, later, rfl, hy, hquiet⟩
      · obtain ⟨before, request, answer, after⟩ := x
        cases hmoves with
        | last => exact .inr ⟨[], _, xs, rfl, rfl, hquiet⟩
        | stays hshown _ => exact .inl ⟨rfl, List.forall_mem_cons.2 ⟨hshown, hquiet⟩⟩
      · exact .inr ⟨x :: before, y, later, rfl, hy, hquiet⟩

/-- What has ended was told so. -/
theorem exists_of_passes_ended {xs : List Exchange} (h : Passes file phase xs .ended) :
    phase = .ended ∨ ∃ x ∈ xs, x.isEnd := by
  induction xs generalizing phase with
  | nil =>
    cases h
    exact .inl rfl
  | cons x xs ih =>
    cases h with
    | cons hmoves _ _ hrest =>
      rcases ih hrest with rfl | ⟨y, hy, hend⟩
      · obtain ⟨before, request, answer, after⟩ := x
        cases hmoves with
        | missing node other => exact .inr ⟨_, List.mem_cons_self, .inr ⟨rfl, other, rfl⟩⟩
        | ends node => exact .inr ⟨_, List.mem_cons_self, .inl ⟨node, rfl⟩⟩
        | stays => exact .inl rfl
      · exact .inr ⟨y, List.mem_cons_of_mem _ hy, hend⟩

/-- The phase after the last exchange. -/
theorem holds_of_passes {xs : List Exchange} {x : Exchange} (h : Passes file phase xs phase')
    (hx : xs.getLast? = some x) : phase'.Holds file x.after := by
  induction h with
  | nil => cases hx
  | @cons y rest _ _ _ _ _ hafter hrest ih =>
    cases rest with
    | nil =>
      cases hx
      cases hrest
      exact hafter
    | cons z rest => exact ih (by rwa [List.getLast?_cons_cons] at hx)

/-- Where an exchange stands among the phases. -/
theorem exists_of_passes_cons {before later : List Exchange} {x : Exchange} {first last : Phase}
    (h : Passes file first (before ++ x :: later) last) : ∃ phase phase', Passes file first before phase ∧
      Moves file phase x.request x.answer phase' ∧ phase'.Holds file x.after ∧ Passes file phase' later last := by
  obtain ⟨phase, hbefore, hlater⟩ := exists_of_passes_append h
  cases hlater with
  | @cons _ _ _ phase' _ hmoves _ hafter hrest => exact ⟨phase, phase', hbefore, hmoves, hafter, hrest⟩

/-- What shows something, and of which node. -/
theorem of_moves_shown {request : Request} {sight : Sight} (h : Moves file phase request (.shown sight) phase') :
    (∃ node, phase = .playing node ∧ (sight.StandsIn file node ∨ ∃ next, sight = .nodeComplete node next)) ∨
      ∃ node, phase = .done node ∧ sight = .dialogueComplete node := by
  cases h with
  | @shows node _ hsight => exact .inl ⟨node, rfl, .inl hsight⟩
  | next node other => exact .inl ⟨node, rfl, .inr ⟨some other, rfl⟩⟩
  | last node => exact .inl ⟨node, rfl, .inr ⟨none, rfl⟩⟩
  | ends node => exact .inr ⟨node, rfl, rfl⟩
  | stays hshown _ => cases hshown

theorem eq_done_of_moves {request : Request} {node : String}
    (h : Moves file phase request (.shown (.nodeComplete node none)) phase') : phase' = .done node := by
  cases h with
  | shows hsight => exact hsight.elim
  | last => rfl
  | stays hshown _ => cases hshown

theorem answer_of_moves_done {answer : Answer} {node : String}
    (h : Moves file (.done node) (.call .resume) answer phase') : answer = .shown (.dialogueComplete node) := by
  cases h with
  | ends => rfl
  | stays _ hresume => exact absurd rfl ((hresume rfl).1 node)

/-- What a node shows while it plays stands in the node that was named last. -/
theorem standsIn_of_passes {start : String} {last : Phase} {before later : List Exchange} {x : Exchange} {sight : Sight}
    (h : Passes file (.playing start) (before ++ x :: later) last) (hanswer : x.answer = .shown sight)
    (hcomplete : ∀ node next, sight ≠ .nodeComplete node next) (hend : ∀ node, sight ≠ .dialogueComplete node) :
    ∃ node, nodeAfter (some start) before = some node ∧ sight.StandsIn file node := by
  obtain ⟨phase, phase', hbefore, hmoves, -, -⟩ := exists_of_passes_cons h
  rw [hanswer] at hmoves
  rcases of_moves_shown hmoves with ⟨node, rfl, hsight | ⟨next, hsight⟩⟩ | ⟨node, -, hsight⟩
  · exact ⟨node, nodeAfter_of_passes hbefore nofun, hsight⟩
  · exact absurd hsight (hcomplete node next)
  · exact absurd hsight (hend node)

theorem eq_ended_of_isEnd {x : Exchange} (h : Moves file phase x.request x.answer phase') (hx : x.isEnd) :
    phase' = .ended := by
  obtain ⟨before, request, answer, after⟩ := x
  rcases hx with ⟨node, hanswer⟩ | ⟨hrequest, node, hanswer⟩
  · cases hanswer
    cases h with
    | shows hsight => exact hsight.elim
    | ends => rfl
    | stays hshown _ => cases hshown
  · cases hanswer
    cases h with
    | missing => rfl
    | stays _ hresume => exact absurd rfl ((hresume hrequest).2 node)

end Passing

/-- **Phases make the shape of a run.** -/
theorem shape_of_passes {config : Config} {start : String} {last : Phase} {xs : List Exchange}
    (h : Passes config.file (.playing start) xs last)
    (hrequests : ∀ x ∈ xs, ∃ limit, x.before.request limit x.request = (x.after, x.answer)) :
    Shape config start xs where
  completes before x later hxs node next hanswer := by
    subst hxs
    obtain ⟨phase, phase', hbefore, hmoves, -, -⟩ := exists_of_passes_cons h
    rw [hanswer] at hmoves
    rcases of_moves_shown hmoves with ⟨node', rfl, hsight | ⟨next', hsight⟩⟩ | ⟨node', -, hsight⟩
    · exact hsight.elim
    · cases hsight
      exact nodeAfter_of_passes hbefore nofun
    · cases hsight
  line before x later hxs shown hanswer := by
    subst hxs
    obtain ⟨node, hnode, hfile, hstands⟩ := standsIn_of_passes h hanswer nofun nofun
    exact ⟨hfile, by rw [hnode, hstands]⟩
  options before x later hxs offered hanswer option hoption := by
    subst hxs
    obtain ⟨node, hnode, hstands⟩ := standsIn_of_passes h hanswer nofun nofun
    obtain ⟨hfile, hoption⟩ := hstands option hoption
    exact ⟨hfile, by rw [hnode, hoption]⟩
  current before x later hxs node hnode hopen := by
    subst hxs
    rw [List.append_cons] at h
    obtain ⟨phase, hbefore, -⟩ := exists_of_passes_append h
    have hx : phase.Holds config.file x.after := holds_of_passes hbefore (List.getLast?_concat ..)
    cases hx with
    | playing hplaying hwaits =>
      cases hnode.symm.trans (nodeAfter_of_passes hbefore nofun)
      exact hplaying.currentNode_eq hwaits
    | done _ => cases hnode.symm.trans (nodeAfter_of_passes hbefore nofun)
    | ended _ =>
      rcases exists_of_passes_ended hbefore with hphase | ⟨y, hy, hend⟩
      · cases hphase
      · exact absurd hend (hopen y hy)
  last before x between y later hxs node hanswer hbetween hresume := by
    subst hxs
    obtain ⟨phase, phase', -, hmoves, -, hlater⟩ := exists_of_passes_cons h
    obtain ⟨done, done', hpasses, hy, -, -⟩ := exists_of_passes_cons hlater
    rw [hanswer] at hmoves
    obtain rfl := eq_done_of_moves hmoves
    obtain rfl := phase_of_passes_done hpasses hbetween
    rw [hresume] at hy
    exact answer_of_moves_done hy
  afterLast before x later hxs node hanswer := by
    subst hxs
    obtain ⟨phase, phase', hbefore, hmoves, -, -⟩ := exists_of_passes_cons h
    rw [hanswer] at hmoves
    rcases of_moves_shown hmoves with ⟨node', rfl, hsight | ⟨next', hsight⟩⟩ | ⟨node', rfl, hsight⟩
    · exact hsight.elim
    · cases hsight
    · cases hsight
      rcases exists_of_passes_done hbefore with ⟨hphase, -⟩ | hfound
      · cases hphase
      · exact hfound
  once before x later hxs hend y hy := by
    subst hxs
    obtain ⟨phase, phase', -, hmoves, -, hlater⟩ := exists_of_passes_cons h
    obtain rfl := eq_ended_of_isEnd hmoves hend
    exact ((ended_of_passes hlater).2 y hy).1
  ended before x later hxs hend y hy := by
    subst hxs
    obtain ⟨phase, phase', -, hmoves, hafter, hlater⟩ := exists_of_passes_cons h
    obtain rfl := eq_ended_of_isEnd hmoves hend
    have hcomplete : y.after.status = .complete := by
      rcases List.mem_cons.1 hy with rfl | hy
      · cases hafter with | ended hafter
        exact hafter
      · exact ((ended_of_passes hlater).2 y hy).2.2
    exact ⟨hcomplete, y.after.view_node.2 (.inr hcomplete)⟩
  refused before x later hxs hend y hy call operation hcall hoperation := by
    subst hxs
    obtain ⟨phase, phase', -, hmoves, -, hlater⟩ := exists_of_passes_cons h
    obtain rfl := eq_ended_of_isEnd hmoves hend
    have hcomplete := ((ended_of_passes hlater).2 y hy).2.1
    obtain ⟨limit, hrequest⟩ := hrequests y (by simp [hy])
    have hne : y.before.status ≠ operation.status := by
      rw [hcomplete]
      cases operation <;> decide
    rw [hcall, Session.request, Session.call_of_not_allowed hoperation hne, hcomplete] at hrequest
    obtain ⟨hafter, hanswer⟩ := Prod.mk.inj hrequest
    exact ⟨hanswer.symm, hafter.symm⟩

/-- **Every run has this shape**, from a start that succeeds on until another one does or the dialogue is given up,
whatever is asked of the session in between. -/
theorem Session.shape_exchanges {session started : Session} {title : String} {nodes : List Node}
    (h : session.start title nodes = .ok started) (limit : Nat) {requests : List Request}
    (hrequests : started.goesOn limit requests = true) :
    started.currentNode = some title ∧ Shape session.config title (started.exchanges limit requests) := by
  have hplaying := playing_of_start h
  obtain ⟨last, hpasses⟩ := exists_passes limit (.running hplaying) hrequests
  exact ⟨hplaying.currentNode_eq (by decide), shape_of_passes hpasses fun x hx => ⟨limit, request_of_mem_exchanges hx⟩⟩

/-- A node with a group of options, a jump out of one of them, and a node with a single line. -/
def shapeNodes : List Node :=
  [{ title := "A", body := "a\n-> b\n    <<jump B>>\n-> c" }, { title := "B", body := "d" }]

/-- All that a host may ask for, and a start that fails. -/
def shapeRequests : List Request :=
  [.call .resume, .call .acknowledgeLine, .start "C" shapeNodes, .call .resume, .call (.choose 2), .call (.choose 0),
    .call .resume, .call .resume, .call .acknowledgeLine, .call .resume, .relink id, .call .resume, .call .resume]

/-- What it is answered. -/
def shapeAnswers : List Answer :=
  [.shown (.line ⟨"a", [], ⟨none, "A", 1⟩⟩), .accepted, .refused (.nodeNotFound "C"),
    .shown (.options [(0, ⟨"b", [], ⟨none, "A", 2⟩⟩), (1, ⟨"c", [], ⟨none, "A", 4⟩⟩)]),
    .refused (.invalidOption 2 2), .accepted, .shown (.nodeComplete "A" (some "B")),
    .shown (.line ⟨"d", [], ⟨none, "B", 1⟩⟩), .accepted, .shown (.nodeComplete "B" none), .accepted,
    .shown (.dialogueComplete "B"), .refused (.invalidState .resume .complete)]

theorem Session.shape_exchanges_jump : ∃ started,
    (Session.new External.pluralRules {}).start "A" shapeNodes = .ok started ∧
    (started.exchanges 20 shapeRequests).map Exchange.answer = shapeAnswers ∧
    Shape {} "A" (started.exchanges 20 shapeRequests) := by
  have hruns : ((Session.new External.pluralRules {}).start "A" shapeNodes).toOption.any (fun started =>
      started.goesOn 20 shapeRequests &&
        (started.exchanges 20 shapeRequests).map Exchange.answer == shapeAnswers) = true := by
    decide +kernel
  generalize hstart : (Session.new External.pluralRules {}).start "A" shapeNodes = result at hruns
  cases result with
  | error _ => cases hruns
  | ok started =>
    rw [Except.toOption, Option.any_some, Bool.and_eq_true] at hruns
    obtain ⟨hgoes, hanswers⟩ := hruns
    exact ⟨started, rfl, eq_of_beq hanswers, (shape_exchanges hstart 20 hgoes).2⟩

end Dialogue
