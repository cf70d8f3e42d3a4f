import Mathlib
import Dialogue.External.PluralRules
import Dialogue.Proofs.Walk.Calls

/-!
# Playing is walking

A session that starts with the nodes of a dialogue stands where a walk begins (`exists_start_eq`, `tracks_begin`), and
it is seen as that walk as long as no link is taken that a group offers (`moments_eq_of_tracks`). Where no body mixes
links and groups that never happens. So playing such a dialogue is walking through its scripts, for every host
(`Session.moments_eq_walk`).
-/

namespace Dialogue

namespace Walk

variable (story : Story)

/-! ## What has strayed stays so -/

theorem strayed_present (w : Walk) (grouped : Bool) : (w.present story grouped).1.strayed = none →
    w.strayed = none := by
  unfold present
  split
  · exact id
  · rw [strayed_leave, take]
    cases grouped
    · exact id
    · intro h
      exact absurd h (Option.some_ne_none _)
  · exact id

theorem strayed_go (w : Walk) (todo : List Statement) : (w.go story todo).1.strayed = none → w.strayed = none := by
  fun_induction go story w todo with
  | case1 w => exact strayed_present story _ false
  | case2 w line text tags rest shown w' heq =>
    have hframe := frame_say story w line text tags
    rw [heq] at hframe
    intro h
    rwa [← hframe.strayed]
  | case3 w line text rest command w' heq =>
    have hframe := frame_tell story w line text
    rw [heq] at hframe
    intro h
    rwa [← hframe.strayed]
  | case4 w line name e rest ih => exact ih
  | case5 w branches rest ih =>
    intro h
    rw [← (frame_branch story w branches).strayed]
    exact ih h
  | case6 w line label destination rest ih =>
    intro h
    rw [← (frame_offer story w line _ _ _).strayed]
    exact ih h
  | case7 w choices rest =>
    rw [← (frame_offerAll story w choices).strayed]
    exact strayed_present story ((w.offerAll story choices).wait w.status rest) true
  | case8 w _ destination _ =>
    rw [strayed_leave]
    exact id
  | case9 w _ => exact id

/-- **What has strayed stays so.** -/
theorem strayed_call (w : Walk) : ∀ c : HostCall, (w.call story c).1.strayed = none → w.strayed = none
  | .resume => by
    rw [call, resume]
    split
    · split
      · exact id
      · exact strayed_go story w w.todo
    · exact id
  | .acknowledgeLine | .acknowledgeCommand => by
    rw [call, acknowledge]
    split <;> exact id
  | .choose index => by
    rw [call, choose]
    split
    · split
      · exact id
      · exact id
      · rw [takeLink, take]
        cases w.grouped
        · exact id
        · intro h
          exact absurd h (Option.some_ne_none _)
    · exact id
  | .edit change => id

end Walk

section Runs

variable {base s : Session} {story : Story} {allows : Expr → Bool} {mixed : Prop} {w : Walk} {limit : Nat}

/-- **A session that tracks a walk is seen as that walk** until a link is taken that a group offers, which only happens
in a mixed story. -/
theorem moments_eq_of_tracks (hp : Plays base story allows mixed) (hlimit : base.program.longest ≤ limit)
    (ht : Tracks base allows mixed s w) {calls : List HostCall}
    (hw : mixed → (after (Walk.call story) w calls).strayed = none) :
    moments (Session.call limit) Session.see s calls = moments (Walk.call story) (Walk.see story) w calls ∧
      Tracks base allows mixed (after (Session.call limit) s calls) (after (Walk.call story) w calls) := by
  refine moments_eq_of_rel (G := fun w => mixed → w.strayed = none) ?_ ?_ ?_ calls s w ht hw
  · intro s w htracks
    exact htracks.see_eq hp.config
  · intro w c hc hm
    exact Walk.strayed_call story w c (hc hm)
  · intro s w c htracks hc
    cases follows_of_tracks hp hlimit htracks c with
    | agrees ha _ ht => exact ⟨ha, ht⟩
    | strays hstray hm =>
      have hnone := hc hm
      rw [hstray] at hnone
      cases hnone

end Runs

/-! ## The beginning -/

/-- The story of nodes. -/
def Story.ofNodes (plurals : Plural.Rules) (config : Config) (nodes : List Node) (evaluate : Evaluator) : Story where
  plurals := plurals
  config := config
  body? := Node.scriptOf? nodes
  evaluate := evaluate

/-- **A walk from the beginning of a node**, with the variables of a session and all that it has reported. -/
def Walk.begin (session : Session) (title : String) (nodes : List Node) : Walk where
  node := title
  todo := (Node.scriptOf? nodes title).getD []
  vars := if session.config.resetVariables then ∅ else session.vars
  reported := session.reported ++ Node.faultsAfter session.config.file [] nodes

section Beginning

variable (session : Session) {nodes : List Node} {title : String}

/-- **A session starts where a walk begins**, in a program that has the nodes. -/
theorem exists_start_eq (nodes : List Node) (title : String) (h : ∀ node ∈ nodes, node.script?.isSome = true)
    (ht : nodes.any (·.title = title) = true) :
    ∃ program : Program, program.Holds nodes ∧ session.start title nodes =
      .ok ((Walk.begin session title nodes).load { session with program } 0 [] []) := by
  obtain ⟨program, hp, hc⟩ := Program.exists_compile_eq h session.config.file
  refine ⟨program, hp, ?_⟩
  rw [Session.start, if_pos ht, hc]
  rfl

/-- A session starts only with nodes whose bodies can be read, and at one of them. -/
theorem of_start_eq_ok {session started : Session} (h : session.start title nodes = .ok started) :
    (∀ node ∈ nodes, node.script?.isSome = true) ∧ nodes.any (·.title = title) = true := by
  rw [Session.start] at h
  split at h
  · rename_i ht
    cases hc : Program.compile nodes session.config.file with
    | error fault =>
      rw [hc] at h
      cases h
    | ok result => exact ⟨Program.isSome_of_foldlM_addNode hc, ht⟩
  · cases h

/-- At the beginning a session tracks the walk. -/
theorem tracks_begin {program : Program} {evaluate : Evaluator} {allows : Expr → Bool} {mixed : Prop}
    (h : ∀ node ∈ nodes, node.script?.isSome = true) (ht : nodes.any (·.title = title) = true)
    (hp : Plays { session with program } (Story.ofNodes session.plurals session.config nodes evaluate) allows mixed) :
    Tracks { session with program } allows mixed
      ((Walk.begin session title nodes).load { session with program } 0 [] []) (Walk.begin session title nodes) := by
  obtain ⟨body, hbody⟩ := Option.isSome_iff_exists.1 ((Node.isSome_scriptOf? h title).trans ht)
  obtain ⟨d, hd, hlinks, hallows, hmixed⟩ := hp.dialect title body hbody
  have hcode : (program[title]?).map CompiledNode.code = some (Code.node body) := by
    rw [hp.code title]
    show (Node.scriptOf? nodes title).map Code.node = _
    rw [hbody]
    rfl
  have hleads : Code.Leads d (Code.node body) 0 (Walk.begin session title nodes).todo := by
    rw [Walk.begin, hbody]
    exact Code.leads_node hd hlinks
  exact .going (.inl rfl) rfl ⟨hcode, hallows, hmixed⟩ hleads .nil

end Beginning

/-! ## Nodes that do not mix links and groups -/

/-- **The body of the node can be read**, has not both links and groups of options, and no call in it has more than
`2 ^ 24` arguments. -/
def Node.isPlain (node : Node) : Bool :=
  node.script?.any fun body =>
    Dialect.hasBody ⟨true, false, Expr.isSmall⟩ body || Dialect.hasBody ⟨false, true, Expr.isSmall⟩ body

theorem Evaluator.direct_eq_onStack (library : Library) (view : View) (place : Location) {es : List Expr}
    (left : List Value) (h : es.all Expr.isSmall = true) :
    Evaluator.direct library view place es left = Evaluator.onStack library view place es left := by
  have hlength : (Expr.evalAll library view place es).1.length = es.length := Expr.length_evalAll es
  rw [direct, onStack, Expr.operateAll_of_areSmall es left (Expr.areSmall_of_forall (List.all_eq_true.1 h)), ← hlength,
    operands_reverse_append]

theorem plays_direct (session : Session) {nodes : List Node} {program : Program} (hp : program.Holds nodes)
    (h : ∀ node ∈ nodes, node.isPlain = true) : Plays { session with program }
      (Story.ofNodes session.plurals session.config nodes (.direct session.library)) Expr.isSmall False where
  plurals := rfl
  config := rfl
  code := hp
  dialect title body hbody := by
    obtain ⟨node, hmem, hnode⟩ := Node.exists_mem_of_scriptOf? hbody
    have hplain := h node hmem
    rw [Node.isPlain, hnode] at hplain
    rcases Bool.or_eq_true _ _ ▸ hplain with hd | hd
    · exact ⟨_, Dialect.hasBody_haveLink hd, rfl, rfl, fun _ hg => absurd hg Bool.false_ne_true⟩
    · exact ⟨_, Dialect.hasBody_haveLink hd, rfl, rfl,
        fun hl _ => absurd (Dialect.links_of_haveLink hd hl) Bool.false_ne_true⟩
  evaluate view place es left hes := Evaluator.direct_eq_onStack _ view place left hes

/-- **Playing is walking.** Whatever a host does with a session that has started with plain nodes, it sees what it would
see of a walk through their scripts: the answers, where the session stands, and all that has been reported. -/
theorem Session.moments_eq_walk (session : Session) {nodes : List Node} {title : String}
    (h : ∀ node ∈ nodes, node.isPlain = true) (ht : nodes.any (·.title = title) = true) :
    ∃ started, session.start title nodes = .ok started ∧ ∀ limit, started.program.longest ≤ limit →
      ∀ calls : List HostCall, moments (Session.call limit) Session.see started calls =
        moments (Walk.call (Story.ofNodes session.plurals session.config nodes (.direct session.library)))
          (Walk.see (Story.ofNodes session.plurals session.config nodes (.direct session.library)))
          (Walk.begin session title nodes) calls := by
  have hread : ∀ node ∈ nodes, node.script?.isSome = true := fun node hn => by
    obtain ⟨body, hbody, -⟩ := (Option.any_eq_true _ _).1 (h node hn)
    rw [hbody, Option.isSome_some]
  obtain ⟨program, hp, hstart⟩ := exists_start_eq session nodes title hread ht
  have hplays := plays_direct session hp h
  refine ⟨_, hstart, ?_⟩
  intro limit hlimit calls
  exact (moments_eq_of_tracks hplays hlimit (tracks_begin session hread ht hplays) False.elim).1

theorem Session.moments_eq_walk_option_and_link : ∃ started, (Session.new External.pluralRules {}).start "Start"
    [{ title := "Start", body := "-> a {1 + 1}\n    x\ny" }, { title := "End", body := "[[Start]]" }] = .ok started ∧
      ∀ limit, started.program.longest ≤ limit → ∀ calls : List HostCall,
        moments (Session.call limit) Session.see started calls =
          moments (Walk.call (Story.ofNodes External.pluralRules {}
              [{ title := "Start", body := "-> a {1 + 1}\n    x\ny" }, { title := "End", body := "[[Start]]" }]
              (.direct Library.standard)))
            (Walk.see (Story.ofNodes External.pluralRules {}
              [{ title := "Start", body := "-> a {1 + 1}\n    x\ny" }, { title := "End", body := "[[Start]]" }]
              (.direct Library.standard)))
            (Walk.begin (Session.new External.pluralRules {}) "Start"
              [{ title := "Start", body := "-> a {1 + 1}\n    x\ny" }, { title := "End", body := "[[Start]]" }]) calls :=
  (Session.new External.pluralRules {}).moments_eq_walk (by decide +kernel) (by decide +kernel)

end Dialogue
