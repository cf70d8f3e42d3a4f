import Mathlib
import Dialogue.Proofs.Walk.Agreement

/-!
# Where options lead

A link that is offered at the end of its node completes the node and goes on with its destination, and an option with a
body goes on with that body. But a group also offers the links that were passed before it, and takes the destination of
any of them for a label of the node: that the node has no such label is all that comes of it (`OptionsLead`). Until then
no run fails in a script, whatever the bodies mix (`Session.options_lead`).
-/

namespace Dialogue

namespace Walk

variable (story : Story)

/-! ## Walks never fail in a script -/

theorem answer_leave_ne_script (w : Walk) (destination : String) (error : ScriptError) :
    (w.leave story destination).2 ≠ .refused (.script error) := by
  unfold leave
  split <;> simp

theorem answer_present_ne_script (w : Walk) (grouped : Bool) (error : ScriptError) :
    (w.present story grouped).2 ≠ .refused (.script error) := by
  unfold present
  split
  · simp [finish]
  · exact answer_leave_ne_script story _ _ error
  · simp

theorem answer_go_ne_script (w : Walk) (todo : List Statement) (error : ScriptError) :
    (w.go story todo).2 ≠ .refused (.script error) := by
  fun_induction go story w todo with
  | case1 => exact answer_present_ne_script story _ _ error
  | case2 => simp
  | case3 => simp
  | case4 _ _ _ _ _ ih => exact ih
  | case5 _ _ _ ih => exact ih
  | case6 _ _ _ _ _ ih => exact ih
  | case7 => exact answer_present_ne_script story _ _ error
  | case8 => exact answer_leave_ne_script story _ _ error
  | case9 => simp [finish]

/-- **A walk never fails in a script.** -/
theorem answer_call_ne_script (w : Walk) (error : ScriptError) : ∀ c : HostCall,
    (w.call story c).2 ≠ .refused (.script error)
  | .resume => by
    rw [call, resume]
    split
    · split
      · simp
      · exact answer_go_ne_script story w w.todo error
    · simp
  | .acknowledgeLine | .acknowledgeCommand => by
    rw [call, acknowledge]
    split <;> simp
  | .choose index => by
    rw [call, choose]
    split
    · split <;> simp
    · simp
  | .edit change => by simp [call]

/-- No answer of a walk is a failure in a script. -/
theorem script_notMem_answers (error : ScriptError) : ∀ (calls : List HostCall) (w : Walk),
    .refused (.script error) ∉ (moments (call story) (see story) w calls).map Moment.answer
  | [], _ => List.not_mem_nil
  | c :: rest, w => by
    rw [moments, List.map_cons]
    exact List.not_mem_cons_of_ne_of_not_mem (answer_call_ne_script story w error c).symm
      (script_notMem_answers error rest _)

end Walk

namespace Offer

/-- The destination of a link. -/
def destination? (offer : Offer) : Option String :=
  match offer.target with
  | .link destination _ => some destination
  | .body _ => none

/-- The body of an option that is no link. -/
def body? (offer : Offer) : Option (List Statement) :=
  match offer.target with
  | .link _ _ => none
  | .body statements => some statements

theorem exists_of_destination? {offers : List Offer} {index : Nat} {destination : String}
    (h : (offers[index]?).bind destination? = some destination) :
    ∃ line alone, offers[index]? = some ⟨line, .link destination alone⟩ := by
  obtain ⟨⟨line, target⟩, hoffer, htarget⟩ := Option.bind_eq_some_iff.1 h
  cases target with
  | body statements => cases htarget
  | link destination alone =>
    cases htarget
    exact ⟨line, alone, hoffer⟩

theorem exists_of_body? {offers : List Offer} {index : Nat} {statements : List Statement}
    (h : (offers[index]?).bind body? = some statements) :
    ∃ line, offers[index]? = some ⟨line, .body statements⟩ := by
  obtain ⟨⟨line, target⟩, hoffer, htarget⟩ := Option.bind_eq_some_iff.1 h
  cases target with
  | body statements =>
    cases htarget
    exact ⟨line, hoffer⟩
  | link destination alone => cases htarget

end Offer

/-- Where a label stands in the code of a node, if the node has it. -/
def Story.position? (story : Story) (node label : String) : Option Nat :=
  (story.body? node).bind fun body => (Code.node body).labels.lookup label

/-- **Where the options lead** that a session offers when it stands where a walk stands. -/
structure OptionsLead (story : Story) (limit : Nat) (s : Session) (w : Walk) : Prop where
  /-- A link that is offered at the end of the node completes it, and goes on with its destination. -/
  link : ∀ (index : Nat) (destination : String), w.status = .awaitingChoice →
    (w.offers[index]?).bind Offer.destination? = some destination → w.grouped = false →
      s.answers limit [.choose index, .resume] = [.accepted, if (story.body? destination).isSome then
        .shown (.nodeComplete w.node (some destination)) else .refused (.nodeNotFound destination)]
  /-- An option with a body goes on with it. -/
  body : ∀ (index : Nat) (statements : List Statement), w.status = .awaitingChoice →
    (w.offers[index]?).bind Offer.body? = some statements →
      ((w.takeBody statements).go story (statements ++ w.todo)).1.strayed = none →
        s.answers limit [.choose index, .resume] =
          [.accepted, ((w.takeBody statements).go story (statements ++ w.todo)).2]
  /-- A link that a group offers leads nowhere. -/
  grouped : ∀ (index : Nat) (destination : String), w.status = .awaitingChoice →
    (w.offers[index]?).bind Offer.destination? = some destination → w.grouped = true →
      story.position? w.node destination = none →
        s.answers limit [.choose index, .resume] =
          [.accepted, .refused (.script ⟨w.place story.config 0, .unknownLabel destination⟩)]
  /-- So does the only link that a group offers. -/
  alone : ∀ destination : String, (w.call story .resume).1.strayed = some destination →
    story.position? w.node destination = none →
      s.answers limit [.resume] = [.refused (.script ⟨w.place story.config 0, .unknownLabel destination⟩)]

namespace Walk

variable {story : Story} {w : Walk}

theorem answer_leave (destination : String) : (w.leave story destination).2 = if (story.body? destination).isSome then
    .shown (.nodeComplete w.node (some destination)) else .refused (.nodeNotFound destination) := by
  rw [leave]
  cases story.body? destination <;> rfl

end Walk

section Choices

variable {base s : Session} {story : Story} {allows : Expr → Bool} {mixed : Prop} {w : Walk} {limit : Nat}

theorem Session.answers_pair (s : Session) (c : HostCall) :
    s.answers limit [c, .resume] = [(s.call limit c).2, ((s.call limit c).1.call limit .resume).2] := rfl

/-- The answers to a choice and to going on after it. -/
theorem answers_choose_eq (hp : Plays base story allows mixed) (hlimit : base.program.longest ≤ limit)
    (ht : Tracks base allows mixed s w) {index : Nat} {w' : Walk} (hc : w.call story (.choose index) = (w', .accepted))
    (hs : w'.status = .running) (hf : w'.finished = false) (hw : (w'.go story w'.todo).1.strayed = none) :
    s.answers limit [.choose index, .resume] = [.accepted, (w'.go story w'.todo).2] := by
  have hafter : (after (Walk.call story) w [.choose index, .resume]).strayed = none := by
    rw [after, List.foldl_cons, List.foldl_cons, List.foldl_nil, hc, Walk.call_resume_eq story hs hf]
    exact hw
  rw [Session.answers, (moments_eq_of_tracks hp hlimit ht fun _ => hafter).1, moments, moments, moments, hc,
    Walk.call_resume_eq story hs hf]
  rfl

theorem lookup_eq_none_of_position? (hp : Plays base story allows mixed) {node label : String}
    (h : story.position? node label = none) (code : Code)
    (hcode : (base.program[node]?).map CompiledNode.code = some code) : code.labels.lookup label = none := by
  rw [hp.code] at hcode
  obtain ⟨body, hbody, rfl⟩ := Option.map_eq_some_iff.1 hcode
  rwa [Story.position?, hbody, Option.bind_some] at h

/-- **The options of a session lead where those of the walk lead** that it tracks. -/
theorem optionsLead_of_tracks (hp : Plays base story allows mixed) (hlimit : base.program.longest ≤ limit)
    (ht : Tracks base allows mixed s w) (hw : w.strayed = none) : OptionsLead story limit s w where
  link index destination hs hd hg := by
    obtain ⟨line, alone, ho⟩ := Offer.exists_of_destination? hd
    have hstray : ((w.takeLink destination).go story [.jump 0 destination]).1.strayed = none := by
      rw [Walk.go, Walk.strayed_leave, Walk.takeLink, hg]
      exact hw
    have hgo := answers_choose_eq hp hlimit ht (Walk.call_choose_link story hs ho) rfl (ht.finished_eq_false hs) hstray
    rw [hgo, Walk.takeLink, Walk.go, Walk.answer_leave]
    rfl
  body index statements hs hb hstray := by
    obtain ⟨line, ho⟩ := Offer.exists_of_body? hb
    exact answers_choose_eq hp hlimit ht (Walk.call_choose_body story hs ho) rfl (ht.finished_eq_false hs) hstray
  grouped index destination hs hd hg hlabel := by
    obtain ⟨line, alone, ho⟩ := Offer.exists_of_destination? hd
    have hc := Walk.call_choose_link story hs ho
    have hstray : (w.call story (.choose index)).1.strayed = some destination := by
      rw [hc]
      exact if_pos hg
    cases follows_of_tracks hp hlimit ht (.choose index) with
    | agrees _ hkept => rw [hkept, hw] at hstray; cases hstray
    | strays hstray' _ ha h =>
      rw [hstray] at hstray'
      cases hstray'
      have hlast := h (lookup_eq_none_of_position? hp hlabel)
      rw [hp.config] at hlast
      have hfirst := ha HostCall.noConfusion
      rw [hc] at hfirst
      have hsecond : ((s.call limit (.choose index)).1.call limit .resume).2 =
        .refused (.script ⟨w.place story.config 0, .unknownLabel destination⟩) := Option.some.inj hlast
      rw [Session.answers_pair, hfirst, hsecond]
  alone destination hstray hlabel := by
    cases follows_of_tracks hp hlimit ht .resume with
    | agrees _ hkept => rw [hkept, hw] at hstray; cases hstray
    | strays hstray' _ _ h =>
      rw [hstray] at hstray'
      cases hstray'
      have hlast := h (lookup_eq_none_of_position? hp hlabel)
      rw [hp.config] at hlast
      exact congrArg (fun answer => [answer]) (Option.some.inj hlast)

end Choices

/-- A session that has the code of nodes plays all that they contain. -/
theorem plays_onStack (session : Session) {nodes : List Node} {program : Program} (hp : program.Holds nodes) :
    Plays { session with program } (Story.ofNodes session.plurals session.config nodes (.onStack session.library))
      (fun _ => true) True where
  plurals := rfl
  config := rfl
  code := hp
  dialect _ body _ := ⟨_, Dialect.hasBody_haveLink (Dialect.hasBody_full body), rfl, rfl, fun _ _ => trivial⟩
  evaluate _ _ _ _ _ := rfl

/-- **Options lead to their targets**, in every dialogue that starts and for every host, until a link is taken that a
group offers. Up to there the session is seen as a walk and never fails in a script. -/
theorem Session.options_lead (session : Session) {nodes : List Node} {title : String} {started : Session}
    (h : session.start title nodes = .ok started) (limit : Nat) (hlimit : started.program.longest ≤ limit)
    (calls : List HostCall)
    (hw : (after (Walk.call (Story.ofNodes session.plurals session.config nodes (.onStack session.library)))
      (Walk.begin session title nodes) calls).strayed = none) :
    moments (Session.call limit) Session.see started calls =
        moments (Walk.call (Story.ofNodes session.plurals session.config nodes (.onStack session.library)))
          (Walk.see (Story.ofNodes session.plurals session.config nodes (.onStack session.library)))
          (Walk.begin session title nodes) calls ∧
      (∀ error, .refused (.script error) ∉ started.answers limit calls) ∧
      OptionsLead (Story.ofNodes session.plurals session.config nodes (.onStack session.library)) limit
        (after (Session.call limit) started calls)
        (after (Walk.call (Story.ofNodes session.plurals session.config nodes (.onStack session.library)))
          (Walk.begin session title nodes) calls) := by
  obtain ⟨hread, ht⟩ := of_start_eq_ok h
  obtain ⟨program, hp, hstart⟩ := exists_start_eq session nodes title hread ht
  rw [hstart, Except.ok.injEq] at h
  subst h
  have hplays := plays_onStack session hp
  obtain ⟨hmoments, htracks⟩ := moments_eq_of_tracks hplays hlimit (tracks_begin session hread ht hplays) fun _ => hw
  refine ⟨hmoments, ?_, optionsLead_of_tracks hplays hlimit htracks hw⟩
  intro error
  rw [Session.answers, hmoments]
  exact Walk.script_notMem_answers _ error calls _

/-- A link before a group: the session fails when it goes on after the link is chosen. -/
theorem Session.options_lead_link_before_option : ∃ started, (Session.new External.pluralRules {}).start "Start"
    [{ title := "Start", body := "[[x|End]]\n-> s\n    body" }, { title := "End", body := "n" }] = .ok started ∧
      ∀ limit, started.program.longest ≤ limit →
        (after (Session.call limit) started [.resume]).answers limit [.choose 0, .resume] =
          [.accepted, .refused (.script ⟨⟨none, "Start", 0⟩, .unknownLabel "End"⟩)] := by
  obtain ⟨program, -, hstart⟩ := exists_start_eq (Session.new External.pluralRules {})
    [{ title := "Start", body := "[[x|End]]\n-> s\n    body" }, { title := "End", body := "n" }] "Start"
    (by decide +kernel) (by decide +kernel)
  refine ⟨_, hstart, ?_⟩
  intro limit hlimit
  obtain ⟨-, -, hlead⟩ :=
    (Session.new External.pluralRules {}).options_lead hstart limit hlimit [.resume] (by decide +kernel)
  have h := hlead.grouped 0 "End" (by decide +kernel) (by decide +kernel) (by decide +kernel) (by decide +kernel)
  exact h.trans (by decide +kernel)

end Dialogue
