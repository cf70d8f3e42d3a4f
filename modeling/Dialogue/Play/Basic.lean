import Dialogue.Node.Writer
import Dialogue.Session.Step

/-!
# Playing in a terminal

The command reads a file of nodes and either writes it back in canonical form or plays it: lines are shown one at a time
and wait for Enter, options are numbered from 1 and asked for until a valid number is given. Everything it does is a
step from one state to the next with the text that it prints; reading and printing are left to the caller.

* `answer_eq_self`: an answer changes nothing unless one is waited for.
-/

namespace Dialogue

/-- **What the command is asked to do.** -/
structure PlayOptions where
  start : String := "Start"
  /-- Write the file in canonical form and do not play it. -/
  reformat : Bool := false
  lineEnding : LineEnding := .unix
  /-- Do not wait after lines. -/
  autoAdvance : Bool := false
  locale : String := "en"
deriving DecidableEq, Repr

/-- What is printed, to the player and about errors. -/
structure Printed where
  out : String := ""
  err : String := ""
deriving DecidableEq, Repr

namespace Printed

/-- One text after the other. -/
def append (a b : Printed) : Printed := ⟨a.out ++ b.out, a.err ++ b.err⟩

instance : Append Printed := ⟨append⟩

end Printed

/-- **What the command is about to do.** -/
inductive Stage where
  | playing
  /-- It waits for Enter. -/
  | pausing
  /-- It waits for a number. -/
  | choosing (count : Nat)
  | ended (code : Nat)
deriving DecidableEq, Repr

/-- **A dialogue that is being played.** -/
structure Play where
  session : Session
  autoAdvance : Bool
  stage : Stage := .playing

/-! ## How the command names what stops it -/

namespace NodeFault

/-- The fault, as the command names it. -/
def cause (fault : NodeFault) : String :=
  "MalformedInput(" ++ Text.quoted fault.detail ++ ")"

end NodeFault

namespace ScriptError

/-- The error with all its parts. -/
def cause (error : ScriptError) : String :=
  let file := match error.location.file with
    | some file => "Some(" ++ Text.quoted file ++ ")"
    | none => "None"
  "ScriptError \x7b location: SourceLocation \x7b file: " ++ file ++ ", node: " ++ Text.quoted error.location.node ++
    ", line_number: " ++ Text.showNat error.location.line ++ " \x7d, message: " ++ Text.quoted error.message ++ " \x7d"

end ScriptError

namespace SessionFault

/-- The fault, as the command names it. -/
def cause : SessionFault → String
  | .nodeNotFound node => "NodeNotFound(" ++ Text.quoted node ++ ")"
  | .invalidOption index count =>
    "InvalidOption \x7b index: " ++ Text.showNat index ++ ", count: " ++ Text.showNat count ++ " \x7d"
  | .invalidState operation status =>
    "InvalidState \x7b operation: " ++ Text.quoted operation.name ++ ", status: " ++ status.name ++ " \x7d"
  | .script error => "RuntimeScript(" ++ error.cause ++ ")"
  | .tags (.wideBlank c) => "Tags(" ++ Text.quotedChar c ++ ")"

end SessionFault

namespace Play

/-- Text for the player. -/
def say (text : String) : Printed := { out := text }

/-- The line that names what stops the command. -/
def failure (cause : String) : Printed := { err := "Error: " ++ cause ++ "\n" }

/-- The lines about script errors that a step reported. -/
def reports (before after : Session) : Printed where
  err := String.join ((after.reported.drop before.reported.length).map fun error => "error: " ++ error.text ++ "\n")

/-- The question for an option. -/
def prompt : String := "> "

/-! ## Steps -/

/-- The command after an operation of the session that fails only when the command is at fault itself. -/
def after (play : Play) (result : Except SessionFault Session) : Play × Printed :=
  match result with
  | .ok session => ({ play with session, stage := .playing }, {})
  | .error fault => ({ play with stage := .ended 1 }, failure fault.cause)

/-- **Shows an event.** -/
def handle (play : Play) : Event → Play × Printed
  | .line line =>
    let shown := say (line.text ++ "\n")
    if play.autoAdvance then
      let (play, printed) := play.after play.session.acknowledgeLine
      (play, shown ++ printed)
    else ({ play with stage := .pausing }, shown)
  | .options options =>
    ({ play with stage := .choosing options.length },
      say ("== Choose option ==\n" ++
        String.join (options.map fun option => Text.showNat (option.id + 1) ++ ": " ++ option.line.text ++ "\n") ++ prompt))
  | .command text =>
    let (play, printed) := play.after play.session.acknowledgeCommand
    (play, say ("== Command: " ++ text ++ " ==\n") ++ printed)
  | .nodeComplete node next =>
    (play, say ("== Node end: " ++ node ++ " ==\n" ++
      match next with
      | some next => "== Node start: " ++ next ++ " ==\n"
      | none => ""))
  | .dialogueComplete _ => ({ play with stage := .ended 0 }, say "== Dialogue complete ==\n")

/-- **Runs on to the next event**, for up to `limit` instructions. -/
def advance (play : Play) (limit : Nat) : Play × Printed :=
  let (session, outcome) := play.session.resume limit
  let reported := reports play.session session
  let play := { play with session }
  match outcome with
  | .unfinished => (play, reported)
  | .fault fault => ({ play with stage := .ended 1 }, reported ++ failure fault.cause)
  | .event event =>
    let (play, printed) := play.handle event
    (play, reported ++ printed)

/-- The option that a line of input names. -/
def choice? (line : String) : Option Nat :=
  match Text.readWord? (Text.trim line.toList) with
  | some (n + 1) => some n
  | _ => none

/-- **Takes a line of input**, or the end of the input where there is none. -/
def answer (play : Play) (input : Option String) : Play × Printed :=
  match play.stage with
  | .pausing => play.after play.session.acknowledgeLine
  | .choosing count =>
    match input with
    | none => ({ play with session := play.session.stop, stage := .ended 0 }, {})
    | some line =>
      match choice? line with
      | none => (play, { out := prompt, err := "Enter a number between 1 and " ++ Text.showNat count ++ "\n" })
      | some index =>
        match play.session.choose index with
        | .ok session => ({ play with session, stage := .playing }, {})
        | .error fault => (play, { out := prompt, err := fault.message?.getD "" ++ "\n" })
  | .playing | .ended _ => (play, {})

/-- **Starts on a file.** -/
def ofFile (plurals : Plural.Rules) (options : PlayOptions) (file text : String) :
    Except TagFault (Play × Printed) :=
  let session := Session.new plurals { locale := options.locale, file := some file }
  let play : Play := { session, autoAdvance := options.autoAdvance, stage := .ended 1 }
  match Node.parse text with
  | .error fault => .ok (play, failure fault.cause)
  | .ok (nodes, _) =>
    if options.reformat then
      .ok ({ play with stage := .ended 0 }, say (Node.render nodes { lineEnding := options.lineEnding }))
    else
      match session.start options.start nodes with
      | .error (.tags fault) => .error fault
      | .error fault => .ok (play, failure fault.cause)
      | .ok started => .ok ({ play with session := started, stage := .playing }, reports session started)

/-! ## Whole runs -/

/-- **Plays with a given input**, line by line, for up to `turns` steps of up to `limit` instructions. -/
def transcript (limit : Nat) : (turns : Nat) → Play → List String → Printed → Play × Printed
  | 0, play, _, printed => (play, printed)
  | turns + 1, play, input, printed =>
    match play.stage with
    | .ended _ => (play, printed)
    | .playing =>
      let (play, more) := play.advance limit
      transcript limit turns play input (printed ++ more)
    | .pausing | .choosing _ =>
      let (play, more) := play.answer input.head?
      transcript limit turns play input.tail (printed ++ more)

/-! ## Laws -/

theorem answer_eq_self {play : Play} (h : play.stage = .playing) (input : Option String) :
    play.answer input = (play, {}) := by
  simp [answer, h]

end Play

end Dialogue
