import Dialogue.External.PluralRules
import Dialogue.Play.Basic

/-!
# The command

Reads the arguments and the file, and then lets the dialogue and the player take turns, under the plural rules of
`External.pluralRules`.
-/

namespace Dialogue.Command

/-- The arguments: the file, the options, and how many arguments without a name were read. -/
structure Arguments where
  file : Option String := none
  options : PlayOptions := {}
  hasStart : Bool := false

/-- Reads the arguments of the command; `none` when they make no sense. -/
def readArguments (found : Arguments) : List String → Option Arguments
  | [] => some found
  | "--reformat" :: rest => readArguments { found with options.reformat := true } rest
  | "--auto-advance" :: rest => readArguments { found with options.autoAdvance := true } rest
  | "--locale" :: locale :: rest => readArguments { found with options.locale := locale } rest
  | "--line-ending" :: name :: rest =>
    match LineEnding.ofName? name with
    | some lineEnding => readArguments { found with options.lineEnding := lineEnding } rest
    | none => none
  | argument :: rest =>
    if argument.startsWith "--" then none
    else if found.file.isNone then readArguments { found with file := some argument } rest
    else if found.hasStart then none
    else readArguments { found with hasStart := true, options.start := argument } rest

/-- An argument `--name=value` as its two parts. -/
def spread (argument : String) : List String :=
  match argument.startsWith "--", Text.cut? ['='] argument.toList with
  | true, some (name, value) => [.ofList name, .ofList value]
  | _, _ => [argument]

/-- The number of instructions between two looks at the player. -/
def stride : Nat := 4096

/-- Prints what a step has to say. -/
def print (printed : Printed) : IO Unit := do
  let out ← IO.getStdout
  out.putStr printed.out
  out.flush
  (← IO.getStderr).putStr printed.err

/-- Lets the dialogue and the player take turns until the end. -/
partial def loop (play : Play) : IO UInt32 := do
  match play.stage with
  | .ended code => return .ofNat code
  | .playing =>
    let (play, printed) := play.advance stride
    print printed
    loop play
  | .pausing | .choosing _ =>
    let line ← (← IO.getStdin).getLine
    let (play, printed) := play.answer (if line.isEmpty then none else some line)
    print printed
    loop play

end Dialogue.Command

open Dialogue Command in
/-- Plays or reformats a file of nodes. -/
def main (arguments : List String) : IO UInt32 := do
  match readArguments {} (arguments.flatMap spread) with
  | some { file := some file, options, .. } =>
    match Play.ofFile External.pluralRules options file (← IO.FS.readFile file) with
    | .error _ =>
      IO.eprintln "a line with a tag has a blank that is no ASCII character"
      return 101
    | .ok (play, printed) =>
      print printed
      loop play
  | _ =>
    IO.eprintln "usage: dialogue FILE [START] [--reformat] [--line-ending unix|windows|native] [--auto-advance] [--locale LOCALE]"
    return 2
