import Std.Data.TreeMap
import Dialogue.Number.Basic

/-!
# Instructions

A node is compiled into a list of instructions for a machine with a stack of values. Labels name positions in the list;
a jump goes to a label.

* `Code.append_assoc`: code can be put together in any grouping.
-/

namespace Dialogue

/-- **An instruction.** -/
inductive Instruction where
  | jumpTo (label : String)
  /-- Jumps to the label on top of the stack, which stays there. -/
  | jump
  /-- Takes the values of the holes from the stack and shows a line. -/
  | runLine (text : String) (holes : Nat) (tags : List String) (line : Nat)
  | runCommand (text : String) (holes : Nat) (line : Nat)
  /-- Adds an option to those that are to be offered. `followAlone` marks one that is taken without asking when it is
  the only one. -/
  | addOption (text : String) (holes : Nat) (destination : String) (tags : List String) (followAlone : Bool) (line : Nat)
  /-- Offers the options. The destination of the one that is taken is pushed. -/
  | showOptions
  | pushString (s : String)
  | pushNumber (x : Float32)
  | pushBool (b : Bool)
  | pushNull
  /-- Jumps when the value on top of the stack does not hold; the value stays. -/
  | jumpIfFalse (label : String)
  | pop
  /-- Takes the number of parameters and the parameters from the stack, and pushes what the function yields. -/
  | callFunction (function : String) (line : Nat)
  | pushVariable (name : String)
  /-- Stores the value on top of the stack, which stays there. -/
  | storeVariable (name : String)
  | stop
  /-- Goes on with the node that the top of the stack names. -/
  | runNode
deriving DecidableEq, Inhabited

/-- **A stretch of code**: its instructions, and its labels with their positions in it, in the order in which they were
set. -/
structure Code where
  instructions : List Instruction := []
  labels : List (String × Nat) := []
deriving DecidableEq

namespace Code

/-- One stretch after the other. -/
def append (a b : Code) : Code where
  instructions := a.instructions ++ b.instructions
  labels := a.labels ++ b.labels.map fun (label, position) => (label, position + a.instructions.length)

instance : Append Code := ⟨append⟩

instance : EmptyCollection Code := ⟨{}⟩

/-- Instructions without labels. -/
def ofList (instructions : List Instruction) : Code where
  instructions := instructions

/-- A label at the current position. -/
def mark (label : String) : Code where
  labels := [(label, 0)]

theorem append_assoc (a b c : Code) : a ++ b ++ c = a ++ (b ++ c) := by
  show append (append a b) c = append a (append b c)
  simp only [append, List.append_assoc, List.map_append, List.map_map, List.length_append, Code.mk.injEq, true_and]
  congr 2
  refine List.map_congr_left fun x _ => ?_
  simp only [Function.comp_apply, Prod.mk.injEq, true_and]
  omega

end Code

/-- **A compiled node.** -/
structure CompiledNode where
  name : String
  code : Code
  tags : List String
deriving DecidableEq

namespace CompiledNode

/-- The instruction at a position. -/
def instruction? (node : CompiledNode) (position : Nat) : Option Instruction :=
  node.code.instructions[position]?

/-- The position of a label. -/
def position? (node : CompiledNode) (label : String) : Option Nat :=
  node.code.labels.lookup label

end CompiledNode

/-- **A compiled dialogue**: its nodes by name. -/
abbrev Program := Std.TreeMap String CompiledNode

end Dialogue
