import Dialogue.Variables.Basic

/-!
# What a session shows

A host reads off a session where it stands: its settings, its status, the node that runs, how often nodes were completed,
and the variables. Functions of a script see the same.

* `count_add`: completing a node raises its count by one and no other.
-/

namespace Dialogue

/-- **The settings of a session.** -/
structure Config where
  /-- The locale of plural rules. -/
  locale : String := "en"
  /-- The file named in script errors. -/
  file : Option String := none
  /-- Starting a dialogue removes all variables. -/
  resetVariables : Bool := true
deriving DecidableEq, Repr

/-- **What a session waits for.** -/
inductive Status where
  | idle
  | running
  | awaitingLine
  | awaitingChoice
  | awaitingCommand
  | complete
deriving DecidableEq, Repr

namespace Status

def name : Status → String
  | .idle => "Idle"
  | .running => "Running"
  | .awaitingLine => "WaitingForLineAck"
  | .awaitingChoice => "WaitingForOptionChoice"
  | .awaitingCommand => "WaitingForCommandAck"
  | .complete => "Complete"

end Status

/-- **How often each node was completed.** -/
structure Visits where
  counts : Std.TreeMap String Nat := ∅

namespace Visits

instance : EmptyCollection Visits := ⟨{}⟩

/-- How often a node was completed. -/
def count (visits : Visits) (node : String) : Nat :=
  visits.counts.getD node 0

/-- One more completion of a node. -/
def add (visits : Visits) (node : String) : Visits :=
  ⟨visits.counts.insert node (visits.count node + 1)⟩

@[simp] theorem count_empty (node : String) : (∅ : Visits).count node = 0 :=
  Std.TreeMap.getD_emptyc

theorem count_add (visits : Visits) (node other : String) :
    (visits.add node).count other = if node = other then visits.count node + 1 else visits.count other := by
  simp [count, add, Std.TreeMap.getD_insert]

end Visits

/-- **What can be read off a session.** -/
structure View where
  config : Config := {}
  status : Status := .idle
  /-- The node that runs, while one does. -/
  node : Option String := none
  visits : Visits := ∅
  vars : Variables := ∅

end Dialogue
