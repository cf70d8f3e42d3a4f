import Dialogue.Library.Basic

/-!
# The standard library

Operators of expressions are functions of the library, in two groups; a third group asks how often a node was completed.
-/

namespace Dialogue.Library

/-- Arithmetic and comparison. -/
def math : List (String × HostFunction) :=
  [("Add", .binary "Add" Value.add?),
   ("Minus", .binary "Minus" Value.sub?),
   ("Divide", .binary "Divide" Value.div?),
   ("Multiply", .binary "Multiply" Value.mul?),
   ("Modulo", .binary "Modulo" Value.mod?),
   ("UnaryMinus", .unary fun _ a => a.neg),
   ("EqualTo", .condition fun a b => a.equals b),
   ("NotEqualTo", .condition fun a b => !a.equals b),
   ("GreaterThan", .condition fun a b => a.compare? b == some .gt),
   ("GreaterThanOrEqualTo", .condition fun a b => a.compare? b == some .gt || a.compare? b == some .eq),
   ("LessThan", .condition fun a b => a.compare? b == some .lt),
   ("LessThanOrEqualTo", .condition fun a b => a.compare? b == some .lt || a.compare? b == some .eq)]

/-- Truth functions. -/
def logic : List (String × HostFunction) :=
  [("And", .condition fun a b => a.isTrue && b.isTrue),
   ("Or", .condition fun a b => a.isTrue || b.isTrue),
   ("Xor", .condition fun a b => a.isTrue ^^ b.isTrue),
   ("Not", .unary fun _ a => .bool !a.isTrue)]

/-- Questions about completed nodes. -/
def visited : List (String × HostFunction) :=
  [("visited", .unary fun view a => .bool (0 < view.visits.count a.text)),
   ("visited_count", .unary fun view a => .number (Number.ofNat (view.visits.count a.text)))]

/-- The library with these functions. -/
def ofEntries (entries : List (String × HostFunction)) : Library :=
  .ofList entries

/-- **Every function that is built in.** -/
def standard : Library :=
  ofEntries (math ++ logic ++ visited)

end Dialogue.Library
