import Std.Data.TreeMap
import Dialogue.Value

/-!
# Variables

The variables of a dialogue: values under names, kept in the order of the names. A variable is never `null`; setting one
to `null` removes it.

* `get?_set`, `get?_remove`, `get?_empty`: what each operation does, seen through `get?`.
-/

namespace Dialogue

/-- **The variables of a dialogue.** -/
structure Variables where
  entries : Std.TreeMap String Value := ∅

/-- A variable was asked for as one kind and holds another. -/
structure KindMismatch where
  name : String
  expected : Kind
  found : Kind
deriving DecidableEq, Repr

namespace KindMismatch

def message (m : KindMismatch) : String :=
  "variable " ++ m.name ++ " holds a " ++ m.found.name ++ ", not a " ++ m.expected.name

end KindMismatch

namespace Variables

instance : EmptyCollection Variables := ⟨{}⟩

instance : Inhabited Variables := ⟨∅⟩

/-- The value of a variable. -/
def get? (vars : Variables) (name : String) : Option Value :=
  vars.entries[name]?

/-- There is such a variable. -/
def contains (vars : Variables) (name : String) : Bool :=
  vars.entries.contains name

/-- The store without a variable. -/
def remove (vars : Variables) (name : String) : Variables :=
  ⟨vars.entries.erase name⟩

/-- **Gives a variable a value**; `null` removes it. -/
def set (vars : Variables) (name : String) : Value → Variables
  | .null => vars.remove name
  | value => ⟨vars.entries.insert name value⟩

/-- The number of variables. -/
def size (vars : Variables) : Nat :=
  vars.entries.size

/-- The variables in the order of their names. -/
def toList (vars : Variables) : List (String × Value) :=
  vars.entries.toList

/-- **A variable as a value of one kind.** A missing one is no error, one of another kind is. -/
def getAs (vars : Variables) (kind : Kind) (name : String) : Except KindMismatch (Option Value) :=
  match vars.get? name with
  | none => .ok none
  | some value => if value.kind = kind then .ok (some value) else .error ⟨name, kind, value.kind⟩

/-- Two stores hold the same names with the same values. -/
def same (a b : Variables) : Bool :=
  a.toList.length == b.toList.length &&
    (a.toList.zip b.toList).all fun (x, y) => x.1 == y.1 && x.2.same y.2

/-! ## Laws -/

@[simp] theorem get?_empty (name : String) : (∅ : Variables).get? name = none :=
  Std.TreeMap.getElem?_emptyc

theorem get?_remove (vars : Variables) (name other : String) :
    (vars.remove name).get? other = if name = other then none else vars.get? other := by
  simp [get?, remove, Std.TreeMap.getElem?_erase]

theorem get?_set (vars : Variables) (name other : String) {value : Value} (h : value ≠ .null) :
    (vars.set name value).get? other = if name = other then some value else vars.get? other := by
  cases value with
  | null => exact absurd rfl h
  | _ => simp [get?, set, Std.TreeMap.getElem?_insert]

theorem get?_set_null (vars : Variables) (name other : String) :
    (vars.set name .null).get? other = if name = other then none else vars.get? other :=
  get?_remove vars name other

end Variables

end Dialogue
