import Dialogue.Body.Block
import Dialogue.Node.Basic
import Dialogue.Program.Error
import Dialogue.Program.Instruction

/-!
# Compiling

Expressions leave one value on the stack, statements leave the stack as it was. Labels are numbered through each node in
the order in which they are needed.

A conditional is a chain of conditions, each of which jumps past its branch; a group of options adds its options, offers
them and jumps to the label of the one that was taken. Links only add an option; the node offers them when it ends.

* `statement`, `statements`: the code of statements; `node`: that of a node.
-/

namespace Dialogue

namespace Code

/-! ## Expressions -/

mutual

/-- **The code of an expression.** -/
def expr (line : Nat) : Expr → List Instruction
  | .number x => [.pushNumber x]
  | .string s => [.pushString s]
  | .bool b => [.pushBool b]
  | .null => [.pushNull]
  | .variable name => [.pushVariable name]
  | .call function arguments =>
    exprs line arguments ++ [.pushNumber (Number.ofNat arguments.length), .callFunction function line]

/-- The code of expressions, one after the other. -/
def exprs (line : Nat) : List Expr → List Instruction
  | [] => []
  | e :: rest => expr line e ++ exprs line rest

end

/-! ## Labels -/

/-- The label of a given number, with a word about its use. -/
def label (number : Nat) (use : String) : String :=
  "L" ++ Text.showNat number ++ use

/-- The number of labels that the header of an option takes. -/
def labelCount : Choice → Nat
  | .mk _ _ none _ _ => 1
  | .mk _ _ (some _) _ _ => 2

/-- The label of an option, when labels up to `used` are taken. -/
def optionLabel (used : Nat) : String := label (used + 1) "option"

/-! ## Statements -/

/-- **The code that adds the options of a group**, and the number of the last label in it. -/
def headers (used : Nat) : List Choice → Code × Nat
  | [] => (∅, used)
  | .mk line text condition tags body :: rest =>
    let offer := ofList (exprs line text.holes ++
      [.addOption text.text text.holes.length (optionLabel used) tags false line])
    let header := match condition with
      | none => offer
      | some condition =>
        let skip := label (used + 2) "conditional_option"
        ofList (expr line condition ++ [.jumpIfFalse skip]) ++ offer ++ mark skip ++ ofList [.pop]
    let (others, last) := headers (used + labelCount (.mk line text condition tags body)) rest
    (header ++ others, last)

mutual

/-- **The code of a statement**, when labels up to `used` are taken, and the number of the last label in it. -/
def statement (used : Nat) : Statement → Code × Nat
  | .line line text tags =>
    (ofList (exprs line text.holes ++ [.runLine text.text text.holes.length tags line]), used)
  | .command line text =>
    (ofList (exprs line text.holes ++ [.runCommand text.text text.holes.length line]), used)
  | .set line name value => (ofList (expr line value ++ [.storeVariable name, .pop]), used)
  | .conditional branches =>
    let done := label (used + 1) "endif"
    let (code, last) := clauses done (used + 1) branches
    (code ++ mark done, last)
  | .link line none destination => (ofList [.addOption destination 0 destination [] true line], used)
  | .link line (some text) destination =>
    (ofList (exprs line text.holes ++ [.addOption text.text text.holes.length destination [] false line]), used)
  | .options choices =>
    let done := label (used + 1) "group_end"
    let (header, last) := headers (used + 1) choices
    let (bodies, last) := bodies done (used + 1) last choices
    (header ++ ofList [.showOptions, .jump] ++ bodies ++ mark done, last)
  | .jump _ destination => (ofList [.pushString destination, .runNode], used)
  | .stop => (ofList [.stop], used)

/-- The code of statements, one after the other. -/
def statements (used : Nat) : List Statement → Code × Nat
  | [] => (∅, used)
  | s :: rest =>
    let (first, last) := statement used s
    let (others, last) := statements last rest
    (first ++ others, last)

/-- The code of the branches of a conditional that ends at the label `done`. -/
def clauses (done : String) (used : Nat) : List Clause → Code × Nat
  | [] => (∅, used)
  | .mk line condition body :: rest =>
    let (first, last) := match condition with
      | none =>
        let (inside, last) := statements used body
        (inside ++ ofList [.jumpTo done], last)
      | some condition =>
        let skip := label (used + 1) "skipclause"
        let (inside, last) := statements (used + 1) body
        (ofList (expr line condition ++ [.jumpIfFalse skip, .pop]) ++ inside ++ ofList [.jumpTo done] ++ mark skip ++
          ofList [.pop], last)
    let (others, last) := clauses done last rest
    (first ++ others, last)

/-- The code of the bodies of a group that ends at the label `done`; the headers took their labels from `header` on. -/
def bodies (done : String) (header used : Nat) : List Choice → Code × Nat
  | [] => (∅, used)
  | .mk line text condition tags body :: rest =>
    let (inside, last) := statements used body
    let (others, last) := bodies done (header + labelCount (.mk line text condition tags body)) last rest
    (mark (optionLabel header) ++ ofList [.pop] ++ inside ++ ofList [.jumpTo done] ++ others, last)

end

/-! ## Links -/

mutual

/-- The statement has a link somewhere in it. -/
def hasLink : Statement → Bool
  | .link .. => true
  | .conditional branches => clausesHaveLink branches
  | .options choices => choicesHaveLink choices
  | _ => false

def haveLink : List Statement → Bool
  | [] => false
  | s :: rest => hasLink s || haveLink rest

def clausesHaveLink : List Clause → Bool
  | [] => false
  | .mk _ _ body :: rest => haveLink body || clausesHaveLink rest

def choicesHaveLink : List Choice → Bool
  | [] => false
  | .mk _ _ _ _ body :: rest => haveLink body || choicesHaveLink rest

end

/-- **The code of a node**: its statements, and how it ends. -/
def node (body : List Statement) : Code :=
  (statements 0 body).1 ++ ofList (if haveLink body then [.showOptions, .runNode] else [.stop])

end Code

/-! ## Programs -/

namespace Node

/-- A node with its body compiled, and what is wrong in it. -/
def compile (node : Node) (file : Option String) : Except TagFault (CompiledNode × List ScriptError) := do
  let body ← Body.parse node.body
  return (⟨node.title, Code.node body.items, node.tagList⟩,
    body.diagnostics.map fun diagnostic => ⟨⟨file, node.title, diagnostic.line⟩, .body diagnostic.fault⟩)

end Node

namespace Program

/-- Adds a node to a program and its errors to a list. Of two nodes with one title the later is kept. -/
def addNode (file : Option String) (sofar : Program × List ScriptError) (node : Node) :
    Except TagFault (Program × List ScriptError) := do
  let (program, errors) := sofar
  let (compiled, found) ← node.compile file
  let again := if program.contains node.title then [⟨⟨file, node.title, 0⟩, .duplicateTitle⟩] else []
  return (program.insert node.title compiled, errors ++ found ++ again)

/-- **Compiles nodes**, and collects what is wrong in them. -/
def compile (nodes : List Node) (file : Option String) : Except TagFault (Program × List ScriptError) :=
  nodes.foldlM (addNode file) (∅, [])

end Program

end Dialogue
