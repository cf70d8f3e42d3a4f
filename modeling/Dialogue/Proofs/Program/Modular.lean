import Mathlib
import Dialogue.Proofs.Program.Nodes

/-!
# Nodes are compiled one by one

What a node is compiled to depends on no other node and not on the place of the node among them. A program has under
each title what the last node with it is compiled to alone, and its errors are those of the nodes alone, one after the
other; only that a title was there before is reported on top of them (`compile_putTogether`).
-/

namespace Dialogue

/-- **What a node is compiled to alone**: the node under its title, and the diagnostics of its body. -/
def Node.Alone (node : Node) (file : Option String) (compiled : CompiledNode) : Prop :=
  Program.compile [node] file = .ok ((∅ : Program).insert node.title compiled, node.faults file [])

namespace Program

/-- **A program and its errors are put together from nodes** that are compiled alone. -/
structure PutTogether (nodes : List Node) (file : Option String) (program : Program) (errors : List ScriptError) :
    Prop where
  /-- There is a node under each title of the nodes, and under no other. -/
  titles : ∀ title : String, title ∈ program ↔ ∃ node ∈ nodes, node.title = title
  names : ∀ (title : String) compiled, program[title]? = some compiled → compiled.name = title
  alone : ∀ node ∈ nodes, ∃ compiled, node.Alone file compiled
  /-- Of nodes with one title it is the last one that counts. -/
  last : ∀ before node after compiled, nodes = before ++ node :: after →
    (∀ later ∈ after, later.title ≠ node.title) → node.Alone file compiled → program[node.title]? = some compiled
  /-- A node reports what it reports alone, and that a node before it has its title. -/
  errors : errors = Node.faultsAfter file [] nodes

variable {nodes : List Node} {file : Option String} {program : Program}

theorem alone_of_compiled? {node : Node} {compiled : CompiledNode} (h : node.compiled? = some compiled)
    (file : Option String) : node.Alone file compiled := by
  rw [Node.Alone, compile, List.foldlM_cons, addNode_eq has_empty (fun _ hn => absurd hn List.not_mem_nil) h]
  rfl

/-- Alone, a node is compiled in one way. -/
theorem eq_of_alone {node : Node} {a b : CompiledNode} (ha : node.Alone file a) (hb : node.Alone file b) : a = b := by
  have h := congrArg Prod.fst (Except.ok.inj (ha.symm.trans hb))
  have hget := congrArg (·[node.title]?) h
  simpa using hget

theorem find?_reverse_of_last {before after : List Node} {node : Node} (h : ∀ later ∈ after, later.title ≠ node.title) :
    (before ++ node :: after).reverse.find? (·.title = node.title) = some node := by
  have hafter : after.reverse.find? (·.title = node.title) = none := by
    rw [List.find?_eq_none]
    intro later hlater
    simpa using h later (List.mem_reverse.1 hlater)
  rw [List.reverse_append, List.reverse_cons, List.append_assoc, List.find?_append, hafter]
  simp

theorem Has.putTogether (hp : program.Has nodes) (h : ∀ node ∈ nodes, node.script?.isSome) (file : Option String) :
    PutTogether nodes file program (Node.faultsAfter file [] nodes) where
  titles title := by
    rw [← Std.TreeMap.contains_iff_mem, hp.holds.contains, Node.isSome_scriptOf? h]
    simp
  names title compiled hcompiled := by
    rw [hp title] at hcompiled
    obtain ⟨node, hfind, hnode⟩ := Option.bind_eq_some_iff.1 hcompiled
    obtain ⟨parsed, -, rfl⟩ := Option.map_eq_some_iff.1 hnode
    exact of_decide_eq_true (List.find?_some (p := fun n : Node => decide (n.title = title)) hfind)
  alone node hn := by
    obtain ⟨compiled, hcompiled⟩ := Option.isSome_iff_exists.1 (node.isSome_compiled?.trans (h node hn))
    exact ⟨compiled, alone_of_compiled? hcompiled file⟩
  last before node after compiled hnodes hlast halone := by
    subst hnodes
    have hn : node ∈ before ++ node :: after := List.mem_append_right _ List.mem_cons_self
    obtain ⟨found, hfound⟩ := Option.isSome_iff_exists.1 (node.isSome_compiled?.trans (h node hn))
    rw [hp node.title, find?_reverse_of_last hlast, eq_of_alone halone (alone_of_compiled? hfound file)]
    exact hfound
  errors := rfl

/-- **Compilation is modular.** Nodes whose bodies can be read compile, and the program and the errors are put together
from what each of them is compiled to alone. -/
theorem compile_putTogether {nodes : List Node} (h : ∀ node ∈ nodes, ∃ parsed, Body.parse node.body = .ok parsed)
    (file : Option String) :
    ∃ program errors, compile nodes file = .ok (program, errors) ∧ PutTogether nodes file program errors := by
  have hread : ∀ node ∈ nodes, node.script?.isSome := by
    intro node hn
    obtain ⟨parsed, hparsed⟩ := h node hn
    rw [Node.script?, Node.parsed?, hparsed]
    rfl
  obtain ⟨program, hp, hc⟩ := exists_compile_eq_has hread file
  exact ⟨program, _, hc, hp.putTogether hread file⟩

/-- A title twice, around another one; the first and the last of the bodies have an `endif` too many. -/
def twiceTitled : List Node :=
  [{ title := "A", body := "<<endif>>\n-> Go\n  Gone" }, { title := "B", body := "[[A]]" },
    { title := "A", tags := "late", body := "\n<<endif>>\n-> Stay" }]

theorem compile_putTogether_twiceTitled :
    ∃ program errors, compile twiceTitled none = .ok (program, errors) ∧ PutTogether twiceTitled none program errors ∧
      errors.map (fun error => (error.location.node, error.location.line)) = [("A", 1), ("A", 2), ("A", 0)] ∧
      (program["A"]?).map (fun compiled => (compiled.tags, compiled.code.labels)) =
        some (["late"], [("L2option", 3), ("L1group_end", 5)]) := by
  have hreads : twiceTitled.all (fun node => (Body.parse node.body).toOption.isSome) = true := by decide +kernel
  have h : ∀ node ∈ twiceTitled, ∃ parsed, Body.parse node.body = .ok parsed := by
    intro node hn
    have hsome := List.all_eq_true.1 hreads node hn
    cases hparse : Body.parse node.body with
    | ok parsed => exact ⟨parsed, rfl⟩
    | error fault =>
      rw [hparse] at hsome
      cases hsome
  obtain ⟨program, errors, hc, hput⟩ := compile_putTogether h none
  have hrun : (compile twiceTitled none).toOption.map (fun result =>
      (result.2.map (fun error => (error.location.node, error.location.line)),
        (result.1["A"]?).map (fun compiled => (compiled.tags, compiled.code.labels)))) =
      some ([("A", 1), ("A", 2), ("A", 0)], some (["late"], [("L2option", 3), ("L1group_end", 5)])) := by
    decide +kernel
  rw [hc] at hrun
  have hshown := Prod.mk.inj (Option.some.inj hrun)
  exact ⟨program, errors, hc, hput, hshown.1, hshown.2⟩

end Program

end Dialogue
