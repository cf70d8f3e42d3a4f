import Mathlib
import Dialogue.Program.Compile

/-!
# The nodes of a program

Nodes whose bodies can be read compile, and the program has under each title the last node with it (`Has`,
`exists_compile_eq_has`). What is reported are the faults of the bodies in order, and after those of a node that its
title was there before.
-/

namespace Dialogue

namespace Node

/-- The statements of a node and what is reported about them, if its body can be read. -/
def parsed? (node : Node) : Option (Parsed Statement) :=
  (Body.parse node.body).toOption

/-- The statements of a node. -/
def script? (node : Node) : Option (List Statement) :=
  node.parsed?.map (·.items)

/-- **A node as it stands in a program**, if its body can be read. -/
def compiled? (node : Node) : Option CompiledNode :=
  node.parsed?.map fun parsed => ⟨node.title, Code.node parsed.items, node.tagList⟩

/-- **What is reported about a node** that comes after others. -/
def faults (file : Option String) (before : List Node) (node : Node) : List ScriptError :=
  node.parsed?.elim [] (fun parsed => parsed.diagnostics.map fun diagnostic =>
    ⟨⟨file, node.title, diagnostic.line⟩, .body diagnostic.fault⟩) ++
  if before.any (·.title = node.title) then [⟨⟨file, node.title, 0⟩, .duplicateTitle⟩] else []

/-- **The statements under a title**: those of the last node with it. -/
def scriptOf? (nodes : List Node) (title : String) : Option (List Statement) :=
  (nodes.reverse.find? (·.title = title)).bind script?

/-- What is reported about nodes that come after others. -/
def faultsAfter (file : Option String) : List Node → List Node → List ScriptError
  | _, [] => []
  | before, node :: rest => node.faults file before ++ faultsAfter file (before ++ [node]) rest

theorem map_code_compiled? (node : Node) : node.compiled?.map CompiledNode.code = node.script?.map Code.node := by
  rw [compiled?, script?, Option.map_map, Option.map_map]
  rfl

theorem isSome_compiled? (node : Node) : node.compiled?.isSome = node.script?.isSome := by
  rw [compiled?, script?, Option.isSome_map, Option.isSome_map]

/-- Compiling a node goes by its body alone. -/
theorem compile_eq {node : Node} {compiled : CompiledNode} (h : node.compiled? = some compiled) (file : Option String) :
    node.compile file = .ok (compiled, node.faults file []) := by
  obtain ⟨parsed, hparsed, rfl⟩ := Option.map_eq_some_iff.1 h
  rw [compile, faults, hparsed]
  rw [parsed?] at hparsed
  cases hparse : Body.parse node.body with
  | error fault => simp [hparse, Except.toOption] at hparsed
  | ok found =>
    obtain rfl : found = parsed := by simpa [hparse, Except.toOption] using hparsed
    simp [pure, Except.pure, bind, Except.bind]

theorem faults_eq (node : Node) (file : Option String) (before : List Node) :
    node.faults file before = node.faults file [] ++
      if before.any (·.title = node.title) then [⟨⟨file, node.title, 0⟩, .duplicateTitle⟩] else [] := by
  simp [faults]

theorem isSome_scriptOf? {nodes : List Node} (h : ∀ node ∈ nodes, node.script?.isSome) (title : String) :
    (scriptOf? nodes title).isSome = nodes.any (·.title = title) := by
  cases hf : nodes.reverse.find? (·.title = title) with
  | none =>
    rw [List.find?_eq_none] at hf
    rw [scriptOf?, Option.isSome_bind, List.find?_eq_none.2 hf, eq_comm]
    exact List.any_eq_false.2 fun node hn => hf node (List.mem_reverse.2 hn)
  | some node =>
    have hn := List.mem_reverse.1 (List.mem_of_find?_eq_some hf)
    rw [scriptOf?, hf, Option.bind_some, h node hn, eq_comm]
    have ht : decide (node.title = title) = true := List.find?_some (p := fun n : Node => decide (n.title = title)) hf
    exact List.any_eq_true.2 ⟨node, hn, ht⟩

theorem exists_mem_of_scriptOf? {nodes : List Node} {title : String} {body : List Statement}
    (h : scriptOf? nodes title = some body) : ∃ node ∈ nodes, node.script? = some body := by
  obtain ⟨node, hfind, hbody⟩ := Option.bind_eq_some_iff.1 h
  exact ⟨node, List.mem_reverse.1 (List.mem_of_find?_eq_some hfind), hbody⟩

end Node

namespace Program

/-- **The program has these nodes**, under each title the last one. -/
def Has (program : Program) (nodes : List Node) : Prop :=
  ∀ title : String, program[title]? = (nodes.reverse.find? (·.title = title)).bind Node.compiled?

/-- **The program has the code of these nodes**, under each title that of the last one. -/
def Holds (program : Program) (nodes : List Node) : Prop :=
  ∀ title : String, (program[title]?).map CompiledNode.code = (Node.scriptOf? nodes title).map Code.node

theorem Has.holds {program : Program} {nodes : List Node} (h : program.Has nodes) : program.Holds nodes := by
  intro title
  rw [h title, Node.scriptOf?, Option.map_bind, Option.map_bind]
  exact congrArg _ (funext Node.map_code_compiled?)

theorem has_empty : Has ∅ [] := fun _ => Std.TreeMap.getElem?_emptyc

theorem holds_empty : Holds ∅ [] := has_empty.holds

theorem Holds.contains {program : Program} {nodes : List Node} (h : program.Holds nodes) (title : String) :
    program.contains title = (Node.scriptOf? nodes title).isSome := by
  rw [Std.TreeMap.contains_eq_isSome_getElem?, ← Option.isSome_map (f := CompiledNode.code), h title, Option.isSome_map]

section Add

variable {program : Program} {before : List Node} {node : Node} {compiled : CompiledNode}

/-- A node that comes after others takes its title over. -/
theorem Has.insert (hp : program.Has before) (hn : node.compiled? = some compiled) :
    Has (program.insert node.title compiled) (before ++ [node]) := by
  intro title
  rw [Std.TreeMap.getElem?_insert, List.reverse_append, List.reverse_singleton, List.singleton_append, List.find?_cons]
  by_cases ht : node.title = title
  · rw [if_pos (compare_eq_iff_eq.2 ht), decide_eq_true ht]
    exact hn.symm
  · rw [if_neg (mt compare_eq_iff_eq.1 ht), decide_eq_false ht, hp title]

/-- One more node. -/
theorem addNode_eq (hp : program.Has before) (hb : ∀ node ∈ before, node.script?.isSome)
    (hn : node.compiled? = some compiled) (file : Option String) (errors : List ScriptError) :
    addNode file (program, errors) node =
      .ok (program.insert node.title compiled, errors ++ node.faults file before) := by
  rw [Node.faults_eq node file before, ← Node.isSome_scriptOf? hb, ← hp.holds.contains, ← List.append_assoc]
  simp [addNode, Node.compile_eq hn, pure, Except.pure, bind, Except.bind]

end Add

/-- The nodes after others. -/
theorem exists_foldlM_addNode_eq (file : Option String) : ∀ {rest before : List Node} {program : Program}
    (errors : List ScriptError), program.Has before → (∀ node ∈ before ++ rest, node.script?.isSome) →
    ∃ program' : Program, program'.Has (before ++ rest) ∧
      rest.foldlM (addNode file) (program, errors) = .ok (program', errors ++ Node.faultsAfter file before rest)
  | [], before, program, errors, hp, _ => by
    refine ⟨program, by rwa [List.append_nil], ?_⟩
    simp [Node.faultsAfter, pure, Except.pure]
  | node :: rest, before, program, errors, hp, h => by
    have hn : node.script?.isSome := h node (List.mem_append_right _ List.mem_cons_self)
    obtain ⟨compiled, hcompiled⟩ := Option.isSome_iff_exists.1 (node.isSome_compiled?.trans hn)
    have hfirst := addNode_eq hp (fun n hn => h n (List.mem_append_left _ hn)) hcompiled file errors
    have hassoc : before ++ [node] ++ rest = before ++ node :: rest := by simp
    obtain ⟨program', hp', hrest⟩ := exists_foldlM_addNode_eq file (errors ++ node.faults file before)
      (hp.insert hcompiled) (by rwa [hassoc])
    refine ⟨program', by rwa [← hassoc], ?_⟩
    rw [List.foldlM_cons, hfirst]
    show List.foldlM (addNode file) _ rest = _
    rw [hrest, Node.faultsAfter, List.append_assoc]

theorem isSome_of_addNode {file : Option String} {node : Node} {sofar result : Program × List ScriptError}
    (h : addNode file sofar node = .ok result) : node.script?.isSome = true := by
  cases hparse : Body.parse node.body with
  | error fault => simp [addNode, Node.compile, hparse, bind, Except.bind] at h
  | ok parsed =>
    rw [Node.script?, Node.parsed?, hparse]
    rfl

/-- Nodes compile only if their bodies can be read. -/
theorem isSome_of_foldlM_addNode {file : Option String} : ∀ {nodes : List Node}
    {sofar result : Program × List ScriptError}, nodes.foldlM (addNode file) sofar = .ok result →
    ∀ node ∈ nodes, node.script?.isSome = true
  | [], _, _, _, _, hn => absurd hn List.not_mem_nil
  | first :: rest, sofar, result, h, node, hn => by
    rw [List.foldlM_cons] at h
    cases hfirst : addNode file sofar first with
    | error fault =>
      rw [hfirst] at h
      cases h
    | ok next =>
      rw [hfirst] at h
      rcases List.mem_cons.1 hn with rfl | hn
      · exact isSome_of_addNode hfirst
      · exact isSome_of_foldlM_addNode h node hn

/-- **Nodes whose bodies can be read compile.** -/
theorem exists_compile_eq_has {nodes : List Node} (h : ∀ node ∈ nodes, node.script?.isSome) (file : Option String) :
    ∃ program : Program, program.Has nodes ∧ compile nodes file = .ok (program, Node.faultsAfter file [] nodes) := by
  obtain ⟨program, hp, hc⟩ := exists_foldlM_addNode_eq file [] has_empty h
  exact ⟨program, hp, hc⟩

theorem exists_compile_eq {nodes : List Node} (h : ∀ node ∈ nodes, node.script?.isSome) (file : Option String) :
    ∃ program : Program, program.Holds nodes ∧ compile nodes file = .ok (program, Node.faultsAfter file [] nodes) := by
  obtain ⟨program, hp, hc⟩ := exists_compile_eq_has h file
  exact ⟨program, hp.holds, hc⟩

end Program

end Dialogue
