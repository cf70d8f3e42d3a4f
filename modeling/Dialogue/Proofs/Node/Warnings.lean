import Mathlib
import Dialogue.Proofs.Node.Blocks
import Dialogue.Proofs.Node.HeaderLines

/-!
# Nothing is lost without a warning

Lines are divided into blocks, and some may be left behind the last of them (`Divides`). A text that is read gives one
node for each block. The warnings are exactly those about lines of headers that are lost, nodes without a title, and
headers that belong to no block (`Warns`); so where there are none, every line of every header is kept (`Kept`).

* `parse_warns`: what is read of a text, and what is said about it.
-/

namespace Dialogue.Node

/-! ## Blocks -/

/-- **A block of a text**: the lines before its body, and those of the body. -/
structure Block where
  headers : List NumberedLine
  body : List NumberedLine

/-- The node of a block. -/
def Block.node (block : Block) : Node :=
  { ofHeaders (headersOf block.headers) with body := .ofList (['\n'].intercalate (block.body.map Prod.snd)) }

/-- **How lines are divided into blocks**, and what is left behind the last one. Only the body of the last block may
have no end. -/
inductive Divides : List NumberedLine → List Block → List NumberedLine → Prop
  | rest {lines : List NumberedLine} (h : ∀ line ∈ lines, line.2 ≠ bodyStart) : Divides lines [] lines
  | unended {headers body : List NumberedLine} {start : NumberedLine} (hheaders : ∀ line ∈ headers, line.2 ≠ bodyStart)
      (hstart : start.2 = bodyStart) (hbody : ∀ line ∈ body, line.2 ≠ bodyEnd) :
      Divides (headers ++ start :: body) [⟨headers, body⟩] []
  | ended {headers body lines rest : List NumberedLine} {start stop : NumberedLine} {blocks : List Block}
      (hheaders : ∀ line ∈ headers, line.2 ≠ bodyStart) (hstart : start.2 = bodyStart)
      (hbody : ∀ line ∈ body, line.2 ≠ bodyEnd) (hstop : stop.2 = bodyEnd) (h : Divides lines blocks rest) :
      Divides (headers ++ start :: (body ++ stop :: lines)) (⟨headers, body⟩ :: blocks) rest

/-- The first line that equals a mark divides the lines, if there is any. -/
theorem exists_first (mark : List Char) (lines : List NumberedLine) : (∀ line ∈ lines, line.2 ≠ mark) ∨
    ∃ before line after, lines = before ++ line :: after ∧ (∀ line ∈ before, line.2 ≠ mark) ∧ line.2 = mark := by
  induction lines with
  | nil => exact .inl (by simp)
  | cons line lines ih =>
    by_cases hline : line.2 = mark
    · exact .inr ⟨[], line, lines, rfl, by simp, hline⟩
    · rcases ih with h | ⟨before, found, after, rfl, hbefore, hfound⟩
      · exact .inl (List.forall_mem_cons.2 ⟨hline, h⟩)
      · exact .inr ⟨line :: before, found, after, rfl, List.forall_mem_cons.2 ⟨hline, hbefore⟩, hfound⟩

/-- **All lines are divided into blocks.** -/
theorem exists_divides (lines : List NumberedLine) : ∃ blocks rest, Divides lines blocks rest := by
  rcases exists_first bodyStart lines with h | ⟨headers, start, inner, hlines, hheaders, hstart⟩
  · exact ⟨[], lines, .rest h⟩
  · rcases exists_first bodyEnd inner with hbody | ⟨body, stop, after, hinner, hbody, hstop⟩
    · refine ⟨[⟨headers, inner⟩], [], ?_⟩
      rw [hlines]
      exact .unended hheaders hstart hbody
    · have hshorter : after.length < lines.length := by
        rw [hlines, hinner]
        simp only [List.length_append, List.length_cons]
        omega
      obtain ⟨blocks, rest, h⟩ := exists_divides after
      refine ⟨⟨headers, body⟩ :: blocks, rest, ?_⟩
      rw [hlines, hinner]
      exact .ended hheaders hstart hbody hstop h
termination_by lines.length

/-! ## Warnings -/

/-- **What is said about blocks and the lines behind them**, when so many nodes come before: lines of headers that are
lost, nodes without a title, and headers that belong to no block. -/
inductive Warns (index : Nat) (blocks : List Block) (rest : List NumberedLine) : Warning → Prop
  | lost {block : Block} {line : NumberedLine} {w : Warning} (hblock : block ∈ blocks)
      (h : Lost block.headers line w) : Warns index blocks rest w
  | lostBehind {line : NumberedLine} {w : Warning} (h : Lost rest line w) : Warns index blocks rest w
  | noTitle {i : Nat} {block : Block} (hblock : blocks[i]? = some block) (h : block.node.title = "") :
      Warns index blocks rest (.noTitle (index + i))
  | dropped (h : ∃ line ∈ rest, ∃ key value, IsHeader line.2 key value) :
      Warns index blocks rest (.droppedHeaders (ofHeaders (headersOf rest)).title)

section Warns

variable {index : Nat} {block : Block} {blocks : List Block} {rest : List NumberedLine} {w : Warning}

theorem headersOf_ne_nil_iff {lines : List NumberedLine} :
    headersOf lines ≠ [] ↔ ∃ line ∈ lines, ∃ key value, IsHeader line.2 key value := by
  rw [headersOf, ne_eq, List.filterMap_eq_nil_iff]
  simp [header?_eq_none_iff]

theorem warns_nil_iff : Warns index [] rest w ↔ (∃ line, Lost rest line w) ∨
    (headersOf rest ≠ [] ∧ w = .droppedHeaders (ofHeaders (headersOf rest)).title) := by
  constructor
  · intro h
    cases h with
    | lost hblock => cases hblock
    | lostBehind h => exact .inl ⟨_, h⟩
    | noTitle hblock => cases hblock
    | dropped h => exact .inr ⟨headersOf_ne_nil_iff.2 h, rfl⟩
  · rintro (⟨line, h⟩ | ⟨h, rfl⟩)
    · exact .lostBehind h
    · exact .dropped (headersOf_ne_nil_iff.1 h)

theorem warns_cons_iff : Warns index (block :: blocks) rest w ↔
    ((∃ line, Lost block.headers line w) ∨ (block.node.title = "" ∧ w = .noTitle index)) ∨
      Warns (index + 1) blocks rest w := by
  constructor
  · intro h
    cases h with
    | lost hblock h =>
      rcases List.mem_cons.1 hblock with rfl | hblock
      · exact .inl (.inl ⟨_, h⟩)
      · exact .inr (.lost hblock h)
    | lostBehind h => exact .inr (.lostBehind h)
    | @noTitle i _ hblock h =>
      cases i with
      | zero =>
        obtain rfl : block = _ := Option.some.inj hblock
        exact .inl (.inr ⟨h, rfl⟩)
      | succ i =>
        rw [show index + (i + 1) = index + 1 + i by omega]
        exact .inr (.noTitle hblock h)
    | dropped h => exact .inr (.dropped h)
  · rintro ((⟨line, h⟩ | ⟨h, rfl⟩) | h)
    · exact .lost List.mem_cons_self h
    · exact .noTitle (i := 0) rfl h
    · cases h with
      | lost hblock h => exact .lost (List.mem_cons_of_mem _ hblock) h
      | lostBehind h => exact .lostBehind h
      | @noTitle i block' hblock h =>
        rw [show index + 1 + i = index + (i + 1) by omega]
        exact .noTitle (i := i + 1) hblock h
      | dropped h => exact .dropped h

end Warns

/-! ## What is read of a block -/

section Read

variable {lines rest headers body : List NumberedLine} {blocks : List Block}

theorem finish_fst (index : Nat) : (finish (Draft.ofLines headers) index body).1 = Block.node ⟨headers, body⟩ := by
  rw [finish, (Draft.follows_ofLines headers).node]
  rfl

theorem mem_finish_snd (index : Nat) (w : Warning) : w ∈ (finish (Draft.ofLines headers) index body).2 ↔
    (∃ line, Lost headers line w) ∨ ((Block.node ⟨headers, body⟩).title = "" ∧ w = .noTitle index) := by
  have hdraft := Draft.follows_ofLines headers
  rw [finish, List.mem_append, hdraft.warnings w, exists_lost_iff, hdraft.node]
  refine or_congr_right ?_
  rw [show (Block.node ⟨headers, body⟩).title = (ofHeaders (headersOf headers)).title from rfl]
  by_cases htitle : (ofHeaders (headersOf headers)).title = "" <;> simp [htitle]

/-- **Blocks are read one by one**, with the warnings about them. -/
theorem Divides.readBlocks (h : Divides lines blocks rest) (index : Nat) :
    (readBlocks index lines).1 = blocks.map Block.node ∧
      ∀ w, w ∈ (readBlocks index lines).2 ↔ Warns index blocks rest w := by
  induction h generalizing index with
  | @rest lines h =>
    have huntil := untilLine_of_forall h
    have hdraft := Draft.follows_ofLines lines
    rw [readBlocks_of_no_body (congrArg Prod.snd huntil), huntil]
    refine ⟨rfl, fun w => ?_⟩
    rw [warns_nil_iff, List.mem_append, hdraft.warnings w, exists_lost_iff, hdraft.node, ← hdraft.started]
    refine or_congr_right ?_
    cases (Draft.ofLines lines).started <;> simp
  | @unended headers body start hheaders hstart hbody =>
    rw [readBlocks_unended hheaders hstart hbody]
    refine ⟨congrArg (fun node => [node]) (finish_fst index), fun w => ?_⟩
    have hrest : ¬Warns (index + 1) [] [] w := by
      rw [warns_nil_iff, exists_lost_iff]
      simp [headersOf]
    rw [mem_finish_snd, warns_cons_iff, or_iff_left hrest]
  | @ended headers body lines rest start stop blocks hheaders hstart hbody hstop _ ih =>
    obtain ⟨hnodes, hwarnings⟩ := ih (index + 1)
    rw [readBlocks_block hheaders hstart hbody hstop]
    refine ⟨?_, fun w => ?_⟩
    · rw [finish_fst, hnodes]
      rfl
    · rw [List.mem_append, mem_finish_snd, hwarnings w, warns_cons_iff]

end Read

/-! ## Without warnings -/

/-- **Nothing of a block is lost**: every line of its headers that is not blank is a header, every field has the value
of its only header or none, and the other headers are there in their order. -/
structure Kept (block : Block) (node : Node) : Prop where
  lines : ∀ line ∈ block.headers, Text.allBlank line.2 = true ∨ ∃ key value, IsHeader line.2 key value
  title : valuesOf .title (headersOf block.headers) = [node.title] ∨
    valuesOf .title (headersOf block.headers) = [] ∧ node.title = ""
  tags : valuesOf .tags (headersOf block.headers) = [node.tags] ∨
    valuesOf .tags (headersOf block.headers) = [] ∧ node.tags = ""
  position : (∃ value, valuesOf .position (headersOf block.headers) = [value] ∧
      readPosition? value.toList = some node.position) ∨
    valuesOf .position (headersOf block.headers) = [] ∧ node.position = {}
  parent : valuesOf .parent (headersOf block.headers) = node.parent.toList
  extra : node.extra = (headersOf block.headers).filter fun header => (Field.ofName? header.key).isNone
  body : node.body = .ofList (['\n'].intercalate (block.body.map Prod.snd))

section Kept

variable {lines : List NumberedLine}

theorem isHeader_of_not_lost (h : ∀ line w, ¬Lost lines line w) {line : NumberedLine} (hmem : line ∈ lines) :
    Text.allBlank line.2 = true ∨ ∃ key value, IsHeader line.2 key value := by
  by_contra hnot
  obtain ⟨hblank, hheader⟩ := not_or.1 hnot
  exact h line _ (.skipped hmem (Bool.eq_false_iff.2 hblank) fun key value hline => hheader ⟨key, value, hline⟩)

/-- A field that is given once at most has one value or none. -/
theorem valuesOf_of_not_lost (h : ∀ line w, ¬Lost lines line w) (field : Field) :
    valuesOf field (headersOf lines) = [] ∨ ∃ value, valuesOf field (headersOf lines) = [value] := by
  have htold : ∀ w, ¬∃ before line after, lines = before ++ line :: after ∧ Tells before line w := fun w hw =>
    (exists_lost_iff.2 hw).elim fun line hline => h line w hline
  clear h
  induction lines using List.reverseRecOn with
  | nil => exact .inl rfl
  | append_singleton lines line ih =>
    have hsplit := fun w => not_or.1 (mt exists_append_cons_concat_iff.2 (htold w))
    have hbefore := ih fun w => (hsplit w).1
    cases hheader : header? line with
    | none =>
      rw [headersOf_concat, hheader]
      simpa using hbefore
    | some header =>
      rw [headersOf_concat_of_header? hheader, valuesOf_concat]
      split
      · rename_i hkey
        have hnil : valuesOf field (headersOf lines) = [] := by
          by_contra hne
          exact (hsplit _).2 (.repeatedHeader hheader hkey hne)
        exact .inr ⟨header.value, by rw [hnil]; rfl⟩
      · simpa using hbefore

theorem exists_position_of_not_lost (h : ∀ line w, ¬Lost lines line w) {value : String}
    (hvalue : value ∈ valuesOf .position (headersOf lines)) :
    ∃ position, readPosition? value.toList = some position := by
  obtain ⟨header, hheader, rfl⟩ := List.mem_map.1 hvalue
  obtain ⟨hmem, hkey⟩ := List.mem_filter.1 hheader
  obtain ⟨line, hline, hgives⟩ := List.mem_filterMap.1 hmem
  cases hread : readPosition? header.value.toList with
  | some position => exact ⟨position, rfl⟩
  | none => exact absurd (.unreadable hline (isHeader_of_header? hgives (of_decide_eq_true hkey)) hread) (h line _)

/-- **A block of which no line is lost is kept.** -/
theorem kept_of_not_lost {block : Block} (h : ∀ line w, ¬Lost block.headers line w) : Kept block block.node where
  lines line hline := isHeader_of_not_lost h hline
  title := by
    rw [Block.node, ofHeaders]
    rcases valuesOf_of_not_lost h .title with heq | ⟨value, heq⟩ <;> simp [heq]
  tags := by
    rw [Block.node, ofHeaders]
    rcases valuesOf_of_not_lost h .tags with heq | ⟨value, heq⟩ <;> simp [heq]
  position := by
    rcases valuesOf_of_not_lost h .position with heq | ⟨value, heq⟩
    · exact .inr ⟨heq, by simp [Block.node, ofHeaders, heq]⟩
    · obtain ⟨position, hread⟩ := exists_position_of_not_lost h (heq ▸ List.mem_singleton_self value)
      exact .inl ⟨value, heq, by simp [Block.node, ofHeaders, heq, hread]⟩
  parent := by
    rw [Block.node, ofHeaders]
    rcases valuesOf_of_not_lost h .parent with heq | ⟨value, heq⟩ <;> simp [heq]
  extra := rfl
  body := rfl

end Kept

/-! ## Texts -/

/-- **Without warnings no header is lost, and what is lost is warned of.** The lines of a text that is read are divided
into blocks, each of which gives a node. Without warnings the nodes hold all of their headers, and only blank lines are
left behind the last block. What is warned of is just what is lost. -/
theorem parse_warns {text : String} {nodes : List Node} {warnings : List Warning}
    (h : parse text = .ok (nodes, warnings)) :
    ∃ blocks rest, Divides (Text.numberedLines text.toList) blocks rest ∧ nodes = blocks.map Block.node ∧
      (warnings = [] → List.Forall₂ Kept blocks nodes ∧ ∀ line ∈ rest, Text.allBlank line.2 = true) ∧
      ∀ w, w ∈ warnings ↔ Warns 0 blocks rest w := by
  have hread : readBlocks 0 (Text.numberedLines text.toList) = (nodes, warnings) := by
    rw [parse] at h
    split at h
    · exact Except.ok.inj h
    · cases h
  obtain ⟨blocks, rest, hdivides⟩ := exists_divides (Text.numberedLines text.toList)
  obtain ⟨hnodes, hwarnings⟩ := hdivides.readBlocks 0
  rw [hread] at hnodes hwarnings
  dsimp only at hnodes hwarnings
  refine ⟨blocks, rest, hdivides, hnodes, ?_, hwarnings⟩
  rintro rfl
  have hquiet : ∀ w, ¬Warns 0 blocks rest w := fun w hw => List.not_mem_nil ((hwarnings w).2 hw)
  constructor
  · rw [hnodes, List.forall₂_map_right_iff, List.forall₂_same]
    exact fun block hblock => kept_of_not_lost fun line w hlost => hquiet w (.lost hblock hlost)
  · intro line hline
    rcases isHeader_of_not_lost (fun line w hlost => hquiet w (.lostBehind hlost)) hline with hblank | hheader
    · exact hblank
    · exact absurd (.dropped ⟨line, hline, hheader⟩) (hquiet _)

/-- A header of no field that is repeated, blanks around a key, and no title but that of the other block. -/
theorem parse_warns_repeated_color :
    let text := "title: A\n color : red\ncolor:  blue\n\n---\nx\n===\nposition: 1,-2\ntitle: B\nparent:\n---\n"
    let nodes : List Node :=
      [{ title := "A", body := "x", extra := [⟨"color", "red"⟩, ⟨"color", " blue"⟩] },
        { title := "B", position := ⟨1, -2⟩, parent := some "" }]
    parse text = .ok (nodes, []) ∧ ∃ blocks rest, Divides (Text.numberedLines text.toList) blocks rest ∧
      List.Forall₂ Kept blocks nodes ∧ ∀ line ∈ rest, Text.allBlank line.2 = true := by
  intro text nodes
  have h : parse text = .ok (nodes, []) := by decide +kernel
  obtain ⟨blocks, rest, hdivides, -, hquiet, -⟩ := parse_warns h
  exact ⟨h, blocks, rest, hdivides, hquiet rfl⟩

/-- Everything that can be lost. -/
example : parse "title: A\nbad\ntitle: B\nposition: x\n---\n===\ntitle: C\n\nparent" =
    .ok ([{ title := "B" }],
      [.badHeader 2 "bad", .repeatedHeader 3 .title, .badPosition 4 "x", .badHeader 9 "parent",
        .droppedHeaders "C"]) := by
  decide +kernel

end Dialogue.Node
