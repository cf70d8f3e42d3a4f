import Mathlib
import Dialogue.Body.Block
import Dialogue.Proofs.Body.Tags
import Dialogue.Proofs.Expr.Slices
import Dialogue.Proofs.Text.Cut

/-!
# Lines by their offsets

A script is read here by byte offsets: each text is searched for marks and blanks, and sliced at what is found
(`Sliced.parse`). The only slices that may be no text are those before and behind the blank at which tags are split off:
where a script can be split, all slices are texts and it is read as it is (`Sliced.agrees_parse`).
-/

namespace Dialogue

open Text (Sliced Site BadSlice find? rfind? findBlank? rfindBlank?)
open Text.Sliced (slice slice_eq cutAt cutAt_eq ok_bind slice_inside slice_marked cutAt_marked)
open Token (byteLength)

theorem Text.length_lt_of_eq_append {cs a b : List Char} (h : cs = a ++ b) (ha : 0 < byteLength a) :
    b.length < cs.length := by
  cases a with
  | nil => simp at ha
  | cons d a =>
    rw [h, List.length_append, List.length_cons]
    omega

/-! ## Templates -/

namespace Template.Sliced

/-- **The template of a text**, its holes numbered from `index` on. -/
def build (index : Nat) (cs : List Char) : Sliced (List Char × List Expr × List Fault) :=
  match find? ['\x7b'] cs with
  | none => .ok (cs, [], [])
  | some start => do
    let ⟨(before, tail), _⟩ ← cutAt .braces cs start
    match find? ['\x7d'] tail with
    | none => .ok (before ++ tail, [], [.unclosed])
    | some length => do
      let stop := start + length
      let inside ← slice .braces cs (start + 1) stop
      match ← Expr.Sliced.parse inside with
      | .ok expr => do
        let ⟨(_, rest), _h⟩ ← cutAt .braces cs (stop + 1)
        let (text, holes, faults) ← build (index + 1) rest
        return (before ++ (marker index ++ text), expr :: holes, faults)
      | .error fault => do
        let braces ← slice .braces cs start (stop + 1)
        let ⟨(_, rest), _h⟩ ← cutAt .braces cs (stop + 1)
        let (text, holes, faults) ← build index rest
        return (before ++ (braces ++ text), holes, .badHole fault :: faults)
termination_by cs.length
decreasing_by
  all_goals exact Text.length_lt_of_eq_append _h.1 (by rw [_h.2]; omega)

/-- The template of a text, and what is wrong in it. -/
def ofText (cs : List Char) : Sliced (Template × List Fault) :=
  (build 0 cs).map fun (text, holes, faults) => (⟨.ofList text, holes⟩, faults)

end Template.Sliced

namespace Template.Sliced

theorem notMem_brace : '\x7d' ∉ ['\x7b'] := by decide

/-- **No slice of a template is bad.** -/
theorem build_eq (index : Nat) (cs : List Char) : build index cs = .ok (Template.build index (pieces cs)) := by
  fun_induction pieces cs generalizing index with
  | case1 cs hcut =>
    rw [build, Text.find?_eq_none hcut]
    simp [Template.build]
  | case2 cs before after hcut hclose =>
    have hcs : cs = before ++ (['\x7b'] ++ after) := by
      rw [← List.append_assoc]
      exact Text.eq_of_cut?_eq_some hcut
    rw [build, Text.find?_eq_some hcut]
    simp only [cutAt_eq .braces hcs rfl, ok_bind, Text.find?_unmarked notMem_brace hclose]
    simp [Template.build]
  | case3 cs before after hcut inside rest hclose ih =>
    have hcs := Text.eq_of_cut?_of_cut? hcut hclose
    have hfront : cs = before ++ (['\x7b'] ++ inside ++ ['\x7d'] ++ rest) := by simpa only [List.append_assoc] using hcs
    obtain ⟨_, hrest⟩ := cutAt_marked .braces hcs (n := 1) rfl
    rw [build, Text.find?_eq_some hcut]
    simp only [cutAt_eq .braces hfront rfl, ok_bind, Text.find?_marked notMem_brace hclose,
      slice_inside .braces hcs (n := 1) rfl,
      Expr.Sliced.parse_eq]
    rw [Template.build, Template.build]
    cases hparse : Expr.parse inside with
    | error fault =>
      simp only [slice_marked .braces hcs (n := 1) rfl, hrest, ok_bind, ih, List.append_assoc]
      rfl
    | ok expr =>
      simp only [hrest, ok_bind, ih]
      rfl

theorem ofText_eq (cs : List Char) : ofText cs = .ok (Template.ofText cs) := by
  rw [ofText, build_eq]
  rfl

end Template.Sliced

/-! ## Tags -/

namespace Tags.Sliced

/-- Splits tags off a text without blanks at its end. -/
def splitTrimmed (cs : List Char) : Sliced (List Char × List String) := do
  let start := ((rfindBlank? cs).map (· + 1)).getD 0
  let ⟨(front, word), _h⟩ ← cutAt .tags cs start
  if _hword : start = 0 ∨ word.head? ≠ some '#' ∨ byteLength word < 2 then return (cs, [])
  else
    let tag ← slice .tags word 1 (byteLength word)
    let (base, tags) ← splitTrimmed (Text.trimEnd front)
    return (base, tags ++ [.ofList tag])
termination_by cs.length
decreasing_by
  have hfront := Text.length_trimEnd_le front
  have hlength : cs.length = front.length + word.length := by rw [_h.1, List.length_append]
  have hne : word ≠ [] := by
    rintro rfl
    simp at _hword
  have := List.length_pos_iff.2 hne
  omega

/-- **The text before the tags, and the tags in order.** -/
def split (cs : List Char) : Sliced (List Char × List String) :=
  splitTrimmed (Text.trimEnd cs)

end Tags.Sliced

/-! ## Where tags are split off -/

/-- **A sliced reading agrees with another** if it has the same result, and a bad slice of tags where the other has
none. -/
def SlicesAgree {α : Type} (sliced : Sliced α) : Except TagFault α → Prop
  | .ok a => sliced = .ok a
  | .error _ => ∃ bad, sliced = .error bad ∧ bad.site = .tags

namespace SlicesAgree

variable {α β : Type} {sliced : Sliced α} {found : Except TagFault α}

theorem ok (a : α) : SlicesAgree (.ok a) (.ok a) := rfl

theorem bind {f : α → Sliced β} {g : α → Except TagFault β} (h : SlicesAgree sliced found)
    (hf : ∀ a, SlicesAgree (f a) (g a)) : SlicesAgree (sliced >>= f) (found >>= g) := by
  cases found with
  | ok a =>
    obtain rfl := h
    exact hf a
  | error fault =>
    obtain ⟨bad, rfl, hbad⟩ := h
    exact ⟨bad, rfl, hbad⟩

theorem map (h : SlicesAgree sliced found) (f : α → β) : SlicesAgree (sliced.map f) (found.map f) := by
  cases found with
  | ok a =>
    obtain rfl := h
    rfl
  | error fault =>
    obtain ⟨bad, rfl, hbad⟩ := h
    exact ⟨bad, rfl, hbad⟩

theorem eq_ok_iff (h : SlicesAgree sliced found) (a : α) : sliced = .ok a ↔ found = .ok a := by
  cases found with
  | ok b =>
    obtain rfl := h
    simp only [Except.ok.injEq]
  | error fault =>
    obtain ⟨bad, rfl, -⟩ := h
    exact iff_of_false (by simp) (by simp)

theorem exists_error_iff (h : SlicesAgree sliced found) :
    (∃ bad, sliced = .error bad) ↔ ∃ fault, found = .error fault := by
  cases found with
  | ok b =>
    obtain rfl := h
    exact iff_of_false (by simp) (by simp)
  | error fault =>
    obtain ⟨bad, rfl, -⟩ := h
    exact iff_of_true ⟨bad, rfl⟩ ⟨fault, rfl⟩

/-- A bad slice is one of tags. -/
theorem site_eq {bad : BadSlice} (h : SlicesAgree sliced found) (hbad : sliced = .error bad) : bad.site = .tags := by
  cases found with
  | ok b => cases hbad.symm.trans h
  | error fault =>
    obtain ⟨bad', hbad', hsite⟩ := h
    cases hbad.symm.trans hbad'
    exact hsite

end SlicesAgree

namespace Tags.Sliced

theorem tag?_eq_none_iff {word : List Char} : tag? word = none ↔ word.head? ≠ some '#' ∨ byteLength word < 2 := by
  match word with
  | [] => simp [tag?]
  | [c] =>
    by_cases hc : c = '#'
    · subst hc
      simp [tag?]
      decide
    · simp [tag?_of_ne hc, hc]
  | c :: d :: rest =>
    have hd := d.utf8Size_pos
    have hc' := c.utf8Size_pos
    by_cases hc : c = '#'
    · subst hc
      simp only [tag?, Text.byteLength_cons, List.head?_cons, reduceCtorEq, ne_eq, not_true_eq_false, false_or,
        false_iff]
      omega
    · simp [tag?_of_ne hc, hc]

section Steps

variable {rev before : List Char} {c : Char} (hcons : rev.dropWhile (!Text.isBlank ·) = c :: before)
include hcons

theorem splitTrimmed_wide (hwide : 1 < c.utf8Size) :
    ∃ bad, splitTrimmed rev.reverse = .error bad ∧ bad.site = .tags := by
  obtain ⟨bad, hbad, hsite⟩ := Text.Sliced.cutAt_inside .tags hwide (reverse_of_dropWhile hcons) rfl
  refine ⟨bad, ?_, hsite⟩
  rw [splitTrimmed, rfindBlank?, List.reverse_reverse, hcons]
  simp only [Option.map_some, Option.getD_some, hbad]
  rfl

/-- The cut behind a blank of one byte. -/
theorem cutAt_narrow (hnarrow : ¬ 1 < c.utf8Size) : ∃ h, cutAt .tags rev.reverse (byteLength before.reverse + 1) =
    .ok ⟨(before.reverse ++ [c], (rev.takeWhile (!Text.isBlank ·)).reverse), h⟩ := by
  have hone : c.utf8Size = 1 := by
    have := c.utf8Size_pos
    omega
  refine ⟨_, cutAt_eq .tags ?_ ?_⟩
  · rw [reverse_of_dropWhile hcons, List.append_assoc, List.singleton_append]
  · rw [Text.byteLength_append, Text.byteLength_cons, Text.byteLength_nil, hone]

theorem splitTrimmed_word (hnarrow : ¬ 1 < c.utf8Size)
    (htag : tag? (rev.takeWhile (!Text.isBlank ·)).reverse = none) :
    splitTrimmed rev.reverse = .ok (rev.reverse, []) := by
  obtain ⟨_, hcut⟩ := cutAt_narrow hcons hnarrow
  rw [splitTrimmed, rfindBlank?, List.reverse_reverse, hcons]
  simp only [Option.map_some, Option.getD_some, hcut, ok_bind]
  rw [dif_pos (.inr (tag?_eq_none_iff.1 htag))]
  rfl

theorem splitTrimmed_tag (hnarrow : ¬ 1 < c.utf8Size) {tag : List Char}
    (htag : tag? (rev.takeWhile (!Text.isBlank ·)).reverse = some tag) : splitTrimmed rev.reverse =
      (splitTrimmed (Text.trimStart before).reverse).map fun (base, tags) => (base, tags ++ [.ofList tag]) := by
  obtain ⟨_, hcut⟩ := cutAt_narrow hcons hnarrow
  have hword := eq_of_tag?_eq_some htag
  have hfront : Text.trimEnd (before.reverse ++ [c]) = (Text.trimStart before).reverse := by
    simp [Text.trimEnd, Text.trimStart, isBlank_of_dropWhile hcons]
  have hslice : slice .tags (rev.takeWhile (!Text.isBlank ·)).reverse 1
      (byteLength (rev.takeWhile (!Text.isBlank ·)).reverse) = .ok tag := by
    rw [hword]
    exact slice_eq (a := ['#']) (c := []) .tags (by simp) rfl rfl
  have hgoes : ¬ (byteLength before.reverse + 1 = 0 ∨ (rev.takeWhile (!Text.isBlank ·)).reverse.head? ≠ some '#' ∨
      byteLength (rev.takeWhile (!Text.isBlank ·)).reverse < 2) := by
    rw [← tag?_eq_none_iff, htag]
    simp
  rw [splitTrimmed, rfindBlank?, List.reverse_reverse, hcons]
  simp only [Option.map_some, Option.getD_some, hcut, ok_bind]
  rw [dif_neg hgoes, hslice, hfront, ok_bind]
  cases splitTrimmed (Text.trimStart before).reverse <;> rfl

end Steps

/-- **Only the blank before a last word can make a bad slice.** -/
theorem agrees_splitTrimmed (rev : List Char) : SlicesAgree (splitTrimmed rev.reverse)
    ((splitReversed rev).map fun (base, tags) => (base.reverse, tags)) := by
  fun_induction splitReversed rev with
  | case1 rev hnil =>
    have hcut := cutAt_eq (n := 0) .tags (List.nil_append rev.reverse).symm rfl
    rw [splitTrimmed, rfindBlank?, List.reverse_reverse, hnil]
    simp only [Option.map_none, Option.getD_none, hcut, ok_bind]
    rfl
  | case2 rev c before hcons hwide => exact splitTrimmed_wide hcons hwide
  | case3 rev c before hcons hnarrow htag => exact splitTrimmed_word hcons hnarrow htag
  | case4 rev c before hcons hnarrow tag htag fault hfault ih =>
    rw [splitTrimmed_tag hcons hnarrow htag]
    rw [hfault] at ih
    exact ih.map _
  | case5 rev c before hcons hnarrow tag htag base tags hmore ih =>
    rw [splitTrimmed_tag hcons hnarrow htag]
    rw [hmore] at ih
    exact ih.map _

/-- **Tags are split off by slices**, or a slice is bad where there is no split. -/
theorem agrees_split (cs : List Char) : SlicesAgree (split cs) (Tags.split cs) := by
  have h := agrees_splitTrimmed (Text.trimStart cs.reverse)
  rw [split, Text.trimEnd, Tags.split]
  cases hsplit : splitReversed (Text.trimStart cs.reverse) with
  | error fault =>
    rw [hsplit] at h
    exact h
  | ok r =>
    rw [hsplit] at h
    exact h

end Tags.Sliced

/-! ## Lines -/

namespace Item.Sliced

/-- The inside of a line that is one command. -/
def commandInside? (text : List Char) : Sliced (Option (List Char)) :=
  if (Text.dropPrefix? ['<', '<'] text).isSome ∧ (Text.dropSuffix? ['>', '>'] text).isSome ∧ 4 ≤ byteLength text then
    (slice .command text 2 (byteLength text - 2)).map fun inside => some (Text.trim inside)
  else .ok none

/-- The first word of a command and the rest of it. -/
def splitKeyword (inside : List Char) : Sliced (List Char × List Char) :=
  match findBlank? inside with
  | some i => (cutAt .keyword inside i).map fun r => (r.1.1, Text.trim r.1.2)
  | none => .ok (inside, [])

def readText (cs : List Char) : Sliced (Noted Template) :=
  (Template.Sliced.ofText cs).map fun (template, faults) => (template, faults.map .template)

def readCondition (cs : List Char) : Sliced (Noted Expr) :=
  (Expr.Sliced.parse cs).map fun found =>
    match found with
    | .ok expr => (expr, [])
    | .error fault => (.bool false, [.badCondition fault])

/-- **A command**, by its first word. -/
def readCommand (number : Nat) (inside : List Char) : Sliced (Noted Item) := do
  let (keyword, rest) ← splitKeyword inside
  match String.ofList keyword, rest with
  | "if", rest =>
    let (condition, faults) ← readCondition rest
    return (.opening condition, faults)
  | "elseif", rest =>
    let (condition, faults) ← readCondition rest
    return (.branch (some condition), faults)
  | "else", [] => return (.branch none, [])
  | "endif", [] => return (.closing, [])
  | "set", rest =>
    match ← Expr.Sliced.parseAssignment rest with
    | .ok (name, value) => return (.plain [.set number name value], [])
    | .error fault => return (.plain [], [.badSet (.ofList rest) fault])
  | "stop", [] => return (.plain [.stop], [])
  | "jump", [] => return (.plain [], [.noJumpTarget])
  | "jump", destination => return (.plain [.jump number (.ofList destination)], [])
  | _, _ =>
    let (text, faults) ← readText inside
    return (.plain [.command number text], faults)

/-- A line of dialogue with its tags. -/
def readLine (number : Nat) (cs : List Char) : Sliced (Noted Statement) := do
  let (base, tags) ← Tags.Sliced.split cs
  let (text, faults) ← readText base
  return (.line number text tags, faults)

/-- The label and the destination between the brackets of a link. -/
def splitLink (inside : List Char) : Sliced (Option (List Char) × List Char) :=
  match rfind? ['|'] inside with
  | some i => do
    let label ← slice .link inside 0 i
    let destination ← slice .link inside (i + 1) (byteLength inside)
    return (some label, Text.trim destination)
  | none => .ok (none, Text.trim inside)

def readLink (number : Nat) (inside : List Char) : Sliced (Noted (List Statement)) := do
  let (label, destination) ← splitLink inside
  if destination = [] then return ([], [.noDestination (.ofList inside)])
  else match label with
    | none => return ([.link number none (.ofList destination)], [])
    | some label =>
      let (text, faults) ← readText (Text.trim label)
      return ([.link number (some text) (.ofList destination)], faults)

/-- The line of dialogue before a link, if there is any text. -/
def readLeading (number : Nat) (cs : List Char) : Sliced (Noted (List Statement)) :=
  if cs = [] then .ok ([], [])
  else do
    let (line, faults) ← readLine number cs
    return ([line], faults)

/-- **Reads links from left to right**, as long as they are closed. -/
def readLinks (number : Nat) (cs : List Char) : Sliced Links :=
  match find? ['[', '['] cs with
  | none => .ok { rest := cs }
  | some start => do
    let ⟨(before, tail), _⟩ ← cutAt .link cs start
    match find? [']', ']'] tail with
    | none => .ok { faults := [.unclosedLink], rest := cs }
    | some length => do
      let stop := start + length
      let (lines, faults) ← readLeading number (Text.trim before)
      let inside ← slice .link cs (start + 2) stop
      let (links, linkFaults) ← readLink number inside
      let ⟨(_, rest), _h⟩ ← cutAt .link cs (stop + 2)
      let more ← readLinks number rest
      return { more with
        lines := lines ++ more.lines
        links := links ++ more.links
        faults := faults ++ linkFaults ++ more.faults }
termination_by cs.length
decreasing_by
  exact Text.length_lt_of_eq_append _h.1 (by rw [_h.2]; omega)

def readLinkLine (number : Nat) (cs : List Char) : Sliced (Noted Item) := do
  let found ← readLinks number cs
  let rest := Text.trim found.rest
  let ignored := if rest = [] ∨ found.links.isEmpty then [] else [.textAfterLink (.ofList rest)]
  return (.plain (found.lines ++ found.links), found.faults ++ ignored)

/-- The text and the condition of an option without its tags. -/
def splitCondition (cs : List Char) : Sliced (List Char × Option (List Char)) :=
  match rfind? ['<', '<', 'i', 'f'] cs with
  | some i =>
    if (Text.dropSuffix? ['>', '>'] cs).isSome then do
      let condition ← slice .condition cs (i + 4) (byteLength cs - 2)
      let text ← slice .condition cs 0 i
      return (Text.trimEnd text, some (Text.trim condition))
    else .ok (cs, none)
  | none => .ok (cs, none)

/-- The header of an option, after its arrow. -/
def readOption (cs : List Char) : Sliced (Noted Item) := do
  let (base, tags) ← Tags.Sliced.split (Text.trim cs)
  let (text, condition) ← splitCondition base
  let (condition, conditionFaults) ← match condition with
    | none => .ok (none, [])
    | some source => (readCondition source).map fun (condition, faults) => (some condition, faults)
  let (text, faults) ← readText text
  return (.option text condition tags, conditionFaults ++ faults)

/-- **What a line of text is.** -/
def read (number : Nat) (text : List Char) : Sliced (Noted Item) :=
  if (Text.dropPrefix? ['-', '>'] text).isSome then do
    let rest ← slice .arrow text 2 (byteLength text)
    readOption rest
  else do
    match ← commandInside? text with
    | some inside => readCommand number inside
    | none =>
      if (find? ['[', '['] text).isSome then readLinkLine number text
      else do
        let (line, faults) ← readLine number text
        return (.plain [line], faults)

/-! The slices that never are bad. -/

/-- The brackets at either end of a command do not overlap. -/
theorem commandInside?_of_brackets (inside : List Char) :
    Item.commandInside? (['<', '<'] ++ inside ++ ['>', '>']) = some (Text.trim inside) := by
  rw [Item.commandInside?, List.append_assoc, Text.dropPrefix?_append]
  dsimp only
  rw [Text.dropSuffix?_append, Option.map_some]

theorem exists_of_commandInside? {text inside : List Char} (h : Item.commandInside? text = some inside) :
    ∃ source, text = ['<', '<'] ++ source ++ ['>', '>'] := by
  unfold Item.commandInside? at h
  split at h
  · rename_i rest hrest
    obtain ⟨source, hsource, -⟩ := Option.map_eq_some_iff.1 h
    obtain ⟨source, rfl⟩ := Text.isSome_dropSuffix?_iff.1 (Option.isSome_iff_exists.2 ⟨source, hsource⟩)
    exact ⟨source, by rw [Text.dropPrefix?_eq_some_iff.1 hrest, List.append_assoc]⟩
  · cases h

theorem commandInside?_eq (text : List Char) : commandInside? text = .ok (Item.commandInside? text) := by
  unfold commandInside?
  split_ifs with h
  · obtain ⟨hopen, hclose, -⟩ := h
    obtain ⟨rest, hrest⟩ := Option.isSome_iff_exists.1 hopen
    have htext : text = ['<', '<'] ++ rest := Text.dropPrefix?_eq_some_iff.1 hrest
    have hsuffix : ['>', '>'] <:+ ['<', '<'] ++ rest := htext ▸ Text.isSome_dropSuffix?_iff.1 hclose
    obtain ⟨inside, rfl⟩ : ['>', '>'] <:+ rest :=
      Text.suffix_of_suffix_append_cons (a := ['<']) (c := '<') (by decide) hsuffix
    have hwhole : text = ['<', '<'] ++ inside ++ ['>', '>'] := by rw [htext]; simp
    have hslice : slice .command text 2 (byteLength text - 2) = .ok inside := by
      refine slice_eq .command hwhole rfl ?_
      rw [hwhole, Text.byteLength_append _ ['>', '>'], Text.byteLength_append]
      rfl
    rw [hslice, hwhole, commandInside?_of_brackets]
    rfl
  · refine congrArg Except.ok (Eq.symm ?_)
    cases hinside : Item.commandInside? text with
    | none => rfl
    | some inside =>
      obtain ⟨source, rfl⟩ := exists_of_commandInside? hinside
      refine absurd ⟨?_, ?_, ?_⟩ h
      · rw [List.append_assoc, Text.dropPrefix?_append, Option.isSome_some]
      · rw [Text.dropSuffix?_append, Option.isSome_some]
      · rw [Text.byteLength_append _ ['>', '>'], Text.byteLength_append]
        change 4 ≤ 2 + byteLength source + 2
        omega

theorem splitKeyword_eq (inside : List Char) : splitKeyword inside = .ok (Item.splitKeyword inside) := by
  unfold splitKeyword findBlank?
  split_ifs with h
  · have hall : ∀ c ∈ inside, (!Text.isBlank c) = true := by simpa using h
    rw [Item.splitKeyword, List.takeWhile_eq_self_iff.2 hall, List.dropWhile_eq_nil_iff.2 hall]
    rfl
  · dsimp only
    rw [cutAt_eq .keyword List.takeWhile_append_dropWhile.symm rfl]
    rfl

theorem readText_eq (cs : List Char) : readText cs = .ok (Item.readText cs) := by
  rw [readText, Template.Sliced.ofText_eq]
  rfl

theorem readCondition_eq (cs : List Char) : readCondition cs = .ok (Item.readCondition cs) := by
  rw [readCondition, Expr.Sliced.parse_eq, Item.readCondition]
  cases Expr.parse cs <;> rfl

theorem readCommand_eq (number : Nat) (inside : List Char) :
    readCommand number inside = .ok (Item.readCommand number inside) := by
  rcases hsplit : Item.splitKeyword inside with ⟨keyword, rest⟩
  rw [readCommand, splitKeyword_eq, hsplit]
  simp only [ok_bind, readCondition_eq, readText_eq, Expr.Sliced.parseAssignment_eq]
  generalize hword : String.ofList keyword = word
  -- the word decides the left side, and `hword` carries it over to the right side
  split <;> simp only [Item.readCommand, hsplit, hword]
  case h_5 => cases Expr.parseAssignment rest <;> rfl
  all_goals rfl

theorem splitLink_eq (inside : List Char) : splitLink inside = .ok (match Text.cutLast? ['|'] inside with
    | some (label, destination) => (some label, Text.trim destination)
    | none => (none, Text.trim inside)) := by
  unfold splitLink
  cases hcut : Text.cutLast? ['|'] inside with
  | none => rw [Text.rfind?_eq_none hcut]
  | some parts =>
    obtain ⟨label, destination⟩ := parts
    have hinside := Text.eq_of_cutLast?_eq_some hcut
    have hlabel : slice .link inside 0 (byteLength label) = .ok label :=
      slice_eq (a := []) .link (by rw [hinside, List.nil_append, List.append_assoc]) rfl (Nat.zero_add _)
    have hdestination : slice .link inside (byteLength label + 1) (byteLength inside) = .ok destination := by
      refine slice_eq (a := label ++ ['|']) (c := []) .link (by rw [hinside, List.append_nil]) ?_ ?_
      · rw [Text.byteLength_append]
        rfl
      · rw [hinside, ← Text.byteLength_append]
    rw [Text.rfind?_eq_some hcut]
    simp only [hlabel, hdestination, ok_bind]
    rfl

theorem readLink_eq (number : Nat) (inside : List Char) :
    readLink number inside = .ok (Item.readLink number inside) := by
  unfold readLink Item.readLink
  rw [splitLink_eq]
  simp only [ok_bind, readText_eq]
  cases Text.cutLast? ['|'] inside with
  | none =>
    dsimp only
    split_ifs <;> rfl
  | some parts =>
    dsimp only
    split_ifs <;> rfl

theorem splitCondition_eq (cs : List Char) : splitCondition cs = .ok (Item.splitCondition cs) := by
  unfold splitCondition Item.splitCondition
  cases hcut : Text.cutLast? ['<', '<', 'i', 'f'] cs with
  | none => rw [Text.rfind?_eq_none hcut]
  | some parts =>
    obtain ⟨text, condition⟩ := parts
    have hcs := Text.eq_of_cutLast?_eq_some hcut
    rw [Text.rfind?_eq_some hcut]
    cases hclose : Text.dropSuffix? ['>', '>'] cs with
    | none => rfl
    | some front =>
      have hsuffix : ['>', '>'] <:+ (text ++ ['<', '<', 'i']) ++ 'f' :: condition := by
        have hsuffix := Text.isSome_dropSuffix?_iff.1 (Option.isSome_iff_exists.2 ⟨front, hclose⟩)
        rw [hcs] at hsuffix
        simpa using hsuffix
      obtain ⟨source, rfl⟩ := Text.suffix_of_suffix_append_cons (by decide) hsuffix
      have hcondition : slice .condition cs (byteLength text + 4) (byteLength cs - 2) = .ok source := by
        refine slice_eq (a := text ++ ['<', '<', 'i', 'f']) (c := ['>', '>']) .condition ?_ ?_ ?_
        · rw [hcs, List.append_assoc _ source]
        · rw [Text.byteLength_append]
          rfl
        · rw [hcs, ← List.append_assoc, Text.byteLength_append _ ['>', '>'], Text.byteLength_append _ source]
          rfl
      have htext : slice .condition cs 0 (byteLength text) = .ok text :=
        slice_eq (a := []) .condition (by rw [hcs, List.nil_append, List.append_assoc]) rfl (Nat.zero_add _)
      simp only [Option.isSome_some, if_true, hcondition, htext, ok_bind]
      simp
      rfl

/-! The slices that are bad where tags cannot be split off. -/

theorem agrees_readLine (number : Nat) (cs : List Char) : SlicesAgree (readLine number cs) (Item.readLine number cs) := by
  refine (Tags.Sliced.agrees_split cs).bind fun (base, tags) => ?_
  dsimp only
  rw [readText_eq]
  exact .ok _

theorem agrees_readLeading (number : Nat) (cs : List Char) :
    SlicesAgree (readLeading number cs) (Item.readLeading number cs) := by
  unfold readLeading Item.readLeading
  split_ifs
  · exact .ok _
  · exact (agrees_readLine number cs).bind fun (line, faults) => .ok _

theorem notMem_bracket : ']' ∉ ['[', '['] := by decide

theorem agrees_readLinks (number : Nat) (cs : List Char) :
    SlicesAgree (readLinks number cs) (Item.readLinks number cs) := by
  fun_induction Item.readLinks number cs with
  | case1 cs hcut =>
    rw [readLinks, Text.find?_eq_none hcut]
    exact .ok _
  | case2 cs before after hcut hclose =>
    have hcs : cs = before ++ (['[', '['] ++ after) := by
      rw [← List.append_assoc]
      exact Text.eq_of_cut?_eq_some hcut
    rw [readLinks, Text.find?_eq_some hcut]
    simp only [cutAt_eq .link hcs rfl, ok_bind, Text.find?_unmarked notMem_bracket hclose]
    exact .ok _
  | case3 cs before after hcut inside rest hclose ih =>
    have hcs := Text.eq_of_cut?_of_cut? hcut hclose
    have hfront : cs = before ++ (['[', '['] ++ inside ++ [']', ']'] ++ rest) := by
      simpa only [List.append_assoc] using hcs
    obtain ⟨_, hrest⟩ := cutAt_marked .link hcs (n := 2) rfl
    rw [readLinks, Text.find?_eq_some hcut]
    simp only [cutAt_eq .link hfront rfl, ok_bind, Text.find?_marked notMem_bracket hclose]
    refine (agrees_readLeading number (Text.trim before)).bind fun (lines, faults) => ?_
    dsimp only
    rw [slice_inside .link hcs (n := 2) rfl, ok_bind, readLink_eq, ok_bind, hrest, ok_bind]
    exact ih.bind fun more => .ok _

theorem agrees_readLinkLine (number : Nat) (cs : List Char) :
    SlicesAgree (readLinkLine number cs) (Item.readLinkLine number cs) :=
  (agrees_readLinks number cs).bind fun _ => .ok _

theorem agrees_readOption (cs : List Char) : SlicesAgree (readOption cs) (Item.readOption cs) := by
  refine (Tags.Sliced.agrees_split (Text.trim cs)).bind fun (base, tags) => ?_
  dsimp only
  rw [splitCondition_eq, ok_bind]
  generalize Item.splitCondition base = parts
  obtain ⟨text, condition⟩ := parts
  cases condition with
  | none =>
    simp only [ok_bind, readText_eq]
    exact .ok _
  | some source =>
    simp only [readCondition_eq, Except.map, ok_bind, readText_eq]
    exact .ok _

/-- **A line is read by slices**, or a slice of tags is bad where they cannot be split off. -/
theorem agrees_read (number : Nat) (text : List Char) : SlicesAgree (read number text) (Item.read number text) := by
  unfold read Item.read
  cases harrow : Text.dropPrefix? ['-', '>'] text with
  | some rest =>
    have htext := Text.dropPrefix?_eq_some_iff.1 harrow
    have hrest : slice .arrow text 2 (byteLength text) = .ok rest :=
      slice_eq (a := ['-', '>']) (c := []) .arrow (by rw [htext, List.append_nil]) rfl
        (by rw [htext, Text.byteLength_append])
    simp only [Option.isSome_some, if_true, hrest, ok_bind]
    exact agrees_readOption rest
  | none =>
    simp only [Option.isSome_none, Bool.false_eq_true, if_false, commandInside?_eq, ok_bind]
    cases Item.commandInside? text with
    | some inside =>
      dsimp only
      rw [readCommand_eq]
      exact .ok _
    | none =>
      dsimp only
      rw [find?, Option.isSome_map]
      split_ifs
      · exact agrees_readLinkLine number text
      · exact (agrees_readLine number text).bind fun (line, faults) => .ok _

end Item.Sliced

namespace BodyLine.Sliced

/-- Reads one line. -/
def read (line : Nat × Nat × List Char) : Sliced BodyLine := do
  let (number, indent, text) := line
  let (item, faults) ← Item.Sliced.read number text
  return { number, indent, text, item, faults }

theorem agrees_read (line : Nat × Nat × List Char) : SlicesAgree (read line) (BodyLine.read line) :=
  (Item.Sliced.agrees_read line.1 line.2.2).bind fun _ => .ok _

theorem agrees_mapM_read (lines : List (Nat × Nat × List Char)) :
    SlicesAgree (lines.mapM read) (lines.mapM BodyLine.read) := by
  induction lines with
  | nil => exact .ok []
  | cons line lines ih =>
    rw [List.mapM_cons, List.mapM_cons]
    exact (agrees_read line).bind fun _ => ih.bind fun _ => .ok _

end BodyLine.Sliced

namespace Body.Sliced

/-- **Reads the body of a node.** -/
def parse (src : String) : Sliced (Parsed Statement) := do
  let lines ← (BodyLine.kept src.toList).mapM BodyLine.Sliced.read
  return block lines

/-- **A script is read by slices**, or a slice of tags is bad where they cannot be split off. -/
theorem agrees_parse (src : String) : SlicesAgree (parse src) (Body.parse src) :=
  (BodyLine.Sliced.agrees_mapM_read (BodyLine.kept src.toList)).bind fun _ => .ok _

end Body.Sliced

end Dialogue
