import Mathlib
import Dialogue.Body.Line
import Dialogue.Proofs.Body.Tags
import Dialogue.Proofs.Text.Cut
import Dialogue.Proofs.Text.Line

/-!
# Conditions of options

A command opens a conditional when its first word is `if`. Behind the text of an option something else counts: that the
line has a last `<<if`, wherever the word ends, that it ends in `>>`, and that no word of it was split off as a tag
before. So the option `-> text <<command>>` has the condition that the line `<<command>>` opens, and keeps the command
as text when it opens none, exactly unless the last word of the command starts with `#`, a word of it only starts with
`if`, or a `<` comes before that word (`Item.agrees_iff`).
-/

namespace Dialogue

namespace Item

/-- A line that is one command. -/
def commandLine (inside : List Char) : List Char :=
  '<' :: '<' :: (inside ++ ['>', '>'])

/-- An option with a command behind its text. -/
def optionLine (text inside : List Char) : List Char :=
  '-' :: '>' :: ' ' :: (text ++ ' ' :: commandLine inside)

/-- **A text that can stand in a command**: it opens and closes none, and no blanks are at its ends. -/
structure IsInside (inside : List Char) : Prop where
  not_open : ¬['<', '<'] <:+: inside
  not_close : ¬['>', '>'] <:+: inside
  trimmed : Text.trim inside = inside

/-- The last word is not the first one, and it starts like a tag. -/
def EndsLikeTag (inside : List Char) : Prop :=
  inside.any Text.isBlank = true ∧ (Tags.lastWord inside).head? = some '#'

/-- **The option says what the line says**: the condition that the line opens is that of the option; if the line opens
none, the command is a part of the option's text. -/
def Agrees (number : Nat) (text inside : List Char) : Prop :=
  match read number (commandLine inside) with
  | .ok (.opening condition, _) => ∃ faults,
    read number (optionLine text inside) = .ok (.option (readText (Text.trim text)).1 (some condition) [], faults)
  | _ => ∃ faults, read number (optionLine text inside) =
    .ok (.option (readText (Text.trim (text ++ ' ' :: commandLine inside))).1 none [], faults)

variable {number : Nat} {text inside rest base : List Char}

/-! ## The line -/

theorem read_commandLine (hinside : IsInside inside) (number : Nat) :
    read number (commandLine inside) = .ok (readCommand number inside) := by
  have hsuffix : Text.dropSuffix? ['>', '>'] (inside ++ ['>', '>']) = some inside := Text.dropSuffix?_append inside _
  have hcommand : commandInside? (commandLine inside) = some inside := by
    rw [commandInside?, show Text.dropPrefix? ['<', '<'] (commandLine inside) = some (inside ++ ['>', '>']) from
      Text.dropPrefix?_append _ _]
    dsimp only
    rw [hsuffix, Option.map_some, hinside.trimmed]
  have harrow : Text.dropPrefix? ['-', '>'] (commandLine inside) = none := rfl
  rw [read, harrow]
  dsimp only
  rw [hcommand]

/-- A word that starts with `if` is it, when nothing or a blank follows. -/
theorem readCommand_if (h : (splitKeyword inside).1 = ['i', 'f']) (number : Nat) :
    ∃ rest, inside = 'i' :: 'f' :: rest ∧ readCommand number inside =
      (.opening (readCondition (Text.trim rest)).1, (readCondition (Text.trim rest)).2) := by
  have hsplit : inside = (splitKeyword inside).1 ++ inside.dropWhile (!Text.isBlank ·) :=
    List.takeWhile_append_dropWhile.symm
  refine ⟨inside.dropWhile (!Text.isBlank ·), by rw [h] at hsplit; exact hsplit, ?_⟩
  have hpair : splitKeyword inside = (['i', 'f'], Text.trim (inside.dropWhile (!Text.isBlank ·))) := Prod.ext h rfl
  rw [readCommand, hpair]
  rfl

theorem readCommand_ne_opening (h : (splitKeyword inside).1 ≠ ['i', 'f']) (number : Nat) (condition : Expr)
    (faults : List BodyFault) : readCommand number inside ≠ (.opening condition, faults) := by
  have hword : String.ofList (splitKeyword inside).1 ≠ "if" := fun he => h (by
    rw [← String.toList_ofList (l := (splitKeyword inside).1), he]
    rfl)
  intro hread
  rw [readCommand] at hread
  dsimp only at hread
  split at hread
  case h_1 hif => exact hword hif
  case h_5 => split at hread <;> cases hread
  all_goals cases hread

/-! ## The option -/

/-- The front of the option's text, up to the command. -/
def optionFront (text : List Char) : List Char :=
  Text.trimStart (text ++ [' '])

theorem optionFront_suffix (text : List Char) : optionFront text <:+ text ++ [' '] :=
  List.dropWhile_suffix _

theorem optionFront_eq_nil_or (text : List Char) :
    optionFront text = [] ∨ ∃ before, optionFront text = before ++ [' '] := by
  rcases List.eq_nil_or_concat (optionFront text) with h | ⟨before, c, h⟩
  · exact .inl h
  · rw [List.concat_eq_append] at h
    obtain ⟨gone, hgone⟩ := optionFront_suffix text
    rw [h, ← List.append_assoc] at hgone
    rw [h, (List.append_inj' hgone rfl).2]
    exact .inr ⟨before, rfl⟩

theorem trimEnd_optionFront (text : List Char) : Text.trimEnd (optionFront text) = Text.trim text :=
  Text.trim_append_singleton (by decide) text

/-- The command is what the text of the option ends in. -/
theorem trim_append_commandLine (text inside : List Char) :
    Text.trim (text ++ ' ' :: commandLine inside) = optionFront text ++ commandLine inside := by
  have hsplit : text ++ ' ' :: commandLine inside = (text ++ [' ']) ++ '<' :: ('<' :: (inside ++ ['>', '>'])) := by
    simp [commandLine]
  have hend : optionFront text ++ '<' :: ('<' :: (inside ++ ['>', '>'])) =
      (optionFront text ++ '<' :: '<' :: (inside ++ ['>'])) ++ ['>'] := by simp
  rw [hsplit, Text.trim, Text.trimStart_append_cons (by decide)]
  exact (congrArg Text.trimEnd hend).trans ((Text.trimEnd_append_singleton (by decide) _).trans hend.symm)

/-- An option by the text before its tags. -/
theorem read_optionLine {tags : List String}
    (h : Tags.split (optionFront text ++ commandLine inside) = .ok (base, tags)) (number : Nat) :
    ∃ faults, read number (optionLine text inside) =
      .ok (.option (readText (splitCondition base).1).1 ((splitCondition base).2.map fun s => (readCondition s).1) tags,
        faults) := by
  have harrow : Text.dropPrefix? ['-', '>'] (optionLine text inside) =
      some (' ' :: (text ++ ' ' :: commandLine inside)) := rfl
  have htrim : Text.trim (' ' :: (text ++ ' ' :: commandLine inside)) = optionFront text ++ commandLine inside := by
    rw [← trim_append_commandLine]
    rfl
  rw [read, harrow]
  dsimp only
  rw [readOption, htrim, h]
  cases hsplit : (splitCondition base).2 with
  | none => exact ⟨_, by simp only [bind, Except.bind, hsplit]; rfl⟩
  | some source => exact ⟨_, by simp only [bind, Except.bind, hsplit]; rfl⟩

/-- What is read of an option is a single condition and a single list of tags. -/
theorem eq_of_read_option {line : List Char} {text text' : Template} {condition condition' : Option Expr}
    {tags tags' : List String} {faults faults' : List BodyFault}
    (h : read number line = .ok (.option text condition tags, faults))
    (h' : read number line = .ok (.option text' condition' tags', faults')) :
    condition = condition' ∧ tags = tags' := by
  have heq := h.symm.trans h'
  simp only [Except.ok.injEq, Prod.mk.injEq, option.injEq] at heq
  exact heq.1.2

/-! ## The condition of the option -/

/-- No command is opened before the one at the end. -/
theorem not_open_optionFront (htext : ¬['<', '<'] <:+: text) : ¬['<', '<'] <:+: optionFront text := by
  intro h
  rcases (Text.infix_append_cons_iff (by decide)).1 (h.trans (optionFront_suffix text).isInfix) with h | h
  · exact htext h
  · cases List.infix_nil.1 h

theorem not_infix_of_not_open {cs : List Char} (h : ¬['<', '<'] <:+: cs) : ¬['<', '<', 'i', 'f'] <:+: cs :=
  fun hif => h ((List.prefix_append ['<', '<'] ['i', 'f']).isInfix.trans hif)

theorem dropSuffix?_commandLine (front inside : List Char) :
    Text.dropSuffix? ['>', '>'] (front ++ commandLine inside) = some (front ++ '<' :: '<' :: inside) := by
  have hsplit : front ++ commandLine inside = (front ++ '<' :: '<' :: inside) ++ ['>', '>'] := by simp [commandLine]
  rw [hsplit, Text.dropSuffix?_append]

/-- **A word that starts with `if` opens the condition**, wherever it ends. -/
theorem splitCondition_if (hinside : IsInside ('i' :: 'f' :: rest)) (front : List Char) :
    splitCondition (front ++ commandLine ('i' :: 'f' :: rest)) = (Text.trimEnd front, some (Text.trim rest)) := by
  have hlast : ¬['<', '<', 'i', 'f'] <:+: ['<', 'i', 'f'] ++ (rest ++ ['>', '>']) := by
    intro h
    rcases (Text.infix_append_cons_iff (a := '<' :: 'i' :: 'f' :: rest) (by decide)).1 h with h | h
    · rcases List.infix_cons_iff.1 h with h | h
      · simp at h
      · exact not_infix_of_not_open hinside.not_open h
    · exact absurd h (by decide)
  have hcut : Text.cutLast? ['<', '<', 'i', 'f'] (front ++ commandLine ('i' :: 'f' :: rest)) =
      some (front, rest ++ ['>', '>']) := by
    have := Text.cutLast?_append_mark hlast front
    rwa [List.append_assoc] at this
  rw [splitCondition, hcut, dropSuffix?_commandLine]
  simp

/-- A `<` before the word is taken for a part of the text. -/
theorem splitCondition_angle_if (hinside : IsInside ('<' :: 'i' :: 'f' :: rest)) (front : List Char) :
    splitCondition (front ++ commandLine ('<' :: 'i' :: 'f' :: rest)) =
      (Text.trimEnd (front ++ ['<']), some (Text.trim rest)) := by
  have hlast : ¬['<', '<', 'i', 'f'] <:+: ['<', 'i', 'f'] ++ (rest ++ ['>', '>']) := by
    intro h
    rcases (Text.infix_append_cons_iff (a := '<' :: 'i' :: 'f' :: rest) (by decide)).1 h with h | h
    · exact not_infix_of_not_open hinside.not_open h
    · exact absurd h (by decide)
  have hcut : Text.cutLast? ['<', '<', 'i', 'f'] (front ++ commandLine ('<' :: 'i' :: 'f' :: rest)) =
      some (front ++ ['<'], rest ++ ['>', '>']) := by
    have := Text.cutLast?_append_mark hlast (front ++ ['<'])
    rwa [List.append_assoc, List.append_assoc] at this
  rw [splitCondition, hcut, dropSuffix?_commandLine]
  simp

/-- Any other command is a part of the text. -/
theorem splitCondition_of_not (htext : ¬['<', '<'] <:+: text) (hinside : IsInside inside) (hif : ¬['i', 'f'] <+: inside)
    (hangle : ¬['<', 'i', 'f'] <+: inside) :
    splitCondition (optionFront text ++ commandLine inside) = (optionFront text ++ commandLine inside, none) := by
  have hnot : ¬['<', '<', 'i', 'f'] <:+: '<' :: '<' :: inside := by
    intro h
    rcases List.infix_cons_iff.1 h with h | h
    · exact hif (by simpa using h)
    · rcases List.infix_cons_iff.1 h with h | h
      · exact hangle (by simpa using h)
      · exact not_infix_of_not_open hinside.not_open h
  have hcommand : ¬['<', '<', 'i', 'f'] <:+: commandLine inside := by
    intro h
    rcases (Text.infix_append_cons_iff (a := '<' :: '<' :: inside) (by decide)).1 h with h | h
    · exact hnot h
    · exact absurd h (by decide)
  have hfront := not_infix_of_not_open (not_open_optionFront htext)
  have hnone : Text.cutLast? ['<', '<', 'i', 'f'] (optionFront text ++ commandLine inside) = none := by
    refine (Text.cutLast?_eq_none_iff (by decide)).2 fun h => ?_
    rcases optionFront_eq_nil_or text with hnil | ⟨before, hblank⟩
    · rw [hnil] at h
      exact hcommand h
    · rw [hblank, List.append_assoc] at h
      rcases (Text.infix_append_cons_iff (by decide)).1 h with h | h
      · exact hfront (hblank ▸ h.trans (List.prefix_append before _).isInfix)
      · exact hcommand h
  rw [splitCondition, hnone]

/-- **Where a tag is split off there is no condition**: what is left ends no command. -/
theorem splitCondition_of_cut (htext : ¬['<', '<'] <:+: text) {before : List Char} (hbefore : ¬['>', '>'] <:+: before)
    (hbase : base <+: optionFront text ++ '<' :: '<' :: before) : splitCondition base = (base, none) := by
  cases hcut : Text.cutLast? ['<', '<', 'i', 'f'] base with
  | none => rw [splitCondition, hcut]
  | some parts =>
    have hopen : ['<', '<'] <:+: base := by
      rw [Text.eq_of_cutLast?_eq_some hcut]
      exact ⟨parts.1, 'i' :: 'f' :: parts.2, by simp⟩
    have hclose : ¬['>', '>'] <:+ base := by
      intro hclose
      rcases List.prefix_or_prefix_of_prefix hbase (List.prefix_append _ _) with h | ⟨inner, rfl⟩
      · exact not_open_optionFront htext (hopen.trans h.isInfix)
      rw [List.prefix_append_right_inj] at hbase
      match inner, hbase with
      | [], _ =>
        rw [List.append_nil] at hopen
        exact not_open_optionFront htext hopen
      | [_], hbase =>
        obtain ⟨rfl, -⟩ := List.cons_prefix_cons.1 hbase
        cases List.suffix_nil.1 (Text.suffix_of_suffix_append_cons (by decide) hclose)
      | _ :: _ :: inner, hbase =>
        obtain ⟨rfl, hnext⟩ := List.cons_prefix_cons.1 hbase
        obtain ⟨rfl, hinner⟩ := List.cons_prefix_cons.1 hnext
        have hend : ['>', '>'] <:+ inner := Text.suffix_of_suffix_append_cons (a := []) (by decide)
          (Text.suffix_of_suffix_append_cons (by decide) hclose)
        exact hbefore (hend.isInfix.trans hinner.isInfix)
    rw [splitCondition, hcut, Text.dropSuffix?_eq_none_iff.2 hclose]

/-! ## Both lines -/

section Agreement

variable (htext : ¬['<', '<'] <:+: text) (hinside : IsInside inside)
  (hnarrow : ∀ c ∈ text ++ inside, Text.isBlank c = true → c.utf8Size ≤ 1)

include hinside in
theorem not_isBlank_of_getLast? {c : Char} (h : inside.getLast? = some c) : Text.isBlank c = false :=
  Text.not_isBlank_of_getLast?_trim (by rwa [hinside.trimmed])

/-- The last word of the command is closed by the end of the line. -/
theorem append_commandLine {before word : List Char} {c : Char} (h : inside = before ++ c :: word) (front : List Char) :
    front ++ commandLine inside = (front ++ '<' :: '<' :: before ++ [c]) ++ (word ++ ['>', '>']) := by
  simp [commandLine, h]

theorem not_isBlank_of_mem_end : ∀ c ∈ Tags.lastWord inside ++ ['>', '>'], Text.isBlank c = false := by
  intro c hc
  simp only [List.mem_append, List.mem_cons, List.not_mem_nil, or_false] at hc
  rcases hc with hc | rfl | rfl
  · exact Tags.not_isBlank_of_mem_lastWord hc
  · decide
  · decide

include hinside hnarrow in
/-- **Without a last word like a tag the option keeps its whole text.** -/
theorem split_of_not_endsLikeTag (htag : ¬EndsLikeTag inside) :
    Tags.split (optionFront text ++ commandLine inside) = .ok (optionFront text ++ commandLine inside, []) := by
  rcases Tags.eq_lastWord_or inside with ⟨-, hword⟩ | ⟨before, c, hsplit, hblank⟩
  · have hcommand : ∀ c ∈ commandLine inside, Text.isBlank c = false := by
      intro c hc
      simp only [commandLine, List.mem_cons, List.mem_append, List.not_mem_nil, or_false] at hc
      rcases hc with rfl | rfl | hc | rfl | rfl
      · decide
      · decide
      · exact hword c hc
      · decide
      · decide
    refine Tags.split_append_word hcommand (List.cons_ne_nil _ _) ?_
    exact (optionFront_eq_nil_or text).imp_right fun ⟨before, h⟩ => ⟨before, ' ', h, by decide, by decide, rfl⟩
  · obtain ⟨d, word, hlast⟩ : ∃ d word, Tags.lastWord inside = d :: word := by
      refine List.exists_cons_of_ne_nil fun hnil => ?_
      rw [hnil] at hsplit
      have hend := not_isBlank_of_getLast? hinside (c := c) (by rw [hsplit]; simp)
      cases hblank.symm.trans hend
    have hany : inside.any Text.isBlank = true := List.any_eq_true.2 ⟨c, by rw [hsplit]; simp, hblank⟩
    have hd : d ≠ '#' := fun he => htag ⟨hany, by rw [hlast, he]; rfl⟩
    have hnone : Tags.tag? (Tags.lastWord inside ++ ['>', '>']) = none := by
      rw [hlast, List.cons_append, Tags.tag?_of_ne hd]
    have hmem : c ∈ inside := by
      rw [hsplit]
      simp
    rw [append_commandLine hsplit]
    refine Tags.split_append_word not_isBlank_of_mem_end (by simp) (.inr ⟨_, c, rfl, hblank, ?_, hnone⟩)
    exact hnarrow c (List.mem_append_right _ hmem) hblank

include htext hinside hnarrow in
/-- **A last word like a tag is split off**, and there is no condition. -/
theorem read_optionLine_of_endsLikeTag (htag : EndsLikeTag inside) (number : Nat) : ∃ text' tags faults,
    read number (optionLine text inside) = .ok (.option text' none tags, faults) ∧ tags ≠ [] := by
  obtain ⟨hany, hhead⟩ := htag
  rcases Tags.eq_lastWord_or inside with ⟨-, hword⟩ | ⟨before, c, hsplit, hblank⟩
  · obtain ⟨c, hc, hblank⟩ := List.any_eq_true.1 hany
    cases hblank.symm.trans (hword c hc)
  obtain ⟨word, hlast⟩ := List.head?_eq_some_iff.1 hhead
  have htag : ∃ tag, Tags.tag? (Tags.lastWord inside ++ ['>', '>']) = some tag := by
    rw [hlast]
    cases word <;> exact ⟨_, rfl⟩
  have hbefore : before ++ [c] <+: inside := by
    rw [hsplit]
    exact ⟨Tags.lastWord inside, by simp⟩
  have hsize : ∀ d ∈ (optionFront text ++ '<' :: '<' :: before) ++ [c], Text.isBlank d = true → d.utf8Size ≤ 1 := by
    intro d hd hblank
    rw [List.append_assoc, List.mem_append, List.cons_append, List.mem_cons, List.cons_append, List.mem_cons] at hd
    rcases hd with hd | rfl | rfl | hd
    · rcases List.mem_append.1 ((optionFront_suffix text).subset hd) with hd | hd
      · exact hnarrow d (List.mem_append_left _ hd) hblank
      · rw [List.mem_singleton.1 hd]
        decide
    · decide
    · decide
    · exact hnarrow d (List.mem_append_right _ (hbefore.subset hd)) hblank
  obtain ⟨tag, htag⟩ := htag
  obtain ⟨base, tags, hbase, hprefix, hne⟩ := Tags.split_append_tag not_isBlank_of_mem_end hblank hsize htag
  have hcommand : Tags.split (optionFront text ++ commandLine inside) = .ok (base, tags) := by
    rw [append_commandLine hsplit, ← hbase]
    simp
  have hclose : ¬['>', '>'] <:+: before := fun h =>
    hinside.not_close (h.trans ((List.prefix_append before [c]).trans hbefore).isInfix)
  obtain ⟨faults, hread⟩ := read_optionLine hcommand number
  rw [splitCondition_of_cut htext hclose hprefix] at hread
  exact ⟨_, tags, faults, hread, hne⟩

/-- **The option and the line agree exactly** when the last word of the command is not like a tag, no `<` stands before
a word `if`, and a word that starts with `if` is this word. -/
theorem agrees_iff (htext : ¬['<', '<'] <:+: text) (hinside : IsInside inside)
    (hnarrow : ∀ c ∈ text ++ inside, Text.isBlank c = true → c.utf8Size ≤ 1) (number : Nat) :
    Agrees number text inside ↔ ¬EndsLikeTag inside ∧ ¬['<', 'i', 'f'] <+: inside ∧
      (['i', 'f'] <+: inside → (splitKeyword inside).1 = ['i', 'f']) := by
  rw [Agrees, read_commandLine hinside]
  by_cases htag : EndsLikeTag inside
  · obtain ⟨text', tags, faults, hoption, hne⟩ := read_optionLine_of_endsLikeTag htext hinside hnarrow htag number
    refine iff_of_false ?_ fun h => h.1 htag
    split
    · rintro ⟨faults', h⟩
      cases (eq_of_read_option hoption h).1
    · rintro ⟨faults', h⟩
      exact hne (eq_of_read_option hoption h).2
  have hsplit := split_of_not_endsLikeTag hinside hnarrow htag
  obtain ⟨faults, hoption⟩ := read_optionLine hsplit number
  by_cases hkeyword : (splitKeyword inside).1 = ['i', 'f']
  · obtain ⟨rest, rfl, hcommand⟩ := readCommand_if hkeyword number
    rw [splitCondition_if hinside, trimEnd_optionFront] at hoption
    rw [hcommand]
    refine iff_of_true ⟨faults, hoption⟩ ⟨htag, by simp, fun _ => hkeyword⟩
  split
  · rename_i condition faults' hopening
    exact absurd (Except.ok.inj hopening) (readCommand_ne_opening hkeyword number condition faults')
  rw [trim_append_commandLine]
  by_cases hif : ['i', 'f'] <+: inside
  · refine iff_of_false ?_ fun h => hkeyword (h.2.2 hif)
    obtain ⟨rest, hrest⟩ := hif
    obtain rfl : inside = 'i' :: 'f' :: rest := hrest.symm
    rw [splitCondition_if hinside] at hoption
    rintro ⟨faults', h⟩
    cases (eq_of_read_option hoption h).1
  by_cases hangle : ['<', 'i', 'f'] <+: inside
  · refine iff_of_false ?_ fun h => h.2.1 hangle
    obtain ⟨rest, hrest⟩ := hangle
    obtain rfl : inside = '<' :: 'i' :: 'f' :: rest := hrest.symm
    rw [splitCondition_angle_if hinside] at hoption
    rintro ⟨faults', h⟩
    cases (eq_of_read_option hoption h).1
  rw [splitCondition_of_not htext hinside hif hangle] at hoption
  exact iff_of_true ⟨faults, hoption⟩ ⟨htag, hangle, fun h => absurd h hif⟩

/-- A condition is taken from the middle of the word `iffy`, which opens none on a line of its own. -/
theorem not_agrees_iffy :
    (¬['<', '<'] <:+: "Ask".toList ∧ IsInside "iffy".toList ∧
      ∀ c ∈ "Ask".toList ++ "iffy".toList, Text.isBlank c = true → c.utf8Size ≤ 1) ∧
    ¬Agrees 1 "Ask".toList "iffy".toList := by
  have htext : ¬['<', '<'] <:+: "Ask".toList := by decide
  have hinside : IsInside "iffy".toList := ⟨by decide, by decide, by decide⟩
  have hsize : ∀ c ∈ "Ask".toList ++ "iffy".toList, c.utf8Size ≤ 1 := by simp [Char.utf8Size]
  have hnarrow : ∀ c ∈ "Ask".toList ++ "iffy".toList, Text.isBlank c = true → c.utf8Size ≤ 1 := fun c hc _ =>
    hsize c hc
  refine ⟨⟨htext, hinside, hnarrow⟩, fun h => ?_⟩
  have hkeyword := ((agrees_iff htext hinside hnarrow 1).1 h).2.2 (by decide)
  exact absurd hkeyword (by decide)

end Agreement

end Item

end Dialogue
