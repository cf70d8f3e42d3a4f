import Mathlib
import Dialogue.Proofs.Body.Kept
import Dialogue.Proofs.Body.Slices
import Dialogue.Proofs.Text.Line

/-!
# Scripts that cannot be read

A script cannot be read if tags cannot be split off one of its texts: a line of dialogue, the text before a link that is
closed, or what follows the arrow of an option. That is so exactly if, without some of the tags at its end, the last
blank of the text is no ASCII character (`Tags.split_fails_iff`). All other slices of a script are texts
(`Body.parse_slices`).
-/

namespace Dialogue

/-! ## What fails -/

/-- There is no result. -/
def Fails {ε α : Type} (x : Except ε α) : Prop :=
  ∃ e, x = .error e

section Fails

variable {ε α β : Type} {x : Except ε α} {p : Prop}

theorem not_fails_ok (a : α) : ¬ Fails (.ok a : Except ε α) := by
  rintro ⟨e, h⟩
  cases h

theorem fails_or_ok (x : Except ε α) : Fails x ∨ ∃ a, x = .ok a := by
  cases x with
  | error e => exact .inl ⟨e, rfl⟩
  | ok a => exact .inr ⟨a, rfl⟩

/-- What comes after fails or not, whatever the result before. -/
theorem fails_bind_iff {f : α → Except ε β} (h : ∀ a, Fails (f a) ↔ p) : Fails (x >>= f) ↔ Fails x ∨ p := by
  cases x with
  | error e => exact iff_of_true ⟨e, rfl⟩ (.inl ⟨e, rfl⟩)
  | ok a => exact (h a).trans (or_iff_right (not_fails_ok a)).symm

/-- What comes after cannot fail. -/
theorem fails_bind_ok_iff {f : α → Except ε β} (h : ∀ a, ¬ Fails (f a)) : Fails (x >>= f) ↔ Fails x :=
  (fails_bind_iff fun a => iff_of_false (h a) not_false).trans (or_iff_left not_false)

/-- **One after the other fails** exactly if one of them does. -/
theorem fails_mapM_iff {f : α → Except ε β} (xs : List α) : Fails (xs.mapM f) ↔ ∃ x ∈ xs, Fails (f x) := by
  induction xs with
  | nil => exact iff_of_false (not_fails_ok []) (by simp)
  | cons x xs ih =>
    rw [List.mapM_cons, List.exists_mem_cons_iff, ← ih]
    exact fails_bind_iff fun b => fails_bind_ok_iff fun bs => not_fails_ok (b :: bs)

end Fails

/-! ## Texts without a split -/

namespace Tags

/-- **The text before a tag at the end**, and before the blanks before it. -/
def WithoutTag (cs base : List Char) : Prop :=
  ∃ blanks word, cs = base ++ blanks ++ '#' :: word ∧
    blanks ≠ [] ∧ (∀ c ∈ blanks, Text.isBlank c = true) ∧ (∀ c ∈ base.getLast?, Text.isBlank c = false) ∧
    word ≠ [] ∧ ∀ c ∈ word, Text.isBlank c = false

/-- **The last blank is no ASCII character.** -/
def EndsWide (cs : List Char) : Prop :=
  ∃ before c word, cs = before ++ c :: word ∧ Text.isBlank c = true ∧ (∀ d ∈ word, Text.isBlank d = false) ∧
    128 ≤ c.toNat

/-- **Without some of the tags at its end** the last blank of a text is no ASCII character. -/
def Unsplit (cs : List Char) : Prop :=
  ∃ base, Relation.ReflTransGen WithoutTag cs base ∧ EndsWide base

theorem WithoutTag.subset {cs base : List Char} (h : WithoutTag cs base) : base ⊆ cs := by
  obtain ⟨blanks, word, rfl, -⟩ := h
  intro c hc
  simp [hc]

theorem EndsWide.exists_blank {cs : List Char} (h : EndsWide cs) :
    ∃ c ∈ cs, Text.isBlank c = true ∧ 128 ≤ c.toNat := by
  obtain ⟨before, c, word, rfl, hc, -, hwide⟩ := h
  exact ⟨c, by simp, hc, hwide⟩

theorem Unsplit.exists_blank {cs : List Char} (h : Unsplit cs) : ∃ c ∈ cs, Text.isBlank c = true ∧ 128 ≤ c.toNat := by
  obtain ⟨base, hbase, hwide⟩ := h
  induction hbase using Relation.ReflTransGen.head_induction_on with
  | refl => exact hwide.exists_blank
  | head hstep _ ih =>
    obtain ⟨c, hc, hblank⟩ := ih
    exact ⟨c, hstep.subset hc, hblank⟩

/-- A text is without a split as it is, or without its last tag. -/
theorem unsplit_iff {cs : List Char} : Unsplit cs ↔ EndsWide cs ∨ ∃ base, WithoutTag cs base ∧ Unsplit base := by
  constructor
  · rintro ⟨base, hbase, hwide⟩
    rcases hbase.cases_head with rfl | ⟨next, hstep, hrest⟩
    · exact .inl hwide
    · exact .inr ⟨next, hstep, base, hrest, hwide⟩
  · rintro (hwide | ⟨next, hstep, base, hrest, hwide⟩)
    · exact ⟨cs, .refl, hwide⟩
    · exact ⟨base, .head hstep hrest, hwide⟩

section LastBlank

variable {rev before : List Char} {c : Char}

theorem endsWide_iff (hcons : rev.dropWhile (!Text.isBlank ·) = c :: before) :
    EndsWide rev.reverse ↔ 1 < c.utf8Size := by
  constructor
  · rintro ⟨front, d, word, h, hd, hword, hwide⟩
    have hspan := (span_of_eq_append h hd hword).2
    rw [List.reverse_reverse, hcons] at hspan
    cases hspan
    exact Text.one_lt_utf8Size_iff.2 hwide
  · intro hwide
    refine ⟨before.reverse, c, (rev.takeWhile (!Text.isBlank ·)).reverse, reverse_of_dropWhile hcons,
      isBlank_of_dropWhile hcons, fun d hd => ?_, Text.one_lt_utf8Size_iff.1 hwide⟩
    simpa using List.mem_takeWhile_imp (List.mem_reverse.1 hd)

/-- A tag is at the end exactly if the last word is one. -/
theorem withoutTag_iff (hcons : rev.dropWhile (!Text.isBlank ·) = c :: before) {base : List Char} :
    WithoutTag rev.reverse base ↔ ∃ tag, tag? (rev.takeWhile (!Text.isBlank ·)).reverse = some tag ∧
      base = (Text.trimStart before).reverse := by
  constructor
  · rintro ⟨blanks, word, h, hne, hblanks, hbase, hword, hwords⟩
    obtain ⟨blanks, d, rfl⟩ := (List.eq_nil_or_concat blanks).resolve_left hne
    have hd : Text.isBlank d = true := hblanks d (by simp)
    have hsplit : rev.reverse = (base ++ blanks) ++ d :: '#' :: word := by simp [h]
    have htag : ∀ e ∈ '#' :: word, Text.isBlank e = false := by
      rw [List.forall_mem_cons]
      exact ⟨by decide, hwords⟩
    obtain ⟨htake, hdrop⟩ := span_of_eq_append hsplit hd htag
    rw [List.reverse_reverse] at htake hdrop
    rw [hcons] at hdrop
    cases hdrop
    refine ⟨word, by rw [htake, List.reverse_reverse]; exact tag?_eq_some_iff.2 ⟨hword, rfl⟩, ?_⟩
    exact (Text.trimEnd_eq_iff.2 ⟨blanks, rfl, fun e he => hblanks e (by simp [he]), hbase⟩).symm
  · rintro ⟨tag, htag, rfl⟩
    obtain ⟨gap, h⟩ := exists_gap hcons htag
    exact ⟨gap, tag, h⟩

/-- A text without a blank has a split. -/
theorem not_unsplit (hnil : rev.dropWhile (!Text.isBlank ·) = []) : ¬ Unsplit rev.reverse := by
  intro h
  obtain ⟨c, hc, hblank, -⟩ := h.exists_blank
  have := List.dropWhile_eq_nil_iff.1 hnil c (List.mem_reverse.1 hc)
  simp [hblank] at this

end LastBlank

theorem splitReversed_fails_iff (rev : List Char) : Fails (splitReversed rev) ↔ Unsplit rev.reverse := by
  fun_induction splitReversed rev with
  | case1 rev hnil => exact iff_of_false (not_fails_ok _) (not_unsplit hnil)
  | case2 rev c before hcons hwide =>
    exact iff_of_true ⟨_, rfl⟩ (unsplit_iff.2 (.inl ((endsWide_iff hcons).2 hwide)))
  | case3 rev c before hcons hnarrow htag =>
    refine iff_of_false (not_fails_ok _) fun h => ?_
    rcases unsplit_iff.1 h with hwide | ⟨base, hstep, -⟩
    · exact hnarrow ((endsWide_iff hcons).1 hwide)
    · obtain ⟨tag, htag', -⟩ := (withoutTag_iff hcons).1 hstep
      cases htag.symm.trans htag'
  | case4 rev c before hcons hnarrow tag htag fault hfault ih =>
    have hrest := ih.1 ⟨fault, hfault⟩
    exact iff_of_true ⟨fault, rfl⟩ (unsplit_iff.2 (.inr ⟨_, (withoutTag_iff hcons).2 ⟨tag, htag, rfl⟩, hrest⟩))
  | case5 rev c before hcons hnarrow tag htag base tags hmore ih =>
    refine iff_of_false (not_fails_ok _) fun h => ?_
    rcases unsplit_iff.1 h with hwide | ⟨base', hstep, hrest⟩
    · exact hnarrow ((endsWide_iff hcons).1 hwide)
    · obtain ⟨-, -, rfl⟩ := (withoutTag_iff hcons).1 hstep
      obtain ⟨fault, hfault⟩ := ih.2 hrest
      cases hmore.symm.trans hfault

/-- **A text has no split** exactly if, without some of the tags at its end, its last blank is no ASCII character. -/
theorem split_fails_iff {cs : List Char} (h : Text.trimEnd cs = cs) : Fails (split cs) ↔ Unsplit cs := by
  have hsplit : Fails (split cs) ↔ Fails (splitReversed (Text.trimStart cs.reverse)) := by
    rw [split]
    cases splitReversed (Text.trimStart cs.reverse) with
    | error fault => exact iff_of_true ⟨fault, rfl⟩ ⟨fault, rfl⟩
    | ok r => exact iff_of_false (not_fails_ok _) (not_fails_ok _)
  rw [hsplit, splitReversed_fails_iff, ← Text.trimEnd, h]

end Tags

/-! ## Lines without a reading -/

namespace Item

/-- The texts before closed links, without those that are empty. -/
def beforeLinks (cs : List Char) : List (List Char) :=
  match _h : Text.cut? ['[', '['] cs with
  | none => []
  | some (before, after) =>
    match _h' : Text.cut? [']', ']'] after with
    | none => []
    | some (_, rest) => [Text.trim before].filter (· ≠ []) ++ beforeLinks rest
termination_by cs.length
decreasing_by
  have h₁ := Text.length_of_cut?_eq_some _h
  have h₂ := Text.length_of_cut?_eq_some _h'
  simp only [List.length_cons, List.length_nil] at *
  omega

/-- **The texts of a line that may end in tags.** -/
def tagged (text : List Char) : List (List Char) :=
  match Text.dropPrefix? ['-', '>'] text with
  | some rest => [Text.trim rest]
  | none =>
    if (commandInside? text).isSome then []
    else if (Text.cut? ['[', '['] text).isSome then beforeLinks text
    else [text]

section Tagged

variable {cs text t : List Char}

/-- The texts before links are trimmed, and parts of the line. -/
theorem of_mem_beforeLinks (h : t ∈ beforeLinks cs) : Text.trimEnd t = t ∧ t ⊆ cs := by
  fun_induction beforeLinks cs with
  | case1 cs hcut => cases h
  | case2 cs before after hcut hclose => cases h
  | case3 cs before after hcut inside rest hclose ih =>
    have hcs := Text.eq_of_cut?_of_cut? hcut hclose
    rcases List.mem_append.1 h with hbefore | hrest
    · obtain rfl := List.mem_singleton.1 (List.mem_of_mem_filter hbefore)
      refine ⟨Text.trimEnd_trimEnd _, fun c hc => ?_⟩
      rw [hcs]
      simp [Text.mem_of_mem_trim hc]
    · obtain ⟨htrim, hsub⟩ := ih hrest
      refine ⟨htrim, fun c hc => ?_⟩
      rw [hcs]
      simp [hsub hc]

/-- The texts that may end in tags are trimmed, and parts of the line. -/
theorem of_mem_tagged (htext : Text.trimEnd text = text) (h : t ∈ tagged text) : Text.trimEnd t = t ∧ t ⊆ text := by
  unfold tagged at h
  split at h
  · rename_i rest hrest
    obtain rfl := List.mem_singleton.1 h
    refine ⟨Text.trimEnd_trimEnd _, fun c hc => ?_⟩
    rw [Text.dropPrefix?_eq_some_iff.1 hrest]
    simp [Text.mem_of_mem_trim hc]
  · split_ifs at h
    · cases h
    · exact of_mem_beforeLinks h
    · obtain rfl := List.mem_singleton.1 h
      exact ⟨htext, List.Subset.refl _⟩

end Tagged

theorem readLine_fails_iff (number : Nat) (cs : List Char) :
    Fails (readLine number cs) ↔ Fails (Tags.split cs) :=
  fails_bind_ok_iff fun _ => not_fails_ok _

theorem readOption_fails_iff (cs : List Char) : Fails (readOption cs) ↔ Fails (Tags.split (Text.trim cs)) :=
  fails_bind_ok_iff fun _ => not_fails_ok _

theorem readLeading_fails_iff (number : Nat) (cs : List Char) :
    Fails (readLeading number cs) ↔ ∃ t ∈ [cs].filter (· ≠ []), Fails (Tags.split t) := by
  by_cases h : cs = []
  · rw [readLeading, if_pos h]
    exact iff_of_false (not_fails_ok _) (by simp [h])
  · have hline : Fails (readLeading number cs) ↔ Fails (readLine number cs) := by
      rw [readLeading, if_neg h]
      exact fails_bind_ok_iff fun _ => not_fails_ok _
    rw [hline, readLine_fails_iff]
    simp [h]

theorem readLinks_fails_iff (number : Nat) (cs : List Char) :
    Fails (readLinks number cs) ↔ ∃ t ∈ beforeLinks cs, Fails (Tags.split t) := by
  fun_induction beforeLinks cs with
  | case1 cs hcut =>
    rw [readLinks_of_cut?_eq_none hcut]
    exact iff_of_false (not_fails_ok _) (by simp)
  | case2 cs before after hcut hclose =>
    rw [readLinks_of_not_closed hcut hclose]
    exact iff_of_false (not_fails_ok _) (by simp)
  | case3 cs before after hcut inside rest hclose ih =>
    have hmore : Fails (readLinks number cs) ↔
        Fails (readLeading number (Text.trim before)) ∨ Fails (readLinks number rest) := by
      rw [readLinks_of_closed hcut hclose]
      exact fails_bind_iff fun _ => fails_bind_ok_iff fun _ => not_fails_ok _
    rw [hmore, readLeading_fails_iff, ih]
    simp only [List.mem_append, or_and_right, exists_or]

/-- **A line has no reading** exactly if one of its texts that may end in tags has no split. -/
theorem read_fails_iff (number : Nat) (text : List Char) :
    Fails (read number text) ↔ ∃ t ∈ tagged text, Fails (Tags.split t) := by
  unfold read tagged
  cases Text.dropPrefix? ['-', '>'] text with
  | some rest =>
    dsimp only
    rw [readOption_fails_iff]
    simp
  | none =>
    cases commandInside? text with
    | some inside => exact iff_of_false (not_fails_ok _) (by simp)
    | none =>
      simp only [Option.isSome_none, Bool.false_eq_true, if_false]
      split_ifs
      · rw [← readLinks_fails_iff number]
        exact fails_bind_ok_iff fun _ => not_fails_ok _
      · simp only [List.mem_singleton, exists_eq_left]
        exact (fails_bind_ok_iff fun _ => not_fails_ok _).trans (readLine_fails_iff number text)

end Item

/-! ## Scripts without a reading -/

namespace BodyLine

/-- The lines that are kept are trimmed, and parts of the script. -/
theorem of_mem_kept {src : List Char} {line : Nat × Nat × List Char} (h : line ∈ kept src) :
    Text.trimEnd line.2.2 = line.2.2 ∧ line.2.2 ⊆ src := by
  obtain ⟨numbered, hnumbered, rfl⟩ := List.mem_map.1 (List.mem_of_mem_filter h)
  have hmem : numbered.2 ∈ Text.lines src := by
    obtain ⟨pair, hpair, rfl⟩ := List.mem_map.1 hnumbered
    exact List.fst_mem_of_mem_zipIdx hpair
  exact ⟨Text.trimEnd_trimEnd _, fun c hc => Text.mem_of_mem_lines hmem (Text.mem_of_mem_trim hc)⟩

end BodyLine

namespace Body

/-- The texts of a script that may end in tags. -/
def tagged (src : String) : List (List Char) :=
  (BodyLine.texts src).flatMap Item.tagged

theorem of_mem_tagged {src : String} {t : List Char} (h : t ∈ tagged src) : Text.trimEnd t = t ∧ t ⊆ src.toList := by
  obtain ⟨text, htext, ht⟩ := List.mem_flatMap.1 h
  obtain ⟨line, hline, rfl⟩ := List.mem_map.1 htext
  obtain ⟨htrim, hsub⟩ := BodyLine.of_mem_kept hline
  obtain ⟨htrim', hsub'⟩ := Item.of_mem_tagged htrim ht
  exact ⟨htrim', List.Subset.trans hsub' hsub⟩

theorem parse_fails_iff (src : String) : Fails (parse src) ↔ ∃ t ∈ tagged src, Tags.Unsplit t := by
  have hread (line : Nat × Nat × List Char) :
      Fails (BodyLine.read line) ↔ ∃ t ∈ Item.tagged line.2.2, Fails (Tags.split t) :=
    (fails_bind_ok_iff fun _ => not_fails_ok _).trans (Item.read_fails_iff line.1 line.2.2)
  have hlines : Fails (parse src) ↔ ∃ t ∈ tagged src, Fails (Tags.split t) := by
    calc Fails (parse src) ↔ Fails ((BodyLine.kept src.toList).mapM BodyLine.read) :=
          fails_bind_ok_iff fun _ => not_fails_ok _
      _ ↔ ∃ line ∈ BodyLine.kept src.toList, ∃ t ∈ Item.tagged line.2.2, Fails (Tags.split t) := by
          simp only [fails_mapM_iff, hread]
      _ ↔ ∃ t ∈ tagged src, Fails (Tags.split t) := by
          simp only [tagged, BodyLine.texts, List.flatMap_map, List.mem_flatMap]
          exact ⟨fun ⟨line, hline, t, ht, hfails⟩ => ⟨t, ⟨line, hline, ht⟩, hfails⟩,
            fun ⟨t, ⟨line, hline, ht⟩, hfails⟩ => ⟨line, hline, t, ht, hfails⟩⟩
  rw [hlines]
  exact exists_congr fun t => and_congr_right fun ht => Tags.split_fails_iff (of_mem_tagged ht).1

/-- **Away from tags every slice is a text**, whatever is read: expressions, the braces in a text, commands, the
conditions of options and links. -/
structure SlicedAway : Prop where
  expression : ∀ cs, Expr.Sliced.parse cs = .ok (Expr.parse cs)
  assignment : ∀ cs, Expr.Sliced.parseAssignment cs = .ok (Expr.parseAssignment cs)
  template : ∀ cs, Template.Sliced.ofText cs = .ok (Template.ofText cs)
  brackets : ∀ text, Item.Sliced.commandInside? text = .ok (Item.commandInside? text)
  command : ∀ number inside, Item.Sliced.readCommand number inside = .ok (Item.readCommand number inside)
  condition : ∀ cs, Item.Sliced.splitCondition cs = .ok (Item.splitCondition cs)
  link : ∀ number inside, Item.Sliced.readLink number inside = .ok (Item.readLink number inside)

theorem slicedAway : SlicedAway where
  expression := Expr.Sliced.parse_eq
  assignment := Expr.Sliced.parseAssignment_eq
  template := Template.Sliced.ofText_eq
  brackets := Item.Sliced.commandInside?_eq
  command := Item.Sliced.readCommand_eq
  condition := Item.Sliced.splitCondition_eq
  link := Item.Sliced.readLink_eq

/-- **The slices of a script are texts, but for those at tags.** Where all are texts the script is read as it is. One is
no text exactly if one of the texts that may end in tags, without some of its tags, has a last blank that is no ASCII
character. A script whose blanks are ASCII characters can be read. -/
theorem parse_slices (src : String) :
    SlicedAway ∧
    (∀ bad, Sliced.parse src = .error bad → bad.site = .tags) ∧
    (∀ parsed, Sliced.parse src = .ok parsed ↔ parse src = .ok parsed) ∧
    (Fails (Sliced.parse src) ↔ ∃ text ∈ tagged src, ∃ base,
      Relation.ReflTransGen Tags.WithoutTag text base ∧ Tags.EndsWide base) ∧
    ((∀ c ∈ src.toList, Text.isBlank c = true → c.toNat < 128) → ∃ parsed, Sliced.parse src = .ok parsed) := by
  have hagrees := Sliced.agrees_parse src
  have hfails : Fails (Sliced.parse src) ↔ ∃ t ∈ tagged src, Tags.Unsplit t :=
    hagrees.exists_error_iff.trans (parse_fails_iff src)
  refine ⟨slicedAway, fun _ => hagrees.site_eq, hagrees.eq_ok_iff, hfails, fun hnarrow => ?_⟩
  refine (fails_or_ok (Sliced.parse src)).resolve_left fun h => ?_
  obtain ⟨t, ht, hunsplit⟩ := hfails.1 h
  obtain ⟨c, hc, hblank, hwide⟩ := hunsplit.exists_blank
  have := hnarrow c ((of_mem_tagged ht).2 hc) hblank
  omega

/-- Behind the tag the last blank is narrow, but not without the tag. -/
example : (Sliced.parse "a\u3000b #c").isOk = false ∧ (Sliced.parse "a\u3000b c").isOk = true := by
  decide +kernel

end Body

end Dialogue
