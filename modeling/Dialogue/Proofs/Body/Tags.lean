import Mathlib
import Dialogue.Body.Tags
import Dialogue.Proofs.Text.Cut
import Dialogue.Proofs.Text.Line

/-!
# Tags at the end of a text

A text is looked at from its end, word by word: what is split off starts behind a blank (`Tags.split_append_tag`), and
with the first word that is no tag nothing more is split off (`Tags.split_append_word`). A text whose blanks are all
narrow can always be split (`Tags.exists_splitReversed`); nothing but its last blanks is lost then, and every tag is
taken (`Tags.split_takesApart`).
-/

namespace Dialogue

namespace Text

theorem words_append_cons {c : Char} (hc : isBlank c = true) (a b : List Char) :
    words (a ++ c :: b) = words a ++ words b := by
  rw [words, List.splitOnP_append_cons _ _ hc, List.filter_append]
  rfl

theorem words_of_forall {word : List Char} (h : ∀ c ∈ word, isBlank c = false) (hne : word ≠ []) :
    words word = [word] := by
  rw [words, List.splitOnP_eq_singleton h]
  simp [hne]

end Text

namespace Tags

theorem tag?_of_ne {c : Char} (hc : c ≠ '#') (rest : List Char) : tag? (c :: rest) = none := by
  unfold tag?
  split
  · rename_i heq
    exact absurd (List.cons.inj heq).1 hc
  · rfl

theorem eq_of_tag?_eq_some {word tag : List Char} (h : tag? word = some tag) : word = '#' :: tag := by
  unfold tag? at h
  split at h
  · cases h
    rfl
  · cases h

section LastBlank

variable {rev before cs word : List Char} {c : Char}

/-- A text whose last blank is behind `before`, in the order of its characters. -/
theorem reverse_of_dropWhile (h : rev.dropWhile (!Text.isBlank ·) = c :: before) :
    rev.reverse = before.reverse ++ c :: (rev.takeWhile (!Text.isBlank ·)).reverse := by
  have hspan : rev.takeWhile (!Text.isBlank ·) ++ c :: before = rev := by
    rw [← h]
    exact List.takeWhile_append_dropWhile
  calc rev.reverse = (rev.takeWhile (!Text.isBlank ·) ++ c :: before).reverse := by rw [hspan]
    _ = before.reverse ++ c :: (rev.takeWhile (!Text.isBlank ·)).reverse := by simp

theorem isBlank_of_dropWhile (h : rev.dropWhile (!Text.isBlank ·) = c :: before) : Text.isBlank c = true := by
  simpa [h] using List.head?_dropWhile_not (!Text.isBlank ·) rev

/-- What is behind the last blank, and the text from there back. -/
theorem span_of_eq_append (h : cs = before ++ c :: word) (hc : Text.isBlank c = true)
    (hword : ∀ d ∈ word, Text.isBlank d = false) : cs.reverse.takeWhile (!Text.isBlank ·) = word.reverse ∧
      cs.reverse.dropWhile (!Text.isBlank ·) = c :: before.reverse := by
  have hrev : cs.reverse = word.reverse ++ c :: before.reverse := by simp [h]
  rw [hrev]
  exact Text.span_append_cons (by simpa using hword) (by simp [hc]) before.reverse

end LastBlank

theorem splitReversed_suffix {rev base : List Char} {tags : List String} (h : splitReversed rev = .ok (base, tags)) :
    base <:+ rev := by
  fun_induction splitReversed rev generalizing base tags with
  | case1 rev hnil => cases h; exact List.suffix_refl _
  | case2 rev c before hcons hwide => cases h
  | case3 rev c before hcons hwide htag => cases h; exact List.suffix_refl _
  | case4 rev c before hcons hwide tag htag fault hfault ih => cases h
  | case5 rev c before hcons hwide tag htag base' tags' hmore ih =>
    cases h
    have hbefore : before <:+ rev := (List.suffix_cons c before).trans (hcons ▸ List.dropWhile_suffix _)
    exact (ih hmore).trans ((List.dropWhile_suffix _).trans hbefore)

/-- A text whose blanks are all narrow can be split. -/
theorem exists_splitReversed {rev : List Char} (h : ∀ c ∈ rev, Text.isBlank c = true → c.utf8Size ≤ 1) :
    ∃ base tags, splitReversed rev = .ok (base, tags) := by
  fun_induction splitReversed rev with
  | case1 rev hnil => exact ⟨_, _, rfl⟩
  | case2 rev c before hcons hwide =>
    have hsuffix : c :: before <:+ rev := hcons ▸ List.dropWhile_suffix _
    have hblank : Text.isBlank c = true := by
      simpa [hcons] using List.head?_dropWhile_not (!Text.isBlank ·) rev
    have := h c (hsuffix.subset List.mem_cons_self) hblank
    omega
  | case3 rev c before hcons hwide htag => exact ⟨_, _, rfl⟩
  | case4 rev c before hcons hwide tag htag fault hfault ih =>
    have hsuffix : c :: before <:+ rev := hcons ▸ List.dropWhile_suffix _
    have hrest : Text.trimStart before <:+ rev :=
      (List.dropWhile_suffix _).trans ((List.suffix_cons c before).trans hsuffix)
    obtain ⟨base, tags, hok⟩ := ih fun d hd => h d (hrest.subset hd)
    cases hfault.symm.trans hok
  | case5 rev c before hcons hwide tag htag base' tags' hmore ih => exact ⟨_, _, rfl⟩

section Split

variable {before front word : List Char} {c : Char}

theorem splitReversed_of_no_blank {rev : List Char} (h : ∀ c ∈ rev, Text.isBlank c = false) :
    splitReversed rev = .ok (rev, []) := by
  have hnil : rev.dropWhile (!Text.isBlank ·) = [] := by simpa [List.dropWhile_eq_nil_iff] using h
  rw [splitReversed]
  split
  · rfl
  · rename_i hcons
    cases hnil.symm.trans hcons

/-- A text is looked at behind its last blank. -/
theorem splitReversed_of_blank {rev : List Char} (h : ∀ c ∈ word, Text.isBlank c = false)
    (hblank : Text.isBlank c = true) (hsize : c.utf8Size ≤ 1) :
    splitReversed (word.reverse ++ c :: rev) =
      match tag? word with
      | none => .ok (word.reverse ++ c :: rev, [])
      | some tag => (splitReversed (Text.trimStart rev)).map fun r => (r.1, r.2 ++ [.ofList tag]) := by
  obtain ⟨htake, hdrop⟩ : (word.reverse ++ c :: rev).takeWhile (!Text.isBlank ·) = word.reverse ∧
      (word.reverse ++ c :: rev).dropWhile (!Text.isBlank ·) = c :: rev := by
    simpa using span_of_eq_append (show (word.reverse ++ c :: rev).reverse = rev.reverse ++ c :: word by simp) hblank h
  rw [splitReversed]
  split
  · rename_i hnil
    cases hdrop.symm.trans hnil
  · rename_i hcons
    cases hdrop.symm.trans hcons
    rw [if_neg (by omega), htake, List.reverse_reverse]
    cases tag? word with
    | none => rfl
    | some tag => cases splitReversed (Text.trimStart rev) <;> rfl

theorem trimStart_reverse_append (hword : ∀ c ∈ word, Text.isBlank c = false) (hne : word ≠ []) (front : List Char) :
    Text.trimStart (front ++ word).reverse = word.reverse ++ front.reverse := by
  obtain ⟨first, last, rfl⟩ := List.eq_nil_or_concat word |>.resolve_left hne
  have hlast : Text.isBlank last = false := hword last (by simp)
  simp [Text.trimStart, hlast]

/-- **A last word that is no tag ends the text**, and so does one without a blank before it. -/
theorem split_append_word (hword : ∀ c ∈ word, Text.isBlank c = false) (hne : word ≠ [])
    (hfront : front = [] ∨
      ∃ before c, front = before ++ [c] ∧ Text.isBlank c = true ∧ c.utf8Size ≤ 1 ∧ tag? word = none) :
    split (front ++ word) = .ok (front ++ word, []) := by
  rw [split, trimStart_reverse_append hword hne]
  rcases hfront with rfl | ⟨before, c, rfl, hblank, hsize, htag⟩
  · rw [List.reverse_nil, List.append_nil, splitReversed_of_no_blank fun c hc => hword c (List.mem_reverse.1 hc)]
    simp
  · rw [List.reverse_append, List.reverse_singleton, List.singleton_append,
      splitReversed_of_blank hword hblank hsize, htag]
    simp

/-- **A last word that is a tag is split off**, and no text after the blank before it is kept. -/
theorem split_append_tag {tag : List Char} (hword : ∀ c ∈ word, Text.isBlank c = false)
    (hblank : Text.isBlank c = true) (hsize : ∀ d ∈ before ++ [c], Text.isBlank d = true → d.utf8Size ≤ 1)
    (htag : tag? word = some tag) :
    ∃ base tags, split (before ++ c :: word) = .ok (base, tags) ∧ base <+: before ∧ tags ≠ [] := by
  have hne : word ≠ [] := by
    rintro rfl
    cases htag
  obtain ⟨base, tags, hmore⟩ : ∃ base tags, splitReversed (Text.trimStart before.reverse) = .ok (base, tags) := by
    refine exists_splitReversed fun d hd => hsize d (List.mem_append_left _ ?_)
    exact List.mem_reverse.1 ((List.dropWhile_suffix _).subset hd)
  refine ⟨base.reverse, tags ++ [.ofList tag], ?_, ?_, by simp⟩
  · have hsplit : before ++ c :: word = (before ++ [c]) ++ word := by simp
    rw [split, hsplit, trimStart_reverse_append hword hne, List.reverse_append, List.reverse_singleton,
      List.singleton_append, splitReversed_of_blank hword hblank (hsize c (by simp) hblank), htag, hmore]
    rfl
  · rw [← List.reverse_suffix, List.reverse_reverse]
    exact (splitReversed_suffix hmore).trans (List.dropWhile_suffix _)

/-- The characters behind the last blank. -/
def lastWord (cs : List Char) : List Char :=
  (cs.reverse.takeWhile (!Text.isBlank ·)).reverse

theorem not_isBlank_of_mem_lastWord {cs : List Char} (h : c ∈ lastWord cs) : Text.isBlank c = false := by
  have := List.mem_takeWhile_imp (List.mem_reverse.1 h)
  simpa using this

/-- A text is a single word, or there is a blank before its last one. -/
theorem eq_lastWord_or (cs : List Char) : cs = lastWord cs ∧ (∀ c ∈ cs, Text.isBlank c = false) ∨
    ∃ before c, cs = before ++ c :: lastWord cs ∧ Text.isBlank c = true := by
  have hsplit : cs.reverse.takeWhile (!Text.isBlank ·) ++ cs.reverse.dropWhile (!Text.isBlank ·) = cs.reverse :=
    List.takeWhile_append_dropWhile
  cases hdrop : cs.reverse.dropWhile (!Text.isBlank ·) with
  | nil =>
    rw [hdrop, List.append_nil] at hsplit
    refine .inl ⟨by rw [lastWord, hsplit, List.reverse_reverse], fun c hc => ?_⟩
    exact not_isBlank_of_mem_lastWord (by rwa [lastWord, hsplit, List.reverse_reverse])
  | cons c before =>
    refine .inr ⟨before.reverse, c, ?_, isBlank_of_dropWhile hdrop⟩
    have h := reverse_of_dropWhile hdrop
    rwa [List.reverse_reverse] at h

end Split

/-! ## What is split off -/

/-- **The word is a tag**: `#` and at least one more character. -/
def IsTag (word : List Char) : Prop :=
  ∃ tag, tag ≠ [] ∧ word = '#' :: tag

theorem tag?_eq_some_iff {word tag : List Char} : tag? word = some tag ↔ tag ≠ [] ∧ word = '#' :: tag := by
  constructor
  · intro h
    obtain rfl := eq_of_tag?_eq_some h
    refine ⟨?_, rfl⟩
    rintro rfl
    cases h
  · rintro ⟨hne, rfl⟩
    obtain ⟨c, rest, rfl⟩ := List.exists_cons_of_ne_nil hne
    rfl

theorem not_isTag_iff {word : List Char} : ¬IsTag word ↔ tag? word = none := by
  rw [Option.eq_none_iff_forall_ne_some, IsTag, not_exists]
  exact forall_congr' fun tag => not_congr tag?_eq_some_iff.symm

/-- **A base and the tags behind it take a text apart.** -/
structure TakesApart (cs base : List Char) (tags : List String) : Prop where
  /-- Nothing but blanks at its end is lost of the text: it is the base, and then some blanks, `#` and the tag for each
  tag in order. -/
  whole : ∃ parts : List (List Char × String), parts.map Prod.snd = tags ∧
    (∀ part ∈ parts, part.1 ≠ [] ∧ ∀ c ∈ part.1, Text.isBlank c = true) ∧
    Text.trimEnd cs = base ++ parts.flatMap fun part => part.1 ++ '#' :: part.2.toList
  tags : ∀ tag ∈ tags, tag ≠ "" ∧ ∀ c ∈ tag.toList, Text.isBlank c = false
  /-- No tag is left: the base is empty, or a single word, or its last word is no tag. -/
  ends : base = [] ∨ Text.words base = [base] ∨ ∃ word, (Text.words base).getLast? = some word ∧ ¬IsTag word
  again : split base = .ok (base, [])

/-- Before a tag at the end there are blanks, and before them what is looked at next. -/
theorem exists_gap {rev before tag : List Char} {c : Char} (hcons : rev.dropWhile (!Text.isBlank ·) = c :: before)
    (htag : tag? (rev.takeWhile (!Text.isBlank ·)).reverse = some tag) : ∃ gap,
      rev.reverse = (Text.trimStart before).reverse ++ gap ++ '#' :: tag ∧ gap ≠ [] ∧
        (∀ d ∈ gap, Text.isBlank d = true) ∧
        (∀ d ∈ (Text.trimStart before).reverse.getLast?, Text.isBlank d = false) ∧
        tag ≠ [] ∧ ∀ d ∈ tag, Text.isBlank d = false := by
  obtain ⟨hne, hword⟩ := tag?_eq_some_iff.1 htag
  have htrim : Text.trimEnd before.reverse = (Text.trimStart before).reverse := by
    rw [Text.trimEnd, List.reverse_reverse]
  obtain ⟨blanks, hbefore, hblanks, hlast⟩ := Text.trimEnd_eq_iff.1 htrim
  refine ⟨blanks ++ [c], ?_, by simp, ?_, hlast, hne, ?_⟩
  · calc rev.reverse = before.reverse ++ c :: '#' :: tag := by rw [reverse_of_dropWhile hcons, hword]
      _ = (Text.trimStart before).reverse ++ blanks ++ c :: '#' :: tag := by rw [← hbefore]
      _ = (Text.trimStart before).reverse ++ (blanks ++ [c]) ++ '#' :: tag := by simp
  · simpa [or_imp, forall_and, isBlank_of_dropWhile hcons] using hblanks
  · intro d hd
    have hmem : d ∈ (rev.takeWhile (!Text.isBlank ·)).reverse := hword ▸ List.mem_cons_of_mem _ hd
    simpa using List.mem_takeWhile_imp (List.mem_reverse.1 hmem)

/-- **Tags come off the end of a text one by one**, until what is left has no blank or a last word that is no tag. -/
inductive ComesApart : List Char → List Char → List String → Prop where
  | ends {cs : List Char} (h : (∀ c ∈ cs, Text.isBlank c = false) ∨ tag? (lastWord cs) = none) : ComesApart cs cs []
  | tag {rest gap word base : List Char} {tags : List String} (hrest : ∀ c ∈ rest.getLast?, Text.isBlank c = false)
      (hne : gap ≠ []) (hgap : ∀ c ∈ gap, Text.isBlank c = true) (htag : word ≠ [])
      (hword : ∀ c ∈ word, Text.isBlank c = false) (h : ComesApart rest base tags) :
      ComesApart (rest ++ gap ++ '#' :: word) base (tags ++ [.ofList word])

theorem comesApart_of_splitReversed {rev base : List Char} {tags : List String}
    (h : splitReversed rev = .ok (base, tags)) : ComesApart rev.reverse base.reverse tags := by
  fun_induction splitReversed rev generalizing base tags with
  | case1 rev hnil =>
    cases h
    exact .ends (.inl (by simpa [List.dropWhile_eq_nil_iff] using hnil))
  | case2 rev c before hcons hwide => cases h
  | case3 rev c before hcons hwide htag =>
    cases h
    exact .ends (.inr (by rwa [lastWord, List.reverse_reverse]))
  | case4 rev c before hcons hwide tag htag fault hfault ih => cases h
  | case5 rev c before hcons hwide tag htag base' tags' hmore ih =>
    cases h
    obtain ⟨gap, hrev, hne, hgap, hlast, htag, hword⟩ := exists_gap hcons htag
    rw [hrev]
    exact .tag hlast hne hgap htag hword (ih hmore)

section Result

variable {cs base : List Char} {tags : List String}

namespace ComesApart

/-- Nothing is lost. -/
theorem exists_parts (h : ComesApart cs base tags) : ∃ parts : List (List Char × String),
    parts.map Prod.snd = tags ∧ (∀ part ∈ parts, part.1 ≠ [] ∧ ∀ c ∈ part.1, Text.isBlank c = true) ∧
    cs = base ++ parts.flatMap fun part => part.1 ++ '#' :: part.2.toList := by
  induction h with
  | ends => exact ⟨[], rfl, by simp, by simp⟩
  | @tag rest gap word base tags hrest hne hgap htag hword h ih =>
    obtain ⟨parts, htags, hgaps, hparts⟩ := ih
    refine ⟨parts ++ [(gap, .ofList word)], by simp [htags], ?_, ?_⟩
    · exact List.forall_mem_append.2 ⟨hgaps, List.forall_mem_singleton.2 ⟨hne, hgap⟩⟩
    · rw [hparts]
      simp

theorem forall_mem_tags (h : ComesApart cs base tags) :
    ∀ tag ∈ tags, tag ≠ "" ∧ ∀ c ∈ tag.toList, Text.isBlank c = false := by
  induction h with
  | ends => simp
  | tag _ _ _ htag hword _ ih =>
    refine List.forall_mem_append.2 ⟨ih, List.forall_mem_singleton.2 ⟨?_, by simpa using hword⟩⟩
    intro hempty
    exact htag (by simpa using congrArg String.toList hempty)

theorem ends_base (h : ComesApart cs base tags) :
    (∀ c ∈ base, Text.isBlank c = false) ∨ tag? (lastWord base) = none := by
  induction h with
  | ends h => exact h
  | tag _ _ _ _ _ _ ih => exact ih

theorem getLast?_base (h : ComesApart cs base tags) (hlast : ∀ c ∈ cs.getLast?, Text.isBlank c = false) :
    ∀ c ∈ base.getLast?, Text.isBlank c = false := by
  induction h with
  | ends => exact hlast
  | tag hrest _ _ _ _ _ ih => exact ih hrest

end ComesApart

/-- What is left ends in no blank, so that its last word has a character. -/
theorem lastWord_ne_nil {cs : List Char} (hlast : ∀ c ∈ cs.getLast?, Text.isBlank c = false) (hne : cs ≠ []) :
    lastWord cs ≠ [] := by
  obtain ⟨front, last, rfl⟩ := (List.eq_nil_or_concat cs).resolve_left hne
  have hc : Text.isBlank last = false := hlast last (by simp)
  simp [lastWord, hc]

/-- What is left is empty, or a single word, or has a blank before a last word that is no tag. -/
theorem cases_of_ends {cs : List Char} (hlast : ∀ c ∈ cs.getLast?, Text.isBlank c = false)
    (hends : (∀ c ∈ cs, Text.isBlank c = false) ∨ tag? (lastWord cs) = none) :
    cs = [] ∨ cs ≠ [] ∧ (∀ c ∈ cs, Text.isBlank c = false) ∨ ∃ before c, cs = before ++ c :: lastWord cs ∧
      Text.isBlank c = true ∧ lastWord cs ≠ [] ∧ tag? (lastWord cs) = none := by
  by_cases hne : cs = []
  · exact .inl hne
  refine .inr ?_
  rcases eq_lastWord_or cs with ⟨-, hall⟩ | ⟨before, c, heq, hblank⟩
  · exact .inl ⟨hne, hall⟩
  · refine .inr ⟨before, c, heq, hblank, lastWord_ne_nil hlast hne, hends.resolve_left fun hall => ?_⟩
    have hc : c ∈ cs := by rw [heq]; simp
    rw [hall c hc] at hblank
    cases hblank

/-- **What is left is not split any more.** -/
theorem split_of_ends {cs : List Char} (hlast : ∀ c ∈ cs.getLast?, Text.isBlank c = false)
    (hends : (∀ c ∈ cs, Text.isBlank c = false) ∨ tag? (lastWord cs) = none)
    (hsize : ∀ c ∈ cs, Text.isBlank c = true → c.utf8Size ≤ 1) : split cs = .ok (cs, []) := by
  rcases cases_of_ends hlast hends with rfl | ⟨hne, hall⟩ | ⟨before, c, heq, hblank, hne, htag⟩
  · rw [split, List.reverse_nil, Text.trimStart, List.dropWhile_nil, splitReversed_of_no_blank (by simp)]
    rfl
  · exact @split_append_word [] cs hall hne (.inl rfl)
  · have hc : c ∈ cs := by rw [heq]; simp
    have h : split ((before ++ [c]) ++ lastWord cs) = .ok ((before ++ [c]) ++ lastWord cs, []) :=
      split_append_word (fun _ => not_isBlank_of_mem_lastWord) hne
        (.inr ⟨before, c, rfl, hblank, hsize c hc hblank, htag⟩)
    rwa [List.append_assoc, List.singleton_append, ← heq] at h

theorem words_of_ends {cs : List Char} (hlast : ∀ c ∈ cs.getLast?, Text.isBlank c = false)
    (hends : (∀ c ∈ cs, Text.isBlank c = false) ∨ tag? (lastWord cs) = none) :
    cs = [] ∨ Text.words cs = [cs] ∨ ∃ word, (Text.words cs).getLast? = some word ∧ ¬IsTag word := by
  rcases cases_of_ends hlast hends with hnil | ⟨hne, hall⟩ | ⟨before, c, heq, hblank, hne, htag⟩
  · exact .inl hnil
  · exact .inr (.inl (Text.words_of_forall hall hne))
  · refine .inr (.inr ⟨lastWord cs, ?_, not_isTag_iff.2 htag⟩)
    conv_lhs => rw [heq]
    rw [Text.words_append_cons hblank, Text.words_of_forall (fun _ => not_isBlank_of_mem_lastWord) hne,
      List.getLast?_concat]

end Result

/-- **Splitting loses nothing and takes every tag**, in a text whose blanks are all ASCII characters. -/
theorem split_takesApart {cs : List Char} (h : ∀ c ∈ cs, Text.isBlank c = true → c.toNat < 128) :
    ∃ base tags, split cs = .ok (base, tags) ∧ TakesApart cs base tags := by
  have hsize : ∀ c ∈ Text.trimStart cs.reverse, Text.isBlank c = true → c.utf8Size ≤ 1 := by
    intro c hc hblank
    have hmem : c ∈ cs := List.mem_reverse.1 ((List.dropWhile_suffix _).subset hc)
    have hlt : c.toNat ≤ 127 := Nat.le_of_lt_succ (h c hmem hblank)
    exact (Char.utf8Size_eq_one_iff.2 (UInt32.le_iff_toNat_le.2 hlt)).le
  obtain ⟨base, tags, hsplit⟩ := exists_splitReversed hsize
  have hbase : split cs = .ok (base.reverse, tags) := by rw [split, hsplit]
  have happart : ComesApart (Text.trimEnd cs) base.reverse tags := comesApart_of_splitReversed hsplit
  obtain ⟨-, -, -, hcs⟩ := Text.trimEnd_eq_iff.1 (Eq.refl (Text.trimEnd cs))
  have hlast := happart.getLast?_base hcs
  refine ⟨base.reverse, tags, hbase, happart.exists_parts, happart.forall_mem_tags, ?_, ?_⟩
  · exact words_of_ends hlast happart.ends_base
  · refine split_of_ends hlast happart.ends_base fun c hc => ?_
    exact hsize c ((splitReversed_suffix hsplit).subset (List.mem_reverse.1 hc))

/-- Blanks of several kinds stand before the tags, and a `#` alone is none. -/
theorem split_takesApart_signAlone :
    (∀ c ∈ "  über  ab #  #ä#b \t #x  ".toList, Text.isBlank c = true → c.toNat < 128) ∧
    split "  über  ab #  #ä#b \t #x  ".toList = .ok ("  über  ab #".toList, ["ä#b", "x"]) ∧
    TakesApart "  über  ab #  #ä#b \t #x  ".toList "  über  ab #".toList ["ä#b", "x"] := by
  have hall : "  über  ab #  #ä#b \t #x  ".toList.all (fun c => !Text.isBlank c || c.toNat < 128) = true := by
    decide +kernel
  have hnarrow : ∀ c ∈ "  über  ab #  #ä#b \t #x  ".toList, Text.isBlank c = true → c.toNat < 128 := by
    intro c hc hblank
    simpa [hblank] using List.all_eq_true.1 hall c hc
  have hresult : split "  über  ab #  #ä#b \t #x  ".toList = .ok ("  über  ab #".toList, ["ä#b", "x"]) := by
    decide +kernel
  obtain ⟨base, tags, hsplit, happart⟩ := split_takesApart hnarrow
  obtain ⟨rfl, rfl⟩ := Prod.mk.inj (Except.ok.inj (hresult.symm.trans hsplit))
  exact ⟨hnarrow, hresult, happart⟩

end Tags

end Dialogue
