import Mathlib
import Dialogue.Proofs.Expr.Grammar

/-!
# Reading is the grammar

A reader that climbs from operator to operator by their powers agrees with the grammar of eight levels.

* What the grammar derives at a level is read by every looser power, and reading goes on after it with the operators that
  follow (`plain_readOver_append`); the induction is on the derivation.
* What is read is derived (`sound`). The loop over operators keeps its operand derived at the level of the last operator
  (`of_readOperators`), so a tighter one never follows it.

Together they make reading a text the same as deriving its tokens (`parse_eq_ok_iff_derives`).
-/

namespace Dialogue

namespace Expr

/-! ## Reading, step by step -/

/-- What was read, without the fact that fewer tokens are left. -/
def plain {α : Type} {p : α × List Token → Prop} (r : Except ExprCause { x : α × List Token // p x }) :
    Except ExprCause (α × List Token) :=
  r.map Subtype.val

section Steps

variable {power : Nat} {left : Expr} {toks rest : List Token}

theorem plain_readOver (power : Nat) (toks : List Token) : plain (readOver power toks) =
    (plain (readOperand toks)).bind fun r => plain (readOperators power r.1 r.2) := by
  rw [readOver]
  cases readOperand toks with
  | error cause => rfl
  | ok r =>
    obtain ⟨⟨left, rest⟩, h⟩ := r
    show plain ((readOperators power left rest).bind _) = plain (readOperators power left rest)
    cases readOperators power left rest <;> rfl

theorem plain_readOperators_of_held (h : Held power toks) :
    plain (readOperators power left toks) = .ok (left, toks) := by
  cases toks with
  | nil =>
    rw [readOperators]
    rfl
  | cons tok rest =>
    rw [readOperators]
    cases hop : tok.binary? with
    | none => rfl
    | some op =>
      obtain ⟨level, function⟩ := op
      dsimp only
      rw [if_pos (h rfl (Token.binary?_eq_some_iff.1 hop))]
      rfl

theorem plain_readOperators_cons {level : Nat} {tok : Token} {function : String}
    (hop : Operator level tok function) (hlevel : power < level) : plain (readOperators power left (tok :: rest)) =
      (plain (readOver level rest)).bind fun r => plain (readOperators power (.call function [left, r.1]) r.2) := by
  rw [readOperators, Token.binary?_eq_some_iff.2 hop]
  dsimp only
  rw [if_neg (by omega)]
  cases readOver level rest with
  | error cause => rfl
  | ok r =>
    obtain ⟨⟨right, rest'⟩, h⟩ := r
    show plain ((readOperators power _ rest').bind _) = plain (readOperators power _ rest')
    cases readOperators power (.call function [left, right]) rest' <;> rfl

theorem plain_expect (tok : Token) (toks : List Token) : plain (expect tok toks) =
    if toks.head? = some tok then .ok ((), toks.tail) else .error (.expected tok toks.head?) := by
  cases toks with
  | nil => rfl
  | cons t rest =>
    simp only [expect, List.head?_cons, Option.some.injEq, List.tail_cons]
    split <;> rfl

theorem plain_readOperand_atom {tok : Token} {e : Expr} (h : Atom tok e) :
    plain (readOperand (tok :: rest)) = .ok (e, rest) := by
  cases h <;> rw [readOperand] <;> rfl

theorem plain_readOperand_sign {tok : Token} {function : String} (h : SignOperator tok function) :
    plain (readOperand (tok :: rest)) =
      (plain (readOver 8 rest)).map fun r => (.call function [r.1], r.2) := by
  cases h <;> rw [readOperand, unaryPower] <;> cases readOver 8 rest <;> rfl

theorem plain_readOperand_parentheses : plain (readOperand (.leftParen :: rest)) =
    (plain (readOver 0 rest)).bind fun r => (plain (expect .rightParen r.2)).map fun s => (r.1, s.2) := by
  rw [readOperand]
  cases readOver 0 rest with
  | error cause => rfl
  | ok r =>
    obtain ⟨⟨inner, rest'⟩, h⟩ := r
    show plain ((expect .rightParen rest').bind _) = (plain (expect .rightParen rest')).map _
    cases expect .rightParen rest' <;> rfl

theorem plain_readOperand_identifier {name : String} : plain (readOperand (.identifier name :: rest)) =
    (plain (expect .leftParen rest)).bind fun r =>
      (plain (readArguments r.2)).map fun s => (.call name s.1, s.2) := by
  rw [readOperand]
  cases expect .leftParen rest with
  | error cause => rfl
  | ok r =>
    obtain ⟨⟨⟨⟩, rest'⟩, h⟩ := r
    show plain ((readArguments rest').bind _) = (plain (readArguments rest')).map _
    cases readArguments rest' <;> rfl

theorem plain_readArguments_nil : plain (readArguments (.rightParen :: rest)) = .ok ([], rest) := by
  rw [readArguments]
  rfl

theorem plain_readArguments (h : toks.head? ≠ some .rightParen) :
    plain (readArguments toks) = plain (readArgumentList toks) := by
  rw [readArguments]
  rintro rest rfl
  exact h rfl

/-- What follows an argument. -/
def afterArgument (argument : Expr) : List Token → Except ExprCause (List Expr × List Token)
  | .rightParen :: rest => .ok ([argument], rest)
  | .comma :: rest => (plain (readArgumentList rest)).map fun s => (argument :: s.1, s.2)
  | other => .error (.unclosedCall other.head?)

theorem plain_readArgumentList (toks : List Token) : plain (readArgumentList toks) =
    (plain (readOver 0 toks)).bind fun r => afterArgument r.1 r.2 := by
  rw [readArgumentList]
  cases readOver 0 toks with
  | error cause => rfl
  | ok r =>
    obtain ⟨⟨argument, rest⟩, h⟩ := r
    show plain _ = afterArgument argument rest
    cases rest with
    | nil => rfl
    | cons tok rest' =>
      cases tok with
      | comma =>
        show plain ((readArgumentList rest').bind _) = (plain (readArgumentList rest')).map _
        cases readArgumentList rest' <;> rfl
      | _ => rfl

end Steps

/-! ## Every derivation is read -/

/-- The arguments of a call are read up to the parenthesis that closes it, when each of them is. -/
theorem plain_readArgumentList_intercalate (rest : List Token) : ∀ {a : List Token × Expr}
    {arguments : List (List Token × Expr)}, (∀ b ∈ a :: arguments, ∀ tok after, tok.binary? = none →
      plain (readOver 0 (b.1 ++ tok :: after)) = .ok (b.2, tok :: after)) →
    plain (readArgumentList ([.comma].intercalate ((a :: arguments).map Prod.fst) ++ .rightParen :: rest)) =
      .ok ((a :: arguments).map Prod.snd, rest)
  | a, [], h => by
    have ha := h a List.mem_cons_self .rightParen rest rfl
    rw [List.map_singleton, List.intercalate_singleton, plain_readArgumentList, ha]
    rfl
  | a, b :: arguments, h => by
    have hb := plain_readArgumentList_intercalate rest fun c hc => h c (List.mem_cons_of_mem a hc)
    have ha := h a List.mem_cons_self .comma
      ([.comma].intercalate ((b :: arguments).map Prod.fst) ++ .rightParen :: rest) rfl
    rw [List.map_cons, List.map_cons, List.intercalate_cons_cons, ← List.map_cons, List.append_assoc,
      List.append_assoc, List.singleton_append, plain_readArgumentList, ha]
    show (plain (readArgumentList _)).map _ = _
    rw [hb]
    rfl

theorem plain_readArguments_intercalate (rest : List Token) {arguments : List (List Token × Expr)}
    (hd : ∀ a ∈ arguments, Derives 1 a.1 a.2)
    (h : ∀ a ∈ arguments, ∀ tok after, tok.binary? = none →
      plain (readOver 0 (a.1 ++ tok :: after)) = .ok (a.2, tok :: after)) :
    plain (readArguments ([.comma].intercalate (arguments.map Prod.fst) ++ .rightParen :: rest)) =
      .ok (arguments.map Prod.snd, rest) := by
  cases arguments with
  | nil => exact plain_readArguments_nil
  | cons a arguments =>
    rw [plain_readArguments]
    · exact plain_readArgumentList_intercalate rest h
    · cases arguments with
      | nil =>
        rw [List.map_singleton, List.intercalate_singleton]
        exact (hd a List.mem_cons_self).head_ne _
      | cons b arguments =>
        rw [List.map_cons, List.map_cons, List.intercalate_cons_cons, List.append_assoc, List.append_assoc]
        exact (hd a List.mem_cons_self).head_ne _

/-- **What the grammar derives is read**, and reading goes on after it with the operators that follow. -/
theorem plain_readOver_append {level : Nat} {toks : List Token} {e : Expr} (h : Derives level toks e) :
    ∀ (power : Nat) (rest : List Token), power < level ∨ level = 8 → Held level rest →
      plain (readOver power (toks ++ rest)) = plain (readOperators power e rest) := by
  induction h with
  | tighter hlevel _ ih =>
    intro power rest hp hr
    exact ih power rest (by omega) (hr.mono (by omega))
  | @binary level tok function left right a b hop _ _ iha ihb =>
    intro power rest hp hr
    have hle := hop.level_le
    have hright := ihb level rest (.inl (Nat.lt_succ_self _)) (hr.mono (Nat.le_succ _))
    rw [plain_readOperators_of_held hr] at hright
    rw [List.append_assoc, List.cons_append, iha power _ hp (held_cons hop _), plain_readOperators_cons hop (by omega), hright]
    rfl
  | sign hop _ ih =>
    intro power rest _ _
    have h := ih 8 rest (.inr rfl) (held_unary _)
    rw [plain_readOperators_of_held (held_unary _)] at h
    rw [List.cons_append, plain_readOver, plain_readOperand_sign hop, h]
    rfl
  | atom h =>
    intro power rest _ _
    rw [List.singleton_append, plain_readOver, plain_readOperand_atom h]
    rfl
  | parentheses _ ih =>
    intro power rest _ _
    have hheld : ∀ p, Held p (.rightParen :: rest) := fun p => held_cons_of_not_operator rfl
    have h := ih 0 _ (.inl Nat.zero_lt_one) (hheld 1)
    rw [plain_readOperators_of_held (hheld 0)] at h
    rw [List.cons_append, List.append_assoc, List.singleton_append, plain_readOver, plain_readOperand_parentheses, h]
    rfl
  | @call name arguments hd ih =>
    intro power rest _ _
    have hread := plain_readArguments_intercalate rest hd fun a ha tok after htok => by
      rw [ih a ha 0 _ (.inl Nat.zero_lt_one) (held_cons_of_not_operator htok),
        plain_readOperators_of_held (held_cons_of_not_operator htok)]
    rw [List.cons_append, List.cons_append, List.append_assoc, List.singleton_append, plain_readOver,
      plain_readOperand_identifier]
    show Except.bind (Except.map _ (plain (readArguments _))) _ = _
    rw [hread]
    rfl

/-! ## Only derivations are read -/

theorem of_bind_eq_ok {ε α β : Type} {x : Except ε α} {f : α → Except ε β} {b : β} (h : x.bind f = .ok b) :
    ∃ a, x = .ok a ∧ f a = .ok b := by
  cases x with
  | error _ => cases h
  | ok a => exact ⟨a, rfl, h⟩

theorem of_map_eq_ok {ε α β : Type} {x : Except ε α} {f : α → β} {b : β} (h : x.map f = .ok b) :
    ∃ a, x = .ok a ∧ f a = b := by
  cases x with
  | error _ => cases h
  | ok a =>
    cases h
    exact ⟨a, rfl, rfl⟩

theorem length_lt_of_plain {α : Type} {toks rest : List Token} {a : α} {r : Except ExprCause (Front α toks)}
    (h : plain r = .ok (a, rest)) : rest.length < toks.length := by
  obtain ⟨⟨x, hx⟩, -, rfl⟩ := of_map_eq_ok h
  exact hx

theorem of_plain_expect {tok : Token} {toks rest : List Token} (h : plain (expect tok toks) = .ok ((), rest)) :
    toks = tok :: rest := by
  rw [plain_expect] at h
  split at h
  · rename_i hhead
    cases h
    exact (List.cons_head?_tail hhead).symm
  · cases h

/-- **What is read is derived** at the level after the power, and no operator that belongs to it follows. -/
def Sound (toks : List Token) : Prop :=
  ∀ {power : Nat} {rest : List Token} {e : Expr}, power ≤ 8 → plain (readOver power toks) = .ok (e, rest) →
    ∃ used, toks = used ++ rest ∧ Derives (min (power + 1) 8) used e ∧ Held power rest

/-- The loop over operators. Its invariant: what has been read so far is derived at the level of the last operator, and
no tighter one follows. -/
theorem of_readOperators {power n level : Nat} {used middle rest : List Token} {left e : Expr} (hpower : power ≤ 8)
    (ih : ∀ toks, toks.length < n → Sound toks) (hn : middle.length ≤ n) (hused : Derives level used left)
    (hlevel : min (power + 1) 8 ≤ level) (hle : level ≤ 8) (hheld : Held level middle)
    (h : plain (readOperators power left middle) = .ok (e, rest)) :
    ∃ more, used ++ middle = more ++ rest ∧ Derives (min (power + 1) 8) more e ∧ Held power rest := by
  by_cases hstop : Held power middle
  · rw [plain_readOperators_of_held hstop] at h
    cases h
    exact ⟨used, rfl, hused.loosen hlevel hle, hstop⟩
  · obtain ⟨level', tok, function, after, hmiddle, hop, hlt⟩ := exists_operator_of_not_held hstop
    rw [hmiddle, plain_readOperators_cons hop hlt] at h
    obtain ⟨⟨right, middle'⟩, hright, hnext⟩ := of_bind_eq_ok h
    have hlength : middle'.length < after.length := length_lt_of_plain hright
    have hafter : after.length < middle.length := by simp [hmiddle]
    have hlevel' := hop.level_le
    have hleft := hused.loosen (hheld hmiddle hop) hle
    obtain ⟨operand, rfl, hoperand, hheld'⟩ := ih after (by omega) (by omega) hright
    rw [Nat.min_eq_left (by omega)] at hoperand
    obtain ⟨more, hmore, hend⟩ := of_readOperators hpower ih (by omega)
      (.binary hop hleft hoperand) (by omega) (by omega) hheld' hnext
    exact ⟨more, by rw [← hmore, hmiddle, List.append_assoc, List.cons_append], hend⟩
termination_by middle.length

/-- The arguments of a call. -/
theorem of_readArgumentList {n : Nat} {toks rest : List Token} {es : List Expr}
    (ih : ∀ toks, toks.length < n → Sound toks) (hn : toks.length < n)
    (h : plain (readArgumentList toks) = .ok (es, rest)) : ∃ arguments : List (List Token × Expr),
      toks = [.comma].intercalate (arguments.map Prod.fst) ++ .rightParen :: rest ∧ es = arguments.map Prod.snd ∧
        arguments ≠ [] ∧ ∀ a ∈ arguments, Derives 1 a.1 a.2 := by
  rw [plain_readArgumentList] at h
  obtain ⟨⟨argument, after⟩, hargument, hend⟩ := of_bind_eq_ok h
  have hlength : after.length < toks.length := length_lt_of_plain hargument
  have hafter : afterArgument argument after = .ok (es, rest) := hend
  obtain ⟨used, htoks, hused, -⟩ := ih toks hn (Nat.zero_le 8) hargument
  unfold afterArgument at hafter
  split at hafter
  · cases hafter
    refine ⟨[(used, argument)], ?_, rfl, by simp, ?_⟩
    · rw [List.map_singleton, List.intercalate_singleton]
      exact htoks
    · intro a ha
      obtain rfl := List.mem_singleton.1 ha
      exact hused
  · rename_i after
    obtain ⟨⟨more, rest'⟩, hmore, he⟩ := of_map_eq_ok hafter
    cases he
    rw [List.length_cons] at hlength
    obtain ⟨arguments, hlist, rfl, hne, hall⟩ := of_readArgumentList ih (by omega) hmore
    obtain ⟨a, arguments, rfl⟩ := List.exists_cons_of_ne_nil hne
    refine ⟨(used, argument) :: a :: arguments, ?_, rfl, by simp, List.forall_mem_cons.2 ⟨hused, hall⟩⟩
    simp only [htoks, hlist, List.map_cons, List.intercalate_cons_cons, List.append_assoc, List.cons_append,
      List.nil_append]
  · cases hafter
termination_by toks.length

theorem of_readArguments {toks rest : List Token} {es : List Expr}
    (ih : ∀ toks', toks'.length < toks.length + 1 → Sound toks') (h : plain (readArguments toks) = .ok (es, rest)) :
    ∃ arguments : List (List Token × Expr),
      toks = [.comma].intercalate (arguments.map Prod.fst) ++ .rightParen :: rest ∧ es = arguments.map Prod.snd ∧
        ∀ a ∈ arguments, Derives 1 a.1 a.2 := by
  by_cases hclose : toks.head? = some .rightParen
  · obtain ⟨after, rfl⟩ := List.head?_eq_some_iff.1 hclose
    rw [plain_readArguments_nil] at h
    cases h
    exact ⟨[], rfl, rfl, fun a ha => absurd ha List.not_mem_nil⟩
  · rw [plain_readArguments hclose] at h
    obtain ⟨arguments, htoks, hes, -, hall⟩ := of_readArgumentList ih (Nat.lt_succ_self _) h
    exact ⟨arguments, htoks, hes, hall⟩

/-- An operand. -/
theorem of_readOperand {toks rest : List Token} {e : Expr} (ih : ∀ toks', toks'.length < toks.length → Sound toks')
    (h : plain (readOperand toks) = .ok (e, rest)) : ∃ used, toks = used ++ rest ∧ Derives 8 used e := by
  cases toks with
  | nil =>
    rw [readOperand] at h
    cases h
  | cons tok after =>
    have hatom : ∀ {e' : Expr}, Atom tok e' → ∃ used, tok :: after = used ++ rest ∧ Derives 8 used e := by
      intro e' ha
      rw [plain_readOperand_atom ha] at h
      cases h
      exact ⟨[tok], rfl, .atom ha⟩
    have hsign : ∀ {function : String}, SignOperator tok function →
        ∃ used, tok :: after = used ++ rest ∧ Derives 8 used e := by
      intro function hop
      rw [plain_readOperand_sign hop] at h
      obtain ⟨⟨operand, rest'⟩, hoperand, he⟩ := of_map_eq_ok h
      cases he
      obtain ⟨used, rfl, hused, -⟩ := ih after (by simp) (Nat.le_refl 8) hoperand
      exact ⟨tok :: used, rfl, .sign hop hused⟩
    cases tok with
    | number x => exact hatom (.number x)
    | string s => exact hatom (.string s)
    | true => exact hatom .true
    | false => exact hatom .false
    | null => exact hatom .null
    | «variable» name => exact hatom (.variable name)
    | minus => exact hsign .minus
    | not => exact hsign .not
    | leftParen =>
      rw [plain_readOperand_parentheses] at h
      obtain ⟨⟨inner, rest'⟩, hinner, hend⟩ := of_bind_eq_ok h
      obtain ⟨⟨⟨⟩, rest''⟩, hclose, he⟩ := of_map_eq_ok hend
      cases he
      obtain ⟨used, rfl, hused, -⟩ := ih after (by simp) (Nat.zero_le 8) hinner
      obtain rfl := of_plain_expect hclose
      exact ⟨.leftParen :: (used ++ [.rightParen]), by simp, .parentheses hused⟩
    | identifier name =>
      rw [plain_readOperand_identifier] at h
      obtain ⟨⟨⟨⟩, rest'⟩, hopen, hend⟩ := of_bind_eq_ok h
      obtain ⟨⟨arguments, rest''⟩, harguments, he⟩ := of_map_eq_ok hend
      cases he
      obtain rfl := of_plain_expect hopen
      have ih' : ∀ toks', toks'.length < rest'.length + 1 → Sound toks' := by
        intro toks' hlt
        refine ih toks' ?_
        simp only [List.length_cons]
        omega
      obtain ⟨arguments, rfl, rfl, hall⟩ := of_readArguments ih' harguments
      exact ⟨_ :: .leftParen :: ([.comma].intercalate (arguments.map Prod.fst) ++ [.rightParen]), by simp,
        .call name hall⟩
    | _ =>
      unfold readOperand at h
      cases h

theorem sound (toks : List Token) : Sound toks := by
  induction hn : toks.length using Nat.strong_induction_on generalizing toks with
  | h n ih =>
    subst hn
    have ih : ∀ toks', toks'.length < toks.length → Sound toks' := fun toks' hlt => ih toks'.length hlt toks' rfl
    intro power rest e hpower h
    rw [plain_readOver] at h
    obtain ⟨⟨left, middle⟩, hleft, hops⟩ := of_bind_eq_ok h
    have hlength := length_lt_of_plain hleft
    obtain ⟨used, htoks, hused⟩ := of_readOperand ih hleft
    rw [htoks]
    exact of_readOperators hpower ih (Nat.le_of_lt hlength) hused (by omega) (Nat.le_refl 8) (held_unary _) hops

/-! ## Reading is the grammar -/

/-- The expression, if no token is left over. -/
def whole (r : Expr × List Token) : Except ExprCause Expr :=
  match r.2 with
  | [] => .ok r.1
  | tok :: _ => .error (.trailing tok)

theorem ofTokens_eq_ok_iff {toks : List Token} {e : Expr} : ofTokens toks = .ok e ↔ Derives 1 toks e := by
  have hplain : ofTokens toks = (plain (readOver 0 toks)).bind whole := by
    rw [ofTokens]
    cases readOver 0 toks <;> rfl
  rw [hplain]
  constructor
  · intro h
    obtain ⟨⟨e', rest⟩, hread, hend⟩ := of_bind_eq_ok h
    cases rest with
    | nil =>
      cases hend
      obtain ⟨used, rfl, hused, -⟩ := sound _ (Nat.zero_le 8) hread
      rwa [List.append_nil]
    | cons tok rest => cases hend
  · intro h
    have hread := plain_readOver_append h 0 [] (.inl Nat.zero_lt_one) (held_nil 1)
    rw [List.append_nil, plain_readOperators_of_held (held_nil 0)] at hread
    rw [hread]
    rfl

/-- **Reading is the grammar**: a text is read as an expression exactly when the grammar derives the expression from the
tokens of the text, and it derives no other one from them. -/
theorem parse_eq_ok_iff_derives : (∀ (cs : List Char) (e : Expr),
      parse cs = .ok e ↔ ∃ toks, Token.scan cs = .ok toks ∧ Derives 1 toks e) ∧
    ∀ toks : List Token, {e | Derives 1 toks e}.Subsingleton := by
  constructor
  · intro cs e
    rw [parse, tokens]
    cases hscan : Token.scan cs with
    | error fault =>
      constructor
      · intro h
        cases h
      · rintro ⟨toks, htoks, -⟩
        cases htoks
    | ok toks =>
      have hparse : (Except.mapError (fun cause => ⟨cause, .ofList cs⟩) (ofTokens toks) : Except ExprFault Expr) = .ok e ↔
          ofTokens toks = .ok e := by
        cases ofTokens toks with
        | error cause => simp [Except.mapError]
        | ok e' => simp [Except.mapError]
      refine hparse.trans (ofTokens_eq_ok_iff.trans ?_)
      simp
  · intro toks e he e' he'
    have h := (ofTokens_eq_ok_iff.2 he).symm.trans (ofTokens_eq_ok_iff.2 he')
    cases h
    rfl

end Expr

end Dialogue
