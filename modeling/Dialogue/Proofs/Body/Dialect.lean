import Mathlib
import Dialogue.Program.Compile

/-!
# Dialects

A dialect says what a script may contain: links, groups of options, and which expressions. Whether it has links matters
only to a body that has one (`hasBody_iff`). The full dialect has every body (`hasBody_full`).
-/

namespace Dialogue

/-- **What a script may contain.** -/
structure Dialect where
  links : Bool
  groups : Bool
  allows : Expr → Bool

namespace Dialect

section Membership

variable (d : Dialect)

/-- The holes of the template are allowed. -/
def hasTemplate (text : Template) : Bool :=
  text.holes.all d.allows

mutual

/-- **The statement contains only what the dialect allows.** -/
def hasStatement : Statement → Bool
  | .line _ text _ => d.hasTemplate text
  | .command _ text => d.hasTemplate text
  | .set _ _ value => d.allows value
  | .conditional branches => hasClauses branches
  | .link _ none _ => d.links
  | .link _ (some text) _ => d.links && d.hasTemplate text
  | .options choices => d.groups && hasChoices choices
  | .jump .. => true
  | .stop => true

/-- **The body contains only what the dialect allows.** -/
def hasBody : List Statement → Bool
  | [] => true
  | s :: rest => hasStatement s && hasBody rest

def hasClauses : List Clause → Bool
  | [] => true
  | .mk _ condition body :: rest => condition.all d.allows && hasBody body && hasClauses rest

def hasChoices : List Choice → Bool
  | [] => true
  | .mk _ text condition _ body :: rest =>
    d.hasTemplate text && condition.all d.allows && hasBody body && hasChoices rest

end

/-- The dialect with links or without them. -/
def withLinks (links : Bool) : Dialect :=
  { d with links }

end Membership

/-- The dialect that allows everything. -/
def full : Dialect := ⟨true, true, fun _ => true⟩

/-! ## Links -/

section Links

variable (d : Dialect)

mutual

theorem hasStatement_iff : ∀ s : Statement, d.hasStatement s = true ↔
    (d.withLinks true).hasStatement s = true ∧ (Code.hasLink s = true → d.links = true)
  | .line .. | .command .. | .set .. | .jump .. | .stop => (and_iff_left fun h => absurd h Bool.false_ne_true).symm
  | .conditional branches => hasClauses_iff branches
  | .link _ none _ => by
    constructor
    · intro h
      exact ⟨rfl, fun _ => h⟩
    · intro h
      exact h.2 rfl
  | .link _ (some text) _ => by
    rw [hasStatement, hasStatement, Bool.and_eq_true, Bool.and_eq_true]
    constructor
    · rintro ⟨hl, ht⟩
      exact ⟨⟨rfl, ht⟩, fun _ => hl⟩
    · rintro ⟨⟨_, ht⟩, hl⟩
      exact ⟨hl rfl, ht⟩
  | .options choices => by
    rw [hasStatement, hasStatement, Bool.and_eq_true, Bool.and_eq_true, hasChoices_iff choices, and_assoc]
    rfl

/-- **A body is in a dialect** when it is in the one with links, and has none where the dialect has none. -/
theorem hasBody_iff : ∀ body : List Statement, d.hasBody body = true ↔
    (d.withLinks true).hasBody body = true ∧ (Code.haveLink body = true → d.links = true)
  | [] => (and_iff_left fun h => absurd h Bool.false_ne_true).symm
  | s :: rest => by
    rw [hasBody, hasBody, Code.haveLink, Bool.and_eq_true, Bool.and_eq_true, Bool.or_eq_true, or_imp,
      hasStatement_iff s, hasBody_iff rest, and_and_and_comm]

theorem hasClauses_iff : ∀ branches : List Clause, d.hasClauses branches = true ↔
    (d.withLinks true).hasClauses branches = true ∧ (Code.clausesHaveLink branches = true → d.links = true)
  | [] => (and_iff_left fun h => absurd h Bool.false_ne_true).symm
  | .mk _ condition body :: rest => by
    simp only [hasClauses, Code.clausesHaveLink, Bool.and_eq_true, Bool.or_eq_true, or_imp]
    rw [hasBody_iff body, hasClauses_iff rest]
    constructor
    · rintro ⟨⟨hc, hb, hl⟩, hr, hl'⟩
      exact ⟨⟨⟨hc, hb⟩, hr⟩, hl, hl'⟩
    · rintro ⟨⟨⟨hc, hb⟩, hr⟩, hl, hl'⟩
      exact ⟨⟨hc, hb, hl⟩, hr, hl'⟩

theorem hasChoices_iff : ∀ choices : List Choice, d.hasChoices choices = true ↔
    (d.withLinks true).hasChoices choices = true ∧ (Code.choicesHaveLink choices = true → d.links = true)
  | [] => (and_iff_left fun h => absurd h Bool.false_ne_true).symm
  | .mk _ text condition _ body :: rest => by
    simp only [hasChoices, Code.choicesHaveLink, Bool.and_eq_true, Bool.or_eq_true, or_imp]
    rw [hasBody_iff body, hasChoices_iff rest]
    constructor
    · rintro ⟨⟨hc, hb, hl⟩, hr, hl'⟩
      exact ⟨⟨⟨hc, hb⟩, hr⟩, hl, hl'⟩
    · rintro ⟨⟨⟨hc, hb⟩, hr⟩, hl, hl'⟩
      exact ⟨⟨hc, hb, hl⟩, hr, hl'⟩

end

variable {d} {body : List Statement}

/-- A body is in its dialect with links exactly when it has one. -/
theorem hasBody_haveLink (h : d.hasBody body = true) : (d.withLinks (Code.haveLink body)).hasBody body = true :=
  (hasBody_iff _ body).2 ⟨((hasBody_iff d body).1 h).1, id⟩

/-- Only a dialect with links has a body with one. -/
theorem links_of_haveLink (h : d.hasBody body = true) (hl : Code.haveLink body = true) : d.links = true :=
  ((hasBody_iff d body).1 h).2 hl

end Links

/-! ## The full dialect -/

theorem hasTemplate_full (text : Template) : full.hasTemplate text = true :=
  List.all_eq_true.2 fun _ _ => rfl

theorem all_full (condition : Option Expr) : condition.all full.allows = true := by
  cases condition <;> rfl

mutual

theorem hasStatement_full : ∀ s : Statement, full.hasStatement s = true
  | .line _ text _ => hasTemplate_full text
  | .command _ text => hasTemplate_full text
  | .set .. => rfl
  | .conditional branches => hasClauses_full branches
  | .link _ none _ => rfl
  | .link _ (some text) _ => hasTemplate_full text
  | .options choices => hasChoices_full choices
  | .jump .. => rfl
  | .stop => rfl

/-- **Every body is in the full dialect.** -/
theorem hasBody_full : ∀ body : List Statement, full.hasBody body = true
  | [] => rfl
  | s :: rest => by rw [hasBody, hasStatement_full s, hasBody_full rest, Bool.and_self]

theorem hasClauses_full : ∀ branches : List Clause, full.hasClauses branches = true
  | [] => rfl
  | .mk _ condition body :: rest => by
    rw [hasClauses, all_full, hasBody_full body, hasClauses_full rest, Bool.and_self, Bool.and_self]

theorem hasChoices_full : ∀ choices : List Choice, full.hasChoices choices = true
  | [] => rfl
  | .mk _ text condition _ body :: rest => by
    rw [hasChoices, hasTemplate_full, all_full, hasBody_full body, hasChoices_full rest, Bool.and_self, Bool.and_self,
      Bool.and_self]

end

end Dialect

end Dialogue
