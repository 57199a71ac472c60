import Stencil.Evaluation
import Stencil.Proofs.GrammarReading

/-!
# The grammar of conditions

What can be written as a condition, what it is read as and what it means:

    condition   := conjunction ('or' conjunction)*
    conjunction := comparison ('and' comparison)*
    comparison  := expr (operator expr)?

The words between comparisons are names like any other, so that `or` may also be a variable.
What tells them apart is where they stand: behind a whole comparison a name can only be one of
the two words. The readers group to the left, and the meaning of a condition does not show it:
the comparisons are tried one after the other, and none behind the one that decides.

## Key results

- `Joined.read_tokens`, `Joined.derived_of_joined`: items with a word between them
- `Condition.evaluate_eq_evaluateIn`: evaluation as a sequence of comparisons in any monad
- `Disjunction.evaluateIn_condition`: of a condition that was read, `any` over `all`
- `Reader.condition_iff_derived`: what is accepted, what it is read as and what it means
-/

namespace Stencil

open Attempt Reader

namespace Grammar

/-! ## Comparisons -/

/-- How a comparison is written. -/
inductive Test where
  | truthy (value : Expr)
  | compare (left : Expr) (comparison : Comparison) (right : Expr)

namespace Test

/-- The expressions of the comparison. -/
def operands : Test → List Expr
  | truthy value => [value]
  | compare left _ right => [left, right]

/-- The tokens that the tree derives. -/
def tokens : Test → List MarkupToken
  | truthy value => value.tokens
  | compare left comparison right => left.tokens ++ .comparison comparison :: right.tokens

/-- The condition that the tree stands for. -/
def condition : Test → Condition
  | truthy value => .truthy value.value
  | compare left comparison right => .compare left.value comparison.operator right.value

/-- At most `n` brackets stand around any expression. -/
def NestsWithin (t : Test) (n : Nat) : Prop :=
  ∀ e ∈ t.operands, e.nesting ≤ n

end Test

/-- Whether a comparison ends: neither a segment nor an operator comes next. -/
def endsTest : List MarkupToken → Bool
  | .comparison _ :: _ => false
  | rest => !startsSegment rest

/-- Where a test ends no path goes on. -/
theorem startsSegment_of_endsTest {rest : List MarkupToken} (h : endsTest rest = true) :
    startsSegment rest = false := by
  unfold endsTest at h
  split at h
  · exact nomatch h
  · simpa using h

theorem takesComparison_of_endsTest {rest : List MarkupToken} (h : endsTest rest = true) :
    takesComparison rest = (.ok none, rest) := by
  unfold takesComparison
  split
  · exact nomatch h
  · rfl

/-- The tokens of an expression are read back as its value. -/
private theorem expression_read (e : Expr) (hnesting : e.nesting ≤ 99) {rest : List MarkupToken}
    (hrest : startsSegment rest = false) : expression (e.tokens ++ rest) = (.ok e.value, rest) := by
  have hlevels : e.nesting < maxNesting := by unfold maxNesting; omega
  exact e.read_tokens hlevels hrest

/-- A comparison is read as what it stands for if it is not nested too deep. -/
theorem Test.read_tokens (t : Test) (h : t.NestsWithin 99) {rest : List MarkupToken}
    (hrest : endsTest rest = true) : comparison (t.tokens ++ rest) = (.ok t.condition, rest) := by
  have hsegment := startsSegment_of_endsTest hrest
  -- A value alone, or two with an operator between them.
  cases t with
  | truthy value =>
    have hvalue := expression_read value (h value (by simp [operands])) hsegment
    rw [tokens, comparison, bind_of_ok hvalue, bind_of_ok (takesComparison_of_endsTest hrest)]
    rfl
  | compare left op right =>
    have hleft : expression (left.tokens ++ .comparison op :: (right.tokens ++ rest))
        = (.ok left.value, .comparison op :: (right.tokens ++ rest)) :=
      expression_read left (h left (by simp [operands])) rfl
    have hop : takesComparison (.comparison op :: (right.tokens ++ rest))
        = (.ok (some op.operator), right.tokens ++ rest) := rfl
    have hright := expression_read right (h right (by simp [operands])) hsegment
    rw [tokens, List.append_assoc, List.cons_append, comparison, bind_of_ok hleft,
      bind_of_ok hop]
    exact (bind_of_ok hright _).trans rfl

end Grammar

namespace Reader

/-- Either an operator was there and is taken, or nothing is. -/
theorem eq_of_takesComparison {tokens rest : List MarkupToken} {op : Option Operator}
    (h : takesComparison tokens = (.ok op, rest)) :
    (∃ c, tokens = .comparison c :: rest ∧ op = some c.operator) ∨ rest = tokens ∧ op = none := by
  unfold takesComparison at h
  split at h
  · cases h
    exact .inl ⟨_, rfl, rfl⟩
  · cases h
    exact .inr ⟨rfl, rfl⟩

/-- What is read as an expression are the tokens of one. -/
private theorem derived_of_expression {tokens rest : List MarkupToken} {e : Expression}
    (h : expression tokens = (.ok e, rest)) :
    ∃ t : Grammar.Expr, t.tokens ++ rest = tokens ∧ t.value = e ∧ t.nesting ≤ 99 := by
  obtain ⟨t, htokens, hvalue, hnesting⟩ := derived_of_expressionWithin h
  exact ⟨t, htokens, hvalue, Nat.le_of_lt_succ hnesting⟩

/-- A comparison that was read is derived. -/
theorem derived_of_comparison {tokens rest : List MarkupToken} {c : Condition}
    (h : comparison tokens = (.ok c, rest)) :
    ∃ t : Grammar.Test, t.tokens ++ rest = tokens ∧ t.condition = c ∧ t.NestsWithin 99 := by
  obtain ⟨left, tokens₁, hleft, h₁⟩ := ok_of_bind h
  obtain ⟨op, tokens₂, hop, h₂⟩ := ok_of_bind h₁
  obtain ⟨left, rfl, rfl, hnesting⟩ := derived_of_expression hleft
  -- An operator was read, and then the right operand; or none was.
  rcases eq_of_takesComparison hop with ⟨c, rfl, rfl⟩ | ⟨rfl, rfl⟩
  · obtain ⟨right, tokens₃, hright, h₃⟩ := ok_of_bind h₂
    cases h₃
    obtain ⟨right, rfl, rfl, hnesting'⟩ := derived_of_expression hright
    refine ⟨.compare left c right, by simp [Grammar.Test.tokens], rfl, ?_⟩
    simp [Grammar.Test.NestsWithin, Grammar.Test.operands, hnesting, hnesting']
  · cases h₂
    refine ⟨.truthy left, rfl, rfl, ?_⟩
    simp [Grammar.Test.NestsWithin, Grammar.Test.operands, hnesting]

end Reader

/-! ## Items with a word between them -/

namespace Grammar

/-- One or more items. -/
structure Joined (α : Type) where
  first : α
  more : List α

namespace Joined

variable {α : Type}

/-- The items in order. -/
def items (j : Joined α) : List α :=
  j.first :: j.more

/-- The tokens of the items, with the word between them. -/
def tokens (word : String) (itemTokens : α → List MarkupToken) (j : Joined α) : List MarkupToken :=
  [.id word].intercalate (j.items.map itemTokens)

/-- The conditions of the items, joined and grouped to the left. -/
def condition (join : Condition → Condition → Condition) (itemCondition : α → Condition)
    (j : Joined α) : Condition :=
  j.more.foldl (fun left item => join left (itemCondition item)) (itemCondition j.first)

/-- The tokens of items behind the first one. -/
def moreTokens (word : String) (itemTokens : α → List MarkupToken) (more : List α) :
    List MarkupToken :=
  more.flatMap fun item => .id word :: itemTokens item

/-- Joined items are the first one and those behind the word. -/
theorem tokens_eq (word : String) (itemTokens : α → List MarkupToken) (j : Joined α) :
    j.tokens word itemTokens = itemTokens j.first ++ moreTokens word itemTokens j.more := by
  obtain ⟨first, more⟩ := j
  induction more generalizing first with
  | nil => simp [tokens, items, moreTokens]
  | cons item more ih =>
    have hrest := ih item
    simp only [tokens, items, List.map_cons, moreTokens, List.flatMap_cons] at hrest ⊢
    rw [List.intercalate_cons_cons, hrest]
    simp

/-- Each item has a token at least. -/
theorem length_le_moreTokens (word : String) (itemTokens : α → List MarkupToken) (more : List α) :
    more.length ≤ (moreTokens word itemTokens more).length := by
  induction more with
  | nil => exact Nat.le_refl _
  | cons item more ih =>
    simp only [moreTokens, List.flatMap_cons, List.length_append, List.length_cons] at ih ⊢
    omega

variable {word : String} {operand : Reader Condition} {join : Condition → Condition → Condition}
  {itemTokens : α → List MarkupToken} {itemCondition : α → Condition} {fits : α → Prop}

/-- Items are read one after the other, as long as the word comes between them. -/
theorem joinedUpTo_tokens {ends : List MarkupToken → Bool}
    (hread : ∀ item, fits item → ∀ rest, ends rest = true →
      operand (itemTokens item ++ rest) = (.ok (itemCondition item), rest))
    (hword : ∀ behind, ends (.id word :: behind) = true) (more : List α)
    (hfits : ∀ item ∈ more, fits item) {rest : List MarkupToken} (hrest : ends rest = true)
    (hstop : ∀ behind, rest ≠ .id word :: behind) {bound : Nat} (hbound : more.length ≤ bound)
    (left : Condition) :
    joinedUpTo word operand join bound left (moreTokens word itemTokens more ++ rest)
      = (.ok (more.foldl (fun left item => join left (itemCondition item)) left), rest) := by
  induction more generalizing left bound with
  | nil =>
    cases bound with
    | zero => rfl
    | succ bound =>
      show joinedUpTo word operand join (bound + 1) left rest = _
      rw [joinedUpTo, bind_of_ok (takesWord_of_ne hstop)]
      rfl
  | cons item more ih =>
    obtain ⟨hitem, hmore⟩ := List.forall_mem_cons.mp hfits
    simp only [List.length_cons] at hbound
    obtain ⟨bound, rfl⟩ : ∃ n, bound = n + 1 := ⟨bound - 1, by omega⟩
    have htakes : takesWord word (.id word :: (itemTokens item
        ++ (moreTokens word itemTokens more ++ rest)))
          = (.ok true, itemTokens item ++ (moreTokens word itemTokens more ++ rest)) := by
      simp [takesWord]
    -- What follows the item is the word once more, or what follows all items.
    have hends : ends (moreTokens word itemTokens more ++ rest) = true := by
      cases more with
      | nil => exact hrest
      | cons next more => exact hword _
    rw [show moreTokens word itemTokens (item :: more) ++ rest
      = .id word :: (itemTokens item ++ (moreTokens word itemTokens more ++ rest)) by
        simp [moreTokens], joinedUpTo, bind_of_ok htakes]
    show (operand >>= fun right => joinedUpTo word operand join bound (join left right)) _ = _
    rw [bind_of_ok (hread item hitem _ hends)]
    exact ih hmore (by omega) _

/-- Items with the word between them are read as what they stand for together. -/
theorem read_tokens {ends : List MarkupToken → Bool}
    (hread : ∀ item, fits item → ∀ rest, ends rest = true →
      operand (itemTokens item ++ rest) = (.ok (itemCondition item), rest))
    (hword : ∀ behind, ends (.id word :: behind) = true) (j : Joined α)
    (hfits : ∀ item ∈ j.items, fits item) {rest : List MarkupToken} (hrest : ends rest = true)
    (hstop : ∀ behind, rest ≠ .id word :: behind) :
    joined word operand join (j.tokens word itemTokens ++ rest)
      = (.ok (j.condition join itemCondition), rest) := by
  obtain ⟨hfirst, hmore⟩ := List.forall_mem_cons.mp hfits
  -- What follows the first item is the word, or the rest.
  have hends : ends (moreTokens word itemTokens j.more ++ rest) = true := by
    cases j.more with
    | nil => exact hrest
    | cons next more => exact hword _
  have hbound : j.more.length ≤ (moreTokens word itemTokens j.more ++ rest).length := by
    have := length_le_moreTokens word itemTokens j.more
    simp only [List.length_append]
    omega
  rw [tokens_eq, List.append_assoc]
  exact (bind_of_ok (hread j.first hfirst _ hends) _).trans
    (joinedUpTo_tokens hread hword j.more hmore hrest hstop hbound _)

/-- What was read behind a condition is derived. -/
theorem derived_of_joinedUpTo
    (hderived : ∀ tokens c rest, operand tokens = (.ok c, rest) →
      ∃ item, itemTokens item ++ rest = tokens ∧ itemCondition item = c ∧ fits item)
    {bound : Nat} {left c : Condition} {tokens rest : List MarkupToken}
    (h : joinedUpTo word operand join bound left tokens = (.ok c, rest)) :
    ∃ more, moreTokens word itemTokens more ++ rest = tokens
      ∧ more.foldl (fun left item => join left (itemCondition item)) left = c
      ∧ ∀ item ∈ more, fits item := by
  induction bound generalizing left tokens with
  | zero =>
    cases h
    exact ⟨[], rfl, rfl, nofun⟩
  | succ bound ih =>
    rw [joinedUpTo] at h
    obtain ⟨found, tokens₁, htakes, h₁⟩ := ok_of_bind h
    have htokens := eq_of_takesWord htakes
    cases found with
    | true =>
      -- The word was there, so an item and perhaps more of them follow.
      obtain ⟨right, tokens₂, hright, h₂⟩ := ok_of_bind h₁
      obtain ⟨item, rfl, rfl, hitem⟩ := hderived _ _ _ hright
      obtain ⟨more, rfl, hfold, hmore⟩ := ih h₂
      refine ⟨item :: more, ?_, hfold, List.forall_mem_cons.mpr ⟨hitem, hmore⟩⟩
      simp_all [moreTokens]
    | false =>
      cases h₁
      exact ⟨[], htokens, rfl, nofun⟩

/-- Items that were read are derived. -/
theorem derived_of_joined
    (hderived : ∀ tokens c rest, operand tokens = (.ok c, rest) →
      ∃ item, itemTokens item ++ rest = tokens ∧ itemCondition item = c ∧ fits item)
    {c : Condition} {tokens rest : List MarkupToken}
    (h : joined word operand join tokens = (.ok c, rest)) :
    ∃ j : Joined α, j.tokens word itemTokens ++ rest = tokens
      ∧ j.condition join itemCondition = c ∧ ∀ item ∈ j.items, fits item := by
  obtain ⟨left, tokens₁, hleft, h₁⟩ := ok_of_bind h
  obtain ⟨first, rfl, rfl, hfirst⟩ := hderived _ _ _ hleft
  -- The first item, and then those behind the word.
  obtain ⟨more, rfl, hfold, hmore⟩ := derived_of_joinedUpTo hderived h₁
  refine ⟨⟨first, more⟩, ?_, hfold, List.forall_mem_cons.mpr ⟨hfirst, hmore⟩⟩
  rw [tokens_eq, List.append_assoc]

end Joined

/-! ## Conjunctions and disjunctions -/

/-- Comparisons joined by `and`. -/
abbrev Conjunction := Joined Test

/-- Conjunctions joined by `or`: how a condition is written. -/
abbrev Disjunction := Joined Conjunction

namespace Conjunction

/-- The tokens that the tree derives. -/
def tokens (g : Conjunction) : List MarkupToken :=
  Joined.tokens "and" Test.tokens g

/-- The condition that the tree stands for. -/
def condition (g : Conjunction) : Condition :=
  Joined.condition .and Test.condition g

/-- At most `n` brackets stand around any expression. -/
def NestsWithin (g : Conjunction) (n : Nat) : Prop :=
  ∀ t ∈ g.items, t.NestsWithin n

end Conjunction

namespace Disjunction

/-- The tokens that the tree derives. -/
def tokens (d : Disjunction) : List MarkupToken :=
  Joined.tokens "or" Conjunction.tokens d

/-- The condition that the tree stands for. -/
def condition (d : Disjunction) : Condition :=
  Joined.condition .or Conjunction.condition d

/-- At most `n` brackets stand around any expression. -/
def NestsWithin (d : Disjunction) (n : Nat) : Prop :=
  ∀ g ∈ d.items, g.NestsWithin n

end Disjunction

/-- Whether a conjunction ends: a comparison does, and the word that would go on is not next. -/
def endsConjunction : List MarkupToken → Bool
  | .id "and" :: _ => false
  | rest => endsTest rest

/-- Where a conjunction ends a test does. -/
theorem endsTest_of_endsConjunction {rest : List MarkupToken} (h : endsConjunction rest = true) :
    endsTest rest = true := by
  unfold endsConjunction at h
  split at h
  · exact nomatch h
  · exact h

/-- The tokens of a conjunction are read back as its condition. -/
theorem Conjunction.read_tokens (g : Conjunction) (h : g.NestsWithin 99)
    {rest : List MarkupToken} (hrest : endsConjunction rest = true) :
    conjunction (g.tokens ++ rest) = (.ok g.condition, rest) := by
  have hstop : ∀ behind, rest ≠ .id "and" :: behind := by
    rintro behind rfl
    exact nomatch hrest
  exact Joined.read_tokens (fun t ht rest hrest => t.read_tokens ht hrest) (fun _ => rfl) g h
    (endsTest_of_endsConjunction hrest) hstop

/-- A condition is read as what it stands for if it is not nested too deep. -/
theorem Disjunction.read_tokens (d : Disjunction) (h : d.NestsWithin 99) :
    toEnd Reader.condition d.tokens = (.ok d.condition, []) := by
  have hread : Reader.condition (d.tokens ++ []) = (.ok d.condition, []) :=
    Joined.read_tokens (fun g hg rest hrest => Conjunction.read_tokens g hg hrest)
      (fun _ => rfl) d h rfl nofun
  rw [List.append_nil] at hread
  rw [toEnd, bind_of_ok hread]
  rfl

end Grammar

/-- A condition that was read to the end is derived. -/
theorem Reader.derived_of_condition {tokens rest : List MarkupToken} {c : Condition}
    (h : toEnd condition tokens = (.ok c, rest)) :
    ∃ d : Grammar.Disjunction, d.tokens = tokens ∧ d.NestsWithin 99 ∧ d.condition = c := by
  obtain ⟨c, tokens₁, hread, h₁⟩ := ok_of_bind h
  obtain ⟨u, tokens₂, hend, h₂⟩ := ok_of_bind h₁
  cases h₂
  obtain rfl : tokens₁ = [] := eq_nil_of_expectEnd hend
  -- A disjunction joins conjunctions, and those join tests.
  have hconjunction : ∀ tokens c rest, conjunction tokens = (.ok c, rest) →
      ∃ g : Grammar.Conjunction, g.tokens ++ rest = tokens ∧ g.condition = c ∧ g.NestsWithin 99 :=
    fun _ _ _ h => Grammar.Joined.derived_of_joined (fun _ _ _ h => derived_of_comparison h) h
  obtain ⟨d, htokens, hcondition, hnesting⟩ :=
    Grammar.Joined.derived_of_joined hconjunction hread
  refine ⟨d, ?_, hnesting, hcondition⟩
  rw [← htokens, List.append_nil]
  rfl

/-! ## Evaluation in any monad -/

namespace Condition

variable {m : Type → Type} [Monad m]

/-- Whether a condition holds, where `test` says it of a comparison. -/
def evaluateIn (test : Condition → m Bool) : Condition → m Bool
  | and left right => do
    if ← left.evaluateIn test then right.evaluateIn test else return false
  | or left right => do
    if ← left.evaluateIn test then return true else right.evaluateIn test
  | c => test c

/-- A condition is evaluated by evaluating comparisons. -/
theorem evaluate_eq_evaluateIn (view : View) (c : Condition) :
    c.evaluate view = c.evaluateIn (evaluate view) := by
  induction c with
  | truthy e => rfl
  | compare left op right => rfl
  | always => rfl
  | and left right ihl ihr => rw [evaluate, evaluateIn, ihl, ihr]
  | or left right ihl ihr => rw [evaluate, evaluateIn, ihl, ihr]

end Condition

namespace Grammar

section

variable {m : Type → Type} [Monad m]

/-- All hold if the first one does, and then the others. -/
private theorem allM_cons {α : Type} (test : α → m Bool) (a : α) (as : List α) :
    (a :: as).allM test = (do if ← test a then as.allM test else return false) := by
  rw [List.allM]
  congr 1
  funext holds
  cases holds <;> rfl

/-- One holds if the first one does, or one of the others. -/
private theorem anyM_cons {α : Type} (test : α → m Bool) (a : α) (as : List α) :
    (a :: as).anyM test = (do if ← test a then return true else as.anyM test) := by
  rw [List.anyM]
  congr 1
  funext holds
  cases holds <;> rfl

variable [LawfulMonad m]

/-- By induction on the tests: the conditions are nested to the left. -/
private theorem evaluateIn_foldl_and (test : Condition → m Bool) (more : List Test)
    (left : Condition) :
    (more.foldl (fun left t => .and left t.condition) left).evaluateIn test = (do
      if ← left.evaluateIn test then more.allM fun t => test t.condition else return false) := by
  induction more generalizing left with
  | nil =>
    have hback (b : Bool) : (if b then pure true else pure false : m Bool) = pure b := by
      cases b <;> rfl
    simp [List.allM, hback]
  | cons t more ih =>
    -- Grouped to the left, the first two comparisons are evaluated before all others.
    rw [List.foldl_cons, ih, Condition.evaluateIn]
    have htest : t.condition.evaluateIn test = test t.condition := by cases t <;> rfl
    rw [htest, bind_assoc, allM_cons]
    congr 1
    funext holds
    cases holds <;> simp

/-- A conjunction holds if all comparisons do, and the first that does not decides. -/
theorem Conjunction.evaluateIn_condition (test : Condition → m Bool) (g : Conjunction) :
    g.condition.evaluateIn test = g.items.allM fun t => test t.condition := by
  have htest : g.first.condition.evaluateIn test = test g.first.condition := by
    cases g.first <;> rfl
  rw [condition, Joined.condition, evaluateIn_foldl_and, htest, Joined.items, allM_cons]

/-- So it is with the conjunctions. -/
private theorem evaluateIn_foldl_or (test : Condition → m Bool) (more : List Conjunction)
    (left : Condition) :
    (more.foldl (fun left g => .or left g.condition) left).evaluateIn test = (do
      if ← left.evaluateIn test then return true
      else more.anyM fun g => g.items.allM fun t => test t.condition) := by
  induction more generalizing left with
  | nil =>
    -- The answer that was found is given as it is.
    have hback (b : Bool) : (if b then pure true else pure false : m Bool) = pure b := by
      cases b <;> rfl
    simp [List.anyM, hback]
  | cons g more ih =>
    rw [List.foldl_cons, ih, Condition.evaluateIn, Conjunction.evaluateIn_condition, bind_assoc,
      anyM_cons]
    congr 1
    funext holds
    cases holds <;> simp

/-- A condition holds if all comparisons of some conjunction do. Whatever evaluating a comparison
does besides is done in order, and not at all behind the one that decides. -/
theorem Disjunction.evaluateIn_condition (test : Condition → m Bool) (d : Disjunction) :
    d.condition.evaluateIn test
      = d.items.anyM fun g => g.items.allM fun t => test t.condition := by
  have hfirst : (Joined.first d).condition.evaluateIn test
      = (Joined.first d).items.allM fun t => test t.condition :=
    Conjunction.evaluateIn_condition test d.first
  show _ = (d.first :: d.more).anyM fun g : Conjunction => g.items.allM fun t => test t.condition
  rw [condition, Joined.condition, evaluateIn_foldl_or, hfirst, anyM_cons]

end

/-! ## Which comparisons are evaluated -/

/-- The items up to the first one that decides, with that one. -/
def upToDecision {α : Type} (decides : α → Bool) : List α → List α
  | [] => []
  | item :: items => if decides item then [item] else item :: upToDecision decides items

/-- Whether the result is that truth value. -/
def yields (b : Bool) : Except Error Bool → Bool
  | .ok holds => holds == b
  | .error _ => false

/-- Whether the comparison holds. -/
def Test.evaluate (view : View) (t : Test) : Except Error Bool :=
  t.condition.evaluate view

/-- Whether all comparisons hold: what the first says that does not. -/
def Conjunction.evaluate (view : View) (g : Conjunction) : Except Error Bool :=
  g.items.allM (Test.evaluate view)

/-- The comparisons of a conjunction that are evaluated: up to one that does not hold. -/
def Conjunction.evaluated (view : View) (g : Conjunction) : List Test :=
  upToDecision (fun t => !yields true (t.evaluate view)) g.items

/-- Whether some conjunction holds: what the first says that is not false. -/
def Disjunction.evaluate (view : View) (d : Disjunction) : Except Error Bool :=
  d.items.anyM (Conjunction.evaluate view)

/-- The comparisons of a condition that are evaluated: those of the conjunctions up to one that is
not false. -/
def Disjunction.evaluated (view : View) (d : Disjunction) : List Test :=
  (upToDecision (fun g => !yields false (Conjunction.evaluate view g)) d.items).flatMap
    (Conjunction.evaluated view)

section

variable {α β : Type} {value : α → Except Error Bool} {act : α → Attempt (List β) Bool}
  {notes : α → List β}

/-- Of items that must all hold, each up to the first that does not leaves its notes. -/
theorem allM_notes (hact : ∀ item seen, act item seen = (value item, seen ++ notes item))
    (items : List α) (seen : List β) :
    items.allM act seen = (items.allM value,
      seen ++ (upToDecision (fun item => !yields true (value item)) items).flatMap notes) := by
  induction items generalizing seen with
  | nil => simp [List.allM, upToDecision, pure, Attempt.pure, Except.pure]
  | cons item items ih =>
    rw [allM_cons, allM_cons, upToDecision]
    -- An error or a value that decides ends the list there.
    cases hvalue : value item with
    | error e =>
      rw [bind_of_error ((hact item seen).trans (by rw [hvalue]))]
      simp [yields, bind, Except.bind]
    | ok holds =>
      rw [bind_of_ok ((hact item seen).trans (by rw [hvalue]))]
      cases holds with
      | true => simp [yields, bind, Except.bind, ih]
      | false => simp [yields, bind, Except.bind, pure, Attempt.pure, Except.pure]

/-- Of items one of which must hold, each up to the first that is not false leaves its notes. -/
theorem anyM_notes (hact : ∀ item seen, act item seen = (value item, seen ++ notes item))
    (items : List α) (seen : List β) :
    items.anyM act seen = (items.anyM value,
      seen ++ (upToDecision (fun item => !yields false (value item)) items).flatMap notes) := by
  induction items generalizing seen with
  | nil => simp [List.anyM, upToDecision, pure, Attempt.pure, Except.pure]
  | cons item items ih =>
    rw [anyM_cons, anyM_cons, upToDecision]
    -- An error or a value that decides ends the list there.
    cases hvalue : value item with
    | error e =>
      rw [bind_of_error ((hact item seen).trans (by rw [hvalue]))]
      simp [yields, bind, Except.bind]
    | ok holds =>
      rw [bind_of_ok ((hact item seen).trans (by rw [hvalue]))]
      cases holds with
      | true => simp [yields, bind, Except.bind, pure, Attempt.pure, Except.pure]
      | false => simp [yields, bind, Except.bind, ih]

end

/-- The meaning of a condition is that of its conjunctions. -/
theorem Disjunction.evaluate_condition (view : View) (d : Disjunction) :
    d.condition.evaluate view = d.evaluate view := by
  rw [Condition.evaluate_eq_evaluateIn, evaluateIn_condition]
  rfl

/-- Evaluates a comparison and notes it. -/
def noting (view : View) (c : Condition) : Attempt (List Condition) Bool := fun seen =>
  (c.evaluate view, seen ++ [c])

/-- The comparisons are evaluated in order, up to the one that decides. -/
theorem Disjunction.evaluateIn_noting (view : View) (d : Disjunction) (seen : List Condition) :
    d.condition.evaluateIn (noting view) seen
      = (d.condition.evaluate view, seen ++ (d.evaluated view).map Test.condition) := by
  -- Each test is noted when it is evaluated,
  have htest (t : Test) (seen : List Condition) :
      noting view t.condition seen = (t.evaluate view, seen ++ [t.condition]) := rfl
  -- and a conjunction notes its tests up to the first that fails.
  have hconjunction (g : Conjunction) (seen : List Condition) :
      g.items.allM (fun t => noting view t.condition) seen
        = (Conjunction.evaluate view g,
          seen ++ (Conjunction.evaluated view g).map Test.condition) := by
    rw [allM_notes htest, ← List.map_eq_flatMap]
    rfl
  rw [evaluateIn_condition, anyM_notes hconjunction, evaluate_condition, evaluated,
    List.map_flatMap]
  rfl

end Grammar

/-- A sequence of tokens is a condition if it is conjunctions joined by `or`, each of comparisons
joined by `and`, with at most 99 brackets around an expression, and is read as what they stand for.
It holds if all comparisons of some conjunction do; the first that does not, or whose evaluation
fails, settles its conjunction, the first conjunction that is not false settles the condition, and
nothing behind is evaluated. -/
theorem Reader.condition_iff_derived :
    (∀ (tokens : List MarkupToken) (c : Condition), (toEnd condition tokens).1 = .ok c ↔
      ∃ d : Grammar.Disjunction, d.tokens = tokens ∧ d.NestsWithin 99 ∧ d.condition = c)
    ∧ (∀ (c : Condition) (view : View), c.evaluate view = c.evaluateIn (Condition.evaluate view))
    ∧ ∀ (d : Grammar.Disjunction) (view : View),
      d.condition.evaluate view = d.evaluate view
      ∧ ∀ seen : List Condition, d.condition.evaluateIn (Grammar.noting view) seen
        = (d.evaluate view, seen ++ (d.evaluated view).map Grammar.Test.condition) := by
  refine ⟨fun tokens c => ⟨fun h => ?_, ?_⟩,
    fun c view => Condition.evaluate_eq_evaluateIn view c, fun d view => ⟨?_, fun seen => ?_⟩⟩
  · -- What is read is derived, and what is derived is read back.
    exact derived_of_condition (Prod.ext h rfl)
  · rintro ⟨d, rfl, hnesting, rfl⟩
    rw [Grammar.Disjunction.read_tokens d hnesting]
  · exact d.evaluate_condition view
  · rw [d.evaluateIn_noting, d.evaluate_condition]

/-- The words are variables where a comparison begins. -/
example : (Reader.toEnd Reader.condition [.id "or", .id "or", .id "and", .id "and", .id "or"]).1
    = .ok (.or (.truthy (.variable "or"))
        (.and (.truthy (.variable "and")) (.truthy (.variable "or")))) := rfl

end Stencil
