import Stencil.Document.Header
import Stencil.Proofs.Outcome

/-!
# Errors of reading markup

Whatever the markup of an output or a tag is, reading it fails with a syntax error if it
fails: one of grammar, or one of nesting. In particular no reading can be taken for a
render that exhausted its budget or for a failure of the host.

A reader says what is wrong and not where. In the strict mode the line of the token is noted as soon
as the markup is read; in the other modes whoever asked for the markup has to do that.

## Key definitions

- `Error.IsBare`: the errors of readers
- `ParseContext.ReadsMarkup`: steps that read markup and do nothing else

## Key results

- `Reader.expression_bareOnly`, `Reader.condition_bareOnly`: the two recursive readers
- `ParseContext.withMode_readsMarkup`: what is noted in which mode
-/

namespace Stencil

/-- Whether the error is one that only reading raises. -/
def Error.isSyntax (e : Error) : Bool :=
  e.kind == .grammar || e.kind == .stackLevel

/-- Noting the line does not change the kind of an error. -/
@[simp] theorem Error.isSyntax_atLine (e : Error) (line : Option Nat) :
    (e.atLine line).isSyntax = e.isSyntax := by
  simp only [isSyntax, kind_atLine]

/-- A syntax error stays one when its line is noted. -/
theorem Attempt.Ensures.atLine {σ α : Type} {x : Attempt σ α} {Q : α → Prop}
    (h : x.Ensures Q fun e => e.isSyntax = true) (line : Option Nat) :
    (Attempt.mapError (·.atLine line) x).Ensures Q fun e => e.isSyntax = true := by
  refine h.mapError fun e he => ?_
  rw [Error.isSyntax_atLine]
  exact he

/-- Noting the template does not change the kind of an error. -/
@[simp] theorem Error.isSyntax_inTemplate (e : Error) (name : Option String) :
    (e.inTemplate name).isSyntax = e.isSyntax := by
  simp only [isSyntax, kind_inTemplate]

/-- If the attempt fails, then with a syntax error. -/
abbrev Attempt.SyntaxOnly {σ α : Type} (x : Attempt σ α) : Prop :=
  x.Ensures (fun _ => True) fun e => e.isSyntax = true

/-- The error says what is wrong with some markup, and not where that is. -/
def Error.IsBare (e : Error) : Prop :=
  e = .tooDeep ∨ ∃ message, e = .grammar message

namespace Error.IsBare

variable {e : Error}

/-- The error of the nesting limit is bare. -/
theorem tooDeep : IsBare .tooDeep :=
  .inl rfl

/-- A grammar error is bare, whatever its message. -/
theorem grammar (message : String) : (Error.grammar message).IsBare :=
  .inr ⟨message, rfl⟩

/-- Bare errors are syntax errors. -/
theorem isSyntax (h : e.IsBare) : e.isSyntax = true := by
  obtain rfl | ⟨message, rfl⟩ := h <;> rfl

/-- Bare errors have no line. -/
theorem line (h : e.IsBare) : e.line = none := by
  obtain rfl | ⟨message, rfl⟩ := h <;> rfl

/-- Bare errors have no template. -/
theorem template (h : e.IsBare) : e.template = none := by
  obtain rfl | ⟨message, rfl⟩ := h <;> rfl

end Error.IsBare

/-- If the attempt fails, then with an error that has no place yet. -/
abbrev Attempt.BareOnly {σ α : Type} (x : Attempt σ α) : Prop :=
  x.Ensures (fun _ => True) Error.IsBare

namespace Reader

open Attempt

variable {α : Type}

/-! ## Single tokens -/

/-- `takes` does not fail at all. -/
theorem takes_bareOnly (kind : MarkupToken.Kind) : (takes kind).BareOnly := by
  intro tokens
  unfold takes
  split <;> trivial

/-- `expect` fails with a grammar error where another token comes. -/
theorem expect_bareOnly (kind : MarkupToken.Kind) : (expect kind).BareOnly := by
  intro tokens
  unfold expect
  split
  · trivial
  · exact .grammar _

/-- `name` fails with a grammar error where no name comes. -/
theorem name_bareOnly : name.BareOnly := by
  intro tokens
  unfold name
  split
  · trivial
  · exact .grammar _

/-- `takesWord` does not fail at all. -/
theorem takesWord_bareOnly (word : String) : (takesWord word).BareOnly := by
  intro tokens
  unfold takesWord
  split
  · split <;> trivial
  · trivial

/-- `takesComparison` does not fail at all. -/
theorem takesComparison_bareOnly : takesComparison.BareOnly := by
  intro tokens
  unfold takesComparison
  split <;> trivial

/-! ## Expressions -/

/-- A path fails where the expression in a bracket does, where the bracket is not closed, or where
no name follows a dot. -/
private theorem segmentsUpTo_bareOnly {inner : Reader Expression} (h : inner.BareOnly)
    (bound : Nat) : (segmentsUpTo inner bound).BareOnly := by
  induction bound with
  | zero => exact .pure trivial
  | succ bound ih =>
    intro tokens
    unfold segmentsUpTo
    split
    · -- A bracket holds an expression; a dot is followed by a name.
      refine Ensures.bind h (fun key _ => ?_) _
      refine .bind (expect_bareOnly _) fun _ _ => ?_
      exact .bind ih fun more _ => .pure trivial
    · refine Ensures.bind name_bareOnly (fun member _ => ?_) _
      exact .bind ih fun more _ => .pure trivial
    · trivial

/-- `segments` is `segmentsUpTo` with the number of tokens as its bound. -/
private theorem segments_bareOnly {inner : Reader Expression} (h : inner.BareOnly) :
    (segments inner).BareOnly :=
  fun tokens => segmentsUpTo_bareOnly h tokens.length tokens

/-- `primary` fails with bare errors if the reader of what is in brackets does. -/
private theorem primary_bareOnly {inner : Reader Expression} (h : inner.BareOnly) :
    (primary inner).BareOnly := by
  intro tokens
  unfold primary
  split
  · trivial
  · trivial
  · trivial
  · -- A literal is read at once; a name, a bracket and a range have paths behind them.
    exact Ensures.bind (segments_bareOnly h) (fun path _ => .pure trivial) _
  · refine Ensures.bind h (fun name _ => ?_) _
    refine .bind (expect_bareOnly _) fun _ _ => ?_
    exact .bind (segments_bareOnly h) fun path _ => .pure trivial
  · refine Ensures.bind h (fun first _ => ?_) _
    refine .bind (expect_bareOnly _) fun _ _ => ?_
    refine .bind h fun last _ => ?_
    refine .bind (expect_bareOnly _) fun _ _ => ?_
    exact .bind (segments_bareOnly h) fun path _ => .pure trivial
  · exact .grammar _

/-- By induction on how deep brackets may still be nested. -/
private theorem expressionWithin_bareOnly (levels : Nat) :
    (expressionWithin levels).BareOnly := by
  -- Brackets and ranges hold expressions of the next level.
  induction levels with
  | zero => exact .fail .tooDeep
  | succ levels ih => exact primary_bareOnly ih

/-- What is wrong with an expression is said without its place. -/
theorem expression_bareOnly : expression.BareOnly :=
  expressionWithin_bareOnly maxNesting

/-! ## Filters -/

/-- An argument is an expression, with or without a keyword. -/
private theorem argument_bareOnly : argument.BareOnly := by
  intro tokens
  unfold argument
  split
  · exact Ensures.bind expression_bareOnly (fun value _ => .pure trivial) _
  · exact Ensures.bind expression_bareOnly (fun value _ => .pure trivial) _

/-- By induction on how many arguments may still follow. -/
private theorem argumentsUpTo_bareOnly (bound : Nat) (call : FilterCall) :
    (argumentsUpTo bound call).BareOnly := by
  induction bound generalizing call with
  | zero => exact .pure trivial
  | succ bound ih =>
    refine .bind argument_bareOnly fun arg _ => ?_
    refine .bind (takes_bareOnly _) fun more _ => ?_
    split
    · exact ih _
    · exact .pure trivial

/-- `arguments` fails with bare errors only. -/
private theorem arguments_bareOnly (call : FilterCall) : (arguments call).BareOnly :=
  fun tokens => argumentsUpTo_bareOnly (tokens.length + 1) call tokens

/-- By induction on how many filters may still follow. -/
private theorem filtersUpTo_bareOnly (bound : Nat) : (filtersUpTo bound).BareOnly := by
  induction bound with
  | zero => exact .pure trivial
  | succ bound ih =>
    refine .bind (takes_bareOnly _) fun more _ => ?_
    split
    · refine .bind name_bareOnly fun name _ => ?_
      refine .bind (takes_bareOnly _) fun colon _ => ?_
      -- With or without arguments, the filters that follow are read in the same way.
      have rest (call : FilterCall) :
          (do return call :: (← filtersUpTo bound) : Reader (List FilterCall)).BareOnly :=
        .bind ih fun more _ => .pure trivial
      dsimp only
      split
      · exact .bind (arguments_bareOnly _) fun call _ => rest call
      · exact rest _
    · exact .pure trivial

/-- `filters` fails with bare errors only. -/
private theorem filters_bareOnly : filters.BareOnly :=
  fun tokens => filtersUpTo_bareOnly tokens.length tokens

/-! ## Conditions -/

/-- A comparison is one expression, or two with an operator between them. -/
private theorem comparison_bareOnly : comparison.BareOnly := by
  refine .bind expression_bareOnly fun left _ => ?_
  refine .bind takesComparison_bareOnly fun op _ => ?_
  split
  · exact .bind expression_bareOnly fun right _ => .pure trivial
  · exact .pure trivial

/-- By induction on how many operands may still follow. -/
private theorem joinedUpTo_bareOnly {operand : Reader Condition} (h : operand.BareOnly)
    (word : String) (join : Condition → Condition → Condition) (bound : Nat) (left : Condition) :
    (joinedUpTo word operand join bound left).BareOnly := by
  induction bound generalizing left with
  | zero => exact .pure trivial
  | succ bound ih =>
    refine .bind (takesWord_bareOnly word) fun more _ => ?_
    split
    · exact .bind h fun right _ => ih _
    · exact .pure trivial

/-- Operands with a word between them fail with bare errors if each of them does. -/
private theorem joined_bareOnly {operand : Reader Condition} (h : operand.BareOnly)
    (word : String) (join : Condition → Condition → Condition) :
    (joined word operand join).BareOnly :=
  .bind h fun left _ tokens => joinedUpTo_bareOnly h word join tokens.length left tokens

/-- What is wrong with a condition is said without its place. -/
theorem condition_bareOnly : condition.BareOnly :=
  joined_bareOnly (joined_bareOnly comparison_bareOnly "and" .and) "or" .or

/-! ## Recovery -/

/-- What is attempted fails only as the reader itself does. -/
private theorem attempted_bareOnly {reader : Reader α} (h : reader.BareOnly) :
    (attempted reader).BareOnly := by
  intro tokens
  have hr := h tokens
  unfold attempted
  cases hread : reader tokens with
  | mk r rest =>
    rw [hread] at hr
    cases r with
    | ok a => trivial
    | error e =>
      dsimp only
      -- A grammar error is passed over; one of nesting is not.
      split
      · trivial
      · exact hr

/-- By induction on the tokens that are left: each turn takes one away. -/
private theorem argumentsLaxUpTo_bareOnly (bound : Nat) (call : FilterCall) :
    (argumentsLaxUpTo bound call).BareOnly := by
  induction bound generalizing call with
  | zero => exact .pure trivial
  | succ bound ih =>
    intro tokens
    unfold argumentsLaxUpTo
    split
    · trivial
    · trivial
    · exact ih call _
    · have hr := attempted_bareOnly argument_bareOnly tokens
      cases hread : attempted argument tokens with
      | mk r rest =>
        rw [hread] at hr
        cases r with
        | error e => exact hr
        | ok arg =>
          cases arg with
          | some arg => exact ih _ rest
          -- Nothing could be read, so a token is passed over.
          | none => exact ih call rest.tail

/-- `argumentsLax` fails with bare errors only. -/
private theorem argumentsLax_bareOnly (call : FilterCall) : (argumentsLax call).BareOnly :=
  fun tokens => argumentsLaxUpTo_bareOnly tokens.length call tokens

/-- By induction on the tokens that are left. -/
private theorem filtersLaxUpTo_bareOnly (bound : Nat) : (filtersLaxUpTo bound).BareOnly := by
  induction bound with
  | zero => exact .pure trivial
  | succ bound ih =>
    refine .bind (.modify _) fun _ _ => ?_
    refine .bind (takes_bareOnly _) fun more _ => ?_
    split
    · refine .bind (attempted_bareOnly name_bareOnly) fun name _ => ?_
      split
      · -- A pipe without a name behind it is passed over.
        exact ih
      · refine .bind (takes_bareOnly _) fun colon _ => ?_
        have rest (call : FilterCall) :
            (do return call :: (← filtersLaxUpTo bound) : Reader (List FilterCall)).BareOnly :=
          .bind ih fun more _ => .pure trivial
        dsimp only
        split
        · exact .bind (argumentsLax_bareOnly _) fun call _ => rest call
        · exact rest _
    · exact .pure trivial

/-- The source of a lax reading is nil where no expression can be read. -/
private theorem sourceLax_bareOnly : sourceLax.BareOnly := by
  intro tokens
  unfold sourceLax
  split
  · trivial
  · trivial
  · refine Ensures.bind (attempted_bareOnly expression_bareOnly) (fun e _ => ?_) _
    exact .pure trivial

/-- `pipelineLax` fails with bare errors only. -/
private theorem pipelineLax_bareOnly : pipelineLax.BareOnly := by
  refine .bind sourceLax_bareOnly fun source _ => ?_
  refine .bind (fun tokens => filtersLaxUpTo_bareOnly tokens.length tokens) fun filters _ => ?_
  exact .pure trivial

/-- `pipelineStrict` fails with bare errors only. -/
private theorem pipelineStrict_bareOnly : pipelineStrict.BareOnly := by
  refine .bind expression_bareOnly fun source _ => ?_
  refine .bind filters_bareOnly fun filters _ => ?_
  exact .bind (expect_bareOnly _) fun _ _ => .pure trivial

/-- Tokens that are left over are refused with a grammar error. -/
private theorem toEnd_bareOnly {reader : Reader α} (h : reader.BareOnly) :
    (toEnd reader).BareOnly := by
  refine .bind h fun a _ => ?_
  exact .bind (expect_bareOnly _) fun _ _ => .pure trivial

end Reader

/-! ## Whole markup -/

/-- If the reading of a markup fails, then with an error that has no place yet. -/
def ReadsBare {α : Type} (read : String → Except Error α) : Prop :=
  ∀ markup, Meets (fun _ => True) Error.IsBare (read markup)

namespace Reader

variable {α : Type}

/-- A strict reading fails where the lexer or the reader does. -/
private theorem onStrict_readsBare {reader : Reader α} (h : reader.BareOnly) :
    ReadsBare (onStrict reader) := by
  intro markup
  unfold onStrict
  cases hlex : lexStrict markup with
  | ok tokens => exact h tokens
  | error e =>
    -- The lexer refuses a character that starts no token.
    unfold lexStrict at hlex
    dsimp only at hlex
    split at hlex
    · cases hlex
      exact .grammar _
    · exact nomatch hlex

/-- A lax reading fails only where the reader does. -/
private theorem onLax_readsBare {reader : Reader α} (h : reader.BareOnly) :
    ReadsBare (onLax reader) :=
  fun markup => h (lexLax markup)

/-- What a lax reading reports for the whole tag has no place either. -/
private theorem mapError_laxError_readsBare {read : String → Except Error α}
    (h : ReadsBare read) (message : String) :
    ReadsBare fun m => (read m).mapError (ParseContext.laxError message) := by
  intro markup
  have hr := h markup
  dsimp only
  cases hread : read markup with
  | ok a => trivial
  | error e =>
    show (ParseContext.laxError message e).IsBare
    rw [hread] at hr
    unfold ParseContext.laxError
    split
    · -- An error of nesting is kept; everything else becomes the message of the tag.
      exact hr
    · exact .grammar message

end Reader

namespace ParseContext

variable {α : Type}

/-- What is refused with a message is a grammar error. -/
theorem refuse_ensures {Q : α → Prop} (ctx : ParseContext) (key : String)
    (values : Placeholders) :
    (ctx.refuse key values : Parse α).Ensures Q fun e => e.isSyntax = true := by
  intro s
  show ((Error.grammar _).atLine _).isSyntax = true
  rw [Error.isSyntax_atLine]
  rfl

/-- The next level is read with the same registry. -/
theorem deeper_ensures (ctx : ParseContext) :
    ctx.deeper.Ensures (fun ctx' => ctx'.registry = ctx.registry) fun e => e.isSyntax = true := by
  intro s
  unfold deeper
  split
  · show (Error.tooDeep.atLine _).isSyntax = true
    rw [Error.isSyntax_atLine]
    rfl
  · rfl

/-- The error, with the line of the current token if the mode is the strict one. -/
def noted (ctx : ParseContext) (s : ParseState) (e : Error) : Error :=
  if ctx.mode = .strict then e.atLine (ctx.lineOf s) else e

/-- The step reads markup: it stays on its line, and if it fails, then with an error of a reader
that only the strict mode has noted the line of. -/
structure ReadsMarkup (ctx : ParseContext) (x : Parse α) : Prop where
  line : ∀ s, (x s).2.line = s.line
  meets : ∀ s, Meets (fun _ => True) (fun e => ∃ bare : Error, bare.IsBare ∧ e = ctx.noted s bare)
    (x s).1

/-- In every mode markup is refused with syntax errors only. -/
theorem ReadsMarkup.syntaxOnly {ctx : ParseContext} {x : Parse α} (h : ctx.ReadsMarkup x) :
    x.SyntaxOnly := by
  intro s
  refine (h.meets s).mono (fun _ _ => trivial) fun e he => ?_
  obtain ⟨bare, hbare, rfl⟩ := he
  unfold noted
  split
  · rw [Error.isSyntax_atLine]
    exact hbare.isSyntax
  · exact hbare.isSyntax

/-- In each mode markup is read without a change of line, and what a reader objects to gets its line
in the strict mode only. -/
theorem withMode_readsMarkup (ctx : ParseContext) {strict lax : String → Except Error α}
    (hs : ReadsBare strict) (hl : ReadsBare lax) (markup : String) :
    ctx.ReadsMarkup (ctx.withMode strict lax markup) where
  line s := by
    unfold withMode
    split
    · rfl
    · rfl
    · split <;> rfl
  meets s := by
    have hstrict := hs markup
    have hlax := (hl markup).mono (F := fun e => ∃ bare : Error, bare.IsBare ∧ e = bare)
      (fun _ _ => trivial) fun e he => ⟨e, he, rfl⟩
    unfold withMode noted
    -- Lax, strict, and strict with the lax reading behind it.
    cases ctx.mode with
    | lax => exact hlax
    | strict =>
      cases hread : strict markup with
      | ok a => trivial
      | error e =>
        rw [hread] at hstrict
        exact ⟨e, hstrict, rfl⟩
    | warn =>
      cases hread : strict markup with
      | ok a => trivial
      | error e => exact hlax

/-- The strict reading of an output. -/
private theorem readStrict_readsBare : ReadsBare Pipeline.readStrict := by
  intro markup
  unfold Pipeline.readStrict
  have hr := Reader.onStrict_readsBare Reader.pipelineStrict_bareOnly markup
  unfold Reader.onStrict at hr
  split
  · -- Markup without tokens is nil, and everything else is left to the reader.
    trivial
  · rename_i tokens _ hlex
    rw [hlex] at hr
    exact hr
  · rename_i e hlex
    rw [hlex] at hr
    exact hr

/-- The markup of an output, without its line. -/
theorem pipelineWithMode_readsMarkup (ctx : ParseContext) (markup : String) :
    ctx.ReadsMarkup (ctx.withMode Pipeline.readStrict Pipeline.readLax markup) :=
  ctx.withMode_readsMarkup readStrict_readsBare
    (Reader.onLax_readsBare Reader.pipelineLax_bareOnly) markup

/-- The line of an output is noted before its markup is read. -/
theorem pipeline_eq (ctx : ParseContext) (markup : String) :
    ctx.pipeline markup = do
      let line ← ctx.currentLine
      let p ← ctx.withMode Pipeline.readStrict Pipeline.readLax markup
      return { p with line } := by
  -- The line is that of the state before the markup is read, and reading keeps it.
  funext s
  show ctx.pipeline markup s = (do
    let p ← ctx.withMode Pipeline.readStrict Pipeline.readLax markup
    return { p with line := ctx.lineOf s } : Parse Pipeline) s
  rw [Attempt.bind_apply]
  unfold pipeline
  cases ctx.withMode Pipeline.readStrict Pipeline.readLax markup s with
  | mk r s' => cases r <;> rfl

/-- The markup of an output. -/
theorem pipeline_readsMarkup (ctx : ParseContext) (markup : String) :
    ctx.ReadsMarkup (ctx.pipeline markup) where
  line s := by
    have hline := (ctx.pipelineWithMode_readsMarkup markup).line s
    unfold pipeline
    cases hread : ctx.withMode Pipeline.readStrict Pipeline.readLax markup s with
    | mk r t =>
      rw [hread] at hline
      cases r <;> exact hline
  meets s := by
    have hmeets := (ctx.pipelineWithMode_readsMarkup markup).meets s
    unfold pipeline
    cases hread : ctx.withMode Pipeline.readStrict Pipeline.readLax markup s with
    | mk r t =>
      rw [hread] at hmeets
      cases r with
      | ok p => trivial
      | error e => exact hmeets

/-- The markup of a condition. -/
theorem condition_readsMarkup (ctx : ParseContext) (tag markup : String) :
    ctx.ReadsMarkup (ctx.condition tag markup) :=
  ctx.withMode_readsMarkup
    (Reader.onStrict_readsBare (Reader.toEnd_bareOnly Reader.condition_bareOnly))
    (Reader.mapError_laxError_readsBare
      (Reader.onLax_readsBare Reader.condition_bareOnly) _) markup

end ParseContext

/-! ## Headers -/

/-- The subject of a choice. -/
theorem Expression.parseSubject_readsMarkup (ctx : ParseContext) (markup : String) :
    ctx.ReadsMarkup (parseSubject ctx markup) :=
  ctx.withMode_readsMarkup
    (Reader.onStrict_readsBare (Reader.toEnd_bareOnly Reader.expression_bareOnly))
    (Reader.mapError_laxError_readsBare
      (Reader.onLax_readsBare Reader.expression_bareOnly) _) markup

namespace LoopHeader

open Attempt

/-- One attribute of a loop. -/
private theorem clause_bareOnly (messages : Catalogue) (strict : Bool) (key : String)
    (header : LoopHeader) : (attributesUpTo.clause messages strict key header).BareOnly := by
  unfold attributesUpTo.clause
  -- One case for each key: `offset`, `limit`, any other one.
  split
  · refine .bind (Reader.takesWord_bareOnly _) fun goesOn _ => ?_
    split
    · exact .pure trivial
    · exact .bind Reader.expression_bareOnly fun e _ => .pure trivial
  · exact .bind Reader.expression_bareOnly fun e _ => .pure trivial
  · split
    · exact .fail (.grammar _)
    · exact .bind Reader.expression_bareOnly fun e _ => .pure trivial

/-- The attributes of a loop, by induction on how many may still follow. -/
private theorem attributesUpTo_bareOnly (messages : Catalogue) (strict : Bool) (bound : Nat)
    (header : LoopHeader) : (attributesUpTo messages strict bound header).BareOnly := by
  induction bound generalizing header with
  | zero => exact .pure trivial
  | succ bound ih =>
    refine .bind .get fun tokens _ => ?_
    split
    · refine .bind Reader.name_bareOnly fun key _ => ?_
      refine .bind (Reader.expect_bareOnly _) fun _ _ => ?_
      refine .bind (clause_bareOnly messages strict key header) fun header _ => ?_
      exact .bind (Reader.takes_bareOnly _) fun _ _ => ih header
    · exact .pure trivial

/-- The header of a loop. -/
private theorem read_bareOnly (messages : Catalogue) (strict : Bool) :
    (read messages strict).BareOnly := by
  refine .bind Reader.name_bareOnly fun item _ => ?_
  refine .bind (Reader.takesWord_bareOnly _) fun hasIn _ => ?_
  split
  · refine .bind Reader.expression_bareOnly fun collection _ => ?_
    refine .bind (Reader.takesWord_bareOnly _) fun reversed _ => ?_
    refine .bind .get fun tokens _ => ?_
    refine .bind (attributesUpTo_bareOnly messages strict _ _) fun header _ => ?_
    dsimp only
    split
    · exact .bind (Reader.expect_bareOnly _) fun _ _ => .pure trivial
    · exact .pure trivial
  · exact .fail (.grammar _)

/-- The errors of a lax loop header have no place either. -/
private theorem mapError_laxError_readsBare {read : String → Except Error LoopHeader}
    (h : ReadsBare read) (messages : Catalogue) :
    ReadsBare fun m => (read m).mapError (laxError messages) := by
  intro markup
  have hr := h markup
  have hlax := Reader.mapError_laxError_readsBare h (messages.text "errors.syntax.for") markup
  dsimp only at hlax ⊢
  cases hread : read markup with
  | ok header => trivial
  | error e =>
    show (laxError messages e).IsBare
    rw [hread] at hr hlax
    -- Either the message is replaced, or the error is the one of the reader.
    unfold laxError
    split
    · exact hr
    · exact hlax

/-- The markup of a loop. -/
theorem parse_readsMarkup (ctx : ParseContext) (markup : String) :
    ctx.ReadsMarkup (parse ctx markup) :=
  ctx.withMode_readsMarkup (Reader.onStrict_readsBare (read_bareOnly _ true))
    (mapError_laxError_readsBare (Reader.onLax_readsBare (read_bareOnly _ false)) _)
    markup

end LoopHeader

namespace Condition

/-- A comma or the word `or`, or neither of them. -/
private theorem takesSeparator_bareOnly : takesSeparator.BareOnly := by
  refine .bind (Reader.takes_bareOnly _) fun comma _ => ?_
  split
  · exact .pure trivial
  · exact Reader.takesWord_bareOnly _

/-- The values of an arm, by induction on how many may still follow. -/
private theorem readMoreValues_bareOnly (subject : Expression) (bound : Nat)
    (condition : Condition) : (readMoreValues subject bound condition).BareOnly := by
  induction bound generalizing condition with
  | zero => exact .pure trivial
  | succ bound ih =>
    refine .bind takesSeparator_bareOnly fun more _ => ?_
    split
    · exact .bind Reader.expression_bareOnly fun value _ => ih _
    · exact .pure trivial

/-- The values of an arm. -/
private theorem readValues_bareOnly (subject : Expression) :
    (readValues subject).BareOnly := by
  refine .bind Reader.expression_bareOnly fun value _ => ?_
  exact .bind .get fun tokens _ => readMoreValues_bareOnly subject _ _

/-- The markup of an arm. -/
theorem parseValues_readsMarkup (ctx : ParseContext) (subject : Expression) (markup : String) :
    ctx.ReadsMarkup (parseValues ctx subject markup) :=
  ctx.withMode_readsMarkup
    (Reader.onStrict_readsBare (Reader.toEnd_bareOnly (readValues_bareOnly subject)))
    (Reader.mapError_laxError_readsBare
      (Reader.onLax_readsBare (readValues_bareOnly subject)) _) markup

end Condition

namespace PartialCall

/-- The attributes of a partial, by induction on how many may still follow. -/
private theorem attributesUpTo_bareOnly (bound : Nat) : (attributesUpTo bound).BareOnly := by
  induction bound with
  | zero => exact .pure trivial
  | succ bound ih =>
    refine .bind (Reader.takes_bareOnly _) fun _ _ => ?_
    refine .bind .get fun tokens _ => ?_
    split
    · refine .bind Reader.name_bareOnly fun key _ => ?_
      refine .bind (Reader.expect_bareOnly _) fun _ _ => ?_
      refine .bind Reader.expression_bareOnly fun value _ => ?_
      exact .bind ih fun more _ => .pure trivial
    · exact .pure trivial

/-- What is passed to a partial with `with` or `for`. -/
private theorem readObject_bareOnly : readObject.BareOnly := by
  refine .bind (Reader.takesWord_bareOnly _) fun isWith _ => ?_
  split
  · exact .bind Reader.expression_bareOnly fun object _ => .pure trivial
  · refine .bind (Reader.takesWord_bareOnly _) fun isFor _ => ?_
    split
    · exact .bind Reader.expression_bareOnly fun object _ => .pure trivial
    · exact .pure trivial

/-- The name that it is passed under. -/
private theorem readAlias_bareOnly : readAlias.BareOnly := by
  refine .bind (Reader.takesWord_bareOnly _) fun isAs _ => ?_
  split
  · exact .bind Reader.name_bareOnly fun name _ => .pure trivial
  · exact .pure trivial

/-- The call of a partial. -/
private theorem read_bareOnly : read.BareOnly := by
  refine .bind Reader.expression_bareOnly fun template _ => ?_
  refine .bind readObject_bareOnly fun object _ => ?_
  refine .bind readAlias_bareOnly fun passedAs _ => ?_
  refine .bind .get fun tokens _ => ?_
  exact .bind (attributesUpTo_bareOnly _) fun attributes _ => .pure trivial

/-- The markup of a partial's call. -/
theorem parse_readsMarkup (ctx : ParseContext) (key markup : String) :
    ctx.ReadsMarkup (parse ctx key markup) :=
  ctx.withMode_readsMarkup
    (Reader.onStrict_readsBare (Reader.toEnd_bareOnly read_bareOnly))
    (Reader.mapError_laxError_readsBare (Reader.onLax_readsBare read_bareOnly) _) markup

end PartialCall

end Stencil
