import Stencil.Proofs.MarkupModes
import Stencil.Proofs.StandardTags

/-!
# Reading in each of the error modes

`Parse.Agrees x` says of a step of a reading, given in each of the modes, how the modes
go together: what the strict mode accepts is accepted by the others, and leaves the same
state behind; the warning mode gives what the lax mode gives and differs in its warnings
alone. Steps put together from such steps are of that kind again, so it is enough to look
at the few places where a reading asks for the mode: at markup, at arguments that a tag
does not take, and where the context is passed on.

## Key results

- `Parse.Agrees`: the relation between the modes, closed under sequencing
- `Document.parse_agrees`: a whole document
- `Document.parse_modes`: the three modes on one source
-/

namespace Stencil

open Attempt Reader

/-- The context in another mode. -/
def ParseContext.inMode (ctx : ParseContext) (mode : ErrorMode) : ParseContext :=
  { ctx with mode }

/-- The state with other warnings. -/
def ParseState.withWarnings (s : ParseState) (warnings : Array Error) : ParseState :=
  { s with warnings }

namespace Parse

variable {α β : Type}

/-- How a step goes in the three modes. -/
structure Agrees (x : ErrorMode → Parse α) : Prop where
  strict : ∀ mode, (x .strict).AcceptedBy (x mode)
  /-- Other warnings than those of the lax mode change nothing. -/
  warn : ∀ s warnings, ∃ warnings',
    x .warn (s.withWarnings warnings) = ((x .lax s).1, (x .lax s).2.withWarnings warnings')
  lax : ∀ s, (x .lax s).2.warnings = s.warnings
  syntaxOnly : ∀ mode, (x mode).SyntaxOnly

/-- A step that neither asks for the mode nor has to do with warnings. -/
structure Modeless (x : Parse α) : Prop where
  withWarnings : ∀ s warnings,
    x (s.withWarnings warnings) = ((x s).1, (x s).2.withWarnings warnings)
  syntaxOnly : x.SyntaxOnly

namespace Agrees

/-- What does not look at the mode agrees with itself. -/
theorem of_modeless {x : Parse α} (h : Modeless x) : Agrees fun _ => x where
  strict _ := .refl x
  warn s warnings := ⟨warnings, h.withWarnings s warnings⟩
  lax s := by
    have hw := congrArg (fun r => r.2.warnings) (h.withWarnings s s.warnings)
    exact hw
  syntaxOnly _ := h.syntaxOnly

/-- Giving a value does not look at the mode. -/
theorem pure (a : α) : Agrees fun _ => (Pure.pure a : Parse α) :=
  of_modeless ⟨fun _ _ => rfl, .pure trivial⟩

/-- Steps that agree, one after the other. -/
theorem bind {x : ErrorMode → Parse α} {f : ErrorMode → α → Parse β} (hx : Agrees x)
    (hf : ∀ a, Agrees fun mode => f mode a) : Agrees fun mode => x mode >>= f mode where
  strict mode := .bind (hx.strict mode) fun a => (hf a).strict mode
  warn s warnings := by
    obtain ⟨warnings', hw⟩ := hx.warn s warnings
    simp only [bind_apply, hw]
    -- What the first step gives is the same in all modes where the strict one accepts it.
    cases h : x .lax s with
    | mk r t =>
      cases r with
      | ok a => exact (hf a).warn t warnings'
      | error e => exact ⟨warnings', rfl⟩
  lax s := by
    have hl := hx.lax s
    simp only [bind_apply]
    cases h : x .lax s with
    | mk r t =>
      rw [h] at hl
      cases r with
      | ok a => exact ((hf a).lax t).trans hl
      | error e => exact hl
  syntaxOnly mode := .bind (hx.syntaxOnly mode) fun a _ => (hf a).syntaxOnly mode

/-- The place of an error may be noted. -/
theorem mapError {x : ErrorMode → Parse α} (hx : Agrees x) {f : Error → Error}
    (hf : ∀ e, (f e).isSyntax = e.isSyntax) :
    Agrees fun mode => Attempt.mapError f (x mode) where
  strict mode := (hx.strict mode).mapError f
  warn s warnings := by
    obtain ⟨warnings', hw⟩ := hx.warn s warnings
    refine ⟨warnings', ?_⟩
    unfold Attempt.mapError
    rw [hw]
    cases h : x .lax s with
    | mk r t => cases r <;> rfl
  lax s := by
    have hl := hx.lax s
    unfold Attempt.mapError
    cases h : x .lax s with
    | mk r t =>
      rw [h] at hl
      cases r <;> exact hl
  -- The mapping says nothing about the kind of an error.
  syntaxOnly mode := (hx.syntaxOnly mode).mapError fun e he => (hf e).trans he

/-- Lines of errors make no difference. -/
theorem atLine {x : ErrorMode → Parse α} (hx : Agrees x) (line : Option Nat) :
    Agrees fun mode => Attempt.mapError (·.atLine line) (x mode) :=
  hx.mapError fun e => Error.isSyntax_atLine e line

/-- Refusing does not look at the mode. -/
theorem refuse (ctx : ParseContext) (key : String) (values : Placeholders := []) :
    Agrees fun _ => (ctx.refuse key values : Parse α) :=
  of_modeless ⟨fun _ _ => rfl, ctx.refuse_ensures key values⟩

/-- What only the strict mode objects to. -/
theorem unlessStrict {p : Prop} [Decidable p] {x : ErrorMode → Parse α} (hx : Agrees x)
    (ctx : ParseContext) (key : String) (values : Placeholders := []) :
    Agrees fun mode => if mode = .strict ∧ p then ctx.refuse key values else x mode := by
  by_cases hp : p
  · -- The strict mode accepts nothing here.
    have hstrict : (if ErrorMode.strict = .strict ∧ p then ctx.refuse key values else x .strict)
        = ctx.refuse key values := if_pos ⟨rfl, hp⟩
    have hother (mode : ErrorMode) (hmode : mode ≠ .strict) :
        (if mode = .strict ∧ p then ctx.refuse key values else x mode) = x mode :=
      if_neg fun h => hmode h.1
    refine ⟨fun mode s a t h => ?_, ?_, ?_, fun mode => ?_⟩
    · exact nomatch (Prod.mk.inj ((congrFun hstrict s).symm.trans h)).1
    · rw [hother .warn nofun, hother .lax nofun]
      exact hx.warn
    · rw [hother .lax nofun]
      exact hx.lax
    · by_cases hmode : mode = .strict
      · rw [hmode, hstrict]
        exact ctx.refuse_ensures key values
      · rw [hother mode hmode]
        exact hx.syntaxOnly mode
  · have heq : (fun mode => if mode = .strict ∧ p then ctx.refuse key values else x mode) = x :=
      funext fun mode => if_neg fun h => hp h.2
    rw [heq]
    exact hx

/-- Markup that is read strictly and laxly. -/
theorem withMode {strict lax : String → Except Error α} (h : Agree strict lax)
    (ctx : ParseContext) (markup : String)
    (hs : ∀ mode, ((ctx.inMode mode).withMode strict lax markup).SyntaxOnly) :
    Agrees fun mode => (ctx.inMode mode).withMode strict lax markup where
  strict mode s a t hmode := by
    -- A strict reading that succeeds leaves no trace.
    cases hread : strict markup with
    | error e =>
      have hmode : ((strict markup).mapError (·.atLine (ctx.lineOf s)), s) = (.ok a, t) := hmode
      rw [hread] at hmode
      exact nomatch (Prod.mk.inj hmode).1
    | ok b =>
      have hok (mode : ErrorMode) :
          (ctx.inMode mode).withMode strict lax markup s = (.ok b, s) :=
        ParseContext.withMode_of_ok hread (h markup b hread) s
      rw [hok] at hmode ⊢
      exact hmode
  warn s warnings := by
    unfold ParseContext.withMode ParseContext.inMode
    dsimp only
    cases hread : strict markup with
    | ok a =>
      rw [h markup a hread]
      exact ⟨warnings, rfl⟩
    | error e => exact ⟨_, rfl⟩
  lax s := rfl
  syntaxOnly := hs

/-- The next level is read in the same mode. -/
theorem deeper {f : ErrorMode → ParseContext → Parse α} (ctx : ParseContext)
    (hf : ∀ ctx' : ParseContext, Agrees fun mode => f mode (ctx'.inMode mode)) :
    Agrees fun mode => (ctx.inMode mode).deeper >>= f mode := by
  -- The limit belongs to the registry, so all modes come to it on the same level.
  by_cases hlimit : ctx.registry.nestingLimit ≤ ctx.depth
  · let tooDeep : Parse α := fun s => (.error (Error.tooDeep.atLine (ctx.lineOf s)), s)
    have heq : (fun mode => (ctx.inMode mode).deeper >>= f mode) = fun _ => tooDeep := by
      funext mode s
      simp only [bind_apply, ParseContext.deeper, ParseContext.inMode, if_pos hlimit]
      rfl
    rw [heq]
    refine of_modeless ⟨fun _ _ => rfl, fun s => ?_⟩
    show (Error.tooDeep.atLine _).isSyntax = true
    rw [Error.isSyntax_atLine]
    rfl
  · have heq : (fun mode => (ctx.inMode mode).deeper >>= f mode)
        = fun mode => f mode (ParseContext.inMode { ctx with depth := ctx.depth + 1 } mode) := by
      funext mode s
      simp only [bind_apply, ParseContext.deeper, ParseContext.inMode, if_neg hlimit]
    rw [heq]
    exact hf _

end Agrees

end Parse

open Parse

/-! ## Markup -/

/-- Nor does the line. -/
private theorem currentLine_agrees (ctx : ParseContext) :
    Agrees fun mode => (ctx.inMode mode).currentLine :=
  .of_modeless (x := ctx.currentLine) ⟨fun _ _ => rfl, fun _ => trivial⟩

/-- The markup of an output. -/
private theorem pipeline_agrees (ctx : ParseContext) (markup : String) :
    Agrees fun mode => (ctx.inMode mode).pipeline markup := by
  simp only [ParseContext.pipeline_eq]
  refine .bind (currentLine_agrees ctx) fun line => ?_
  refine .bind (.withMode Pipeline.agree_read ctx markup fun mode => ?_) fun p => .pure _
  exact ((ctx.inMode mode).pipelineWithMode_readsMarkup markup).syntaxOnly

/-- The markup of a condition. -/
private theorem condition_agrees (ctx : ParseContext) (tag markup : String) :
    Agrees fun mode => (ctx.inMode mode).condition tag markup :=
  let lax := ParseContext.laxError (ctx.message ("errors.syntax." ++ tag))
  .withMode ((agree_toEnd Reader.condition).mapError lax) ctx markup fun mode =>
    ((ctx.inMode mode).condition_readsMarkup tag markup).syntaxOnly

/-- The subject of a choice. -/
private theorem parseSubject_agrees (ctx : ParseContext) (markup : String) :
    Agrees fun mode => Expression.parseSubject (ctx.inMode mode) markup :=
  let lax := ParseContext.laxError (ctx.message "errors.syntax.case")
  .withMode ((agree_toEnd Reader.expression).mapError lax) ctx markup fun mode =>
    (Expression.parseSubject_readsMarkup (ctx.inMode mode) markup).syntaxOnly

/-- The header of a loop. -/
private theorem parseHeader_agrees (ctx : ParseContext) (markup : String) :
    Agrees fun mode => LoopHeader.parse (ctx.inMode mode) markup :=
  let lax := LoopHeader.laxError ctx.registry.messages
  .withMode ((LoopHeader.agree_read ctx.registry.messages).mapError lax) ctx markup fun mode =>
    (LoopHeader.parse_readsMarkup (ctx.inMode mode) markup).syntaxOnly

/-- The values of an arm. -/
private theorem parseValues_agrees (ctx : ParseContext) (subject : Expression) (markup : String) :
    Agrees fun mode => Condition.parseValues (ctx.inMode mode) subject markup :=
  let lax := ParseContext.laxError (ctx.message "errors.syntax.case_invalid_when")
  .withMode ((agree_toEnd (Condition.readValues subject)).mapError lax) ctx markup fun mode =>
    (Condition.parseValues_readsMarkup (ctx.inMode mode) subject markup).syntaxOnly

/-- The call of a partial. -/
private theorem parseCall_agrees (ctx : ParseContext) (key markup : String) :
    Agrees fun mode => PartialCall.parse (ctx.inMode mode) key markup :=
  let lax := ParseContext.laxError (ctx.message key)
  .withMode ((agree_toEnd PartialCall.read).mapError lax) ctx markup fun mode =>
    (PartialCall.parse_readsMarkup (ctx.inMode mode) key markup).syntaxOnly

/-! ## Blocks -/

/-- A tag that a block refuses is refused in all modes. -/
private theorem refuseTag_agrees {α : Type} (ctx : ParseContext) (block delimiter tag : String) :
    Agrees fun _ => (ctx.refuseTag block delimiter tag : Parse α) := by
  unfold ParseContext.refuseTag
  split
  · exact .refuse ctx _ _
  · split <;> exact .refuse ctx _ _

/-- What a block makes of a tag. -/
private theorem claim_agrees (ctx : ParseContext) (block : OpenBlock) (finished : Bool)
    (tag args : String) :
    Agrees fun mode => block.claim (ctx.inMode mode) finished tag args := by
  have refused (name : String) : Agrees fun mode =>
      ((ctx.inMode mode).refuseTagIn name tag : Parse OpenBlock.Claim) :=
    refuseTag_agrees ctx _ _ _
  unfold OpenBlock.claim
  split
  · exact .pure _
  · cases block with
    | conditional name negated conditions =>
      dsimp only
      split
      · exact .bind (condition_agrees ctx _ _) fun condition => .pure _
      · exact .pure _
      · exact refused name
    | choice name subject heads =>
      dsimp only
      split
      · exact .bind (parseValues_agrees ctx _ _) fun condition => .pure _
      · -- Only the strict mode minds arguments of an `else`.
        exact .unlessStrict (.pure _) ctx _ _
      · exact refused name
    | loop name position header =>
      dsimp only
      split
      · exact .pure _
      · exact refused name
    | capture name target => exact refused name
    | transform name f => exact refused name
    | sections name opens passes closes =>
      dsimp only
      -- The tag may open a section, be passed over or close the block.
      split
      · exact .pure _
      · split
        · exact .pure _
        · split
          · exact .pure _
          · exact refused name

/-! ## The builder -/

/-- The reader of lines gives the same in all modes, as far as they agree. -/
def LinesReader.Agrees (inner : LinesReader) : Prop :=
  ∀ (ctx : ParseContext) (markup : String) (line : Nat),
    Parse.Agrees fun mode => inner (ctx.inMode mode) markup line

namespace Builder

/-- Opening a block does not look at the mode. -/
private theorem openBlock_agrees (ctx : ParseContext) (b : Builder) (line : Option Nat)
    (block : OpenBlock) : Agrees fun mode => b.openBlock (ctx.inMode mode) line block :=
  .deeper (b.contextAt ctx) fun _ => .pure _

/-- What a registered tag starts with. -/
private theorem start_agrees (ctx : ParseContext) {inner : LinesReader} (hinner : inner.Agrees)
    (b : Builder) (kind : TagKind) (name args : String) :
    Agrees fun mode => b.start (ctx.inMode mode) inner kind name args := by
  refine .bind (currentLine_agrees ctx) fun line => .atLine ?_ line
  cases kind with
  | conditional negated =>
    exact .bind (condition_agrees ctx _ _) fun condition => openBlock_agrees ctx b line _
  | choice => exact .bind (parseSubject_agrees ctx _) fun subject => openBlock_agrees ctx b line _
  | loop => exact .bind (parseHeader_agrees ctx _) fun header => openBlock_agrees ctx b line _
  | interrupt interrupt => exact .unlessStrict (.pure _) ctx _ _
  | assign =>
    dsimp only
    split
    · exact .bind (pipeline_agrees ctx _) fun source => .pure _
    · exact .refuse ctx _ _
  | capture =>
    dsimp only
    split
    · exact openBlock_agrees ctx b line _
    · exact .refuse ctx _ _
  | comment => exact .pure _
  | inlineComment =>
    dsimp only
    split
    · exact .pure _
    · exact .refuse ctx _ _
  | raw =>
    dsimp only
    split
    · refine .bind (.of_modeless (x := takeTrim) ⟨fun _ _ => rfl, fun _ => trivial⟩) fun _ => ?_
      exact .pure _
    · exact .refuse ctx _ _
  | echo => exact .bind (pipeline_agrees ctx _) fun source => .pure _
  | lines =>
    -- The lines are read by a reader that agrees, one level deeper.
    refine .deeper (b.contextAt ctx) fun deeper => ?_
    exact .bind (hinner deeper _ _) fun body => .pure _
  | includePartial => exact .bind (parseCall_agrees ctx _ _) fun call => .pure _
  | renderPartial =>
    dsimp only
    split
    · refine .bind (parseCall_agrees ctx _ _) fun call => ?_
      split
      · exact .pure _
      · exact .refuse ctx _ _
    · exact .refuse ctx _ _
  | transform f => exact openBlock_agrees ctx b line _
  | sections opens passes closes => exact openBlock_agrees ctx b line _
  | counter => exact .pure _

/-- A tag that nobody registered. -/
private theorem handOver_agrees (ctx : ParseContext) {stray : String → Parse Builder}
    (hstray : ∀ tag, Agrees fun _ => stray tag) (b : Builder) (tag args : String) :
    Agrees fun mode => b.handOver (ctx.inMode mode) stray tag args := by
  unfold handOver
  split
  · exact hstray tag
  · refine .bind (.atLine (claim_agrees ctx _ _ tag args) _) fun claim => ?_
    cases claim <;> exact .pure _

/-- The line has nothing to do with the mode. -/
private theorem setLine_agrees (line : Nat) : Agrees fun _ => setLine line :=
  .of_modeless ⟨fun _ _ => rfl, fun _ => trivial⟩

/-- Nor has the trim flag. -/
private theorem setTrim_agrees (trim : Bool) : Agrees fun _ => setTrim trim :=
  .of_modeless ⟨fun _ _ => rfl, fun _ => trivial⟩

/-- Nor has a text. -/
private theorem addText_agrees (b : Builder) (text : String) : Agrees fun _ => b.addText text :=
  .bind (.of_modeless ⟨fun _ _ => rfl, fun _ => trivial⟩) fun _ => .pure _

/-- Nor has turning to a tag. -/
private theorem turnTo_agrees (b : Builder) (d : Delimited) : Agrees fun _ => b.turnTo d :=
  .bind (setLine_agrees _) fun _ => .bind (setTrim_agrees _) fun _ => .pure _

/-- An output agrees as its markup does. -/
private theorem addOutput_agrees (ctx : ParseContext) (b : Builder) (d : Delimited) :
    Agrees fun mode => b.addOutput (ctx.inMode mode) d := by
  refine .bind (turnTo_agrees b d) fun b => ?_
  exact .bind (.atLine (pipeline_agrees ctx _) _) fun pipeline => .pure _

/-- A tag is started, or handed over, in all modes. -/
private theorem addTag_agrees (ctx : ParseContext) {inner : LinesReader} (hinner : inner.Agrees)
    {stray : String → Parse Builder} (hstray : ∀ tag, Agrees fun _ => stray tag) (b : Builder)
    (d : Delimited) : Agrees fun mode => b.addTag (ctx.inMode mode) inner stray d := by
  refine .bind (turnTo_agrees b d) fun b => ?_
  split
  · exact .refuse ctx _ _
  · -- The registry is the same in every mode.
    dsimp only [ParseContext.inMode]
    split
    · exact start_agrees ctx hinner b _ _ _
    · exact handOver_agrees ctx hstray b _ _

/-- Inside a comment the mode makes no difference. -/
private theorem skip_agrees (b : Builder) (name : String) (depth : Nat) (inRaw : Bool)
    (token : Token) : Agrees fun _ => b.skip name depth inRaw token := by
  -- What is skipped is not read, so the mode plays no part in it.
  unfold skip
  split
  · exact .pure _
  · split
    · exact .pure _
    · split
      · exact .pure _
      · exact .pure _
      · exact .pure _
      · exact .bind (setTrim_agrees _) fun _ => .pure _
      · exact .pure _

/-- Nor does it inside a raw block. -/
private theorem keep_agrees (b : Builder) (name : String) (trimStart : Bool) (text : String)
    (token : Token) : Agrees fun _ => b.keep name trimStart text token := by
  unfold keep
  split
  · exact .bind (setTrim_agrees _) fun _ => .pure _
  · exact .pure _

/-- One token. -/
private theorem add_agrees (ctx : ParseContext) {inner : LinesReader} (hinner : inner.Agrees)
    {stray : String → Parse Builder} (hstray : ∀ tag, Agrees fun _ => stray tag) (b : Builder)
    (token : Token) : Agrees fun mode => b.add (ctx.inMode mode) inner stray token := by
  unfold add
  split
  · exact skip_agrees b _ _ _ token
  · exact keep_agrees b _ _ _ token
  · cases token with
    | text text line => exact addText_agrees b text
    | output d => exact addOutput_agrees ctx b d
    | tag d => exact addTag_agrees ctx hinner hstray b d

/-- Any number of tokens. -/
private theorem addAll_agrees (ctx : ParseContext) {inner : LinesReader} (hinner : inner.Agrees)
    {stray : String → Parse Builder} (hstray : ∀ tag, Agrees fun _ => stray tag)
    (tokens : List Token) (b : Builder) :
    Agrees fun mode => addAll (ctx.inMode mode) inner stray tokens b := by
  induction tokens generalizing b with
  | nil => exact .pure _
  | cons token tokens ih =>
    exact .bind (add_agrees ctx hinner hstray b token) fun b => ih b

/-- Blocks that are not closed are refused in all modes. -/
private theorem finish_agrees (ctx : ParseContext) (b : Builder) :
    Agrees fun mode => b.finish (ctx.inMode mode) := by
  unfold finish
  split
  · exact .refuse ctx _ _
  · exact .refuse ctx _ _
  · exact .refuse ctx _ _
  · exact .pure _

end Builder

/-! ## Documents -/

/-- By induction on the levels that are left for lines within lines. -/
private theorem Body.parseLines_agrees (levels : Nat) :
    LinesReader.Agrees (Body.parseLines levels) := by
  -- Lines may hold lines again, one level deeper.
  induction levels with
  | zero => exact fun _ _ _ => .of_modeless ⟨fun _ _ => rfl, fun _ => rfl⟩
  | succ levels ih =>
    intro ctx markup line
    have hstray (tag : String) :
        Agrees fun _ => (ctx.refuseTag "liquid" "%\x7d" tag : Parse Builder) :=
      refuseTag_agrees ctx _ _ _
    refine .bind (Builder.addAll_agrees ctx ih hstray _ _) fun b => ?_
    exact Builder.finish_agrees ctx b

namespace Document

/-- A delimiter without an end is refused in all modes. -/
private theorem refuseUnterminated_agrees (ctx : ParseContext) (u : Unterminated) :
    Agrees fun _ => (refuseUnterminated ctx u : Parse Document) := by
  refine .bind (Builder.setLine_agrees _) fun _ => ?_
  split <;> exact .refuse ctx _ _

/-- The modes agree on a whole document. -/
theorem parse_agrees (ctx : ParseContext) (source : String) :
    Agrees fun mode => Document.parse (ctx.inMode mode) source := by
  refine .mapError ?_ fun e => Error.isSyntax_inTemplate e _
  have hstray (tag : String) : Agrees fun _ => (ctx.refuseOuterTag tag : Parse Builder) := by
    unfold ParseContext.refuseOuterTag
    split <;> exact .refuse ctx _ _
  have hinner := Body.parseLines_agrees (ctx.registry.nestingLimit - ctx.depth)
  refine .bind (Builder.addAll_agrees ctx hinner hstray _ _) fun b => ?_
  refine .bind (Builder.finish_agrees ctx b) fun body => ?_
  split
  · exact refuseUnterminated_agrees ctx _
  · exact .pure _

/-- What cannot be read is a syntax error, in whatever mode. -/
theorem parse_syntaxOnly (ctx : ParseContext) (source : String) :
    (Document.parse ctx source).SyntaxOnly :=
  (parse_agrees ctx source).syntaxOnly ctx.mode

/-- A document that the strict mode accepts is read as the same document in the other modes,
without a warning. Whatever the source, the warning mode gives the document or the error of the
lax mode. -/
theorem parse_modes (registry : Registry) (options : ParseOptions) (source : String) :
    let read (mode : ErrorMode) : Except Error Document × ParseState :=
      Document.parse (.ofOptions registry { options with mode := some mode }) source {}
    (∀ document, (read .strict).1 = .ok document →
        (read .lax).1 = .ok document ∧ (read .warn).1 = .ok document
          ∧ (read .warn).2.warnings = #[])
      ∧ (read .warn).1 = (read .lax).1 := by
  intro read
  have hagrees := parse_agrees (.ofOptions registry options) source
  constructor
  · intro document hstrict
    have hread : read .strict = (.ok document, (read .strict).2) := Prod.ext hstrict rfl
    -- What the strict mode leaves behind, the others do, and the lax mode never warns.
    have hlax : read .lax = (.ok document, (read .strict).2) :=
      hagrees.strict .lax {} _ _ hread
    have hwarn : read .warn = (.ok document, (read .strict).2) :=
      hagrees.strict .warn {} _ _ hread
    have hsilent : (read .lax).2.warnings = #[] := hagrees.lax {}
    rw [hlax] at hsilent
    rw [hlax, hwarn]
    exact ⟨rfl, rfl, hsilent⟩
  · obtain ⟨warnings, hwarn⟩ := hagrees.warn {} #[]
    have hwarn : read .warn = ((read .lax).1, (read .lax).2.withWarnings warnings) := hwarn
    rw [hwarn]

/-- A loop with an attribute, whose turns write an output with a filter. -/
theorem parse_modes_loop :
    let source :=
      "\x7b% for i in (1..3) limit: 2 %\x7d\x7b\x7b i | plus: 1 \x7d\x7d\x7b% endfor %\x7d"
    let read (mode : ErrorMode) : Except Error Document × ParseState :=
      Document.parse (.ofOptions .standard { mode := some mode }) source {}
    (read .strict).1.isOk = true ∧ (read .lax).1 = (read .strict).1
      ∧ (read .warn).1 = (read .strict).1 ∧ (read .warn).2.warnings = #[] := by
  intro source read
  have hok : (read .strict).1.isOk = true := by decide +kernel
  cases hstrict : (read .strict).1 with
  | error e =>
    rw [hstrict] at hok
    exact nomatch hok
  | ok document =>
    obtain ⟨hlax, hwarn, hwarnings⟩ := (parse_modes .standard {} source).1 document hstrict
    exact ⟨rfl, hlax, hwarn, hwarnings⟩

end Document

end Stencil
