import Stencil.Proofs.Run
import Stencil.Proofs.SourceLines

/-!
# Where reading stops

A template that is not read to its end stops at a token that cannot be added to what was built
before it, or at the end of a text in which something is still open. `Document.stop?` finds that
place, also among the lines of a tag, and `Stop.line?` says which line the error gives where lines
are kept.

That is the line of the token, with one exception. The markup of an output, and a condition that
belongs to a block that is open already, are read by themselves, and only a strict reading notes the
line of the token; in the other modes the first line to be attached is that of the tag that opened
the innermost block. Outside all blocks an output is left without any.

## Key definitions

- `Stop`, `Document.stop?`: where reading stops
- `Builder.leavesLine`, `Stop.line?`: the line that is reported

## Key results

- `Builder.line_of_add`: a token that cannot be added
- `Builder.line_of_addAll`: the first such token, by induction on the tokens
- `Document.line_of_parse`: a template fails where it stops, on the line of the stop
- `Document.line_of_parse_lax_ne`: a template that fails on another line than that of the token
-/

namespace Stencil

open Attempt Builder

/-! ## Stops -/

/-- Why a text is not read to its end. -/
inductive Stop where
  /-- The token cannot be added to what was built before it. -/
  | refused (built : Builder) (token : Token)
  /-- Something is still open where the text ends, on the given line. -/
  | ending (line : Nat)

/-- Whether the block reads a condition from the arguments of the tag. -/
def OpenBlock.readsCondition : OpenBlock → (tag : String) → Bool
  | conditional .., tag => tag = "elsif"
  | choice .., tag => tag = "when"
  | _, _ => false

/-- Whether the place of an error in the token's markup is left to the innermost open block: the
token is an output, or a tag that the block reads a condition from. -/
def Builder.leavesLine (ctx : ParseContext) (b : Builder) : Token → Bool
  | .text .. => false
  | .output _ => true
  | .tag d =>
    (tagParts? d.markup).any fun (tag, _) =>
      (ctx.registry.tags.get? tag).isNone && b.frames.head?.any (·.block.readsCondition tag)

/-- The line that the error gives where lines are kept. -/
def Stop.line? (ctx : ParseContext) : Stop → Option Nat
  | .refused b token =>
    if ctx.mode ≠ .strict ∧ b.leavesLine ctx token = true then b.openLine else some token.line
  | .ending line => some line

/-- The line of the token that cannot be added. -/
def Stop.tokenLine? : Stop → Option Nat
  | .refused _ token => some token.line
  | .ending _ => none

/-- Finds where the reading of a text whose lines are tags stops; nothing if it does not even begin
or goes on to the end. -/
abbrev StopFinder := ParseContext → String → Nat → ParseState → Option Stop

namespace Builder

/-- Where the reading stops among the lines of a tag, given as its arguments. -/
def stopInLines (ctx : ParseContext) (find : StopFinder) (b : Builder) (args : String)
    (s : ParseState) : Option Stop :=
  match (b.contextAt ctx).deeper s with
  | (.ok deeper, t) => find deeper args ((ctx.lineOf t).getD 1) t
  | (.error _, _) => none

/-- Where the reading stops inside the token. -/
def stopInside (ctx : ParseContext) (find : StopFinder) (b : Builder) (token : Token)
    (s : ParseState) : Option Stop :=
  match token with
  | .tag d =>
    match tagParts? d.markup with
    | some (name, args) =>
      match ctx.registry.tags.get? name with
      | some .lines =>
        (b.facing d).stopInLines ctx find args { s with line := d.line, trimNext := d.trimRight }
      | _ => none
    | none => none
  | _ => none

/-- Where the reading of tokens stops, and what was still open if none of them stops it. -/
def stop? (ctx : ParseContext) (inner : LinesReader) (find : StopFinder)
    (stray : String → Parse Builder) : List Token → Builder → ParseState → Option Stop
  | [], b, s =>
    match b.finish ctx s with
    | (.ok _, _) => none
    | (.error _, t) => some (.ending t.line)
  | token :: tokens, b, s =>
    match b.add ctx inner stray token s with
    | (.ok b', t) => stop? ctx inner find stray tokens b' t
    | (.error _, _) => some ((b.stopInside ctx find token s).getD (.refused b token))

end Builder

/-- Where the reading of a text whose lines are tags stops. -/
def Body.stopLines : (levels : Nat) → StopFinder
  | 0 => fun _ _ _ _ => none
  | levels + 1 => fun ctx markup line =>
    let stray := fun tag => ctx.refuseTag "liquid" "%\x7d" tag
    let tokens := (TokenStream.ofLines markup line).tokens
    Builder.stop? ctx (Body.parseLines levels) (stopLines levels) stray tokens {}

/-- Where the reading of a template stops. -/
def Document.stop? (ctx : ParseContext) (source : String) (s : ParseState) : Option Stop :=
  let levels := ctx.registry.nestingLimit - ctx.depth
  let stream := TokenStream.ofSource source
  (Builder.stop? ctx (Body.parseLines levels) (Body.stopLines levels) ctx.refuseOuterTag
    stream.tokens {} s).or (stream.unterminated.map fun u => .ending u.line)

/-- A tag leaves its line to a block that reads a condition from it, if no tag has its name. -/
theorem Builder.leavesLine_tag {ctx : ParseContext} {b : Builder} {d : Delimited}
    {name args : String} (h : tagParts? d.markup = some (name, args)) :
    b.leavesLine ctx (.tag d) = ((ctx.registry.tags.get? name).isNone
      && b.frames.head?.any (·.block.readsCondition name)) := by
  rw [leavesLine, h]
  rfl

namespace Stop

variable {ctx : ParseContext} {b : Builder} {token : Token}

/-- A token that leaves its line has it noted in a strict reading only. -/
theorem line?_of_leavesLine (h : b.leavesLine ctx token = true) :
    (refused b token).line? ctx
      = if ctx.mode ≠ .strict then b.openLine else some token.line := by
  simp only [line?, h, and_true]

/-- Every other token is reported on its line. -/
theorem line?_of_not_leavesLine (h : b.leavesLine ctx token = false) :
    (refused b token).line? ctx = some token.line := by
  rw [line?, h, if_neg fun h => Bool.false_ne_true h.2]

end Stop

/-! ## How steps fail -/

/-- An error that the attempt fails with from the state `s` satisfies `E`. -/
def Attempt.FailsFrom {σ α : Type} (s : σ) (x : Attempt σ α) (E : Error → Prop) : Prop :=
  ∀ e t, x s = (.error e, t) → E e

namespace Attempt.FailsFrom

variable {σ α β : Type} {s : σ} {x : Attempt σ α} {E F : Error → Prop}

/-- Giving a value does not fail. -/
theorem pure (a : α) : FailsFrom s (Pure.pure a) E :=
  fun _ _ h => nomatch (Prod.mk.inj h).1

/-- An error that satisfies more satisfies less. -/
theorem mono (h : FailsFrom s x E) (hE : ∀ e, E e → F e) : FailsFrom s x F :=
  fun e t he => hE e (h e t he)

/-- One step after the other fails with an error of either. -/
theorem bind {f : α → Attempt σ β} (hx : FailsFrom s x E)
    (hf : ∀ a t, x s = (.ok a, t) → FailsFrom t (f a) E) : FailsFrom s (x >>= f) E := by
  intro e u h
  rw [bind_apply] at h
  cases hr : x s with
  | mk r t =>
    rw [hr] at h
    cases r with
    | ok a => exact hf a t hr e u h
    | error e' => exact hx e t (hr.trans (Prod.ext (congrArg Except.error
        (Except.error.inj (Prod.mk.inj h).1)) rfl))

/-- A step that succeeds, and what follows. -/
theorem after {f : α → Attempt σ β} {a : α} {t : σ} (hx : x s = (.ok a, t))
    (hf : FailsFrom t (f a) E) : FailsFrom s (x >>= f) E := by
  intro e u h
  rw [bind_of_ok hx] at h
  exact hf e u h

/-- An error may be changed on its way out. -/
theorem mapError {f : Error → Error} (hx : FailsFrom s x E) (hf : ∀ e, E e → F (f e)) :
    FailsFrom s (Attempt.mapError f x) F := by
  intro e u h
  unfold Attempt.mapError at h
  cases hr : x s with
  | mk r t =>
    rw [hr] at h
    cases r with
    | ok a => exact nomatch (Prod.mk.inj h).1
    | error e' =>
      obtain rfl := Except.error.inj (Prod.mk.inj h).1
      exact hf e' (hx e' t hr)

end Attempt.FailsFrom

namespace ParseContext

variable {α : Type} {ctx : ParseContext} {x : Parse α} {s : ParseState}

/-- Where lines are kept, the line is known. -/
theorem lineOf_eq (hlines : ctx.lines = true) (s : ParseState) : ctx.lineOf s = some s.line :=
  if_pos hlines

/-- Looking at the current line changes nothing. -/
theorem currentLine_eq (hlines : ctx.lines = true) (s : ParseState) :
    ctx.currentLine s = (.ok (some s.line), s) := by
  rw [currentLine, lineOf_eq hlines]

/-- What is refused is refused at the current line. -/
theorem refuse_failsFrom (hlines : ctx.lines = true) (key : String)
    (values : Placeholders := []) :
    FailsFrom s (ctx.refuse key values : Parse α) fun e => e.line = some s.line := by
  intro e t h
  obtain rfl := Except.error.inj (Prod.mk.inj h).1
  rw [grammarError, Error.line_atLine, lineOf_eq hlines]
  rfl

/-- A tag that a block does not know is an error of the current line. -/
theorem refuseTag_failsFrom (hlines : ctx.lines = true) (block delimiter tag : String) :
    FailsFrom s (ctx.refuseTag block delimiter tag : Parse α) fun e => e.line = some s.line := by
  unfold refuseTag
  split
  · exact refuse_failsFrom hlines _ _
  · split <;> exact refuse_failsFrom hlines _ _

/-- So is a tag outside all blocks that no one knows. -/
theorem refuseOuterTag_failsFrom (hlines : ctx.lines = true) (tag : String) :
    FailsFrom s (ctx.refuseOuterTag tag : Parse α) fun e => e.line = some s.line := by
  unfold refuseOuterTag
  split <;> exact refuse_failsFrom hlines _ _

/-- A level that is too deep is refused at the current line. -/
theorem deeper_failsFrom (hlines : ctx.lines = true) :
    FailsFrom s ctx.deeper fun e => e.line = some s.line := by
  intro e t h
  unfold deeper at h
  split at h
  · obtain rfl := Except.error.inj (Prod.mk.inj h).1
    rw [Error.line_atLine, lineOf_eq hlines]
    rfl
  · exact nomatch (Prod.mk.inj h).1

/-- Markup that cannot be read is an error of the current line in the strict mode, and of no line in
the others. -/
theorem ReadsMarkup.failsFrom (h : ctx.ReadsMarkup x) (hlines : ctx.lines = true) :
    FailsFrom s x fun e => e.line = if ctx.mode ≠ .strict then none else some s.line := by
  intro e t hx
  have hmeets := h.meets s
  rw [hx] at hmeets
  obtain ⟨bare, hbare, rfl⟩ := hmeets
  unfold noted
  -- Only the strict branch attaches the line; the lax one hands the error on as it is.
  by_cases hmode : ctx.mode = .strict
  · rw [if_pos hmode, if_neg (not_not_intro hmode), Error.line_atLine, hbare.line,
      lineOf_eq hlines]
    rfl
  · rw [if_neg hmode, if_pos hmode, hbare.line]

/-- The next step is on the same line. -/
theorem ReadsMarkup.line_eq (h : ctx.ReadsMarkup x) {a : α} {t : ParseState}
    (hx : x s = (.ok a, t)) : t.line = s.line := by
  have hline := h.line s
  rwa [hx] at hline

end ParseContext

/-- What a block refuses is an error of the current line, but for a condition. -/
theorem OpenBlock.claim_failsFrom {ctx : ParseContext} (hlines : ctx.lines = true)
    (block : OpenBlock) (finished : Bool) (tag args : String) {s : ParseState} :
    FailsFrom s (block.claim ctx finished tag args) fun e =>
      e.line = if ctx.mode ≠ .strict ∧ block.readsCondition tag = true then none
        else some s.line := by
  have refused (hreads : block.readsCondition tag = false) {α : Type} {x : Parse α}
      (hx : FailsFrom s x fun e => e.line = some s.line) :
      FailsFrom s x fun e =>
        e.line = if ctx.mode ≠ .strict ∧ block.readsCondition tag = true then none
          else some s.line := by
    rw [hreads, if_neg fun h => Bool.false_ne_true h.2]
    exact hx
  have read (hreads : block.readsCondition tag = true) {x : Parse Condition}
      (hx : ctx.ReadsMarkup x) (f : Condition → Claim) :
      FailsFrom s (do return f (← x)) fun e =>
        e.line = if ctx.mode ≠ .strict ∧ block.readsCondition tag = true then none
          else some s.line := by
    simp only [hreads, and_true]
    exact .bind (hx.failsFrom hlines) fun _ _ _ => .pure _
  unfold claim
  split
  · exact .pure _
  · cases block with
    | conditional name negated conditions =>
      -- An `elsif`, an `else`, and tags that the block does not know.
      dsimp only
      split
      · exact read rfl (ctx.condition_readsMarkup _ _) _
      · exact .pure _
      · rename_i hname _
        exact refused (decide_eq_false hname) (ctx.refuseTag_failsFrom hlines _ _ _)
    | choice name subject heads =>
      -- A `when`, an `else` with or without arguments, and tags that the block does not know.
      dsimp only
      split
      · exact read rfl (Condition.parseValues_readsMarkup ctx _ _) _
      · split
        · exact refused rfl (ctx.refuse_failsFrom hlines _)
        · exact .pure _
      · rename_i hname _
        exact refused (decide_eq_false hname) (ctx.refuseTag_failsFrom hlines _ _ _)
    | loop name position header =>
      dsimp only
      split
      · exact .pure _
      · exact refused rfl (ctx.refuseTag_failsFrom hlines _ _ _)
    | sections name opens passes closes =>
      -- Whatever the host's tag does with it, no arguments are read.
      dsimp only
      split
      · exact .pure _
      · split
        · exact .pure _
        · split
          · exact .pure _
          · exact refused rfl (ctx.refuseTag_failsFrom hlines _ _ _)
    | capture name target => exact refused rfl (ctx.refuseTag_failsFrom hlines _ _ _)
    | transform name f => exact refused rfl (ctx.refuseTag_failsFrom hlines _ _ _)

/-! ## Tokens -/

/-- Every open block keeps the line of the tag that opened it. -/
def Builder.Lined (b : Builder) : Prop :=
  ∀ frame ∈ b.frames, frame.line.isSome = true

/-- A text whose lines are tags that is not read to its end stops where `find` says, at an error
with a line. If it does not even begin, then the error has no line yet. -/
def LinesReader.StopsWith (inner : LinesReader) (find : StopFinder) : Prop :=
  ∀ ctx markup line s, ctx.lines = true →
    FailsFrom s (inner ctx markup line) fun e =>
      e.line = (find ctx markup line s).bind (Stop.line? ctx)
        ∧ ((find ctx markup line s).isSome = true → e.line.isSome = true)

namespace Builder

variable {ctx : ParseContext} {inner : LinesReader} {find : StopFinder}
  {stray : String → Parse Builder} {b c : Builder} {d : Delimited} {s t : ParseState}

/-- An error of a registered tag gets its line, if it has none yet. -/
private theorem own_line {e : Error} {line : Nat} (h : e.line = none ∨ e.line = some line) :
    (e.atLine (some line)).line = some line := by
  rw [Error.line_atLine]
  rcases h with h | h <;> rw [h] <;> rfl

/-- A block that is too deep is an error of the current line. -/
private theorem openBlock_failsFrom (hlines : ctx.lines = true) (line : Option Nat)
    (block : OpenBlock) :
    FailsFrom s (b.openBlock ctx line block) fun e => e.line = some s.line :=
  .bind (@ParseContext.deeper_failsFrom (b.contextAt ctx) s hlines) fun _ _ _ => .pure _

/-- A registered tag without lines is refused on its own line. -/
private theorem start_failsFrom (hlines : ctx.lines = true) {kind : TagKind}
    (hkind : kind ≠ .lines) (name args : String) :
    FailsFrom s (b.start ctx inner kind name args) fun e => e.line = some s.line := by
  let E (e : Error) : Prop := e.line = none ∨ e.line = some s.line
  have read {α : Type} {x : Parse α} (hx : ctx.ReadsMarkup x) : FailsFrom s x E := by
    refine (hx.failsFrom hlines).mono fun e he => ?_
    split at he
    · exact .inl he
    · exact .inr he
  have opened {u : ParseState} (hu : u.line = s.line) (block : OpenBlock) :
      FailsFrom u (b.openBlock ctx (some s.line) block) E :=
    (openBlock_failsFrom hlines _ block).mono fun e he => .inr (hu ▸ he)
  have readAndOpened {α : Type} {x : Parse α} (hx : ctx.ReadsMarkup x) (block : α → OpenBlock) :
      FailsFrom s (x >>= fun a => b.openBlock ctx (some s.line) (block a)) E :=
    .bind (read hx) fun a _ ha => opened (hx.line_eq ha) (block a)
  have refused {u : ParseState} (hu : u.line = s.line) (key : String) (values : Placeholders) :
      FailsFrom u (ctx.refuse key values : Parse Builder) E :=
    (ctx.refuse_failsFrom hlines key values).mono fun e he => .inr (hu ▸ he)
  refine .after (ParseContext.currentLine_eq hlines s) ?_
  refine .mapError (E := E) ?_ fun e => own_line
  -- Markup is read first; then the tag is added, or a block for it is opened.
  cases kind with
  | conditional negated => exact readAndOpened (ctx.condition_readsMarkup "if" args) _
  | choice => exact readAndOpened (Expression.parseSubject_readsMarkup ctx args) _
  | loop => exact readAndOpened (LoopHeader.parse_readsMarkup ctx args) _
  | interrupt interrupt =>
    dsimp only
    split
    · exact refused rfl _ _
    · exact .pure _
  | assign =>
    dsimp only
    split
    · exact .bind (read (ctx.pipeline_readsMarkup _)) fun _ _ _ => .pure _
    · exact refused rfl _ _
  | capture =>
    dsimp only
    split
    · exact opened rfl _
    · exact refused rfl _ _
  | comment => exact .pure _
  | inlineComment =>
    dsimp only
    split
    · exact .pure _
    · exact refused rfl _ _
  | raw =>
    dsimp only
    split
    · exact .after rfl (.pure _)
    · exact refused rfl _ _
  | echo => exact .bind (read (ctx.pipeline_readsMarkup _)) fun _ _ _ => .pure _
  | lines => exact absurd rfl hkind
  | includePartial =>
    exact .bind (read (PartialCall.parse_readsMarkup ctx _ _)) fun _ _ _ => .pure _
  | renderPartial =>
    have hread := PartialCall.parse_readsMarkup ctx "errors.syntax.render" args
    dsimp only
    split
    · refine .bind (read hread) fun call t hx => ?_
      split
      · exact .pure _
      · exact refused (hread.line_eq hx) _ _
    · exact refused rfl _ _
  | transform f => exact opened rfl _
  | sections first passes closes => exact opened rfl _
  | counter => exact .pure _

/-- A tag with lines is refused where the lines stop, or on its own line if it is nested too
deep. -/
private theorem startLines_failsFrom (hlines : ctx.lines = true) (hinner : inner.StopsWith find)
    (name args : String) :
    FailsFrom s (b.start ctx inner .lines name args) fun e =>
      e.line = (b.stopInLines ctx find args s).elim (some s.line) (Stop.line? ctx) := by
  refine .after (ParseContext.currentLine_eq hlines s) ?_
  unfold stopInLines
  by_cases hdeep : (b.contextAt ctx).registry.nestingLimit ≤ (b.contextAt ctx).depth
  · have hdeeper : (b.contextAt ctx).deeper s = _ := if_pos hdeep
    rw [hdeeper]
    refine .mapError (E := fun e => e.line = some s.line) ?_ fun e he => own_line (.inr he)
    exact .bind (@ParseContext.deeper_failsFrom (b.contextAt ctx) s hlines) fun _ t h =>
      nomatch (Prod.mk.inj (hdeeper.symm.trans h)).1
  · -- The lines begin on the line of the tag, which is where `find` looks.
    let next : ParseContext := { b.contextAt ctx with depth := (b.contextAt ctx).depth + 1 }
    have hdeeper : (b.contextAt ctx).deeper s = (.ok next, s) := if_neg hdeep
    rw [hdeeper]
    show FailsFrom s _ fun e =>
      e.line = (find next args ((ctx.lineOf s).getD 1) s).elim (some s.line) (Stop.line? ctx)
    rw [ParseContext.lineOf_eq hlines]
    show FailsFrom s _ fun e =>
      e.line = (find next args s.line s).elim (some s.line) (Stop.line? ctx)
    refine .mapError (E := fun e => e.line = (find next args s.line s).bind (Stop.line? ctx)
      ∧ ((find next args s.line s).isSome = true → e.line.isSome = true)) ?_ fun e he => ?_
    · exact .after hdeeper (.bind (hinner next args s.line s hlines) fun _ _ _ => .pure _)
    · -- A stop inside has given the error its line, which the tag's own does not replace.
      rw [Error.line_atLine]
      cases hfind : find next args s.line s with
      | none =>
        rw [hfind] at he
        rw [he.1]
        rfl
      | some stop =>
        rw [hfind] at he
        obtain ⟨line, hline⟩ := Option.isSome_iff_exists.mp (he.2 rfl)
        rw [hline]
        rw [hline] at he
        exact he.1

/-- Inside a comment nothing fails. -/
private theorem skip_failsFrom {E : Error → Prop} (name : String) (depth : Nat) (inRaw : Bool)
    (token : Token) : FailsFrom s (b.skip name depth inRaw token) E := by
  unfold skip
  split
  · exact .pure _
  · split
    · exact .pure _
    · split
      · exact .pure _
      · exact .pure _
      · exact .pure _
      · exact .after rfl (.pure _)
      · exact .pure _

/-- Nor does anything inside a raw block. -/
private theorem keep_failsFrom {E : Error → Prop} (name : String) (trimStart : Bool)
    (text : String) (token : Token) : FailsFrom s (b.keep name trimStart text token) E := by
  unfold keep
  split
  · exact .after rfl (.pure _)
  · exact .pure _

/-- An output is refused on the line of the stop. -/
private theorem addOutput_failsFrom (hlines : ctx.lines = true) (d : Delimited) :
    FailsFrom s (b.addOutput ctx d) fun e =>
      e.line = (Stop.refused b (.output d)).line? ctx := by
  let u : ParseState := { s with line := d.line, trimNext := d.trimRight }
  have hread : FailsFrom u (Attempt.mapError (·.atLine (b.facing d).openLine)
      (ctx.pipeline d.markup)) fun e => e.line = (Stop.refused b (.output d)).line? ctx := by
    refine ((ctx.pipeline_readsMarkup d.markup).failsFrom hlines).mapError fun e he => ?_
    rw [Error.line_atLine, he, Stop.line?_of_leavesLine rfl, openLine, frames_facing]
    split <;> rfl
  exact .after (turnTo_eq b d s) (hread.bind fun _ _ _ => .pure _)

/-- So is a tag that is handed to the block that is open. -/
private theorem handOver_failsFrom (hlines : ctx.lines = true)
    (hstray : ∀ tag u, FailsFrom u (stray tag) fun e => e.line = some u.line) {name args : String}
    (hname : tagParts? d.markup = some (name, args)) (hnone : ctx.registry.tags.get? name = none)
    (hframes : c.frames = b.frames) (hs : s.line = d.line) :
    FailsFrom s (c.handOver ctx stray name args) fun e =>
      e.line = (Stop.refused b (.tag d)).line? ctx := by
  have hleaves : b.leavesLine ctx (.tag d) = b.frames.head?.any (·.block.readsCondition name) := by
    rw [leavesLine_tag hname, hnone, Option.isNone_none, Bool.true_and]
  unfold handOver
  rw [hframes]
  cases hb : b.frames with
  | nil =>
    rw [hb] at hleaves
    rw [Stop.line?_of_not_leavesLine hleaves, Token.line, ← hs]
    exact hstray name s
  | cons frame frames =>
    rw [hb] at hleaves
    -- An error of the block gets the line of the tag that opened it, unless it has a line.
    refine .bind ((frame.block.claim_failsFrom hlines _ name args).mapError fun e he => ?_) ?_
    · rw [Error.line_atLine, he]
      cases hreads : frame.block.readsCondition name with
      | false =>
        rw [Stop.line?_of_not_leavesLine (hleaves.trans hreads),
          if_neg fun h => Bool.false_ne_true h.2, Token.line, ← hs]
        rfl
      | true =>
        rw [Stop.line?_of_leavesLine (hleaves.trans hreads), openLine, hb, Token.line, ← hs]
        simp only [and_true]
        split <;> rfl
    · intro claim t _
      cases claim <;> exact .pure _

/-- A registered tag is refused where its lines stop, or else as a token. -/
private theorem registered_failsFrom (hlines : ctx.lines = true) (hinner : inner.StopsWith find)
    {name args : String} (hname : tagParts? d.markup = some (name, args)) {kind : TagKind}
    (hkind : ctx.registry.tags.get? name = some kind) :
    FailsFrom { s with line := d.line, trimNext := d.trimRight }
      ((b.facing d).start ctx inner kind name args) fun e =>
        e.line = ((b.stopInside ctx find (.tag d) s).getD (.refused b (.tag d))).line? ctx := by
  have hleaves : b.leavesLine ctx (.tag d) = false := by
    rw [leavesLine_tag hname, hkind]
    rfl
  have hrefused := Stop.line?_of_not_leavesLine hleaves
  -- Only a tag with lines has something inside where reading may stop.
  by_cases hlinesKind : kind = .lines
  · subst hlinesKind
    refine (startLines_failsFrom hlines hinner name args).mono fun e he => ?_
    simp only [stopInside, hname, hkind]
    rw [he]
    cases (b.facing d).stopInLines ctx find args _ with
    | none => exact hrefused.symm
    | some stop => rfl
  · have hinside : b.stopInside ctx find (.tag d) s = none := by
      simp only [stopInside, hname, hkind]
      cases kind with
      | lines => exact absurd rfl hlinesKind
      | _ => rfl
    rw [hinside, Option.getD_none, hrefused]
    exact start_failsFrom hlines hlinesKind name args

/-- A token that cannot be added is refused where its lines stop, or else as a token. -/
theorem line_of_add (hlines : ctx.lines = true) (hinner : inner.StopsWith find)
    (hstray : ∀ tag u, FailsFrom u (stray tag) fun e => e.line = some u.line) (token : Token) :
    FailsFrom s (b.add ctx inner stray token) fun e =>
      e.line = ((b.stopInside ctx find token s).getD (.refused b token)).line? ctx := by
  unfold add
  -- In a comment or in raw text no token is refused.
  split
  · exact skip_failsFrom _ _ _ token
  · exact keep_failsFrom _ _ _ token
  · cases token with
    | text text line => exact .after rfl (.pure _)
    | output d => exact addOutput_failsFrom hlines d
    | tag d =>
      refine .after (turnTo_eq b d s) ?_
      cases hparts : tagParts? d.markup with
      | none =>
        have hleaves : b.leavesLine ctx (.tag d) = false := by rw [leavesLine, hparts]; rfl
        rw [stopInside, hparts, Option.getD_none, Stop.line?_of_not_leavesLine hleaves]
        exact ctx.refuse_failsFrom hlines _ _
      | some parts =>
        obtain ⟨name, args⟩ := parts
        dsimp only
        cases hkind : ctx.registry.tags.get? name with
        | none =>
          simp only [stopInside, hparts, hkind, Option.getD_none]
          exact handOver_failsFrom hlines hstray hparts hkind (frames_facing b d) rfl
        | some kind => exact registered_failsFrom hlines hinner hparts hkind

end Builder

/-! ## Open blocks -/

namespace Builder

variable {ctx : ParseContext} {inner : LinesReader} {find : StopFinder}
  {stray : String → Parse Builder} {b b' : Builder} {s t : ParseState}

/-- At first no block is open. -/
theorem Lined.initial : ({} : Builder).Lined :=
  fun _ h => nomatch h

/-- A dash at a tag opens no block. -/
theorem Lined.facing (hb : b.Lined) (d : Delimited) : (b.facing d).Lined := by
  unfold Lined
  rwa [frames_facing]

/-- Nor does text. -/
theorem Lined.withText (hb : b.Lined) (text : String) : (b.withText text).Lined := by
  unfold Builder.withText
  split <;> exact hb

/-- A tag that opens a block keeps its own line with it. -/
theorem StartsAt.lined {line : Nat} {kind : TagKind} {name args : String}
    (h : StartsAt ctx inner line kind name args b b') (hb : b.Lined) : b'.Lined := by
  cases h with
  | opens hblock => exact List.forall_mem_cons.mpr ⟨rfl, hb⟩
  | _ => exact hb

/-- Where lines are kept, every open block keeps one. -/
theorem Lined.add (hb : b.Lined) (hlines : ctx.lines = true)
    (hstray : ∀ tag w Q, (stray tag).Yields w Q) {token : Token}
    (h : b.add ctx inner stray token s = (.ok b', t)) : b'.Lined := by
  have hadds : Adds ctx inner token b s.trimNext b' t.trimNext :=
    add_yields hstray token s b' t rfl h
  generalize t.trimNext = w' at hadds
  -- A token that starts a tag was turned to, so its line is noted.
  have started {d : Delimited} {name args : String} {kind : TagKind} (htoken : token = .tag d)
      (hmode : b.mode = .nodes) (hname : tagParts? d.markup = some (name, args))
      (hkind : ctx.registry.tags.get? name = some kind) : b'.Lined := by
    subst htoken
    exact (startsAt_of_add hlines hmode hname hkind h).lined (hb.facing d)
  cases hadds with
  | text hmode text line => exact hb.withText _
  | output hmode d p => exact hb.facing d
  | single hmode hname hkind htag => exact started rfl hmode hname hkind
  | lines hmode hname hkind hdeeper hs line hread => exact started rfl hmode hname hkind
  | opens hmode hname hkind hblock line => exact started rfl hmode hname hkind
  | comment hmode hname hkind => exact started rfl hmode hname hkind
  | raw hmode hname hkind => exact started rfl hmode hname hkind
  | pass hmode hname hnone hframes hblock => exact hb.facing _
  | body hmode hname hnone hframes hblock =>
    unfold Lined at hb
    rw [hframes] at hb
    exact List.forall_mem_cons.mpr (List.forall_mem_cons.mp hb)
  | close hmode hname hnone hframes hend =>
    unfold Lined at hb
    rw [hframes] at hb
    exact (List.forall_mem_cons.mp hb).2
  | skip hmode hgo => exact hb
  | endComment hmode hend => exact hb
  | keep hmode hgo => exact hb
  | endRaw hmode hend => exact hb

/-- Where every open block keeps a line, an error of a tag has one. -/
private theorem isSome_line_of_add (hlines : ctx.lines = true)
    (hstray : ∀ tag u, FailsFrom u (stray tag) fun e => e.line = some u.line) (hb : b.Lined)
    (d : Delimited) :
    FailsFrom s (b.add ctx inner stray (.tag d)) fun e => e.line.isSome = true := by
  -- A step that notes a line leaves no error without one,
  have noted {u : ParseState} {α : Type} {x : Parse α} {line : Option Nat}
      (hline : line.isSome = true) :
      FailsFrom u (Attempt.mapError (·.atLine line) x) fun e => e.line.isSome = true := by
    refine .mapError (E := fun _ => True) (fun _ _ _ => trivial) fun e _ => ?_
    rw [Error.line_atLine, Option.isSome_or, hline, Bool.or_true]
  -- and an error of the current line has one.
  have here {u : ParseState} {α : Type} {x : Parse α}
      (hx : FailsFrom u x fun e => e.line = some u.line) :
      FailsFrom u x fun e => e.line.isSome = true :=
    hx.mono fun e he => he ▸ rfl
  unfold add
  cases b.mode with
  | comment name depth inRaw => exact skip_failsFrom _ _ _ _
  | raw name trimStart text => exact keep_failsFrom _ _ _ _
  | nodes =>
    refine .after (turnTo_eq b d s) ?_
    -- The tag is refused where it stands, or by a step that notes the line of a tag.
    cases hparts : tagParts? d.markup with
    | none => exact here (ctx.refuse_failsFrom hlines _ _)
    | some parts =>
      obtain ⟨name, args⟩ := parts
      dsimp only
      cases ctx.registry.tags.get? name with
      | some kind => exact .after (ParseContext.currentLine_eq hlines _) (noted rfl)
      | none =>
        unfold handOver
        rw [frames_facing]
        cases hframes : b.frames with
        | nil => exact here (hstray name _)
        | cons frame frames =>
          unfold Lined at hb
          rw [hframes] at hb
          refine .bind (noted (List.forall_mem_cons.mp hb).1) fun claim t _ => ?_
          cases claim <;> exact .pure _

/-! ## Runs -/

/-- What is still open at the end is refused where the tokens left off. -/
private theorem finish_failsFrom (hlines : ctx.lines = true) :
    FailsFrom s (b.finish ctx) fun e => e.line = some s.line := by
  unfold finish
  split
  · exact ctx.refuse_failsFrom hlines _ _
  · exact ctx.refuse_failsFrom hlines _ _
  · exact ctx.refuse_failsFrom hlines _ _
  · exact .pure _

/-- The end of the tokens changes no state. -/
private theorem finish_snd (ctx : ParseContext) (b : Builder) (s : ParseState) :
    (b.finish ctx s).2 = s := by
  unfold finish
  cases b.mode with
  | nodes => cases b.frames <;> rfl
  | _ => rfl

/-- Tokens are read to their end, with nothing left open, unless the reading stops; then the error
is on the line of the stop. -/
theorem line_of_addAll (hlines : ctx.lines = true) (hinner : inner.StopsWith find)
    (hyields : ∀ tag w Q, (stray tag).Yields w Q)
    (hstray : ∀ tag u, FailsFrom u (stray tag) fun e => e.line = some u.line)
    (hb : b.Lined) (tokens : List Token) :
    (failure ((addAll ctx inner stray tokens b >>= finish ctx) s).1).map Error.line
      = (stop? ctx inner find stray tokens b s).map (Stop.line? ctx) := by
  -- With every token that is added the blocks that are open keep their lines.
  induction tokens generalizing b s with
  -- At the end, what is still open is refused.
  | nil =>
    show (failure (b.finish ctx s).1).map Error.line = _
    unfold stop?
    have hstate := finish_snd ctx b s
    cases h : b.finish ctx s with
    | mk r t =>
      rw [h] at hstate
      cases r with
      | ok body => rfl
      | error e => exact congrArg some ((finish_failsFrom hlines e t h).trans (hstate ▸ rfl))
  -- A token that is added leaves the rest to the induction; one that is not is the stop.
  | cons token tokens ih =>
    rw [addAll, bind_assoc, bind_apply]
    unfold stop?
    cases h : b.add ctx inner stray token s with
    | mk r t =>
      cases r with
      | ok b' => exact ih (hb.add hlines hyields h)
      | error e => exact congrArg some (line_of_add hlines hinner hstray token e t h)

/-- Tags fail with an error that has a line. -/
private theorem isSome_line_of_addAll (hlines : ctx.lines = true)
    (hyields : ∀ tag w Q, (stray tag).Yields w Q)
    (hstray : ∀ tag u, FailsFrom u (stray tag) fun e => e.line = some u.line)
    (hb : b.Lined) {tokens : List Token} (htags : ∀ token ∈ tokens, ∃ d, token = .tag d) :
    FailsFrom s (addAll ctx inner stray tokens b >>= finish ctx)
      fun e => e.line.isSome = true := by
  induction tokens generalizing b s with
  | nil =>
    exact (finish_failsFrom hlines).mono fun e he => he ▸ rfl
  | cons token tokens ih =>
    obtain ⟨⟨d, rfl⟩, hrest⟩ := List.forall_mem_cons.mp htags
    rw [addAll, bind_assoc]
    exact .bind (isSome_line_of_add hlines hstray hb d) fun b' t h =>
      ih (hb.add hlines hyields h) hrest

end Builder

/-! ## Documents -/

/-- Lines that are tags are no outputs. -/
private theorem TokenStream.exists_tag_of_mem_ofLines {markup : String} {line : Nat}
    {token : Token} (h : token ∈ (TokenStream.ofLines markup line).tokens) :
    ∃ d, token = .tag d := by
  obtain ⟨piece, -, hpiece⟩ := List.mem_filterMap.mp h
  unfold lineTag? at hpiece
  dsimp only at hpiece
  split at hpiece
  · exact nomatch hpiece
  · exact ⟨_, (Option.some.inj hpiece).symm⟩

/-- The lines of a tag stop where they are said to, at any number of levels. -/
theorem Body.stopsWith_parseLines (levels : Nat) :
    LinesReader.StopsWith (Body.parseLines levels) (Body.stopLines levels) := by
  -- Lines may hold lines again, one level deeper.
  induction levels with
  | zero =>
    intro ctx markup line s _ e t h
    obtain rfl := Except.error.inj (Prod.mk.inj h).1
    exact ⟨rfl, nofun⟩
  | succ levels ih =>
    intro ctx markup line s hlines e t h
    have hyields (tag : String) (w : Bool) (Q : Builder → Bool → Prop) :=
      ctx.refuseTag_yields (w := w) (Q := Q) "liquid" "%\x7d" tag
    have hstray (tag : String) (u : ParseState) :=
      ctx.refuseTag_failsFrom (α := Builder) (s := u) hlines "liquid" "%\x7d" tag
    -- The line is that of the stop, and all tokens are tags, so there is one.
    have hline := Builder.line_of_addAll hlines ih hyields hstray .initial
      (TokenStream.ofLines markup line).tokens (s := s)
    have hsome : FailsFrom s (Body.parseLines (levels + 1) ctx markup line)
        fun e => e.line.isSome = true :=
      Builder.isSome_line_of_addAll hlines hyields hstray .initial
        fun _ => TokenStream.exists_tag_of_mem_ofLines
    change (failure (Body.parseLines (levels + 1) ctx markup line s).1).map Error.line
      = (Body.stopLines (levels + 1) ctx markup line s).map (Stop.line? ctx) at hline
    rw [h] at hline
    obtain ⟨stop, hstop, hline⟩ := Option.map_eq_some_iff.mp hline.symm
    rw [hstop]
    exact ⟨hline.symm, fun _ => hsome e t h⟩

namespace Document

/-- A delimiter without an end is an error of its line. -/
private theorem exists_refuseUnterminated {ctx : ParseContext} (hlines : ctx.lines = true)
    (u : Unterminated) (s : ParseState) :
    ∃ e t, (refuseUnterminated ctx u : Parse Document) s = (.error e, t)
      ∧ e.line = some u.line := by
  have refused (key : String) (values : Placeholders) (t : ParseState) : ∃ e t',
      (ctx.refuse key values : Parse Document) t = (.error e, t') ∧ e.line = some t.line :=
    ⟨_, _, rfl, ctx.refuse_failsFrom (α := Document) hlines key values _ _ rfl⟩
  unfold refuseUnterminated
  rw [bind_of_ok (show Parse.setLine u.line s = (.ok (), { s with line := u.line }) from rfl)]
  cases u.delimiter <;> exact refused _ _ _

/-- A template is read to its end unless the reading stops; then the error is on the line of the
stop. -/
theorem failure_parse {ctx : ParseContext} (hlines : ctx.lines = true) (source : String)
    (s : ParseState) :
    (failure (parse ctx source s).1).map Error.line
      = (stop? ctx source s).map (Stop.line? ctx) := by
  have hyields (tag : String) (w : Bool) (Q : Builder → Bool → Prop) :=
    ctx.refuseOuterTag_yields (w := w) (Q := Q) tag
  have hstray (tag : String) (u : ParseState) :=
    ctx.refuseOuterTag_failsFrom (α := Builder) (s := u) hlines tag
  have hline := Builder.line_of_addAll hlines
    (Body.stopsWith_parseLines (ctx.registry.nestingLimit - ctx.depth)) hyields hstray .initial
    (TokenStream.ofSource source).tokens (s := s)
  -- Reading is one attempt for the tokens and one for what is behind them.
  have hparse : parse ctx source = Attempt.mapError (·.inTemplate ctx.template)
      ((Builder.addAll ctx (Body.parseLines (ctx.registry.nestingLimit - ctx.depth))
          ctx.refuseOuterTag (TokenStream.ofSource source).tokens {} >>= Builder.finish ctx)
        >>= fun body => (TokenStream.ofSource source).unterminated.elim (pure body)
          (refuseUnterminated ctx)) := by
    rw [bind_assoc]
    unfold parse ofStream
    cases (TokenStream.ofSource source).unterminated <;> rfl
  rw [hparse]
  -- The tokens come first; only behind them a delimiter without an end is looked at.
  unfold stop? Attempt.mapError
  rw [bind_apply]
  dsimp only
  generalize Builder.stop? ctx _ _ _ _ _ s = stop at hline ⊢
  cases hread : (Builder.addAll ctx (Body.parseLines (ctx.registry.nestingLimit - ctx.depth))
          ctx.refuseOuterTag (TokenStream.ofSource source).tokens {} >>= Builder.finish ctx) s with
  | mk r t =>
  rw [hread] at hline
  cases r with
  | error e =>
    obtain ⟨stop, rfl, hstop⟩ := Option.map_eq_some_iff.mp hline.symm
    exact congrArg some ((Error.line_inTemplate e _).trans hstop.symm)
  | ok body =>
    obtain rfl := Option.map_eq_none_iff.mp hline.symm
    dsimp only
    cases (TokenStream.ofSource source).unterminated with
    | none => rfl
    | some u =>
      obtain ⟨e, t', hrefused, hline⟩ := exists_refuseUnterminated hlines u t
      rw [Option.elim_some, hrefused]
      exact congrArg some ((Error.line_inTemplate e _).trans hline)

/-- A template that cannot be read fails where it stops. If it stops at a token, then the error is
on the line of that token in the strict mode; in the other modes too, unless its place is left to
the innermost open block. -/
theorem line_of_parse {ctx : ParseContext} (hlines : ctx.lines = true) (source : String)
    (s : ParseState) :
    (failure (parse ctx source s).1).map Error.line = (stop? ctx source s).map (Stop.line? ctx)
      ∧ ∀ built token, stop? ctx source s = some (.refused built token) →
          ctx.mode = .strict ∨ built.leavesLine ctx token = false →
          ∃ e t, parse ctx source s = (.error e, t) ∧ e.line = some token.line := by
  have hfailure := failure_parse hlines source s
  refine ⟨hfailure, fun built token hstop hmode => ?_⟩
  rw [hstop] at hfailure
  have hline : (Stop.refused built token).line? ctx = some token.line := by
    -- A strict reading notes the line of the token itself.
    rcases hmode with hmode | hleaves
    · exact if_neg fun h => h.1 hmode
    · exact Stop.line?_of_not_leavesLine hleaves
  cases hparse : parse ctx source s with
  | mk r t =>
    rw [hparse] at hfailure
    cases r with
    | ok document => exact nomatch hfailure
    | error e => exact ⟨e, t, rfl, (Option.some.inj hfailure).trans hline⟩

/-- A condition without an expression, in a block that was opened on the line before. -/
private def emptyElsif : String :=
  "\x7b% if a %\x7d\n\x7b% elsif %\x7d\x7b% endif %\x7d"

/-- Strict reading reports the line of the `elsif`. -/
theorem line_of_parse_strict :
    let ctx : ParseContext := .ofOptions .standard { mode := some .strict, lines := true }
    ctx.lines = true ∧ (stop? ctx emptyElsif {}).bind Stop.tokenLine? = some 2
      ∧ ∃ e t, parse ctx emptyElsif {} = (.error e, t) ∧ e.line = some 2 := by
  intro ctx
  have hstop : (stop? ctx emptyElsif {}).bind Stop.tokenLine? = some 2 := by decide +kernel
  obtain ⟨stop, hfound, hline⟩ := Option.bind_eq_some_iff.mp hstop
  cases stop with
  | refused built token =>
    obtain ⟨e, t, hparse, he⟩ := (line_of_parse rfl emptyElsif {}).2 built token hfound (.inl rfl)
    exact ⟨rfl, hstop, e, t, hparse, he.trans hline⟩
  | ending line => exact nomatch hline

/-- Lax reading stops at the same token, on line 2, and reports the line of the `if`. -/
theorem line_of_parse_lax_ne :
    let ctx : ParseContext := .ofOptions .standard { mode := some .lax, lines := true }
    (stop? ctx emptyElsif {}).bind Stop.tokenLine? = some 2
      ∧ (failure (parse ctx emptyElsif {}).1).map Error.line = some (some 1) := by
  decide +kernel

end Document

end Stencil
