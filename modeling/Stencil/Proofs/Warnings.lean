import Stencil.Proofs.Modes

/-!
# Warnings and refusals

The strict mode refuses what the warning mode warns of, and one thing besides: arguments that
`break`, `continue` and the `else` of a choice do not take are passed over without a warning.
`Document.overlooked` lists the tags with such arguments that are met on the way through a
template, as the builder meets them: those in comments and raw blocks do not count, and whether
an `else` belongs to a choice depends on what is open.

`Parse.Recorded x overlooked` says of a step that it is accepted in the strict mode if and only if
the warning mode accepts it without a warning and nothing is overlooked. Steps put together from
such steps are of that kind again.

## Key results

- `Parse.Recorded`: the relation between the strict mode and the warnings, closed under sequencing
- `Document.parse_recorded`: a whole document
- `Document.strict_iff_warn`: what the strict mode accepts
- `Document.not_strict_of_unwarned`: a template that is refused although nothing warns of it
-/

namespace Stencil

open Attempt Reader

/-! ## What no warning tells of -/

/-- What is found in what follows a step, if the step succeeds. -/
def Parse.behind {α : Type} (x : Parse α) (find : α → ParseState → List String) (s : ParseState) :
    List String :=
  match x s with
  | (.ok a, t) => find a t
  | (.error _, _) => []

/-- The tag if it belongs to the block and its arguments are passed over. -/
def OpenBlock.overlooked (block : OpenBlock) (tag args : String) : List String :=
  match block, tag with
  | choice .., "else" => if args = "" then [] else [tag]
  | _, _ => []

/-- Finds overlooked tags in text whose lines are tags. -/
abbrev LinesFinder := ParseContext → String → Nat → ParseState → List String

namespace Builder

/-- The registered tag if its arguments are passed over, or those among its lines. -/
def overlookedStart (ctx : ParseContext) (find : LinesFinder) (b : Builder) (kind : TagKind)
    (name args : String) : ParseState → List String :=
  ctx.currentLine.behind fun line =>
    match kind with
    | .interrupt _ => fun _ => if args = "" then [] else [name]
    | .lines => (b.contextAt ctx).deeper.behind fun deeper => find deeper args (line.getD 1)
    | _ => fun _ => []

/-- The tag that nobody registered if the innermost open block passes over its arguments. -/
def overlookedHandOver (b : Builder) (tag args : String) : List String :=
  match b.frames with
  | [] => []
  | frame :: _ => frame.block.overlooked tag args

/-- The tags overlooked in a tag. -/
def overlookedTag (ctx : ParseContext) (find : LinesFinder) (b : Builder) (markup : String)
    (s : ParseState) : List String :=
  match tagParts? markup with
  | none => []
  | some (name, args) =>
    match ctx.registry.tags.get? name with
    | some kind => b.overlookedStart ctx find kind name args s
    | none => b.overlookedHandOver name args

/-- The tags overlooked in a token. -/
def overlookedToken (ctx : ParseContext) (find : LinesFinder) (b : Builder) (token : Token)
    (s : ParseState) : List String :=
  match b.mode, token with
  | .nodes, .tag d => (b.turnTo d).behind (fun b => b.overlookedTag ctx find d.markup) s
  | _, _ => []

/-- The tags overlooked in tokens. -/
def overlookedAll (ctx : ParseContext) (inner : LinesReader) (find : LinesFinder)
    (stray : String → Parse Builder) : List Token → Builder → ParseState → List String
  | [], _, _ => []
  | token :: tokens, b, s =>
    b.overlookedToken ctx find token s
      ++ (b.add ctx inner stray token).behind (overlookedAll ctx inner find stray tokens) s

end Builder

/-- The tags overlooked in text whose lines are tags. -/
def Body.overlookedLines : (levels : Nat) → LinesFinder
  | 0 => fun _ _ _ _ => []
  | levels + 1 => fun ctx markup line =>
    let stray := fun tag => ctx.refuseTag "liquid" "%\x7d" tag
    let tokens := (TokenStream.ofLines markup line).tokens
    Builder.overlookedAll ctx (Body.parseLines levels) (overlookedLines levels) stray tokens {}

/-- The tags of a template whose arguments are passed over. -/
def Document.overlooked (ctx : ParseContext) (source : String) : ParseState → List String :=
  let levels := ctx.registry.nestingLimit - ctx.depth
  Builder.overlookedAll ctx (Body.parseLines levels) (Body.overlookedLines levels)
    ctx.refuseOuterTag (TokenStream.ofSource source).tokens {}

/-! ## Steps -/

namespace Parse

variable {α β : Type}

/-- How a step goes in the strict mode, judged by the warning mode. -/
structure Recorded (x : ErrorMode → Parse α) (overlooked : ParseState → List String) : Prop where
  strict_iff : ∀ s a t, x .strict s = (.ok a, t) ↔
    x .warn s = (.ok a, t) ∧ t.warnings.size = s.warnings.size ∧ overlooked s = []
  /-- No warning is ever taken back. -/
  grows : ∀ s, s.warnings.size ≤ (x .warn s).2.warnings.size

/-- A step with nothing to overlook: the strict mode refuses what the warning mode warns of. -/
abbrev Warned (x : ErrorMode → Parse α) : Prop :=
  Recorded x fun _ => []

/-- Where nothing is overlooked, nothing is overlooked behind a step either. -/
@[simp] theorem behind_nil (x : Parse α) (s : ParseState) : x.behind (fun _ _ => []) s = [] := by
  unfold behind
  split <;> rfl

namespace Recorded

variable {x : ErrorMode → Parse α} {f : ErrorMode → α → Parse β}
  {overlooked : ParseState → List String} {more : α → ParseState → List String}

/-- A step that neither asks for the mode nor warns. -/
theorem of_silent {x : Parse α} (h : ∀ s, (x s).2.warnings = s.warnings) :
    Warned fun _ => x where
  strict_iff s a t := by
    have hsize := congrArg Array.size (h s)
    constructor
    · intro hx
      rw [hx] at hsize
      exact ⟨hx, hsize, rfl⟩
    · exact And.left
  grows s := Nat.le_of_eq (congrArg Array.size (h s)).symm

/-- What is overlooked may be said in another way. -/
theorem of_eq {overlooked' : ParseState → List String} (hx : Recorded x overlooked)
    (h : ∀ s, overlooked s = overlooked' s) : Recorded x overlooked' :=
  funext h ▸ hx

/-- Giving a value overlooks nothing. -/
theorem pure (a : α) : Warned fun _ => (Pure.pure a : Parse α) :=
  of_silent fun _ => rfl

/-- Nor does refusing, which all modes do. -/
theorem refuse (ctx : ParseContext) (key : String) (values : Placeholders := []) :
    Warned fun _ => (ctx.refuse key values : Parse α) :=
  of_silent fun _ => rfl

/-- What is overlooked by one step after the other is what each of them overlooks. -/
theorem bind (hx : Recorded x overlooked) (hf : ∀ a, Recorded (fun mode => f mode a) (more a)) :
    Recorded (fun mode => x mode >>= f mode)
      fun s => overlooked s ++ (x .warn).behind more s where
  strict_iff s b u := by
    rw [List.append_eq_nil_iff]
    constructor
    · -- What the strict mode reads leaves no warning and overlooks nothing.
      intro h
      obtain ⟨a, t, hstrict, hrest⟩ := ok_of_bind h
      obtain ⟨hwarn, hsize, hnone⟩ := (hx.strict_iff s a t).mp hstrict
      obtain ⟨hwarn', hsize', hnone'⟩ := ((hf a).strict_iff t b u).mp hrest
      refine ⟨(bind_of_ok hwarn _).trans hwarn', hsize'.trans hsize, hnone, ?_⟩
      rw [behind, hwarn]
      exact hnone'
    · rintro ⟨h, hsize, hnone, hmore⟩
      obtain ⟨a, t, hwarn, hrest⟩ := ok_of_bind h
      rw [behind, hwarn] at hmore
      -- The warnings are as many at the end as at the start, so they are as many in between.
      have hgrows := hx.grows s
      have hgrows' := (hf a).grows t
      rw [hwarn] at hgrows
      rw [hrest] at hgrows'
      have hfirst : t.warnings.size = s.warnings.size := by
        dsimp only at hgrows hgrows'
        omega
      have hstrict := (hx.strict_iff s a t).mpr ⟨hwarn, hfirst, hnone⟩
      have hrest' := ((hf a).strict_iff t b u).mpr ⟨hrest, hsize.trans hfirst.symm, hmore⟩
      exact (bind_of_ok hstrict _).trans hrest'
  grows s := by
    have hgrows := hx.grows s
    rw [bind_apply]
    cases h : x .warn s with
    | mk r t =>
      rw [h] at hgrows
      cases r with
      | ok a => exact Nat.le_trans hgrows ((hf a).grows t)
      | error e => exact hgrows

/-- A step that is followed by one with nothing to overlook. -/
theorem andThen (hx : Recorded x overlooked) (hf : ∀ a, Warned fun mode => f mode a) :
    Recorded (fun mode => x mode >>= f mode) overlooked := by
  have h := hx.bind hf
  simp only [behind_nil, List.append_nil] at h
  exact h

/-- A step with nothing to overlook that is followed by another one. -/
theorem after (hx : Warned x) (hf : ∀ a, Recorded (fun mode => f mode a) (more a)) :
    Recorded (fun mode => x mode >>= f mode) ((x .warn).behind more) := by
  have h := hx.bind hf
  simp only [List.nil_append] at h
  exact h

/-- The place of an error may be noted. -/
theorem mapError (hx : Recorded x overlooked) (g : Error → Error) :
    Recorded (fun mode => Attempt.mapError g (x mode)) overlooked where
  strict_iff s a t := by
    -- An attempt that goes well is not changed.
    have hok (y : Parse α) : Attempt.mapError g y s = (.ok a, t) ↔ y s = (.ok a, t) := by
      unfold Attempt.mapError
      split
      · rename_i hy
        rw [hy]
      · rename_i hy
        rw [hy]
        simp
    rw [hok, hok]
    exact hx.strict_iff s a t
  grows s := by
    have hgrows := hx.grows s
    unfold Attempt.mapError
    cases h : x .warn s with
    | mk r t =>
      rw [h] at hgrows
      cases r <;> exact hgrows

/-- What only the strict mode objects to is overlooked by the others. -/
theorem unlessStrict {p : Prop} [Decidable p] (hx : Warned x) (ctx : ParseContext) (key : String)
    (values : Placeholders := []) (h : ∀ s, overlooked s = [] ↔ ¬ p) :
    Recorded (fun mode => if mode = .strict ∧ p then ctx.refuse key values else x mode)
      overlooked where
  strict_iff s a t := by
    rw [h s, if_neg (c := ErrorMode.warn = .strict ∧ p) fun hp => nomatch hp.1]
    -- Where the strict mode refuses, something is overlooked in the other one.
    by_cases hp : p
    · rw [if_pos ⟨rfl, hp⟩]
      exact ⟨nofun, fun hwarn => absurd hp hwarn.2.2⟩
    · rw [if_neg fun hstrict => hp hstrict.2, hx.strict_iff s a t]
      exact ⟨fun hwarn => ⟨hwarn.1, hwarn.2.1, hp⟩, fun hwarn => ⟨hwarn.1, hwarn.2.1, rfl⟩⟩
  grows s := by
    rw [if_neg fun hp => nomatch hp.1]
    exact hx.grows s

/-- Markup that is read strictly and laxly. The warning is of what the strict mode refuses. -/
theorem withMode (strict lax : String → Except Error α) (ctx : ParseContext) (markup : String) :
    Warned fun mode => (ctx.inMode mode).withMode strict lax markup where
  strict_iff s a t := by
    unfold ParseContext.withMode ParseContext.inMode
    dsimp only
    -- Markup that is read strictly is read alike in both modes; any other is warned of.
    cases hread : strict markup with
    | ok b =>
      constructor
      · rintro ⟨⟩
        exact ⟨rfl, rfl, rfl⟩
      · rintro ⟨⟨⟩, -⟩
        rfl
    | error e =>
      constructor
      · exact nofun
      · rintro ⟨hlax, hsize, -⟩
        obtain rfl := (Prod.mk.inj hlax).2
        rw [Array.size_push] at hsize
        omega
  grows s := by
    unfold ParseContext.withMode ParseContext.inMode
    dsimp only
    split
    · exact Nat.le_refl _
    · rw [Array.size_push]
      exact Nat.le_succ _

/-- The next level is read in the same mode. -/
theorem deeper {f : ErrorMode → ParseContext → Parse α}
    {more : ParseContext → ParseState → List String} (ctx : ParseContext)
    (hf : ∀ ctx' : ParseContext,
      Recorded (fun mode => f mode (ctx'.inMode mode)) (more (ctx'.inMode .warn))) :
    Recorded (fun mode => (ctx.inMode mode).deeper >>= f mode)
      ((ctx.inMode .warn).deeper.behind more) := by
  -- At the limit of nesting both modes fail; below it both go on one level deeper.
  by_cases hlimit : ctx.registry.nestingLimit ≤ ctx.depth
  · let tooDeep (α : Type) : Parse α := fun s => (.error (Error.tooDeep.atLine (ctx.lineOf s)), s)
    have hdeeper (mode : ErrorMode) : (ctx.inMode mode).deeper = tooDeep ParseContext := by
      funext s
      exact if_pos hlimit
    have hfails (mode : ErrorMode) : (ctx.inMode mode).deeper >>= f mode = tooDeep α := by
      rw [hdeeper]
      rfl
    have hnone : (ctx.inMode .warn).deeper.behind more = fun _ => [] := by
      rw [hdeeper]
      rfl
    rw [hnone, funext hfails]
    exact of_silent fun _ => rfl
  · let next : ParseContext := { ctx with depth := ctx.depth + 1 }
    have hdeeper (mode : ErrorMode) :
        (ctx.inMode mode).deeper = Pure.pure (next.inMode mode) := by
      funext s
      exact if_neg hlimit
    have hgoes (mode : ErrorMode) :
        (ctx.inMode mode).deeper >>= f mode = f mode (next.inMode mode) := by
      rw [hdeeper]
      rfl
    have hsame : (ctx.inMode .warn).deeper.behind more = more (next.inMode .warn) := by
      rw [hdeeper]
      rfl
    rw [hsame, funext hgoes]
    exact hf next

end Recorded

end Parse

open Parse

/-! ## Markup -/

/-- The line is only looked at. -/
private theorem currentLine_warned (ctx : ParseContext) :
    Warned fun mode => (ctx.inMode mode).currentLine :=
  .of_silent (x := ctx.currentLine) fun _ => rfl

/-- What a strict reading of an output objects to is warned of. -/
private theorem pipeline_warned (ctx : ParseContext) (markup : String) :
    Warned fun mode => (ctx.inMode mode).pipeline markup := by
  simp only [ParseContext.pipeline_eq]
  refine .andThen (currentLine_warned ctx) fun line => ?_
  exact .andThen (.withMode _ _ ctx markup) fun p => .pure _

/-- So it is with a condition. -/
private theorem condition_warned (ctx : ParseContext) (tag markup : String) :
    Warned fun mode => (ctx.inMode mode).condition tag markup :=
  let lax := ParseContext.laxError (ctx.message ("errors.syntax." ++ tag))
  .withMode Condition.readStrict (fun m => (Condition.readLax m).mapError lax) ctx markup

/-- And with the subject of a choice. -/
private theorem parseSubject_warned (ctx : ParseContext) (markup : String) :
    Warned fun mode => Expression.parseSubject (ctx.inMode mode) markup :=
  let lax := ParseContext.laxError (ctx.message "errors.syntax.case")
  .withMode Expression.readStrict (fun m => (onLax Reader.expression m).mapError lax) ctx markup

/-- And with the header of a loop. -/
private theorem parseHeader_warned (ctx : ParseContext) (markup : String) :
    Warned fun mode => LoopHeader.parse (ctx.inMode mode) markup :=
  let read := LoopHeader.read ctx.registry.messages
  let lax := LoopHeader.laxError ctx.registry.messages
  .withMode (onStrict (read true)) (fun m => (onLax (read false) m).mapError lax) ctx markup

/-- And with the values of an arm. -/
private theorem parseValues_warned (ctx : ParseContext) (subject : Expression) (markup : String) :
    Warned fun mode => Condition.parseValues (ctx.inMode mode) subject markup :=
  let read := Condition.readValues subject
  let lax := ParseContext.laxError (ctx.message "errors.syntax.case_invalid_when")
  .withMode (onStrict (toEnd read)) (fun m => (onLax read m).mapError lax) ctx markup

/-- And with the call of a partial. -/
private theorem parseCall_warned (ctx : ParseContext) (key markup : String) :
    Warned fun mode => PartialCall.parse (ctx.inMode mode) key markup :=
  let lax := ParseContext.laxError (ctx.message key)
  .withMode (onStrict (toEnd PartialCall.read))
    (fun m => (onLax PartialCall.read m).mapError lax) ctx markup

/-! ## Blocks -/

/-- A tag that a block refuses is refused in all modes. -/
private theorem refuseTag_warned {α : Type} (ctx : ParseContext) (block delimiter tag : String) :
    Warned fun _ => (ctx.refuseTag block delimiter tag : Parse α) := by
  unfold ParseContext.refuseTag
  split
  · exact .refuse ctx _ _
  · split <;> exact .refuse ctx _ _

/-- No block ends with `else`. -/
private theorem else_ne_end (name : String) : "else" ≠ "end" ++ name := by
  intro h
  have hchars := congrArg String.toList h
  rw [String.toList_append] at hchars
  exact nomatch (List.cons.inj (List.cons.inj hchars).2).1

/-- Arguments of the `else` of a choice are overlooked. -/
theorem OpenBlock.overlooked_else (name : String) (subject : Expression)
    (heads : List (Option Condition)) (args : String) :
    (choice name subject heads).overlooked "else" args = if args = "" then [] else ["else"] := rfl

/-- No other tag of a block has arguments that are overlooked. -/
theorem OpenBlock.overlooked_of_ne {tag : String} (h : tag ≠ "else") (block : OpenBlock)
    (args : String) : block.overlooked tag args = [] := by
  unfold overlooked
  split
  · exact absurd rfl h
  · rfl

/-- What a block makes of a tag. -/
private theorem claim_recorded (ctx : ParseContext) (block : OpenBlock) (finished : Bool)
    (tag args : String) :
    Recorded (fun mode => block.claim (ctx.inMode mode) finished tag args)
      fun _ => block.overlooked tag args := by
  have refused (name : String) : Warned fun mode =>
      ((ctx.inMode mode).refuseTagIn name tag : Parse OpenBlock.Claim) :=
    refuseTag_warned ctx _ _ _
  unfold OpenBlock.claim
  cases block with
  | conditional name negated conditions =>
    dsimp only
    split
    · exact .pure _
    · split
      · exact .andThen (condition_warned ctx _ _) fun condition => .pure _
      · exact .pure _
      · exact refused name
  | choice name subject heads =>
    dsimp only
    split
    · rename_i hend
      rw [OpenBlock.overlooked_of_ne (hend ▸ (else_ne_end name).symm)]
      exact .pure _
    · split
      · exact .andThen (parseValues_warned ctx _ _) fun condition => .pure _
      · -- Only the strict mode minds arguments of an `else`.
        refine .unlessStrict (.pure _) ctx _ _ fun s => ?_
        rw [OpenBlock.overlooked_else]
        simp
      · rw [OpenBlock.overlooked_of_ne ‹_›]
        exact refused name
  | loop name position header =>
    dsimp only
    split
    · exact .pure _
    · split
      · exact .pure _
      · exact refused name
  | capture name target =>
    dsimp only
    split
    · exact .pure _
    · exact refused name
  | transform name f =>
    dsimp only
    split
    · exact .pure _
    · exact refused name
  | sections name opens passes closes =>
    dsimp only
    -- The tag may end the block, open a section, be passed over or close the block.
    split
    · exact .pure _
    · split
      · exact .pure _
      · split
        · exact .pure _
        · split
          · exact .pure _
          · exact refused name

/-! ## The builder -/

/-- The strict mode accepts text whose lines are tags if nothing warns of it and nothing is found
to be overlooked. -/
def LinesReader.Recorded (inner : LinesReader) (find : LinesFinder) : Prop :=
  ∀ (ctx : ParseContext) (markup : String) (line : Nat),
    Parse.Recorded (fun mode => inner (ctx.inMode mode) markup line)
      (find (ctx.inMode .warn) markup line)

namespace Builder

/-- Opening a block overlooks nothing. -/
private theorem openBlock_warned (ctx : ParseContext) (b : Builder) (line : Option Nat)
    (block : OpenBlock) : Warned fun mode => b.openBlock (ctx.inMode mode) line block := by
  have hopened (ctx' : ParseContext) : Warned fun _ => (pure
      { b with body := .empty, frames := { block, line, enclosing := b.body } :: b.frames } :
        Parse Builder) := .pure _
  exact .of_eq (.deeper (b.contextAt ctx) hopened) (behind_nil _)

/-- What a registered tag starts with. -/
private theorem start_recorded (ctx : ParseContext) {inner : LinesReader} {find : LinesFinder}
    (hinner : inner.Recorded find) (b : Builder) (kind : TagKind) (name args : String) :
    Recorded (fun mode => b.start (ctx.inMode mode) inner kind name args)
      (b.overlookedStart (ctx.inMode .warn) find kind name args) := by
  refine .after (currentLine_warned ctx) fun line => .mapError ?_ _
  cases kind with
  | conditional negated =>
    exact .andThen (condition_warned ctx _ _) fun condition => openBlock_warned ctx b line _
  | choice =>
    exact .andThen (parseSubject_warned ctx _) fun subject => openBlock_warned ctx b line _
  | loop =>
    exact .andThen (parseHeader_warned ctx _) fun header => openBlock_warned ctx b line _
  | interrupt interrupt =>
    -- Only the strict mode minds arguments.
    exact .unlessStrict (.pure _) ctx _ _ fun s => by simp
  | assign =>
    dsimp only
    split
    · exact .andThen (pipeline_warned ctx _) fun source => .pure _
    · exact .refuse ctx _ _
  | capture =>
    dsimp only
    split
    · exact openBlock_warned ctx b line _
    · exact .refuse ctx _ _
  | comment => exact .pure _
  | inlineComment =>
    dsimp only
    split
    · exact .pure _
    · exact .refuse ctx _ _
  | raw =>
    dsimp only
    split
    · exact .andThen (.of_silent (x := takeTrim) fun _ => rfl) fun _ => .pure _
    · exact .refuse ctx _ _
  | echo => exact .andThen (pipeline_warned ctx _) fun source => .pure _
  | lines =>
    -- What the lines overlook is found by the finder for lines.
    refine .deeper (b.contextAt ctx) fun deeper => ?_
    exact .andThen (hinner deeper _ _) fun body => .pure _
  | includePartial => exact .andThen (parseCall_warned ctx _ _) fun call => .pure _
  | renderPartial =>
    dsimp only
    split
    · refine .andThen (parseCall_warned ctx _ _) fun call => ?_
      split
      · exact .pure _
      · exact .refuse ctx _ _
    · exact .refuse ctx _ _
  | transform f => exact openBlock_warned ctx b line _
  | sections opens passes closes => exact openBlock_warned ctx b line _
  | counter => exact .pure _

/-- A tag that nobody registered. -/
private theorem handOver_recorded (ctx : ParseContext) {stray : String → Parse Builder}
    (hstray : ∀ tag, Warned fun _ => stray tag) (b : Builder) (tag args : String) :
    Recorded (fun mode => b.handOver (ctx.inMode mode) stray tag args)
      fun _ => b.overlookedHandOver tag args := by
  unfold handOver overlookedHandOver
  cases b.frames with
  | nil => exact hstray tag
  | cons frame frames =>
    refine .andThen (.mapError (claim_recorded ctx _ _ tag args) _) fun claim => ?_
    cases claim <;> exact .pure _

/-- The trim flag has nothing to do with warnings. -/
private theorem setTrim_warned (trim : Bool) : Warned fun _ => setTrim trim :=
  .of_silent fun _ => rfl

/-- Nor has the line. -/
private theorem turnTo_warned (b : Builder) (d : Delimited) : Warned fun _ => b.turnTo d :=
  .of_silent fun _ => rfl

/-- An output is warned of as its markup is. -/
private theorem addOutput_warned (ctx : ParseContext) (b : Builder) (d : Delimited) :
    Warned fun mode => b.addOutput (ctx.inMode mode) d := by
  refine .andThen (turnTo_warned b d) fun b => ?_
  exact .andThen (.mapError (pipeline_warned ctx _) _) fun pipeline => .pure _

/-- A tag overlooks what its start overlooks, or the block that claims it. -/
private theorem addTag_recorded (ctx : ParseContext) {inner : LinesReader} {find : LinesFinder}
    (hinner : inner.Recorded find) {stray : String → Parse Builder}
    (hstray : ∀ tag, Warned fun _ => stray tag) (b : Builder) (d : Delimited) :
    Recorded (fun mode => b.addTag (ctx.inMode mode) inner stray d)
      ((b.turnTo d).behind fun b => b.overlookedTag (ctx.inMode .warn) find d.markup) := by
  refine .after (turnTo_warned b d) fun b => ?_
  unfold overlookedTag
  cases tagParts? d.markup with
  | none => exact .refuse ctx _ _
  | some parts =>
    -- The registry is the same in every mode.
    dsimp only [ParseContext.inMode]
    cases ctx.registry.tags.get? parts.1 with
    | some kind => exact start_recorded ctx hinner b kind _ _
    | none => exact handOver_recorded ctx hstray b _ _

/-- Inside a comment nothing is overlooked. -/
private theorem skip_warned (b : Builder) (name : String) (depth : Nat) (inRaw : Bool)
    (token : Token) : Warned fun _ => b.skip name depth inRaw token := by
  unfold skip
  split
  · exact .pure _
  · split
    · exact .pure _
    · split
      · exact .pure _
      · exact .pure _
      · exact .pure _
      · -- Only the end of the comment does more than change the mode.
        exact .andThen (setTrim_warned _) fun _ => .pure _
      · exact .pure _

/-- Nor inside a raw block. -/
private theorem keep_warned (b : Builder) (name : String) (trimStart : Bool) (text : String)
    (token : Token) : Warned fun _ => b.keep name trimStart text token := by
  unfold keep
  split
  · exact .andThen (setTrim_warned _) fun _ => .pure _
  · exact .pure _

/-- One token. -/
private theorem add_recorded (ctx : ParseContext) {inner : LinesReader} {find : LinesFinder}
    (hinner : inner.Recorded find) {stray : String → Parse Builder}
    (hstray : ∀ tag, Warned fun _ => stray tag) (b : Builder) (token : Token) :
    Recorded (fun mode => b.add (ctx.inMode mode) inner stray token)
      (b.overlookedToken (ctx.inMode .warn) find token) := by
  unfold add overlookedToken
  -- Only outside of comments and raw blocks is anything looked at.
  cases b.mode with
  | comment name depth inRaw => exact skip_warned b _ _ _ token
  | raw name trimStart text => exact keep_warned b _ _ _ token
  | nodes =>
    cases token with
    | text text line => exact .of_silent fun _ => rfl
    | output d => exact addOutput_warned ctx b d
    | tag d => exact addTag_recorded ctx hinner hstray b d

/-- Any number of tokens. -/
private theorem addAll_recorded (ctx : ParseContext) {inner : LinesReader} {find : LinesFinder}
    (hinner : inner.Recorded find) {stray : String → Parse Builder}
    (hstray : ∀ tag, Warned fun _ => stray tag) (tokens : List Token) (b : Builder) :
    Recorded (fun mode => addAll (ctx.inMode mode) inner stray tokens b)
      (overlookedAll (ctx.inMode .warn) inner find stray tokens b) := by
  induction tokens generalizing b with
  | nil => exact .pure _
  | cons token tokens ih =>
    exact .bind (add_recorded ctx hinner hstray b token) fun b => ih b

/-- Blocks that are not closed are refused in all modes. -/
private theorem finish_warned (ctx : ParseContext) (b : Builder) :
    Warned fun mode => b.finish (ctx.inMode mode) := by
  unfold finish
  split
  · exact .refuse ctx _ _
  · exact .refuse ctx _ _
  · exact .refuse ctx _ _
  · exact .pure _

end Builder

/-! ## Documents -/

/-- By induction on the levels that are left for lines within lines. -/
private theorem Body.parseLines_recorded (levels : Nat) :
    LinesReader.Recorded (Body.parseLines levels) (Body.overlookedLines levels) := by
  -- Lines may hold lines again, one level deeper.
  induction levels with
  | zero => exact fun _ _ _ => .of_silent fun _ => rfl
  | succ levels ih =>
    intro ctx markup line
    have hstray (tag : String) :
        Warned fun _ => (ctx.refuseTag "liquid" "%\x7d" tag : Parse Builder) :=
      refuseTag_warned ctx _ _ _
    refine .andThen (Builder.addAll_recorded ctx ih hstray _ _) fun b => ?_
    exact Builder.finish_warned ctx b

namespace Document

/-- A delimiter without an end is refused in all modes. -/
private theorem refuseUnterminated_warned (ctx : ParseContext) (u : Unterminated) :
    Warned fun _ => (refuseUnterminated ctx u : Parse Document) := by
  unfold refuseUnterminated
  split <;> exact .of_silent fun _ => rfl

/-- The strict mode accepts a template if the warning mode does so without a warning and nothing is
overlooked, and only then. -/
theorem parse_recorded (ctx : ParseContext) (source : String) :
    Recorded (fun mode => Document.parse (ctx.inMode mode) source)
      (overlooked (ctx.inMode .warn) source) := by
  have hstray (tag : String) : Warned fun _ => (ctx.refuseOuterTag tag : Parse Builder) := by
    unfold ParseContext.refuseOuterTag
    split <;> exact .refuse ctx _ _
  refine .mapError (x := fun mode => ofStream (ctx.inMode mode) (.ofSource source)) ?_
    (·.inTemplate ctx.template)
  -- The tokens come first, then what is still open, and then a delimiter without an end.
  have hinner := Body.parseLines_recorded (ctx.registry.nestingLimit - ctx.depth)
  refine .andThen (Builder.addAll_recorded ctx hinner hstray _ _) fun b => ?_
  refine .andThen (Builder.finish_warned ctx b) fun body => ?_
  split
  · exact refuseUnterminated_warned ctx _
  · exact .pure _

/-- The strict mode accepts the templates that the warning mode reads without a warning and without
passing over the arguments of a tag, and no others. The document is the same. -/
theorem strict_iff_warn (registry : Registry) (options : ParseOptions) (source : String)
    (document : Document) :
    let ctx (mode : ErrorMode) : ParseContext :=
      .ofOptions registry { options with mode := some mode }
    let read (mode : ErrorMode) : Except Error Document × ParseState :=
      Document.parse (ctx mode) source {}
    (read .strict).1 = .ok document ↔
      (read .warn).1 = .ok document ∧ (read .warn).2.warnings = #[]
        ∧ overlooked (ctx .warn) source {} = [] := by
  intro ctx read
  have hrecorded := parse_recorded (.ofOptions registry options) source
  constructor
  · -- What is read strictly is read without a warning,
    intro hstrict
    have hread : read .strict = (.ok document, (read .strict).2) := Prod.ext hstrict rfl
    obtain ⟨hwarn, hsize, hnone⟩ := (hrecorded.strict_iff {} document _).mp hread
    have hwarn : read .warn = (.ok document, (read .strict).2) := hwarn
    rw [hwarn]
    exact ⟨rfl, Array.eq_empty_of_size_eq_zero hsize, hnone⟩
  · -- and where nothing is overlooked the other way round.
    rintro ⟨hdocument, hwarnings, hnone⟩
    have hread : read .warn = (.ok document, (read .warn).2) := Prod.ext hdocument rfl
    have hsize : (read .warn).2.warnings.size = 0 := by rw [hwarnings, List.size_toArray]; rfl
    have hstrict := (hrecorded.strict_iff {} document _).mpr ⟨hread, hsize, hnone⟩
    exact congrArg Prod.fst hstrict

/-- The arguments of the second `else` are passed over, those of the first are not looked at by an
`if` in any mode. -/
example :
    let source := "\x7b% if a %\x7d\x7b% else b %\x7d\x7b% break now %\x7d\x7b% endif %\x7d"
      ++ "\x7b% case a %\x7d\x7b% else b %\x7d\x7b% endcase %\x7d"
    overlooked (.ofOptions .standard { mode := some .warn }) source {} = ["break", "else"] := by
  decide +kernel

/-- A template of one `break` with arguments is read without a warning and refused by the strict
mode. -/
theorem not_strict_of_unwarned :
    ¬ ∀ (registry : Registry) (options : ParseOptions) (source : String),
      registry.tags = TagKind.standard →
      let read (mode : ErrorMode) : Except Error Document × ParseState :=
        Document.parse (.ofOptions registry { options with mode := some mode }) source {}
      (read .warn).1.isOk = true → (read .warn).2.warnings = #[] →
        (read .strict).1.isOk = true := by
  intro h
  let read (mode : ErrorMode) : Except Error Document × ParseState :=
    Document.parse (.ofOptions .standard { mode := some mode }) "\x7b% break now %\x7d" {}
  -- A `break` with markup behind it is passed without a warning, and refused in the strict mode.
  have hwarn : (read .warn).1.isOk = true := by decide +kernel
  have hsize : (read .warn).2.warnings.size = 0 := by decide +kernel
  have hstrict : (read .strict).1.isOk = false := by decide +kernel
  have haccepted : (read .strict).1.isOk = true :=
    h .standard {} _ rfl hwarn (Array.eq_empty_of_size_eq_zero hsize)
  rw [hstrict] at haccepted
  exact nomatch haccepted

end Document

end Stencil
