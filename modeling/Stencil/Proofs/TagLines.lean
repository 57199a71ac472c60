import Stencil.Proofs.LineTokens
import Stencil.Proofs.OpenBlocks
import Stencil.Proofs.Reading

/-!
# Lines as tags

A tag with lines is a way of writing tags: its body is the document of the tags between delimiters,
and it can be read where they can, if blocks may be nested one level deeper.

`Parse.InStep` says of two steps of a reading that they go the same way wherever they start, if only
the current line differs. Readings of the lines, one level deeper, and of the tags are put together
from such steps, as long as no lines are kept for error messages.

## Key results

- `Parse.InStep`: the relation between the steps, closed under sequencing
- `Builder.add_inStep`: tokens that are read in the same way
- `Document.parse_tagLines`: a tag with lines, and the tags
-/

namespace Stencil

open Attempt

/-! ## Steps that go the same way -/

/-- The states differ at most in the current line. -/
structure ParseState.SameButLine (s t : ParseState) : Prop where
  trimNext : s.trimNext = t.trimNext
  warnings : s.warnings = t.warnings

namespace Parse

variable {α β γ δ : Type} {R : α → β → Prop} {S : γ → δ → Prop} {x : Parse α} {y : Parse β}

/-- What two steps end in: results that are related, in states that differ at most in the current
line; or failures. -/
inductive Outcomes (R : α → β → Prop) :
    Except Error α × ParseState → Except Error β × ParseState → Prop where
  | ok {a : α} {b : β} {s t : ParseState} (h : R a b) (hst : s.SameButLine t) :
      Outcomes R (.ok a, s) (.ok b, t)
  | error (e e' : Error) (s t : ParseState) : Outcomes R (.error e, s) (.error e', t)

/-- Equal results with the same flags correspond. -/
theorem Outcomes.same {s t : ParseState} (r : Except Error α) (hst : s.SameButLine t) :
    Outcomes Eq (r, s) (r, t) := by
  cases r with
  | ok a => exact .ok rfl hst
  | error e => exact .error e e s t

/-- From states that differ at most in the current line, both steps go the same way. -/
def InStep (R : α → β → Prop) (x : Parse α) (y : Parse β) : Prop :=
  ∀ s t : ParseState, s.SameButLine t → Outcomes R (x s) (y t)

/-- The step fails whatever it starts from. -/
def Fails (x : Parse α) : Prop :=
  ∀ s, ∃ e t, x s = (.error e, t)

namespace InStep

/-- Values that correspond. -/
theorem pure {a : α} {b : β} (h : R a b) :
    InStep R (Pure.pure a : Parse α) (Pure.pure b : Parse β) :=
  fun _ _ hst => .ok h hst

/-- What both steps give is what the next ones start from. -/
theorem bind {f : α → Parse γ} {g : β → Parse δ} (h : InStep R x y)
    (hfg : ∀ a b, R a b → InStep S (f a) (g b)) : InStep S (x >>= f) (y >>= g) := by
  intro s t hst
  have hxy := h s t hst
  rw [bind_apply, bind_apply]
  generalize x s = p, y t = q at hxy
  cases hxy with
  | ok hab hst' => exact hfg _ _ hab _ _ hst'
  | error e e' s' t' => exact .error e e' s' t'

/-- What is noted of errors makes no difference. -/
theorem mapError (h : InStep R x y) (f g : Error → Error) :
    InStep R (Attempt.mapError f x) (Attempt.mapError g y) := by
  intro s t hst
  have hxy := h s t hst
  unfold Attempt.mapError
  generalize x s = p, y t = q at hxy
  cases hxy with
  | ok hab hst' => exact .ok hab hst'
  | error e e' s' t' => exact .error (f e) (g e') s' t'

/-- Two steps that fail correspond. -/
theorem of_fails (hx : x.Fails) (hy : y.Fails) : InStep R x y := by
  intro s t _
  obtain ⟨e, s', hs⟩ := hx s
  obtain ⟨e', t', ht⟩ := hy t
  rw [hs, ht]
  exact .error e e' s' t'

/-- Lines may differ. -/
theorem setLine (line line' : Nat) : InStep Eq (Parse.setLine line) (Parse.setLine line') :=
  fun _ _ hst => .ok rfl ⟨hst.trimNext, hst.warnings⟩

/-- The trim flag is set on both sides. -/
theorem setTrim (trim : Bool) : InStep Eq (Parse.setTrim trim) (Parse.setTrim trim) :=
  fun _ _ hst => .ok rfl ⟨rfl, hst.warnings⟩

/-- And taken on both sides. -/
theorem takeTrim : InStep Eq Parse.takeTrim Parse.takeTrim := by
  intro s t hst
  have htrim : (Parse.takeTrim t).1 = .ok s.trimNext := congrArg _ hst.trimNext.symm
  have hpair : Parse.takeTrim t = (.ok s.trimNext, (Parse.takeTrim t).2) := Prod.ext htrim rfl
  rw [hpair]
  exact .ok rfl ⟨rfl, hst.warnings⟩

/-- A step after one that gives the same on both sides. -/
theorem same_bind {x y : Parse α} {f : α → Parse γ} {g : α → Parse δ} (h : InStep Eq x y)
    (hfg : ∀ a, InStep S (f a) (g a)) : InStep S (x >>= f) (y >>= g) :=
  h.bind fun a _ hab => hab ▸ hfg a

/-- The next steps may rely on what the second one of the pair yields. -/
theorem bind_of_yields {x y : Parse α} {f : α → Parse γ} {g : α → Parse δ} {P : α → Prop}
    (h : InStep Eq x y) (hy : ∀ w, y.Yields w fun a _ => P a)
    (hfg : ∀ a, P a → InStep S (f a) (g a)) : InStep S (x >>= f) (y >>= g) := by
  intro s t hst
  have hxy := h s t hst
  have hyields := hy t.trimNext t
  rw [bind_apply, bind_apply]
  generalize x s = p, y t = q at hxy hyields
  cases hxy with
  | ok hab hst' =>
    cases hab
    exact hfg _ (hyields _ _ rfl rfl) _ _ hst'
  | error e e' s' t' => exact .error e e' s' t'

end InStep

/-- What fails yields whatever is asked for. -/
theorem Fails.yields (h : x.Fails) {w : Bool} {Q : α → Bool → Prop} : x.Yields w Q := by
  intro s a t _ hx
  obtain ⟨e, t', hs⟩ := h s
  exact nomatch hs.symm.trans hx

end Parse

open Parse

/-! ## One level deeper -/

namespace ParseContext

variable {α β : Type} {ctx : ParseContext}

/-- The context one level deeper, where blocks may be nested one level deeper as well. -/
def inside (ctx : ParseContext) : ParseContext :=
  { ctx with
    registry := { ctx.registry with nestingLimit := ctx.registry.nestingLimit + 1 }
    depth := ctx.depth + 1 }

/-- Inside the tag of lines, blocks are nested one level deeper. -/
theorem contextAt_inside (ctx : ParseContext) (b : Builder) :
    b.contextAt ctx.inside = (b.contextAt ctx).inside := by
  unfold Builder.contextAt inside
  rw [Nat.add_right_comm]

/-- What is refused fails. -/
theorem refuse_fails (ctx : ParseContext) (key : String) (values : Placeholders := []) :
    (ctx.refuse key values : Parse α).Fails :=
  fun s => ⟨_, s, rfl⟩

/-- So does a tag that is refused in a block. -/
theorem refuseTag_fails (ctx : ParseContext) (block delimiter tag : String) :
    (ctx.refuseTag block delimiter tag : Parse α).Fails := by
  unfold refuseTag
  split
  · exact ctx.refuse_fails _ _
  · split <;> exact ctx.refuse_fails _ _

/-- And one that is refused outside of blocks. -/
theorem refuseOuterTag_fails (ctx : ParseContext) (tag : String) :
    (ctx.refuseOuterTag tag : Parse α).Fails := by
  unfold refuseOuterTag
  split <;> exact ctx.refuse_fails _ _

/-- Without lines there is no line to note. -/
theorem lineOf_eq_none (ctx : ParseContext) (h : ctx.lines = false) (s : ParseState) :
    ctx.lineOf s = none := by
  rw [lineOf, h]
  rfl

end ParseContext

/-! ## Steps on every level -/

namespace Parse

variable {α β : Type} {ctx : ParseContext}

/-- If no lines are kept, the step goes the same way one level deeper. -/
def Steady (ctx : ParseContext) (x : ParseContext → Parse α) : Prop :=
  ctx.lines = false → InStep Eq (x ctx.inside) (x ctx)

namespace Steady

/-- A step that does not look at the context. -/
theorem pure (a : α) : Steady ctx fun _ => Pure.pure a :=
  fun _ => .pure rfl

/-- One step after the other. -/
theorem bind {x : ParseContext → Parse α} {f : ParseContext → α → Parse β} (hx : Steady ctx x)
    (hf : ∀ a, Steady ctx fun c => f c a) : Steady ctx fun c => x c >>= f c :=
  fun h => (hx h).same_bind fun a => hf a h

/-- Lines of errors make no difference. -/
theorem atLine {x : ParseContext → Parse α} (hx : Steady ctx x) (line : Option Nat) :
    Steady ctx fun c => Attempt.mapError (·.atLine line) (x c) :=
  fun h => (hx h).mapError _ _

/-- A step that fails everywhere. -/
theorem of_fails {x : ParseContext → Parse α} (hx : ∀ c, (x c).Fails) : Steady ctx x :=
  fun _ => .of_fails (hx _) (hx _)

/-- Refusing fails everywhere. -/
theorem refuse (key : String) (values : Placeholders := []) :
    Steady ctx fun c => (c.refuse key values : Parse α) :=
  .of_fails fun c => c.refuse_fails key values

/-- The mode is the same on every level. -/
theorem unlessStrict {p : Prop} [Decidable p] {x : ParseContext → Parse α} (hx : Steady ctx x)
    (key : String) (values : Placeholders := []) :
    Steady ctx fun c => if c.mode = .strict ∧ p then c.refuse key values else x c := by
  intro h
  have hmode : ctx.inside.mode = ctx.mode := rfl
  dsimp only
  rw [hmode]
  split
  · exact refuse key values h
  · exact hx h

/-- The trim flag is set everywhere. -/
theorem setTrim (trim : Bool) : Steady ctx fun _ => Parse.setTrim trim :=
  fun _ => .setTrim trim

/-- And taken everywhere. -/
theorem takeTrim : Steady ctx fun _ => Parse.takeTrim :=
  fun _ => .takeTrim

/-- There are no lines on either side. -/
theorem currentLine : Steady ctx ParseContext.currentLine := by
  intro h s t hst
  have hs : ctx.inside.lineOf s = none := ctx.inside.lineOf_eq_none h s
  rw [ParseContext.currentLine, ParseContext.currentLine, hs, ctx.lineOf_eq_none h]
  exact .ok rfl hst

/-- Markup is read in the same way on every level. -/
theorem withMode (ctx : ParseContext) (strict lax : String → Except Error α)
    (markup : String) : Steady ctx fun c => c.withMode strict lax markup := by
  intro h s t hst
  have hs : ctx.inside.lineOf s = none := ctx.inside.lineOf_eq_none h s
  have hmode : ctx.inside.mode = ctx.mode := rfl
  dsimp only
  unfold ParseContext.withMode
  rw [hs, ctx.lineOf_eq_none h, hmode]
  cases ctx.mode with
  | lax => exact .same _ hst
  | strict => exact .same _ hst
  -- A warning carries no line in either context, so the same one is pushed.
  | warn =>
    dsimp only
    cases strict markup with
    | ok a => exact .ok rfl hst
    | error e =>
      refine .same _ ⟨hst.trimNext, ?_⟩
      exact congrArg (Array.push · ((e.atLine none).inTemplate ctx.template)) hst.warnings

/-- There is a level below the open blocks where there is one outside. -/
theorem deeper (b : Builder) {f : ParseContext → Parse α}
    (hf : ∀ ctx', Steady ctx' f) : Steady ctx fun c => (b.contextAt c).deeper >>= f := by
  intro h
  dsimp only
  rw [ParseContext.contextAt_inside]
  generalize hctx : b.contextAt ctx = ctx'
  have hlines : ctx'.lines = false := hctx ▸ h
  -- Both sides are one level further in, so the limit is met by both or by none.
  have hlimit : ctx'.inside.registry.nestingLimit ≤ ctx'.inside.depth
      ↔ ctx'.registry.nestingLimit ≤ ctx'.depth := Nat.add_le_add_iff_right
  have hdeeper : InStep (fun c c' => c = c'.inside ∧ c'.lines = false)
      ctx'.inside.deeper ctx'.deeper := by
    intro s t hst
    unfold ParseContext.deeper
    by_cases hdepth : ctx'.registry.nestingLimit ≤ ctx'.depth
    · rw [if_pos hdepth, if_pos (hlimit.mpr hdepth)]
      exact .error _ _ s t
    · rw [if_neg hdepth, if_neg (fun h => hdepth (hlimit.mp h))]
      exact .ok ⟨rfl, hlines⟩ hst
  refine hdeeper.bind fun c c' hc => ?_
  rw [hc.1]
  exact hf c' hc.2

end Steady

end Parse

/-! ## Markup and blocks -/

section

variable {ctx : ParseContext}

/-- The markup of an output. -/
private theorem pipeline_steady (markup : String) : Steady ctx fun c => c.pipeline markup := by
  simp only [ParseContext.pipeline_eq]
  refine .bind .currentLine fun line => ?_
  exact .bind (.withMode ctx _ _ markup) fun p => .pure _

/-- The markup of a condition. -/
private theorem condition_steady (tag markup : String) :
    Steady ctx fun c => c.condition tag markup :=
  let lax := ParseContext.laxError (ctx.message ("errors.syntax." ++ tag))
  .withMode ctx Condition.readStrict (fun m => (Condition.readLax m).mapError lax) markup

/-- The subject of a choice. -/
private theorem parseSubject_steady (markup : String) :
    Steady ctx fun c => Expression.parseSubject c markup :=
  let lax := ParseContext.laxError (ctx.message "errors.syntax.case")
  .withMode ctx Expression.readStrict
    (fun m => (Reader.onLax Reader.expression m).mapError lax) markup

/-- The header of a loop. -/
private theorem parseHeader_steady (markup : String) :
    Steady ctx fun c => LoopHeader.parse c markup :=
  let messages := ctx.registry.messages
  .withMode ctx (Reader.onStrict (LoopHeader.read messages true))
    (fun m => (Reader.onLax (LoopHeader.read messages false) m).mapError
      (LoopHeader.laxError messages)) markup

/-- The values of an arm. -/
private theorem parseValues_steady (subject : Expression) (markup : String) :
    Steady ctx fun c => Condition.parseValues c subject markup :=
  let lax := ParseContext.laxError (ctx.message "errors.syntax.case_invalid_when")
  .withMode ctx (Reader.onStrict (.toEnd (Condition.readValues subject)))
    (fun m => (Reader.onLax (Condition.readValues subject) m).mapError lax) markup

/-- The call of a partial. -/
private theorem parseCall_steady (key markup : String) :
    Steady ctx fun c => PartialCall.parse c key markup :=
  let lax := ParseContext.laxError (ctx.message key)
  .withMode ctx (Reader.onStrict (.toEnd PartialCall.read))
    (fun m => (Reader.onLax PartialCall.read m).mapError lax) markup

/-- A block makes the same of a tag on every level. -/
private theorem claim_steady (block : OpenBlock) (finished : Bool) (tag args : String) :
    Steady ctx fun c => block.claim c finished tag args := by
  -- What no block claims is refused with a message.
  have refused (name : String) : Steady ctx fun c =>
      (c.refuseTagIn name tag : Parse OpenBlock.Claim) :=
    .of_fails fun c => c.refuseTag_fails _ _ _
  unfold OpenBlock.claim
  split
  · -- The end of the block.
    exact .pure _
  · cases block with
    | conditional name negated conditions =>
      dsimp only
      split
      · exact .bind (condition_steady _ _) fun condition => .pure _
      · exact .pure _
      · exact refused name
    | choice name subject heads =>
      dsimp only
      split
      · exact .bind (parseValues_steady _ _) fun condition => .pure _
      · exact .unlessStrict (.pure _) _
      · exact refused name
    | loop name position header =>
      dsimp only
      split
      · exact .pure _
      · exact refused name
    | capture name target => exact refused name
    | transform name f => exact refused name
    | sections name opens passes closes =>
      dsimp only
      -- The tag may open a section, be passed over or close the block.
      split
      · exact .pure _
      · split
        · exact .pure _
        · split
          · exact .pure _
          · exact refused name

/-! ## The builder -/

/-- The reader of lines goes the same way on every level. -/
def LinesReader.Steady (inner : LinesReader) : Prop :=
  ∀ (ctx : ParseContext) (markup : String) (line : Nat),
    Parse.Steady ctx fun c => inner c markup line

namespace Builder

variable {inner : LinesReader}

/-- A block is opened one level deeper on both sides. -/
private theorem openBlock_steady (b : Builder) (line : Option Nat) (block : OpenBlock) :
    Parse.Steady ctx fun c => b.openBlock c line block :=
  .deeper b fun _ => .pure _

/-- What a registered tag starts with. -/
private theorem start_steady (hinner : inner.Steady) (b : Builder) (kind : TagKind)
    (name args : String) : Parse.Steady ctx fun c => b.start c inner kind name args := by
  refine .bind .currentLine fun line => .atLine ?_ line
  cases kind with
  | conditional negated =>
    exact .bind (condition_steady _ _) fun condition => openBlock_steady b line _
  | choice => exact .bind (parseSubject_steady _) fun subject => openBlock_steady b line _
  | loop => exact .bind (parseHeader_steady _) fun header => openBlock_steady b line _
  | interrupt interrupt => exact .unlessStrict (.pure _) _ _
  | assign =>
    dsimp only
    split
    · exact .bind (pipeline_steady _) fun source => .pure _
    · exact .refuse _
  | capture =>
    dsimp only
    split
    · exact openBlock_steady b line _
    · exact .refuse _
  | comment => exact .pure _
  | inlineComment =>
    dsimp only
    split
    · exact .pure _
    · exact .refuse _
  | raw =>
    dsimp only
    split
    · exact .bind .takeTrim fun _ => .pure _
    · exact .refuse _ _
  | echo => exact .bind (pipeline_steady _) fun source => .pure _
  | lines =>
    -- Lines within lines are one more level down.
    refine .deeper b fun ctx' => ?_
    exact .bind (hinner ctx' _ _) fun body => .pure _
  | includePartial => exact .bind (parseCall_steady _ _) fun call => .pure _
  | renderPartial =>
    dsimp only
    split
    · refine .bind (parseCall_steady _ _) fun call => ?_
      split
      · exact .pure _
      · exact .refuse _
    · exact .refuse _
  | transform f => exact openBlock_steady b line _
  | sections opens passes closes => exact openBlock_steady b line _
  | counter => exact .pure _

/-- What is skipped inside a comment does not depend on the context. -/
private theorem skip_steady (ctx : ParseContext) (b : Builder) (name : String) (depth : Nat)
    (inRaw : Bool) (token : Token) : Parse.Steady ctx fun _ => b.skip name depth inRaw token := by
  unfold skip
  split
  · exact .pure _
  · split
    · exact .pure _
    · split
      · exact .pure _
      · exact .pure _
      · exact .pure _
      · exact .bind (.setTrim _) fun _ => .pure _
      · exact .pure _

/-- Nor does what is kept of a raw block. -/
private theorem keep_steady (ctx : ParseContext) (b : Builder) (name : String)
    (trimStart : Bool) (text : String) (token : Token) :
    Parse.Steady ctx fun _ => b.keep name trimStart text token := by
  unfold keep
  split
  · exact .bind (.setTrim _) fun _ => .pure _
  · exact .pure _

/-- A tag that nobody registered. -/
private theorem handOver_inStep (hlines : ctx.lines = false) {stray stray' : String → Parse Builder}
    (hstray : ∀ tag, (stray tag).Fails) (hstray' : ∀ tag, (stray' tag).Fails) (b : Builder)
    (tag args : String) :
    InStep Eq (b.handOver ctx.inside stray tag args) (b.handOver ctx stray' tag args) := by
  unfold handOver
  cases b.frames with
  | nil => exact .of_fails (hstray tag) (hstray' tag)
  | cons frame frames =>
    refine .same_bind ((claim_steady frame.block _ tag args hlines).mapError _ _) fun claim => ?_
    cases claim <;> exact .pure rfl

/-- No raw block is open. -/
def NotRaw (b : Builder) : Prop :=
  ∀ name trimStart text, b.mode ≠ .raw name trimStart text

/-- A text does not change the mode. -/
theorem mode_withText (b : Builder) (text : String) : (b.withText text).mode = b.mode := by
  unfold withText
  split <;> rfl

/-- Where nodes are read, nothing is kept raw. -/
theorem NotRaw.of_nodes {b : Builder} (h : b.mode = .nodes) : b.NotRaw :=
  fun _ _ _ h' => nomatch h.symm.trans h'

/-- Only a tag of its own starts a raw block. -/
theorem Adds.notRaw {token : Token} {b b' : Builder} {w w' : Bool}
    (h : Adds ctx inner token b w b' w')
    (htoken : ∀ d name args, token = .tag d → tagParts? d.markup = some (name, args) →
      ctx.registry.tags.get? name ≠ some .raw) (hb : b.NotRaw) : b'.NotRaw := by
  have facing (d : Delimited) (hmode : b.mode = .nodes) : (b.facing d).mode = .nodes :=
    (mode_facing b d).trans hmode
  -- Only a `raw` tag leads into raw mode, and only raw mode stays there.
  cases h with
  | raw hmode hname hkind => exact absurd hkind (htoken _ _ _ rfl hname)
  | keep hmode hgo => exact absurd hmode (hb _ _ _)
  | text hmode text line => exact .of_nodes ((mode_withText b _).trans hmode)
  | output hmode d p => exact .of_nodes (facing d hmode)
  | single hmode => exact .of_nodes (facing _ hmode)
  | lines hmode => exact .of_nodes (facing _ hmode)
  | pass hmode => exact .of_nodes (facing _ hmode)
  | comment => exact fun _ _ _ hmode => nomatch hmode
  | skip => exact fun _ _ _ hmode => nomatch hmode
  | opens => exact .of_nodes rfl
  | body => exact .of_nodes rfl
  | close => exact .of_nodes rfl
  | endComment => exact .of_nodes rfl
  | endRaw => exact .of_nodes rfl

/-- Of a token that is passed over only its name counts, and what it asks to be trimmed. -/
private theorem skip_twins {same : Bool} {d d' : Delimited} (h : d.Twins same d') (b : Builder)
    (name : String) (depth : Nat) (inRaw : Bool) :
    b.skip name depth inRaw (.tag d) = b.skip name depth inRaw (.tag d') := by
  unfold skip
  dsimp only [tagName?]
  rw [h.parts]
  cases tagParts? d'.markup with
  | none => rfl
  | some parts =>
    dsimp only [Option.map_some]
    rw [h.trimRight]

/-- A tag between delimiters and one on a line of its own do the same. -/
private theorem addTag_inStep (hlines : ctx.lines = false) (hinner : inner.Steady)
    {stray stray' : String → Parse Builder} (hstray : ∀ tag, (stray tag).Fails)
    (hstray' : ∀ tag, (stray' tag).Fails) {same : Bool} {d d' : Delimited}
    (h : d.Twins same d') (b : Builder) :
    InStep Eq (b.addTag ctx.inside inner stray d) (b.addTag ctx inner stray' d') := by
  have hturn : InStep Eq (b.turnTo d) (b.turnTo d') := by
    unfold turnTo
    rw [h.trimLeft, h.trimRight]
    exact .same_bind (.setLine _ _) fun _ => .same_bind (.setTrim _) fun _ => .pure rfl
  refine .same_bind hturn fun b => ?_
  rw [h.parts]
  cases tagParts? d'.markup with
  | none => exact .of_fails (ParseContext.refuse_fails _ _ _) (ParseContext.refuse_fails _ _ _)
  | some parts =>
    -- The registry has the same tags on every level.
    have htags : ctx.inside.registry.tags = ctx.registry.tags := rfl
    dsimp only
    rw [htags]
    cases ctx.registry.tags.get? parts.1 with
    | some kind => exact start_steady hinner b kind _ _ hlines
    | none => exact handOver_inStep hlines hstray hstray' b _ _

/-- Tokens that are read in the same way are added in the same way, on every level. -/
theorem add_inStep (hlines : ctx.lines = false) (hinner : inner.Steady)
    {stray stray' : String → Parse Builder} (hstray : ∀ tag, (stray tag).Fails)
    (hstray' : ∀ tag, (stray' tag).Fails) {same : Bool} {token token' : Token}
    (htoken : token.Twins same token') {b : Builder} (hb : same = false → b.NotRaw) :
    InStep Eq (b.add ctx.inside inner stray token) (b.add ctx inner stray' token') := by
  obtain ⟨h⟩ := htoken
  unfold add
  cases hmode : b.mode with
  | comment name depth inRaw =>
    dsimp only
    rw [skip_twins h]
    exact skip_steady ctx b name depth inRaw _ hlines
  | raw name trimStart text =>
    -- Raw text is kept as it is written, so it must be written in the same way.
    cases same with
    | false => exact absurd hmode (hb rfl _ _ _)
    | true =>
      cases h.eq rfl
      exact keep_steady ctx b name trimStart text _ hlines
  | nodes => exact addTag_inStep hlines hinner hstray hstray' h b

/-- All tokens are added in the same way. -/
theorem addAll_inStep (hlines : ctx.lines = false) (hinner : inner.Steady)
    {stray stray' : String → Parse Builder} (hstray : ∀ tag, (stray tag).Fails)
    (hstray' : ∀ tag, (stray' tag).Fails) {same : Bool}
    {tokens tokens' : List Token} (htokens : List.Forall₂ (Token.Twins same) tokens tokens')
    (hraw : same = false → ∀ name, ctx.registry.tags.get? name = some .raw → name = "raw")
    {b : Builder} (hb : same = false → b.NotRaw) :
    InStep Eq (addAll ctx.inside inner stray tokens b) (addAll ctx inner stray' tokens' b) := by
  induction htokens generalizing b with
  | nil => exact .pure rfl
  | @cons token token' _ _ htoken _ ih =>
    have hadd := add_inStep hlines hinner hstray hstray' htoken hb
    refine hadd.bind_of_yields (P := fun b => same = false → b.NotRaw) (fun w => ?_) fun b => ih
    refine (add_yields (fun tag _ _ => (hstray' tag).yields) token').mono ?_
    rintro b' w' hadds rfl
    refine hadds.notRaw ?_ (hb rfl)
    rintro d name args rfl hparts hkind
    cases hraw rfl name hkind
    cases htoken with
    | tag h => exact h.not_raw rfl args (h.parts.trans hparts)

/-- Nothing may be open, on any level. -/
private theorem finish_steady (ctx : ParseContext) (b : Builder) :
    Parse.Steady ctx fun c => b.finish c := by
  unfold finish
  split
  · exact .refuse _ _
  · exact .refuse _ _
  · exact .refuse _ _
  · exact .pure _

end Builder

/-! ## Documents -/

/-- Lines are read in the same way on every level. -/
private theorem Body.parseLines_steady (levels : Nat) :
    LinesReader.Steady (Body.parseLines levels) := by
  -- Lines may hold lines again, one level deeper.
  induction levels with
  | zero => exact fun _ _ _ _ => .of_fails (fun s => ⟨_, s, rfl⟩) (fun s => ⟨_, s, rfl⟩)
  | succ levels ih =>
    intro ctx markup line hlines
    have hall := Builder.addAll_inStep hlines ih (ctx.inside.refuseTag_fails "liquid" "%\x7d")
      (ctx.refuseTag_fails "liquid" "%\x7d") (Token.twins_ofLines markup line) nofun
      (b := {}) nofun
    exact hall.same_bind fun b => Builder.finish_steady ctx b hlines

namespace Document

/-- The document of tokens behind which no delimiter is left open. -/
private theorem ofStream_of_closed (ctx : ParseContext) {stream : TokenStream}
    (h : stream.unterminated = none) :
    ofStream ctx stream
      = Builder.addAll ctx (Body.parseLines (ctx.registry.nestingLimit - ctx.depth))
          ctx.refuseOuterTag stream.tokens {} >>= fun b => b.finish ctx := by
  unfold ofStream
  rw [h]
  dsimp only
  simp only [bind_pure]

/-- The document of a tag with lines and nothing else. -/
private theorem ofStream_lines {ctx : ParseContext} (hlines : ctx.lines = false)
    (hliquid : ctx.registry.tags.get? "liquid" = some .lines) (hdepth : ctx.depth = 0)
    {stream : TokenStream} {d : Delimited} {args : String} (htokens : stream.tokens = [.tag d])
    (hclosed : stream.unterminated = none) (hleft : d.trimLeft = false)
    (hparts : tagParts? d.markup = some ("liquid", args)) (s : ParseState) :
    ofStream { ctx.inside with depth := 0 } stream s
      = Attempt.mapError (·.atLine none)
          (Body.parseLines (ctx.registry.nestingLimit + 1) ctx.inside args 1 >>= fun document =>
            pure (.mk [.tag (.lines document none)] document.isBlank))
          { s with line := d.line, trimNext := d.trimRight } := by
  generalize hs' : { s with line := d.line, trimNext := d.trimRight } = s'
  generalize hctx' : { ctx.inside with depth := 0 } = ctx'
  -- The tag has no blanks to trim on its left.
  have hturn : ({} : Builder).turnTo d s = (.ok {}, s') := by
    unfold Builder.turnTo
    rw [hleft, ← hs']
    rfl
  have hline : ctx'.currentLine s' = (.ok none, s') := by
    unfold ParseContext.currentLine
    rw [ctx'.lineOf_eq_none (hctx' ▸ hlines)]
  have hliquid' : ctx'.registry.tags.get? "liquid" = some .lines := hctx' ▸ hliquid
  -- The lines are one level deeper, and one more level is allowed.
  have hlevels : ctx'.registry.nestingLimit - ctx'.depth = ctx.registry.nestingLimit + 1 :=
    hctx' ▸ rfl
  have hdeeper : (({} : Builder).contextAt ctx').deeper s' = (.ok ctx.inside, s') := by
    subst hctx'
    unfold ParseContext.inside
    rw [hdepth]
    rfl
  rw [ofStream_of_closed _ hclosed, htokens, hlevels]
  generalize Body.parseLines (ctx.registry.nestingLimit + 1) = inner
  have hadd : ({} : Builder).add ctx' inner ctx'.refuseOuterTag (.tag d) s
      = Attempt.mapError (·.atLine none) (inner ctx.inside args 1 >>= fun body =>
          pure (({} : Builder).pushTag (.lines body none))) s' := by
    show ({} : Builder).addTag ctx' inner ctx'.refuseOuterTag d s = _
    unfold Builder.addTag
    rw [bind_of_ok hturn, hparts]
    dsimp only
    rw [hliquid']
    dsimp only
    unfold Builder.start
    rw [bind_of_ok hline]
    unfold Attempt.mapError
    dsimp only
    rw [bind_of_ok hdeeper]
    rfl
  -- Nothing is open behind the tag.
  rw [bind_apply, Builder.addAll, bind_apply, hadd]
  unfold Attempt.mapError
  rw [bind_apply, bind_apply]
  rcases inner ctx.inside args 1 s' with ⟨r, t⟩
  cases r <;> rfl

/-- A tag with lines can be read if and only if the tags that the lines are can be read, where
blocks may be nested one level less. Its body is the document of the tags. -/
theorem parse_tagLines {registry : Registry} {options : ParseOptions}
    (hoptions : options.lines = false) (hliquid : registry.tags.get? "liquid" = some .lines)
    (hraw : ∀ name, registry.tags.get? name = some .raw → name = "raw") {lines : List String}
    (h : ∀ line ∈ lines, IsTagLine line) :
    let raised := { registry with nestingLimit := registry.nestingLimit + 1 }
    let block := (Document.parse (.ofOptions raised options) (tagLines lines) {}).1
    let tags := (Document.parse (.ofOptions registry options) (lineTags lines) {}).1
    (block.isOk ↔ tags.isOk) ∧ ∀ document, tags = .ok document →
      block = .ok (.mk [.tag (.lines document none)] document.isBlank) := by
  intro raised block tags
  obtain ⟨d, htokens, hclosed, hleft, hright, args, hparts, hargs⟩ :=
    TokenStream.ofSource_tagLines h
  have hclosed' : (TokenStream.ofSource (lineTags lines)).unterminated = none :=
    (TokenStream.forall₂_lineTags h 1).2
  let ctx := ParseContext.ofOptions registry options
  have hlines : ctx.lines = false := hoptions
  -- The lines, one level deeper, and the tags go the same way.
  have hstep : InStep Eq (Body.parseLines (ctx.registry.nestingLimit + 1) ctx.inside args 1)
      (ofStream ctx (.ofSource (lineTags lines))) := by
    rw [ofStream_of_closed ctx hclosed']
    have hall := Builder.addAll_inStep hlines
      (Body.parseLines_steady registry.nestingLimit)
      (ctx.inside.refuseTag_fails "liquid" "%\x7d") ctx.refuseOuterTag_fails
      (Token.twins_lineTags h hargs 1) (fun _ => hraw) (b := {}) fun _ => .of_nodes rfl
    exact hall.same_bind fun b => Builder.finish_steady ctx b hoptions
  have hblock : block = (Attempt.mapError (·.inTemplate options.name)
      (ofStream { ctx.inside with depth := 0 } (.ofSource (tagLines lines))) {}).1 := rfl
  have htags : tags = (Attempt.mapError (·.inTemplate options.name)
      (ofStream ctx (.ofSource (lineTags lines))) {}).1 := rfl
  -- Both start without warnings and without a trim flag; only the lines differ.
  have hends := hstep { line := d.line, trimNext := d.trimRight } {} ⟨hright, rfl⟩
  rw [Attempt.mapError, ofStream_lines hlines hliquid rfl htokens hclosed hleft
    hparts, Attempt.mapError, bind_apply] at hblock
  rw [Attempt.mapError] at htags
  rw [hblock, htags]
  clear hblock htags block tags
  generalize Body.parseLines (ctx.registry.nestingLimit + 1) ctx.inside args 1 _ = p at hends ⊢
  generalize ofStream ctx (.ofSource (lineTags lines)) {} = q at hends ⊢
  cases hends with
  | ok hab hst =>
    cases hab
    refine ⟨Iff.rfl, fun document hdocument => ?_⟩
    cases hdocument
    rfl
  | error e e' s t => exact ⟨Iff.rfl, nofun⟩

/-- A block, a tag with a line of its own, a remark, and a comment that hides the start of a
block. -/
theorem parse_tagLines_nested :
    let lines := ["if a", "echo b | upcase", "liquid assign x = 1", "# remark", "comment", "if",
      "endcomment", "else", "break", "endif"]
    let raised := { Registry.standard with nestingLimit := Registry.standard.nestingLimit + 1 }
    let block := (Document.parse (.ofOptions raised {}) (tagLines lines) {}).1
    let tags := (Document.parse (.ofOptions .standard {}) (lineTags lines) {}).1
    (∀ line ∈ lines, IsTagLine line) ∧ tags.isOk = true ∧ block.isOk = true
      ∧ ∀ document, tags = .ok document →
        block = .ok (.mk [.tag (.lines document none)] document.isBlank) := by
  intro lines raised block tags
  -- What is decidable is checked for all lines at once.
  have hall : ∀ line ∈ lines, Text.isBlankText line = false ∧ '\n' ∉ line.toList
      ∧ ¬ Delimiter.tag.closer <:+: line.toList
      ∧ (tagParts? line).map Prod.fst ≠ some "raw" := by
    decide +kernel
  have hlines : ∀ line ∈ lines, IsTagLine line := fun line hline =>
    let ⟨hblank, hfeed, hcloser, hraw⟩ := hall line hline
    ⟨hblank, hfeed, hcloser, hraw⟩
  have hliquid : Registry.standard.tags.get? "liquid" = some .lines := rfl
  have hraw : ∀ name, Registry.standard.tags.get? name = some .raw → name = "raw" :=
    fun name hname => (Option.some.inj (TagKind.standardName?_of_registered rfl hname)).symm
  have hok : tags.isOk = true := by decide +kernel
  have hoptions : ({} : ParseOptions).lines = false := rfl
  obtain ⟨hiff, hdocument⟩ := parse_tagLines hoptions hliquid hraw hlines
  exact ⟨hlines, hok, hiff.mpr hok, hdocument⟩

end Document

end

end Stencil
