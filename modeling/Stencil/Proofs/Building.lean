import Stencil.Proofs.Outcome
import Stencil.Document.Builder

/-!
# What a token does to a document

A document is built token by token. `Builder.Adds` lists all that a token can do to the builder and
to the flag that asks for the next text to be trimmed; it is the one account of the builder that its
invariants are derived from. `Parse.Yields` says what a reading step gives if it gives anything,
with the flag before and after it.

## Key definitions

- `Parse.Yields`: what a reading step gives
- `TagKind.Single`, `TagKind.Opens`: the tags without bodies, and the blocks that tags open
- `Builder.Adds`: what a token does

## Key results

- `Builder.add_yields`: a token that is added does one of these
- `Builder.addAll_yields`: an invariant of the builder holds when all tokens are added
- `OpenBlock.claim_yields`: what blocks make of the tags between their bodies
-/

namespace Stencil

/-! ## What reading gives -/

/-- Where the flag for the next text is `w` before the step, what the step gives and the flag after
it satisfy `Q`. -/
def Parse.Yields {α : Type} (w : Bool) (x : Parse α) (Q : α → Bool → Prop) : Prop :=
  ∀ (s : ParseState) (a : α) (t : ParseState), s.trimNext = w → x s = (.ok a, t) → Q a t.trimNext

/-- The step leaves the flag for the next text as it is. -/
abbrev Parse.KeepsTrim {α : Type} (x : Parse α) : Prop :=
  ∀ w, x.Yields w fun _ w' => w' = w

namespace Parse.Yields

variable {α β : Type} {w : Bool} {x : Parse α} {P Q : α → Bool → Prop} {R : β → Bool → Prop}

/-- What yields something yields what is weaker. -/
theorem mono (h : x.Yields w P) (hpq : ∀ a w', P a w' → Q a w') : x.Yields w Q :=
  fun s a t hs hx => hpq a t.trimNext (h s a t hs hx)

/-- A value is given without touching the trim flag. -/
theorem pure {a : α} (h : Q a w) : (Pure.pure a : Parse α).Yields w Q := by
  intro s a' t hs hx
  obtain ⟨ha, rfl⟩ := Prod.mk.inj hx
  cases ha
  rw [hs]
  exact h

/-- The second step goes on with what the first one gives. -/
theorem bind {f : α → Parse β} (hx : x.Yields w P) (hf : ∀ a w', P a w' → (f a).Yields w' R) :
    (x >>= f).Yields w R := by
  intro s b u hs h
  obtain ⟨a, t, hxa, hfb⟩ := Attempt.ok_of_bind h
  exact hf a t.trimNext (hx s a t hs hxa) t b u rfl hfb

/-- A step that leaves the flag alone, and what follows. -/
theorem after {f : α → Parse β} (hx : x.KeepsTrim) (hf : ∀ a, (f a).Yields w R) :
    (x >>= f).Yields w R :=
  (hx w).bind fun a _ hw => hw ▸ hf a

/-- What is noted of errors makes no difference to what is yielded. -/
theorem mapError (h : x.Yields w Q) (f : Error → Error) :
    Yields w (Attempt.mapError f x) Q := by
  intro s a t hs hx
  refine h s a t hs ?_
  unfold Attempt.mapError at hx
  cases hr : x s with
  | mk r u =>
    rw [hr] at hx
    cases r with
    | ok a' => exact hx
    | error e => exact nomatch (Prod.mk.inj hx).1

/-- What a step gives is what it gives. -/
theorem itself :
    x.Yields w fun a w' => ∃ s t : ParseState,
      s.trimNext = w ∧ x s = (.ok a, t) ∧ t.trimNext = w' :=
  fun s _ t hs hx => ⟨s, t, hs, hx, rfl⟩

/-- Setting the flag yields that flag. -/
theorem setTrim (trim : Bool) : (Parse.setTrim trim).Yields w fun _ w' => w' = trim := by
  intro s a t _ hx
  rw [← (Prod.mk.inj hx).2]

/-- Taking the flag gives it and clears it. -/
theorem takeTrim : Parse.takeTrim.Yields w fun trim w' => trim = w ∧ w' = false := by
  intro s a t hs hx
  obtain ⟨ha, ht⟩ := Prod.mk.inj hx
  cases ha
  exact ⟨hs, by rw [← ht]⟩

end Parse.Yields

namespace Parse.KeepsTrim

variable {α : Type}

/-- The line has nothing to do with the flag. -/
theorem setLine (line : Nat) : (Parse.setLine line).KeepsTrim := by
  intro w s a t hs hx
  rw [← (Prod.mk.inj hx).2]
  exact hs

end Parse.KeepsTrim

namespace ParseContext

variable {α : Type} {w : Bool} {Q : α → Bool → Prop}

/-- What is refused yields nothing at all. -/
theorem refuse_yields (ctx : ParseContext) (key : String) (values : Placeholders := []) :
    (ctx.refuse key values : Parse α).Yields w Q :=
  fun _ _ _ _ hx => nomatch (Prod.mk.inj hx).1

/-- Nor does a tag that is refused in a block. -/
theorem refuseTag_yields (ctx : ParseContext) (block delimiter tag : String) :
    (ctx.refuseTag block delimiter tag : Parse α).Yields w Q := by
  unfold refuseTag
  split
  · exact ctx.refuse_yields _ _
  · split <;> exact ctx.refuse_yields _ _

/-- Nor one that is refused outside of blocks. -/
theorem refuseOuterTag_yields (ctx : ParseContext) (tag : String) :
    (ctx.refuseOuterTag tag : Parse α).Yields w Q := by
  unfold refuseOuterTag
  split <;> exact ctx.refuse_yields _ _

/-- The line is only looked at. -/
theorem currentLine_keepsTrim (ctx : ParseContext) : ctx.currentLine.KeepsTrim := by
  intro w s a t hs hx
  rw [← (Prod.mk.inj hx).2]
  exact hs

/-- One level deeper, the same tags are registered. -/
theorem deeper_yields (ctx : ParseContext) :
    ctx.deeper.Yields w fun deeper w' => deeper.registry = ctx.registry ∧ w' = w := by
  intro s a t hs hx
  unfold deeper at hx
  split at hx
  · exact nomatch (Prod.mk.inj hx).1
  · obtain ⟨ha, ht⟩ := Prod.mk.inj hx
    cases ha
    exact ⟨rfl, by rw [← ht, hs]⟩

/-- To read markup makes no difference to what becomes of the next text. -/
theorem withMode_keepsTrim (ctx : ParseContext) (strict lax : String → Except Error α)
    (markup : String) : (ctx.withMode strict lax markup).KeepsTrim := by
  intro w s a t hs hx
  unfold withMode at hx
  split at hx
  · rw [← (Prod.mk.inj hx).2, hs]
  · rw [← (Prod.mk.inj hx).2, hs]
  · split at hx
    · rw [← (Prod.mk.inj hx).2, hs]
    · rw [← (Prod.mk.inj hx).2]
      exact hs

/-- Reading the markup of an output does not touch the flag. -/
theorem pipeline_keepsTrim (ctx : ParseContext) (markup : String) :
    (ctx.pipeline markup).KeepsTrim := by
  intro w s a t hs hx
  have hkeeps := ctx.withMode_keepsTrim Pipeline.readStrict Pipeline.readLax markup w
  unfold pipeline at hx
  -- The line is noted afterwards and changes nothing.
  cases hr : ctx.withMode Pipeline.readStrict Pipeline.readLax markup s with
  | mk r u =>
    rw [hr] at hx
    cases r with
    | error e => exact nomatch (Prod.mk.inj hx).1
    | ok p =>
      rw [← (Prod.mk.inj hx).2]
      exact hkeeps s p u hs hr

/-- Nor does that of a condition. -/
theorem condition_keepsTrim (ctx : ParseContext) (tag markup : String) :
    (ctx.condition tag markup).KeepsTrim := by
  unfold condition
  exact ctx.withMode_keepsTrim _ _ markup

end ParseContext

/-- Nor does the subject of a choice. -/
theorem Expression.parseSubject_keepsTrim (ctx : ParseContext) (markup : String) :
    (parseSubject ctx markup).KeepsTrim := by
  unfold parseSubject
  exact ctx.withMode_keepsTrim _ _ markup

/-- Nor do the values of an arm. -/
theorem Condition.parseValues_keepsTrim (ctx : ParseContext) (subject : Expression)
    (markup : String) : (parseValues ctx subject markup).KeepsTrim := by
  unfold parseValues
  exact ctx.withMode_keepsTrim _ _ markup

/-- Nor does the header of a loop. -/
theorem LoopHeader.parse_keepsTrim (ctx : ParseContext) (markup : String) :
    (parse ctx markup).KeepsTrim := by
  unfold parse
  exact ctx.withMode_keepsTrim _ _ markup

/-- Nor does the call of a partial. -/
theorem PartialCall.parse_keepsTrim (ctx : ParseContext) (key markup : String) :
    (parse ctx key markup).KeepsTrim := by
  unfold parse
  exact ctx.withMode_keepsTrim _ _ markup

/-! ## Tags and blocks -/

/-- The tag has no bodies and is complete when it is read; it is one of this kind. -/
inductive TagKind.Single : TagKind → Tag → Prop where
  | interrupt (i : Interrupt) (line : Option Nat) : Single (.interrupt i) (.interrupt i line)
  | assign (target : String) (source : Pipeline) (line : Option Nat) :
      Single .assign (.assign target source line)
  | inlineComment : Single .inlineComment .inlineComment
  | echo (source : Pipeline) : Single .echo (.echo source)
  | includePartial (call : PartialCall) (line : Option Nat) :
      Single .includePartial (.includePartial call line)
  | renderPartial (name : String) (call : PartialCall) (line : Option Nat) :
      Single .renderPartial (.renderPartial name call line)
  | counter (name register : String) : Single .counter (.counter name register)

/-- The block that a tag of this kind opens under the name `name`. -/
inductive TagKind.Opens (name : String) : TagKind → OpenBlock → Prop where
  | conditional (negated : Bool) (condition : Condition) :
      Opens name (.conditional negated) (.conditional name negated [condition])
  | choice (subject : Expression) : Opens name .choice (.choice name subject [])
  | loop (position : String) (header : LoopHeader) : Opens name .loop (.loop name position header)
  | capture (target : String) : Opens name .capture (.capture name target)
  | transform (f : String → String) : Opens name (.transform f) (.transform name f)
  | sections (opens passes closes : String) :
      Opens name (.sections opens passes closes) (.sections name opens passes closes)

namespace OpenBlock

variable {ctx : ParseContext} {block block' : OpenBlock} {finished : Bool} {tag args : String}
  {s t : ParseState} {w : Bool}

/-- What is known of a block when one more body starts. -/
inductive Turns : OpenBlock → (finished : Bool) → (tag : String) → OpenBlock → Prop where
  | conditional {name : String} {negated : Bool} {conditions : List Condition} {finished : Bool}
      {tag : String} (condition : Condition) (h : tag = "elsif" ∨ tag = "else") :
      Turns (.conditional name negated conditions) finished tag
        (.conditional name negated (conditions ++ [condition]))
  | choice {name : String} {subject : Expression} {heads : List (Option Condition)}
      {finished : Bool} {tag : String} (head : Option Condition)
      (h : tag = "when" ∨ tag = "else") :
      Turns (.choice name subject heads) finished tag (.choice name subject (heads ++ [head]))
  | loop {name position : String} {header : LoopHeader} :
      Turns (.loop name position header) false "else" (.loop name position header)
  | sections {name opens passes closes : String} {finished : Bool} :
      Turns (.sections name opens passes closes) finished opens
        (.sections name opens passes closes)

/-- What blocks make of a tag that is not their own end. -/
theorem claim_yields (ctx : ParseContext) (block : OpenBlock) (finished : Bool)
    (tag args : String) :
    (block.claim ctx finished tag args).Yields w fun claim w' =>
      w' = w ∧ match claim with
        | .pass => ∃ name opens passes closes, block = .sections name opens passes closes
        | .body block' => block.Turns finished tag block'
        | .close => tag = "end" ++ block.name ∨ ∃ name opens passes,
            block = .sections name opens passes tag := by
  unfold claim
  split
  · -- The end of the block is asked for first, whatever the block.
    rename_i hend
    exact .pure ⟨rfl, .inl hend⟩
  · cases block with
    | conditional name negated conditions =>
      dsimp only
      split
      · refine .after (ctx.condition_keepsTrim _ _) fun condition => ?_
        exact .pure ⟨rfl, .conditional condition (.inl rfl)⟩
      · exact .pure ⟨rfl, .conditional .always (.inr rfl)⟩
      · exact ctx.refuseTag_yields _ _ _
    | choice name subject heads =>
      dsimp only
      split
      · refine .after (Condition.parseValues_keepsTrim ctx _ _) fun condition => ?_
        exact .pure ⟨rfl, .choice (some condition) (.inl rfl)⟩
      · -- Sections are opened, passed over or closed by the tags that they name.
        split
        · exact ctx.refuse_yields _ _
        · exact .pure ⟨rfl, .choice none (.inr rfl)⟩
      · exact ctx.refuseTag_yields _ _ _
    | loop name position header =>
      dsimp only
      split
      · rename_i h
        -- A loop takes one `else`.
        obtain ⟨rfl, rfl⟩ := h
        exact .pure ⟨rfl, .loop⟩
      · exact ctx.refuseTag_yields _ _ _
    | capture name target => exact ctx.refuseTag_yields _ _ _
    | transform name f => exact ctx.refuseTag_yields _ _ _
    | sections name opens passes closes =>
      dsimp only
      split
      · rename_i h
        subst h
        exact .pure ⟨rfl, .sections⟩
      · split
        · exact .pure ⟨rfl, name, opens, passes, closes, rfl⟩
        · split
          · rename_i h
            subst h
            exact .pure ⟨rfl, .inr ⟨name, opens, passes, rfl⟩⟩
          · exact ctx.refuseTag_yields _ _ _

end OpenBlock

/-! ## Tokens -/

namespace Builder

/-- The builder when it has turned to a delimited token. -/
def facing (b : Builder) (d : Delimited) : Builder :=
  if d.trimLeft then { b with body := b.body.trimLastText } else b

/-- Trimming the text in front of a tag opens and closes nothing. -/
@[simp] theorem frames_facing (b : Builder) (d : Delimited) : (b.facing d).frames = b.frames := by
  unfold facing
  split <;> rfl

/-- Nor does it change what is read. -/
@[simp] theorem mode_facing (b : Builder) (d : Delimited) : (b.facing d).mode = b.mode := by
  unfold facing
  split <;> rfl

/-- Turning to a delimited token succeeds, on its line. -/
theorem turnTo_eq (b : Builder) (d : Delimited) (s : ParseState) :
    b.turnTo d s = (.ok (b.facing d), { s with line := d.line, trimNext := d.trimRight }) :=
  rfl

/-- The builder when a text was added, unless nothing is left of it. -/
def withText (b : Builder) (text : String) : Builder :=
  if text.isEmpty then b else b.push (.text text)

/-- Where a token of a comment leads: how many comments are open inside it then, and whether a raw
block is; nothing if the token ends the comment. -/
def skipped (depth : Nat) (inRaw : Bool) (token : Token) : Option (Nat × Bool) :=
  match tagName? token with
  | none => some (depth, inRaw)
  | some (tag, _) =>
    if inRaw then some (depth, !decide (tag = "endraw"))
    else
      match tag, depth with
      | "raw", _ => some (depth, true)
      | "comment", _ => some (depth + 1, false)
      | "endcomment", depth + 1 => some (depth, false)
      | "endcomment", 0 => none
      | _, _ => some (depth, false)

/-- Only the `endcomment` of the comment itself is not passed over. -/
theorem skipped_eq_none {depth : Nat} {inRaw : Bool} {token : Token}
    (h : skipped depth inRaw token = none) :
    depth = 0 ∧ inRaw = false ∧ ∃ d, tagName? token = some ("endcomment", d) := by
  unfold skipped at h
  -- Of all tags only an `endcomment` at no depth ends the comment.
  split at h
  · exact nomatch h
  · rename_i tag d hsome
    split at h
    · exact nomatch h
    · rename_i hraw
      split at h
      · exact nomatch h
      · exact nomatch h
      · exact nomatch h
      · exact ⟨rfl, Bool.eq_false_iff.mpr hraw, d, hsome⟩
      · exact nomatch h

/-- Outside raw blocks the tags are passed over that have nothing to do with comments. -/
theorem skipped_other (depth : Nat) {token : Token} {tag : String} {d : Delimited}
    (hname : tagName? token = some (tag, d)) (hraw : tag ≠ "raw") (hcomment : tag ≠ "comment")
    (hend : tag ≠ "endcomment") : skipped depth false token = some (depth, false) := by
  rw [skipped, hname]
  dsimp only
  rw [if_neg Bool.false_ne_true]
  -- None of the three names is the one of the tag.
  split
  · exact absurd rfl hraw
  · exact absurd rfl hcomment
  · exact absurd rfl hend
  · exact absurd rfl hend
  · rfl

/-- A tag inside a comment that is none of its kind is skipped. -/
theorem skip_other (b : Builder) (name : String) (depth : Nat) {token : Token} {tag : String}
    {d : Delimited} (hname : tagName? token = some (tag, d)) (hraw : tag ≠ "raw")
    (hcomment : tag ≠ "comment") (hend : tag ≠ "endcomment") :
    b.skip name depth false token = pure b := by
  rw [skip, hname]
  dsimp only
  rw [if_neg Bool.false_ne_true]
  -- None of the three names is the one of the tag.
  split
  · exact absurd rfl hraw
  · exact absurd rfl hcomment
  · exact absurd rfl hend
  · exact absurd rfl hend
  · rfl

/-- A token that is passed over changes nothing but where its comment stands. -/
theorem skip_of_skipped {b : Builder} {name : String} {depth depth' : Nat} {inRaw inRaw' : Bool}
    {token : Token} (hmode : b.mode = .comment name depth inRaw)
    (h : skipped depth inRaw token = some (depth', inRaw')) :
    b.skip name depth inRaw token = pure { b with mode := .comment name depth' inRaw' } := by
  have same : { b with mode := .comment name depth inRaw } = b := by rw [← hmode]
  cases hname : tagName? token with
  | none =>
    rw [skipped, hname] at h
    cases h
    rw [skip, hname, same]
  | some named =>
    obtain ⟨tag, d⟩ := named
    cases inRaw with
    -- Inside a raw block of the comment only its end counts.
    | true =>
      rw [skipped, hname] at h
      cases h
      rw [skip, hname]
      by_cases htag : tag = "endraw"
      · simp [htag]
      · simp [htag, same]
    | false =>
      -- The four kinds of tags that count in a comment.
      by_cases hraw : tag = "raw"
      · subst hraw
        rw [skipped, hname] at h
        cases h
        rw [skip, hname]
        rfl
      by_cases hcomment : tag = "comment"
      · subst hcomment
        rw [skipped, hname] at h
        cases h
        rw [skip, hname]
        rfl
      by_cases hend : tag = "endcomment"
      · subst hend
        rw [skipped, hname] at h
        cases depth with
        -- The end of the whole comment is not skipped.
        | zero => exact nomatch h
        | succ depth =>
          cases h
          rw [skip, hname]
          rfl
      · rw [skipped_other depth hname hraw hcomment hend] at h
        cases h
        rw [skip_other b name depth hname hraw hcomment hend, same]

/-- The end of a comment leaves the comment as a tag, and its own trim marker. -/
theorem skip_of_endcomment (b : Builder) (name : String) {token : Token} {d : Delimited}
    (h : tagName? token = some ("endcomment", d)) :
    b.skip name 0 false token
      = Parse.setTrim d.trimRight >>= fun _ =>
          pure { b.pushTag .comment with mode := .nodes } := by
  rw [skip, h]
  rfl

/-- The text of a raw block, from what was kept: it is trimmed where the tags around it ask for
that. -/
def rawText (trimStart trimEnd : Bool) (text : String) : String :=
  let text := if trimEnd then Text.trimEnd text else text
  if trimStart then Text.trimStart text else text

variable {ctx : ParseContext} {inner : LinesReader}

/-- What a token does to the builder, and to the flag for the next text. -/
inductive Adds (ctx : ParseContext) (inner : LinesReader) :
    Token → Builder → Bool → Builder → Bool → Prop where
  | text {b : Builder} {w : Bool} (hmode : b.mode = .nodes) (text : String) (line : Nat) :
      Adds ctx inner (.text text line) b w
        (b.withText (if w then Text.trimStart text else text)) false
  | output {b : Builder} {w : Bool} (hmode : b.mode = .nodes) (d : Delimited) (p : Pipeline) :
      Adds ctx inner (.output d) b w ((b.facing d).push (.output p)) d.trimRight
  | single {b : Builder} {w : Bool} {d : Delimited} {name args : String} {kind : TagKind}
      {tag : Tag} (hmode : b.mode = .nodes) (hname : tagParts? d.markup = some (name, args))
      (hkind : ctx.registry.tags.get? name = some kind) (htag : kind.Single tag) :
      Adds ctx inner (.tag d) b w ((b.facing d).pushTag tag) d.trimRight
  /-- Lines are read as tags of their own, and may leave the flag as they like. -/
  | lines {b : Builder} {w : Bool} {d : Delimited} {name args : String} {deeper : ParseContext}
      {body : Body} {s t : ParseState} (hmode : b.mode = .nodes)
      (hname : tagParts? d.markup = some (name, args))
      (hkind : ctx.registry.tags.get? name = some .lines)
      (hdeeper : deeper.registry = ctx.registry) (hs : s.trimNext = d.trimRight)
      (line : Option Nat) (hread : inner deeper args (line.getD 1) s = (.ok body, t)) :
      Adds ctx inner (.tag d) b w ((b.facing d).pushTag (.lines body line)) t.trimNext
  | opens {b : Builder} {w : Bool} {d : Delimited} {name args : String} {kind : TagKind}
      {block : OpenBlock} (hmode : b.mode = .nodes)
      (hname : tagParts? d.markup = some (name, args))
      (hkind : ctx.registry.tags.get? name = some kind) (hblock : kind.Opens name block)
      (line : Option Nat) :
      Adds ctx inner (.tag d) b w
        { body := .empty
          frames := { block, line, enclosing := (b.facing d).body } :: b.frames
          mode := .nodes }
        d.trimRight
  | comment {b : Builder} {w : Bool} {d : Delimited} {name args : String}
      (hmode : b.mode = .nodes) (hname : tagParts? d.markup = some (name, args))
      (hkind : ctx.registry.tags.get? name = some .comment) :
      Adds ctx inner (.tag d) b w { b.facing d with mode := .comment name 0 false } d.trimRight
  | raw {b : Builder} {w : Bool} {d : Delimited} {name : String} (hmode : b.mode = .nodes)
      (hname : tagParts? d.markup = some (name, ""))
      (hkind : ctx.registry.tags.get? name = some .raw) :
      Adds ctx inner (.tag d) b w { b.facing d with mode := .raw name d.trimRight "" } false
  | pass {b : Builder} {w : Bool} {d : Delimited} {name args : String} {frame : BlockFrame}
      {frames : List BlockFrame} (hmode : b.mode = .nodes)
      (hname : tagParts? d.markup = some (name, args))
      (hnone : ctx.registry.tags.get? name = none) (hframes : b.frames = frame :: frames)
      (hblock : ∃ block opens passes closes, frame.block = .sections block opens passes closes) :
      Adds ctx inner (.tag d) b w (b.facing d) d.trimRight
  | body {b : Builder} {w : Bool} {d : Delimited} {name args : String} {frame : BlockFrame}
      {frames : List BlockFrame} {block : OpenBlock} (hmode : b.mode = .nodes)
      (hname : tagParts? d.markup = some (name, args))
      (hnone : ctx.registry.tags.get? name = none) (hframes : b.frames = frame :: frames)
      (hblock : frame.block.Turns (!frame.finished.isEmpty) name block) :
      Adds ctx inner (.tag d) b w
        { body := .empty
          frames :=
            { frame with block, finished := frame.finished ++ [(b.facing d).body] } :: frames
          mode := .nodes }
        d.trimRight
  | close {b : Builder} {w : Bool} {d : Delimited} {name args : String} {frame : BlockFrame}
      {frames : List BlockFrame} (hmode : b.mode = .nodes)
      (hname : tagParts? d.markup = some (name, args))
      (hnone : ctx.registry.tags.get? name = none) (hframes : b.frames = frame :: frames)
      (hend : name = "end" ++ frame.block.name
        ∨ ∃ block opens passes, frame.block = .sections block opens passes name) :
      Adds ctx inner (.tag d) b w
        { body := frame.enclosing.push
            (.tag (frame.block.close frame.line (frame.finished ++ [(b.facing d).body])))
          frames
          mode := .nodes }
        d.trimRight
  | skip {b : Builder} {w : Bool} {token : Token} {name : String} {depth depth' : Nat}
      {inRaw inRaw' : Bool} (hmode : b.mode = .comment name depth inRaw)
      (hgo : skipped depth inRaw token = some (depth', inRaw')) :
      Adds ctx inner token b w { b with mode := .comment name depth' inRaw' } w
  | endComment {b : Builder} {w : Bool} {token : Token} {d : Delimited} {name : String}
      (hmode : b.mode = .comment name 0 false) (hend : tagName? token = some ("endcomment", d)) :
      Adds ctx inner token b w { b.pushTag .comment with mode := .nodes } d.trimRight
  | keep {b : Builder} {w : Bool} {token : Token} {name text : String} {trimStart : Bool}
      (hmode : b.mode = .raw name trimStart text)
      (hgo : ∀ d, tagName? token ≠ some ("endraw", d)) :
      Adds ctx inner token b w
        { b with mode := .raw name trimStart (text ++ sourceOf token) } w
  | endRaw {b : Builder} {w : Bool} {token : Token} {d : Delimited} {name text : String}
      {trimStart : Bool} (hmode : b.mode = .raw name trimStart text)
      (hend : tagName? token = some ("endraw", d)) :
      Adds ctx inner token b w
        { b.pushTag (.raw (rawText trimStart d.trimLeft text)) with mode := .nodes } d.trimRight

variable {b : Builder} {w : Bool}

/-- A tag trims the text in front of it, and says whether the next one is trimmed. -/
private theorem turnTo_yields (d : Delimited) :
    (b.turnTo d).Yields w fun b' w' => b' = b.facing d ∧ w' = d.trimRight := by
  refine .after (.setLine _) fun _ => ?_
  exact .bind (.setTrim _) fun _ _ hw => .pure ⟨rfl, hw⟩

/-- A text is added. -/
private theorem addText_yields (hmode : b.mode = .nodes) (text : String) (line : Nat) :
    (b.addText text).Yields w (Adds ctx inner (.text text line) b w) := by
  refine .bind .takeTrim fun trim w' h => ?_
  obtain ⟨rfl, rfl⟩ := h
  exact .pure (.text hmode text line)

/-- An output is added. -/
private theorem addOutput_yields (hmode : b.mode = .nodes) (d : Delimited) :
    (b.addOutput ctx d).Yields w (Adds ctx inner (.output d) b w) := by
  refine .bind (turnTo_yields d) fun b' w' h => ?_
  obtain ⟨rfl, rfl⟩ := h
  refine .bind (.mapError (ctx.pipeline_keepsTrim _ _) _) fun p w' hw => ?_
  subst hw
  exact .pure (.output hmode d p)

/-- A block is opened for a tag that opens it. -/
private theorem openBlock_yields {d : Delimited} {name args : String} {kind : TagKind}
    {block : OpenBlock} (hmode : b.mode = .nodes) (hname : tagParts? d.markup = some (name, args))
    (hkind : ctx.registry.tags.get? name = some kind) (hblock : kind.Opens name block)
    (line : Option Nat) :
    ((b.facing d).openBlock ctx line block).Yields d.trimRight
      (Adds ctx inner (.tag d) b w) := by
  refine .bind (ParseContext.deeper_yields _) fun _ w' h => ?_
  rw [h.2]
  have hadds : Adds ctx inner (.tag d) b w _ _ := .opens hmode hname hkind hblock line
  rw [← hmode, ← mode_facing b d, ← frames_facing b d] at hadds
  exact .pure hadds

private theorem start_yields {d : Delimited} {name args : String} {kind : TagKind}
    (hmode : b.mode = .nodes) (hname : tagParts? d.markup = some (name, args))
    (hkind : ctx.registry.tags.get? name = some kind) :
    ((b.facing d).start ctx inner kind name args).Yields d.trimRight
      (Adds ctx inner (.tag d) b w) := by
  -- Most kinds either open a block or add a tag.
  have opened {block : OpenBlock} (hblock : kind.Opens name block) (line : Option Nat) :
      ((b.facing d).openBlock ctx line block).Yields d.trimRight (Adds ctx inner (.tag d) b w) :=
    openBlock_yields hmode hname hkind hblock line
  have added {tag : Tag} (htag : kind.Single tag) :
      (pure ((b.facing d).pushTag tag) : Parse Builder).Yields d.trimRight
        (Adds ctx inner (.tag d) b w) := .pure (.single hmode hname hkind htag)
  refine .after ctx.currentLine_keepsTrim fun line => .mapError ?_ _
  -- Markup is read first; then the tag is added, or a block for it is opened.
  cases kind with
  | conditional negated =>
    exact .after (ctx.condition_keepsTrim _ _) fun condition => opened (.conditional ..) line
  | choice =>
    exact .after (Expression.parseSubject_keepsTrim ctx _) fun subject => opened (.choice _) line
  | loop => exact .after (LoopHeader.parse_keepsTrim ctx _) fun header => opened (.loop ..) line
  | interrupt interrupt =>
    dsimp only
    split
    · exact ctx.refuse_yields _ _
    · exact added (.interrupt ..)
  | assign =>
    dsimp only
    split
    · exact .after (ctx.pipeline_keepsTrim _) fun source => added (.assign ..)
    · exact ctx.refuse_yields _ _
  | capture =>
    dsimp only
    split
    · exact opened (.capture _) line
    · exact ctx.refuse_yields _ _
  | comment => exact .pure (.comment hmode hname hkind)
  | inlineComment =>
    dsimp only
    split
    · exact added .inlineComment
    · exact ctx.refuse_yields _ _
  | raw =>
    dsimp only
    split
    · rename_i hargs
      -- A raw block notes whether its text is to be trimmed, and takes the flag.
      refine .bind .takeTrim fun trim w' h => ?_
      obtain ⟨rfl, rfl⟩ := h
      exact .pure (.raw hmode (hargs ▸ hname) hkind)
    · exact ctx.refuse_yields _ _
  | echo => exact .after (ctx.pipeline_keepsTrim _) fun source => added (.echo _)
  | lines =>
    refine .bind (ParseContext.deeper_yields _) fun deeper w' h => ?_
    obtain ⟨hdeeper, rfl⟩ := h
    -- The lines leave the flag as their last token does.
    refine .bind .itself fun body w' h => ?_
    obtain ⟨s, t, hs, hread, rfl⟩ := h
    exact .pure (.lines hmode hname hkind hdeeper hs line hread)
  | includePartial =>
    exact .after (PartialCall.parse_keepsTrim ctx _ _) fun call => added (.includePartial ..)
  | renderPartial =>
    dsimp only
    split
    · refine .after (PartialCall.parse_keepsTrim ctx _ _) fun call => ?_
      split
      · exact added (.renderPartial ..)
      · exact ctx.refuse_yields _ _
    · exact ctx.refuse_yields _ _
  | transform f => exact opened (.transform f) line
  | sections first passes closes => exact opened (.sections ..) line
  | counter => exact added (.counter ..)

/-- A tag that no registered kind starts is claimed by the innermost block, or is stray. -/
private theorem handOver_yields {stray : String → Parse Builder} {d : Delimited}
    {name args : String} (hmode : b.mode = .nodes)
    (hname : tagParts? d.markup = some (name, args))
    (hnone : ctx.registry.tags.get? name = none)
    (hstray : (stray name).Yields d.trimRight (Adds ctx inner (.tag d) b w)) :
    ((b.facing d).handOver ctx stray name args).Yields d.trimRight
      (Adds ctx inner (.tag d) b w) := by
  have hfacing := frames_facing b d
  unfold handOver
  split
  · exact hstray
  · rename_i frame frames hframes
    rw [hfacing] at hframes
    have hmode' : (b.facing d).mode = .nodes := (mode_facing b d).trans hmode
    refine .bind (.mapError (frame.block.claim_yields ctx _ name args) _) fun claim w' h => ?_
    obtain ⟨rfl, hclaim⟩ := h
    -- The tag is passed over, starts another body, or closes the block.
    cases claim with
    | pass => exact .pure (.pass hmode hname hnone hframes hclaim)
    | body block =>
      have hadds : Adds ctx inner (.tag d) b w _ _ := .body hmode hname hnone hframes hclaim
      rw [← hmode'] at hadds
      exact .pure hadds
    | close =>
      have hadds : Adds ctx inner (.tag d) b w _ _ := .close hmode hname hnone hframes hclaim
      rw [← hmode'] at hadds
      exact .pure hadds

/-- A tag is started, or handed over. -/
private theorem addTag_yields {stray : String → Parse Builder} (hmode : b.mode = .nodes)
    (hstray : ∀ tag w Q, (stray tag).Yields w Q) (d : Delimited) :
    (b.addTag ctx inner stray d).Yields w (Adds ctx inner (.tag d) b w) := by
  refine .bind (turnTo_yields d) fun b' w' h => ?_
  obtain ⟨rfl, rfl⟩ := h
  -- The markup is no tag, a tag that is registered, or one for the block that is open.
  split
  · exact ctx.refuse_yields _ _
  · rename_i name args hname
    split
    · rename_i kind hkind
      exact start_yields hmode hname hkind
    · rename_i hnone
      exact handOver_yields hmode hname hnone (hstray name _ _)

/-- A token inside a comment. -/
private theorem skip_yields {name : String} {depth : Nat} {inRaw : Bool}
    (hmode : b.mode = .comment name depth inRaw) (token : Token) :
    (b.skip name depth inRaw token).Yields w (Adds ctx inner token b w) := by
  cases h : skipped depth inRaw token with
  | some went =>
    rw [skip_of_skipped hmode h]
    exact .pure (.skip hmode h)
  | none =>
    obtain ⟨rfl, rfl, d, hend⟩ := skipped_eq_none h
    rw [skip_of_endcomment b name hend]
    exact .bind (.setTrim _) fun _ w' hw => hw ▸ .pure (.endComment hmode hend)

/-- A token inside a raw block. -/
private theorem keep_yields {name text : String} {trimStart : Bool}
    (hmode : b.mode = .raw name trimStart text) (token : Token) :
    (b.keep name trimStart text token).Yields w (Adds ctx inner token b w) := by
  unfold keep
  split
  · rename_i d hend
    exact .bind (.setTrim _) fun _ w' hw => hw ▸ .pure (.endRaw hmode hend)
  · rename_i hgo
    exact .pure (.keep hmode hgo)

/-- A token that is added does one of these. -/
theorem add_yields {stray : String → Parse Builder} (hstray : ∀ tag w Q, (stray tag).Yields w Q)
    (token : Token) : (b.add ctx inner stray token).Yields w (Adds ctx inner token b w) := by
  unfold add
  -- A comment, a raw block, or neither.
  split
  · rename_i hmode
    exact skip_yields hmode token
  · rename_i hmode
    exact keep_yields hmode token
  · rename_i hmode
    cases token with
    | text text line => exact addText_yields hmode text line
    | output d => exact addOutput_yields hmode d
    | tag d => exact addTag_yields hmode hstray d

/-- What holds of the tokens that were added, of the builder and of the flag holds of all tokens
when they are added, if each token keeps it. -/
theorem addAll_yields {stray : String → Parse Builder}
    (hstray : ∀ tag w Q, (stray tag).Yields w Q) {I : List Token → Builder → Bool → Prop}
    {tokens : List Token}
    (hadd : ∀ {added b w token b' w'}, token ∈ tokens → I added b w →
      Adds ctx inner token b w b' w' → I (added ++ [token]) b' w')
    (added : List Token) (h : I added b w) :
    (addAll ctx inner stray tokens b).Yields w (I (added ++ tokens)) := by
  -- With each token the invariant is one token further on.
  induction tokens generalizing added b w with
  | nil =>
    rw [List.append_nil]
    exact .pure h
  | cons token tokens ih =>
    refine .bind (add_yields hstray token) fun b' w' hb => ?_
    rw [List.append_cons]
    exact ih (fun hmem => hadd (List.mem_cons_of_mem _ hmem)) _ (hadd (List.mem_cons_self ..) h hb)

/-- The finished body is that of a builder with nothing open. -/
theorem finish_yields :
    (b.finish ctx).Yields w fun body w' =>
      body = b.body ∧ b.frames = [] ∧ b.mode = .nodes ∧ w' = w := by
  unfold finish
  split
  · exact ctx.refuse_yields _ _
  · exact ctx.refuse_yields _ _
  · exact ctx.refuse_yields _ _
  · rename_i hmode hframes
    exact .pure ⟨rfl, hframes, hmode, rfl⟩

end Builder

/-- A delimiter without an end yields nothing at all. -/
theorem Document.refuseUnterminated_yields {w : Bool} {Q : Document → Bool → Prop}
    (ctx : ParseContext) (u : Unterminated) : (refuseUnterminated ctx u).Yields w Q := by
  refine .after (.setLine _) fun _ => ?_
  split <;> exact ctx.refuse_yields _ _

end Stencil
