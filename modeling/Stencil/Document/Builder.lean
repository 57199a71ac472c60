import Stencil.Document.Header
import Stencil.Token

/-! # Building documents

A document grows token by token.  The builder keeps the body that is being filled and, for every
block that is open, what was read of it so far; a tag that nobody registered goes to the innermost
open block, which may end, open a further body or refuse it.  Between the tags of a comment or a
raw block, tokens are not read at all.

A tag whose lines are tags of their own is read by a builder of its own, one level deeper.

* `Builder.addAll_append`: tokens can be added in any number of portions. -/

namespace Stencil

/-- What is known of a block before its end. -/
inductive OpenBlock where
  /-- `conditions` has one for each body so far. -/
  | conditional (name : String) (negated : Bool) (conditions : List Condition)
  /-- `heads` has one for each body but the first: its condition, or nothing if it is for when none
  held before. -/
  | choice (name : String) (subject : Expression) (heads : List (Option Condition))
  | loop (name position : String) (header : LoopHeader)
  | capture (name target : String)
  | transform (name : String) (f : String → String)
  | sections (name opens passes closes : String)

/-- A block that is open. -/
structure BlockFrame where
  block : OpenBlock
  /-- The line of the tag that opened it. -/
  line : Option Nat
  /-- The bodies before the one that is being filled. -/
  finished : List Body := []
  /-- The body that the block is a part of. -/
  enclosing : Body

/-- How the next token is taken. -/
inductive ReadingMode where
  | nodes
  /-- Passed over as part of a comment, with `depth` comments open inside it, and perhaps a raw
  block. -/
  | comment (name : String) (depth : Nat) (inRaw : Bool)
  /-- Kept as it is; `text` is what was kept so far. -/
  | raw (name : String) (trimStart : Bool) (text : String)

/-- A document that is being built. -/
structure Builder where
  /-- The body that is being filled. -/
  body : Body := .empty
  /-- The open blocks, the innermost first. -/
  frames : List BlockFrame := []
  mode : ReadingMode := .nodes

/-! ## Errors -/

namespace ParseContext

/-- Refuses a tag that the block does not know; `delimiter` is what would end the block. -/
def refuseTag {α : Type} (ctx : ParseContext) (block delimiter tag : String) : Parse α :=
  if tag = "else" then ctx.refuse "errors.syntax.unexpected_else" [("block_name", block)]
  -- The end of another block, or a tag that only looks like an end.
  else if ['e', 'n', 'd'].isPrefixOf tag.toList then
    ctx.refuse "errors.syntax.invalid_delimiter"
      [("tag", tag), ("block_name", block), ("block_delimiter", delimiter)]
  else ctx.refuse "errors.syntax.unknown_tag" [("tag", tag)]

/-- Refuses a tag that the block `block` does not know. -/
def refuseTagIn {α : Type} (ctx : ParseContext) (block tag : String) : Parse α :=
  ctx.refuseTag block ("end" ++ block) tag

/-- Refuses a tag that is unknown outside all blocks. -/
def refuseOuterTag {α : Type} (ctx : ParseContext) (tag : String) : Parse α :=
  if tag = "else" ∨ tag = "end" then
    ctx.refuse "errors.syntax.unexpected_outer_tag" [("tag", tag)]
  else ctx.refuse "errors.syntax.unknown_tag" [("tag", tag)]

/-- Refuses a block without an end. -/
def refuseUnclosed {α : Type} (ctx : ParseContext) (block : String) : Parse α :=
  ctx.refuse "errors.syntax.tag_never_closed" [("block_name", block)]

end ParseContext

/-! ## Blocks -/

namespace OpenBlock

/-- The name that ends the block after `end`. -/
def name : OpenBlock → String
  | conditional name .. => name
  | choice name .. => name
  | loop name .. => name
  | capture name _ => name
  | transform name _ => name
  | sections name .. => name

/-- What a block makes of a tag that nobody registered. -/
inductive Claim where
  /-- The current body goes on. -/
  | pass
  /-- A new body starts, and this is known of the block now. -/
  | body (block : OpenBlock)
  /-- The block ends. -/
  | close

/-- What the block makes of a tag, where `finished` says whether it has a body before the current
one. -/
def claim (ctx : ParseContext) (block : OpenBlock) (finished : Bool) (tag args : String) :
    Parse Claim :=
  if tag = "end" ++ block.name then pure .close
  else
    match block with
    | conditional name negated conditions =>
      match tag with
      | "elsif" => do
        let condition ← ctx.condition "if" args
        return .body (.conditional name negated (conditions ++ [condition]))
      | "else" => return .body (.conditional name negated (conditions ++ [.always]))
      | _ => ctx.refuseTagIn name tag
    | choice name subject heads =>
      match tag with
      | "when" => do
        let condition ← Condition.parseValues ctx subject args
        return .body (.choice name subject (heads ++ [some condition]))
      | "else" =>
        if ctx.mode = .strict ∧ args ≠ "" then ctx.refuse "errors.syntax.case_invalid_else"
        else return .body (.choice name subject (heads ++ [none]))
      | _ => ctx.refuseTagIn name tag
    | loop name .. =>
      -- A loop takes one `else`, and only behind its first body.
      if tag = "else" ∧ finished = false then return .body block else ctx.refuseTagIn name tag
    | sections name opens passes closes =>
      if tag = opens then return .body block
      else if tag = passes then return .pass
      else if tag = closes then return .close
      else ctx.refuseTagIn name tag
    | capture name _ | transform name _ => ctx.refuseTagIn name tag

/-- The bodies without their texts if all of them are blank, and whether they are. -/
def elide (bodies : List Body) : List Body × Bool :=
  let blank := bodies.all Body.isBlank
  (if blank then bodies.map Body.withoutTexts else bodies, blank)

/-- The arm of a choice. -/
def arm (head : Option Condition) (body : Body) : Arm :=
  match head with
  | some condition => .when condition body
  | none => .otherwise body

/-- The finished tag.  What comes before the first arm of a choice is never rendered, but it
counts when it is asked whether the tag is blank. -/
def close (block : OpenBlock) (line : Option Nat) (bodies : List Body) : Tag :=
  match block with
  | conditional name negated conditions =>
    let (bodies, blank) := elide bodies
    .conditional name negated (List.zipWith .mk conditions bodies) line blank
  | choice _ _ heads =>
    let (bodies, blank) := elide bodies
    -- The body in front of the first arm is dropped here.
    .choice (List.zipWith arm heads (bodies.drop 1)) line blank
  | loop _ position header =>
    let (bodies, blank) := elide bodies
    .loop position header (bodies.headD .empty) bodies[1]? line blank
  | capture _ target => .capture target (bodies.headD .empty) line
  | transform name f => .transform name f (bodies.headD .empty)
  | sections name .. =>
    let (bodies, blank) := elide bodies
    .sections name bodies blank

end OpenBlock

/-! ## Tokens -/

/-- Reads text whose lines are tags, the first of which has the given number. -/
abbrev LinesReader := ParseContext → String → Nat → Parse Body

namespace Builder

/-- Adds a node to the current body. -/
def push (b : Builder) (node : Node) : Builder :=
  { b with body := b.body.push node }

/-- Adds a tag to the current body. -/
def pushTag (b : Builder) (tag : Tag) : Builder :=
  b.push (.tag tag)

/-- The line of the innermost open block. -/
def openLine (b : Builder) : Option Nat :=
  b.frames.head?.bind BlockFrame.line

/-- The context at the current depth. -/
def contextAt (ctx : ParseContext) (b : Builder) : ParseContext :=
  { ctx with depth := ctx.depth + b.frames.length }

/-- Opens a block, unless blocks are nested too deep. -/
def openBlock (ctx : ParseContext) (b : Builder) (line : Option Nat) (block : OpenBlock) :
    Parse Builder := do
  -- Asked for the refusal only; the depth is told by the number of frames.
  let _ ← (b.contextAt ctx).deeper
  return { b with body := .empty, frames := { block, line, enclosing := b.body } :: b.frames }

/-- Adds what a registered tag starts with: the whole tag, or the block that it opens.  An error
without a line gets that of the tag. -/
def start (ctx : ParseContext) (inner : LinesReader) (b : Builder) (kind : TagKind)
    (name args : String) : Parse Builder := do
  let line ← ctx.currentLine
  Attempt.mapError (·.atLine line) <|
    match kind with
    | .conditional negated => do
      let condition ← ctx.condition "if" args
      b.openBlock ctx line (.conditional name negated [condition])
    | .choice => do
      let subject ← Expression.parseSubject ctx args
      b.openBlock ctx line (.choice name subject [])
    | .loop => do
      let header ← LoopHeader.parse ctx args
      b.openBlock ctx line (.loop name (header.positionName args) header)
    | .interrupt interrupt =>
      if ctx.mode = .strict ∧ args ≠ "" then
        ctx.refuse "errors.syntax.tag_unexpected_args" [("tag", name)]
      else return b.pushTag (.interrupt interrupt line)
    | .assign =>
      match assignmentParts? args with
      | some (target, source) => do
        let source ← ctx.pipeline source
        return b.pushTag (.assign target source line)
      | none => ctx.refuse "errors.syntax.assign"
    | .capture =>
      match captureTarget? args with
      | some target => b.openBlock ctx line (.capture name target)
      | none => ctx.refuse "errors.syntax.capture"
    -- Its tokens are passed over, so the tag is pushed when the end is met.
    | .comment => return { b with mode := .comment name 0 false }
    | .inlineComment =>
      if isInlineComment args then return b.pushTag .inlineComment
      else ctx.refuse "errors.syntax.inline_comment_invalid"
    | .raw =>
      if args = "" then do
        -- The text is read later, but what asks for its start to be trimmed is this tag.
        let trimStart ← Parse.takeTrim
        return { b with mode := .raw name trimStart "" }
      else ctx.refuse "errors.syntax.tag_unexpected_args" [("tag", name)]
    | .echo => do
      let source ← ctx.pipeline args
      return b.pushTag (.echo source)
    | .lines => do
      let deeper ← (b.contextAt ctx).deeper
      -- The lines count from the line of the tag, or from 1 where lines are not kept.
      let body ← inner deeper args (line.getD 1)
      return b.pushTag (.lines body line)
    | .includePartial => do
      let call ← PartialCall.parse ctx "errors.syntax.include" args
      return b.pushTag (.includePartial call line)
    | .renderPartial =>
      -- A name that is computed is refused before the call is read.
      match lexLax args with
      | .str _ :: _ => do
        let call ← PartialCall.parse ctx "errors.syntax.render" args
        match call.literalName? with
        | some template => return b.pushTag (.renderPartial template call line)
        | none => ctx.refuse "errors.syntax.render"
      | _ => ctx.refuse "errors.syntax.render"
    | .transform f => b.openBlock ctx line (.transform name f)
    | .sections opens passes closes => b.openBlock ctx line (.sections name opens passes closes)
    | .counter => return b.pushTag (.counter name args)

/-- Gives a tag that nobody registered to the innermost open block.  An error without a line gets
that of the block.  Outside all blocks, `stray` refuses it. -/
def handOver (ctx : ParseContext) (stray : String → Parse Builder) (b : Builder)
    (tag args : String) : Parse Builder :=
  match b.frames with
  | [] => stray tag
  | frame :: frames => do
    let claim ← Attempt.mapError (·.atLine frame.line)
      (frame.block.claim ctx (!frame.finished.isEmpty) tag args)
    match claim with
    | .pass => return b
    | .body block =>
      let frame := { frame with block, finished := frame.finished ++ [b.body] }
      return { b with body := .empty, frames := frame :: frames }
    | .close =>
      let tag := frame.block.close frame.line (frame.finished ++ [b.body])
      -- The body that the block is a part of is filled on.
      return { b with body := frame.enclosing.push (.tag tag), frames }

/-- Adds a text, without the blank characters at its start if the token before asked for that. -/
def addText (b : Builder) (text : String) : Parse Builder := do
  let trim ← Parse.takeTrim
  let text := if trim then Text.trimStart text else text
  -- A text that was trimmed away leaves no node.
  return if text.isEmpty then b else b.push (.text text)

/-- Turns to a delimited token: sets the line and trims on both sides as the token asks. -/
def turnTo (b : Builder) (d : Delimited) : Parse Builder := do
  Parse.setLine d.line
  Parse.setTrim d.trimRight
  -- What this token asks for on its left is behind us already.
  return if d.trimLeft then { b with body := b.body.trimLastText } else b

/-- Adds an output. -/
def addOutput (ctx : ParseContext) (b : Builder) (d : Delimited) : Parse Builder := do
  let b ← b.turnTo d
  let pipeline ← Attempt.mapError (·.atLine b.openLine) (ctx.pipeline d.markup)
  return b.push (.output pipeline)

/-- Adds a tag. -/
def addTag (ctx : ParseContext) (inner : LinesReader) (stray : String → Parse Builder)
    (b : Builder) (d : Delimited) : Parse Builder := do
  let b ← b.turnTo d
  match tagParts? d.markup with
  | none => ctx.refuse "errors.syntax.tag_termination" [("token", d.source), ("tag_end", "%\x7d")]
  | some (name, args) =>
    match ctx.registry.tags.get? name with
    | some kind => b.start ctx inner kind name args
    | none => b.handOver ctx stray name args

/-- The name of a token that is a tag, with its trim markers. -/
def tagName? : Token → Option (String × Delimited)
  | .tag d => (tagParts? d.markup).map fun (name, _) => (name, d)
  | _ => none

theorem tagName?_eq_some_iff {token : Token} {name : String} {d : Delimited} :
    tagName? token = some (name, d)
      ↔ token = .tag d ∧ ∃ args, tagParts? d.markup = some (name, args) := by
  cases token with
  | text text line => exact ⟨nofun, fun h => nomatch h.1⟩
  | output d' => exact ⟨nofun, fun h => nomatch h.1⟩
  | tag d' =>
    constructor
    · intro h
      obtain ⟨⟨name', args⟩, hparts, hpair⟩ := Option.map_eq_some_iff.mp h
      obtain ⟨rfl, rfl⟩ := Prod.mk.inj hpair
      exact ⟨rfl, args, hparts⟩
    · rintro ⟨htoken, args, hparts⟩
      cases htoken
      exact Option.map_eq_some_iff.mpr ⟨(name, args), hparts, rfl⟩

/-- Passes over a token of a comment.  Comments nest; inside a raw block only its end counts. -/
def skip (b : Builder) (name : String) (depth : Nat) (inRaw : Bool) (token : Token) :
    Parse Builder :=
  match tagName? token with
  | none => return b
  | some (tag, d) =>
    if inRaw then
      -- Ends of comments do not count in here.
      return if tag = "endraw" then { b with mode := .comment name depth false } else b
    else
      match tag, depth with
      | "raw", _ => return { b with mode := .comment name depth true }
      | "comment", _ => return { b with mode := .comment name (depth + 1) false }
      | "endcomment", depth + 1 => return { b with mode := .comment name depth false }
      | "endcomment", 0 => do
        Parse.setTrim d.trimRight
        -- The end of the outermost comment, so the tag is complete.
        return { b.pushTag .comment with mode := .nodes }
      | _, _ => return b

/-- The source of a token. -/
def sourceOf : Token → String
  | .text text _ => text
  | .output d | .tag d => d.source

/-- Keeps a token of a raw block as it is, up to the tag that ends the block. -/
def keep (b : Builder) (name : String) (trimStart : Bool) (text : String) (token : Token) :
    Parse Builder :=
  match tagName? token with
  | some ("endraw", d) => do
    Parse.setTrim d.trimRight
    let text := if d.trimLeft then Text.trimEnd text else text
    let text := if trimStart then Text.trimStart text else text
    return { b.pushTag (.raw text) with mode := .nodes }
  | _ => return { b with mode := .raw name trimStart (text ++ sourceOf token) }

/-- Adds a token. -/
def add (ctx : ParseContext) (inner : LinesReader) (stray : String → Parse Builder) (b : Builder)
    (token : Token) : Parse Builder :=
  match b.mode with
  | .comment name depth inRaw => b.skip name depth inRaw token
  | .raw name trimStart text => b.keep name trimStart text token
  | .nodes =>
    match token with
    | .text text _ => b.addText text
    | .output d => b.addOutput ctx d
    | .tag d => b.addTag ctx inner stray d

/-- Adds tokens in order. -/
def addAll (ctx : ParseContext) (inner : LinesReader) (stray : String → Parse Builder) :
    List Token → Builder → Parse Builder
  | [], b => pure b
  | token :: tokens, b => do
    let b ← b.add ctx inner stray token
    addAll ctx inner stray tokens b

/-- The finished body.  Nothing may be open. -/
def finish (ctx : ParseContext) (b : Builder) : Parse Body :=
  match b.mode, b.frames with
  | .comment name .., _ => ctx.refuseUnclosed name
  | .raw name .., _ => ctx.refuseUnclosed name
  | .nodes, frame :: _ => ctx.refuseUnclosed frame.block.name
  | .nodes, [] => pure b.body

/-- Tokens can be added in any number of portions. -/
theorem addAll_append (ctx : ParseContext) (inner : LinesReader) (stray : String → Parse Builder)
    (tokens tokens' : List Token) (b : Builder) :
    addAll ctx inner stray (tokens ++ tokens') b
      = addAll ctx inner stray tokens b >>= addAll ctx inner stray tokens' := by
  induction tokens generalizing b with
  | nil => rfl
  | cons token tokens ih => simp [addAll, ih]

end Builder

/-! ## Documents -/

/-- Reads text whose lines are tags; `levels` bounds how deep such texts are nested. -/
def Body.parseLines : (levels : Nat) → LinesReader
  | 0 => fun _ _ _ => Attempt.fail .tooDeep
  | levels + 1 => fun ctx markup line => do
    -- Outside all blocks a tag is refused as if the `liquid` tag were a block.
    let stray := fun tag => ctx.refuseTag "liquid" "%\x7d" tag
    let tokens := (TokenStream.ofLines markup line).tokens
    let b ← Builder.addAll ctx (Body.parseLines levels) stray tokens {}
    b.finish ctx

namespace Document

/-- Refuses a delimiter without an end. -/
def refuseUnterminated {α : Type} (ctx : ParseContext) (u : Unterminated) : Parse α := do
  Parse.setLine u.line
  match u.delimiter with
  | .output =>
    ctx.refuse "errors.syntax.variable_termination" [("token", u.source), ("tag_end", "\x7d\x7d")]
  | .tag =>
    ctx.refuse "errors.syntax.tag_termination" [("token", u.source), ("tag_end", "%\x7d")]

/-- The document of a token stream. -/
def ofStream (ctx : ParseContext) (stream : TokenStream) : Parse Document := do
  -- Each level of lines takes one of the levels of blocks that are left.
  let levels := ctx.registry.nestingLimit - ctx.depth
  let b ← Builder.addAll ctx (Body.parseLines levels) ctx.refuseOuterTag stream.tokens {}
  let body ← b.finish ctx
  -- A block that is still open is reported before an opener without a closer.
  match stream.unterminated with
  | some u => refuseUnterminated ctx u
  | none => return body

/-- The document of a template.  Errors carry the template's name. -/
def parse (ctx : ParseContext) (source : String) : Parse Document :=
  Attempt.mapError (·.inTemplate ctx.template) (ofStream ctx (.ofSource source))

end Document

end Stencil
