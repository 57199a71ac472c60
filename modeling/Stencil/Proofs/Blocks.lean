import Stencil.Proofs.Outcome
import Stencil.Proofs.Padding
import Stencil.Proofs.Reading
import Stencil.Proofs.Written

/-!
# Blocks are read as they were written

A template that is written down from a tree is read as the document that the tree stands for, if
its markup is accepted and no block is nested deeper than the registry allows; a block that is
nested deeper is an error.

The builder reads the pieces of a tree one after the other. `Parse.Reads fits x a` says of a
reading that it gives `a` if `fits`, and that something is nested too deep otherwise; readings in
sequence fit if each of them does. So the proof follows the tree: each piece of a block opens it,
goes on to its next body or closes it, and the bodies between them are added node by node.

## Key results

- `Parse.Reads`: how a reading goes, closed under sequencing
- `Written.Items.reads`: the pieces of a tree add its nodes
- `Document.parse_written`: a whole template
-/

namespace Stencil

open Attempt

/-! ## How a reading goes -/

namespace Parse

variable {α β : Type} {fits more : Prop} {x : Parse α}

/-- The reading gives `a` if that `fits`; otherwise something is nested too deep. Text that comes
next is left as it is. -/
structure Reads (fits : Prop) (x : Parse α) (a : α) : Prop where
  gives : fits → ∀ s, s.trimNext = false → ∃ t, t.trimNext = false ∧ x s = (.ok a, t)
  tooDeep : ¬ fits → ∀ s, s.trimNext = false → ∃ e t, x s = (.error e, t) ∧ e.kind = .stackLevel

namespace Reads

/-- How much room is needed may be said in another way. -/
theorem congr {a : α} (h : Reads fits x a) (hfits : fits ↔ more) : Reads more x a :=
  propext hfits ▸ h

/-- A reading that always fits. -/
theorem of_gives {a : α}
    (h : ∀ s, s.trimNext = false → ∃ t, t.trimNext = false ∧ x s = (.ok a, t)) :
    Reads True x a where
  gives _ := h
  tooDeep hn := absurd trivial hn

/-- Nothing is read, so there is always room. -/
theorem pure (a : α) : Reads True (Pure.pure a : Parse α) a :=
  of_gives fun s hs => ⟨s, hs, rfl⟩

/-- The second reading is only asked whether it fits if the first one does. -/
theorem bind {f : α → Parse β} {a : α} {b : β} (hx : Reads fits x a)
    (hf : Reads more (f a) b) : Reads (fits ∧ more) (x >>= f) b where
  gives h s hs := by
    obtain ⟨t, ht, hread⟩ := hx.gives h.1 s hs
    obtain ⟨u, hu, hmore⟩ := hf.gives h.2 t ht
    exact ⟨u, hu, (bind_of_ok hread f).trans hmore⟩
  tooDeep h s hs := by
    -- What does not fit into both is refused by the first step that it does not fit into.
    by_cases hfits : fits
    · obtain ⟨t, ht, hread⟩ := hx.gives hfits s hs
      obtain ⟨e, u, hmore, he⟩ := hf.tooDeep (fun hmore => h ⟨hfits, hmore⟩) t ht
      exact ⟨e, u, (bind_of_ok hread f).trans hmore, he⟩
    · obtain ⟨e, t, hread, he⟩ := hx.tooDeep hfits s hs
      exact ⟨e, t, bind_of_error hread f, he⟩

/-- A reading that always fits is followed by another one. -/
theorem after {f : α → Parse β} {a : α} {b : β} (hx : Reads True x a) (hf : Reads fits (f a) b) :
    Reads fits (x >>= f) b :=
  (hx.bind hf).congr (by simp)

/-- The place of an error may be noted. -/
theorem mapError {a : α} {g : Error → Error} (hx : Reads fits x a)
    (hg : ∀ e, (g e).kind = e.kind) : Reads fits (Attempt.mapError g x) a where
  gives h s hs := by
    obtain ⟨t, ht, hread⟩ := hx.gives h s hs
    exact ⟨t, ht, by rw [Attempt.mapError, hread]⟩
  tooDeep h s hs := by
    obtain ⟨e, t, hread, he⟩ := hx.tooDeep h s hs
    exact ⟨g e, t, by rw [Attempt.mapError, hread], (hg e).trans he⟩

/-- The line of an error does not change its kind. -/
theorem atLine {a : α} (hx : Reads fits x a) (line : Option Nat) :
    Reads fits (Attempt.mapError (·.atLine line) x) a :=
  hx.mapError fun e => e.kind_atLine line

end Reads

end Parse

open Parse

/-- Markup that is accepted once is accepted whatever was read before. -/
theorem ParseContext.withMode_reads {α : Type} (ctx : ParseContext)
    {strict lax : String → Except Error α} {markup : String} {a : α}
    (h : (ctx.withMode strict lax markup {}).1 = .ok a) :
    Reads True (ctx.withMode strict lax markup) a := by
  refine .of_gives fun s hs => ?_
  unfold withMode at h ⊢
  cases hmode : ctx.mode with
  | lax =>
    rw [hmode] at h
    exact ⟨s, hs, Prod.ext h rfl⟩
  | strict =>
    rw [hmode] at h
    cases hstrict : strict markup with
    | ok b =>
      rw [hstrict] at h
      exact ⟨s, hs, Prod.ext h rfl⟩
    | error e =>
      rw [hstrict] at h
      exact nomatch h
  -- A warning is recorded, but what is read is the same.
  | warn =>
    rw [hmode] at h
    cases hstrict : strict markup with
    | ok b =>
      rw [hstrict] at h
      exact ⟨s, hs, Prod.ext h rfl⟩
    | error e =>
      rw [hstrict] at h
      let warning := (e.atLine (ctx.lineOf s)).inTemplate ctx.template
      exact ⟨{ s with warnings := s.warnings.push warning }, hs, Prod.ext h rfl⟩

/-- The markup of an output on the given line. -/
def ParseContext.pipelineAt (ctx : ParseContext) (line : Nat) (markup : String) :
    Parse Pipeline := do
  let p ← ctx.withMode Pipeline.readStrict Pipeline.readLax markup
  return { p with line := Written.keptLine ctx.lines line }

/-! ## Builders -/

namespace Builder

/-- The builder with a block open in it, the last body of which is being filled. -/
def within (b : Builder) (block : OpenBlock) (line : Option Nat) (bodies : List Body) : Builder :=
  { b with
    body := bodies.getLastD .empty
    frames := { block, line, finished := bodies.dropLast, enclosing := b.body } :: b.frames }

/-- The builder with more nodes in the current body. -/
def addNodes (b : Builder) (nodes : List Node) : Builder :=
  { b with body := .mk (b.body.nodes ++ nodes) (b.body.isBlank && nodes.all Node.isBlank) }

/-- How many levels deeper blocks may be nested. -/
def room (ctx : ParseContext) (b : Builder) : Nat :=
  ctx.registry.nestingLimit - (ctx.depth + b.frames.length)

variable {ctx : ParseContext} {inner : LinesReader} {stray : String → Parse Builder} {b : Builder}

/-- A block that is open takes one level away. -/
@[simp] theorem room_within (block : OpenBlock) (line : Option Nat) (bodies : List Body) :
    (b.within block line bodies).room ctx = b.room ctx - 1 := by
  simp only [room, within, List.length_cons]
  omega

/-- The last body of an open block is the one that is added to. -/
theorem within_concat (block : OpenBlock) (line : Option Nat) (finished : List Body)
    (body : Body) :
    b.within block line (finished ++ [body])
      = { b with body, frames := { block, line, finished, enclosing := b.body } :: b.frames } := by
  simp [within]

/-- A node opens nothing. -/
@[simp] theorem room_push (node : Node) : (b.push node).room ctx = b.room ctx := rfl

/-- Without nodes nothing is added. -/
@[simp] theorem addNodes_nil : b.addNodes [] = b := by
  obtain ⟨⟨nodes, blank⟩, frames, mode⟩ := b
  simp [addNodes, Body.nodes, Body.isBlank]

/-- Nodes are added one after the other. -/
theorem addNodes_push (node : Node) (nodes : List Node) :
    (b.push node).addNodes nodes = b.addNodes (node :: nodes) := by
  simp [addNodes, push, Bool.and_assoc]

/-- Nodes go into the last body of the open block. -/
theorem addNodes_within (block : OpenBlock) (line : Option Nat) (bodies : List Body)
    (nodes : List Node) :
    (b.within block line (bodies ++ [.empty])).addNodes nodes
      = b.within block line (bodies ++ [Written.bodyOf nodes]) := by
  rw [within_concat, within_concat]
  simp [addNodes, Written.bodyOf, Body.empty, Body.nodes, Body.isBlank]

/-- A block can be opened if there is room for one more level. -/
theorem openBlock_reads (line : Option Nat) (block : OpenBlock) :
    Reads (1 ≤ b.room ctx) (b.openBlock ctx line block) (b.within block line [.empty]) where
  gives h s hs := by
    -- There is room for a block below the limit of nesting,
    have hlimit : ¬ ctx.registry.nestingLimit ≤ ctx.depth + b.frames.length := by
      unfold room at h
      omega
    refine ⟨s, hs, ?_⟩
    unfold openBlock
    rw [bind_apply, ParseContext.deeper, contextAt, if_neg hlimit]
    rfl
  tooDeep h s hs := by
    -- and none at it.
    have hlimit : ctx.registry.nestingLimit ≤ ctx.depth + b.frames.length := by
      unfold room at h
      omega
    refine ⟨_, s, ?_, Error.kind_atLine .tooDeep ((b.contextAt ctx).lineOf s)⟩
    unfold openBlock
    rw [bind_apply, ParseContext.deeper, contextAt, if_pos hlimit]

/-! ### Pieces -/

open Written

/-- Turning to a tag that has no trim markers. -/
def turned {α : Type} (line : Nat) (x : Parse α) : Parse α := do
  setLine line
  setTrim false
  x

/-- Setting the line and the trim flag first makes no difference to what is read. -/
theorem turned_reads {α : Type} {fits : Prop} {x : Parse α} {a : α} (line : Nat)
    (h : Reads fits x a) : Reads fits (turned line x) a := by
  refine .after (a := ()) (.of_gives fun s hs => ⟨{ s with line }, hs, rfl⟩) ?_
  exact .after (a := ()) (.of_gives fun s _ => ⟨_, rfl, rfl⟩) h

/-- The line of the tag that was turned to is known. -/
theorem turned_currentLine {α : Type} (line : Nat) (f : Option Nat → Parse α) :
    turned line (ctx.currentLine >>= f) = turned line (f (keptLine ctx.lines line)) := rfl

/-- Only the line matters of what was read before. -/
theorem turned_congr {α : Type} {line : Nat} {x y : Parse α} (h : ∀ s, s.line = line → x s = y s) :
    turned line x = turned line y :=
  funext fun _ => h _ rfl

/-- On a line, the markup of an output is read with that line. -/
theorem pipeline_of_line {s : ParseState} {line : Nat} (hs : s.line = line) (markup : String) :
    ctx.pipeline markup s = ctx.pipelineAt line markup s := by
  rw [ParseContext.pipeline_eq, ← hs]
  rfl

/-- Blanks around the markup of an output make no difference. -/
theorem pipelineAt_padded (line : Nat) (markup : String) :
    ctx.pipelineAt line (" " ++ markup ++ " ") = ctx.pipelineAt line markup := by
  unfold ParseContext.pipelineAt ParseContext.withMode
  rw [Pipeline.readStrict_padded, Pipeline.readLax_padded]

/-- Markup that is accepted is read on every line. -/
theorem pipelineAt_reads {markup : String} {p : Pipeline}
    (h : (Markup.mk markup p).IsReadBy (ctx.withMode Pipeline.readStrict Pipeline.readLax))
    (line : Nat) :
    Reads True (ctx.pipelineAt line markup) { p with line := keptLine ctx.lines line } :=
  .after (ctx.withMode_reads h) (.pure _)

/-- A tag is looked up by its name. -/
theorem add_tag (hmode : b.mode = .nodes) {inside name args : String}
    (hparts : tagParts? (" " ++ inside ++ " ") = some (name, args)) (line : Nat) :
    b.add ctx inner stray ((Piece.delimited .tag inside).token line)
      = turned line (match ctx.registry.tags.get? name with
          | some kind => b.start ctx inner kind name args
          | none => b.handOver ctx stray name args) := by
  unfold add
  rw [hmode]
  show b.addTag ctx inner stray _ = _
  simp only [addTag, turnTo, bind_assoc, hparts]
  rfl

/-- No standard tag has the name that ends a block. -/
theorem end_unregistered : ∀ name ∈ blockNames, TagKind.standard.get? ("end" ++ name) = none := by
  decide

/-- The names that are written are names of tags. -/
theorem isTagName_of_mem : ∀ name ∈ tagNames, isTagName name = true := by
  decide +kernel

variable (hknown : ctx.registry.KnowsBlocks) (hmode : b.mode = .nodes)

include hknown hmode

/-- A tag that is registered starts something. -/
theorem add_registered {name markup : String} {kind : TagKind} (hname : name ∈ tagNames)
    (hkind : TagKind.standard.get? name = some kind) (line : Nat) :
    b.add ctx inner stray ((Piece.tag name markup).token line)
      = turned line (b.start ctx inner kind name (Text.trim markup)) := by
  have hparts := tagParts?_padded (isTagName_of_mem name hname) markup
  rw [Piece.tag, add_tag hmode hparts, hknown name hname, hkind]

/-- A tag that is not registered is handed to the innermost block. -/
theorem add_unregistered {name markup : String} (hname : name ∈ tagNames)
    (hkind : TagKind.standard.get? name = none) (line : Nat) :
    b.add ctx inner stray ((Piece.tag name markup).token line)
      = turned line (b.handOver ctx stray name (Text.trim markup)) := by
  have hparts := tagParts?_padded (isTagName_of_mem name hname) markup
  rw [Piece.tag, add_tag hmode hparts, hknown name hname, hkind]

/-- So is one without arguments. -/
theorem add_bare {name : String} (hname : name ∈ tagNames)
    (hkind : TagKind.standard.get? name = none) (line : Nat) :
    b.add ctx inner stray ((Piece.bareTag name).token line)
      = turned line (b.handOver ctx stray name "") := by
  have hparts := tagParts?_bare (isTagName_of_mem name hname)
  rw [Piece.bareTag, add_tag hmode hparts, hknown name hname, hkind]

/-! ### Blocks are opened -/

/-- A conditional opens a block with its first condition. -/
theorem add_conditional_reads (negated : Bool) {m : Markup Condition}
    (hm : m.IsReadBy fun text => ctx.condition "if" (Text.trim text)) (line : Nat) :
    Reads (1 ≤ b.room ctx)
      (b.add ctx inner stray ((Piece.tag (conditionalName negated) m.text).token line))
      (b.within (.conditional (conditionalName negated) negated [m.value])
        (keptLine ctx.lines line) [.empty]) := by
  -- Both names are registered, and for the same kind of tag.
  have hname : conditionalName negated ∈ tagNames := by
    cases negated <;> decide
  have hkind : TagKind.standard.get? (conditionalName negated) = some (.conditional negated) := by
    cases negated <;> rfl
  rw [add_registered hknown hmode hname hkind, start, turned_currentLine]
  refine turned_reads line (.atLine ?_ _)
  exact .after (ctx.withMode_reads hm) (openBlock_reads _ _)

/-- A loop opens a block with its header. -/
theorem add_loop_reads {m : Markup LoopHeader}
    (hm : m.IsReadBy fun text => LoopHeader.parse ctx (Text.trim text)) (line : Nat) :
    Reads (1 ≤ b.room ctx) (b.add ctx inner stray ((Piece.tag "for" m.text).token line))
      (b.within (.loop "for" (m.value.positionName (Text.trim m.text)) m.value)
        (keptLine ctx.lines line) [.empty]) := by
  rw [add_registered hknown hmode (by decide) rfl, start, turned_currentLine]
  refine turned_reads line (.atLine ?_ _)
  exact .after (ctx.withMode_reads hm) (openBlock_reads _ _)

/-- A choice opens a block with its subject; the body before the first arm comes first. -/
theorem add_choice_reads {m : Markup Expression}
    (hm : m.IsReadBy fun text => Expression.parseSubject ctx (Text.trim text)) (line : Nat) :
    Reads (1 ≤ b.room ctx) (b.add ctx inner stray ((Piece.tag "case" m.text).token line))
      (b.within (.choice "case" m.value []) (keptLine ctx.lines line) [.empty]) := by
  rw [add_registered hknown hmode (by decide) rfl, start, turned_currentLine]
  refine turned_reads line (.atLine ?_ _)
  exact .after (ctx.withMode_reads hm) (openBlock_reads _ _)

/-- A capture opens a block with its target. -/
theorem add_capture_reads {m : Markup String}
    (hm : captureTarget? (Text.trim m.text) = some m.value) (line : Nat) :
    Reads (1 ≤ b.room ctx) (b.add ctx inner stray ((Piece.tag "capture" m.text).token line))
      (b.within (.capture "capture" m.value) (keptLine ctx.lines line) [.empty]) := by
  rw [add_registered hknown hmode (by decide) rfl, start, turned_currentLine]
  refine turned_reads line (.atLine ?_ _)
  dsimp only
  rw [hm]
  exact openBlock_reads _ _

/-! ### Leaves -/

/-- An assignment is a node of its own. -/
theorem add_assign_reads {m : Markup (String × Pipeline)} {source : String}
    (hm : m.IsAssignment ctx source) (line : Nat) :
    Reads True (b.add ctx inner stray ((Piece.tag "assign" m.text).token line))
      (b.push ((Item.assign m).node ctx.lines line)) := by
  rw [add_registered hknown hmode (by decide) rfl, start, turned_currentLine]
  dsimp only
  rw [hm.parts]
  let kept := keptLine ctx.lines line
  -- What is read behind the name is the markup of an output.
  let read (x : Parse Pipeline) : Parse Builder := Attempt.mapError (·.atLine kept) do
    let p ← x
    return b.pushTag (.assign m.value.1 p kept)
  show Reads True (turned line (read (ctx.pipeline source))) _
  rw [turned_congr (y := read (ctx.pipelineAt line source)) fun s hs => by
    simp only [read, Attempt.mapError, bind_apply, pipeline_of_line hs]]
  have hread := pipelineAt_reads hm.source line
  exact turned_reads line (.atLine (.after (b := b.push _) hread (.pure _)) _)

omit hknown in
/-- An output is a node of its own. -/
theorem add_output_reads {m : Markup Pipeline}
    (hm : m.IsReadBy (ctx.withMode Pipeline.readStrict Pipeline.readLax)) (line : Nat) :
    Reads True (b.add ctx inner stray ((Piece.delimited .output m.text).token line))
      (b.push ((Item.output m).node ctx.lines line)) := by
  let read (x : Parse Pipeline) : Parse Builder := do
    let p ← Attempt.mapError (·.atLine b.openLine) x
    return b.push (.output p)
  have hadd : b.add ctx inner stray ((Piece.delimited .output m.text).token line)
      = turned line (read (ctx.pipeline (" " ++ m.text ++ " "))) := by
    unfold add
    rw [hmode]
    rfl
  -- The line is set before the markup is read, so the output keeps it.
  rw [hadd, turned_congr (y := read (ctx.pipelineAt line m.text)) fun s hs => by
    simp only [read, Attempt.mapError, bind_apply, pipeline_of_line hs, pipelineAt_padded]]
  exact turned_reads line (.after (.atLine (pipelineAt_reads hm line) _) (.pure _))

omit hknown in
/-- A text is a node of its own, unless it is empty. -/
theorem add_text_reads {text : String} (hne : text ≠ "") (line : Nat) :
    Reads True (b.add ctx inner stray ((Piece.text text).token line)) (b.push (.text text)) := by
  have hempty : text.isEmpty = false := by simpa using hne
  refine .of_gives fun s hs => ⟨{ s with trimNext := false }, rfl, ?_⟩
  unfold add
  rw [hmode]
  show (takeTrim >>= fun trim => _) s = _
  rw [bind_apply]
  simp only [takeTrim, hs]
  simp [hempty]
  rfl

/-! ### Blocks go on -/

variable {block block' : OpenBlock} {opened : Option Nat} {bodies : List Body}

omit hknown hmode in
/-- The block may go on, get a new body or become a node of the body around it. -/
theorem handOver_within (hbodies : bodies ≠ []) (tag args : String) :
    (b.within block opened bodies).handOver ctx stray tag args = (do
      let claim ← Attempt.mapError (·.atLine opened)
        (block.claim ctx (!bodies.dropLast.isEmpty) tag args)
      match claim with
      | .pass => return b.within block opened bodies
      | .body block' => return b.within block' opened (bodies ++ [.empty])
      | .close => return b.push (.tag (block.close opened bodies))) := by
  -- The last body is the one that is open.
  obtain ⟨finished, body, rfl⟩ : ∃ finished body, bodies = finished ++ [body] :=
    ⟨_, _, (List.dropLast_concat_getLast hbodies).symm⟩
  simp only [within_concat, List.dropLast_concat]
  rfl

omit hknown hmode in
/-- A tag that the block claims for its next body starts that body. -/
theorem handOver_body_reads {tag args : String} (hbodies : bodies ≠ [])
    (hclaim : Reads True (block.claim ctx (!bodies.dropLast.isEmpty) tag args) (.body block')) :
    Reads True ((b.within block opened bodies).handOver ctx stray tag args)
      (b.within block' opened (bodies ++ [.empty])) := by
  rw [handOver_within hbodies]
  exact .after (hclaim.atLine opened) (.pure _)

omit hknown hmode in
/-- A tag that the block claims as its end closes it. -/
theorem handOver_close_reads {tag args : String} (hbodies : bodies ≠ [])
    (hclaim : Reads True (block.claim ctx (!bodies.dropLast.isEmpty) tag args) .close) :
    Reads True ((b.within block opened bodies).handOver ctx stray tag args)
      (b.push (.tag (block.close opened bodies))) := by
  rw [handOver_within hbodies]
  exact .after (hclaim.atLine opened) (.pure _)

/-- The end of a block closes it. -/
theorem add_end_reads (hbodies : bodies ≠ []) (hblock : block.name ∈ blockNames) (line : Nat) :
    Reads True ((b.within block opened bodies).add ctx inner stray
        ((Piece.bareTag ("end" ++ block.name)).token line))
      (b.push (.tag (block.close opened bodies))) := by
  have hname : "end" ++ block.name ∈ tagNames :=
    List.mem_append_left _ (List.mem_append_right _ (List.mem_map_of_mem hblock))
  -- The closing tag is no tag of its own, so it is handed to the block.
  have hkind := end_unregistered _ hblock
  rw [add_bare (b := b.within block opened bodies) hknown hmode hname hkind]
  refine turned_reads line (handOver_close_reads hbodies ?_)
  unfold OpenBlock.claim
  rw [if_pos rfl]
  exact .pure _

variable {negated : Bool} {conditions : List Condition}

/-- A further condition starts the next body of a conditional. -/
theorem add_elsif_reads (hbodies : bodies ≠ []) {m : Markup Condition}
    (hm : m.IsReadBy fun text => ctx.condition "if" (Text.trim text)) (line : Nat) :
    let block := OpenBlock.conditional (conditionalName negated) negated
    Reads True ((b.within (block conditions) opened bodies).add ctx inner stray
        ((Piece.tag "elsif" m.text).token line))
      (b.within (block (conditions ++ [m.value])) opened (bodies ++ [.empty])) := by
  intro block
  -- The block asks first whether the tag is its end.
  have hend : "elsif" ≠ "end" ++ conditionalName negated := by cases negated <;> decide
  rw [add_unregistered (b := b.within (block conditions) opened bodies) hknown hmode
    (by decide) rfl]
  refine turned_reads line (handOver_body_reads hbodies ?_)
  unfold OpenBlock.claim
  rw [OpenBlock.name, if_neg hend]
  exact .after (ctx.withMode_reads hm) (.pure _)

/-- A conditional takes what stands behind `else` under a condition that always holds. -/
theorem add_conditional_else_reads (hbodies : bodies ≠ []) (line : Nat) :
    let block := OpenBlock.conditional (conditionalName negated) negated
    Reads True ((b.within (block conditions) opened bodies).add ctx inner stray
        ((Piece.bareTag "else").token line))
      (b.within (block (conditions ++ [.always])) opened (bodies ++ [.empty])) := by
  intro block
  -- An `else` does not close the block, so it starts the branch that always holds.
  have hend : "else" ≠ "end" ++ conditionalName negated := by cases negated <;> decide
  rw [add_bare (b := b.within (block conditions) opened bodies) hknown hmode
    (by decide) rfl]
  refine turned_reads line (handOver_body_reads hbodies ?_)
  unfold OpenBlock.claim
  rw [OpenBlock.name, if_neg hend]
  exact .pure _

/-- A loop has at most one alternative. -/
theorem add_loop_else_reads {position : String} {header : LoopHeader} {body : Body}
    (line : Nat) :
    Reads True ((b.within (.loop "for" position header) opened [body]).add ctx inner stray
        ((Piece.bareTag "else").token line))
      (b.within (.loop "for" position header) opened [body, .empty]) := by
  have hclaim : Reads True ((OpenBlock.loop "for" position header).claim ctx
      (!([body].dropLast.isEmpty)) "else" "") (.body (.loop "for" position header)) := by
    unfold OpenBlock.claim
    rw [OpenBlock.name, if_neg (by decide)]
    exact .pure _
  rw [add_bare (b := b.within _ opened [body]) hknown hmode (by decide) rfl]
  exact turned_reads line (handOver_body_reads (List.cons_ne_nil _ _) hclaim)

variable {subject : Expression} {heads : List (Option Condition)}

/-- The values of an arm start the next body of a choice. -/
theorem add_when_reads (hbodies : bodies ≠ []) {m : Markup Condition}
    (hm : m.IsReadBy fun text => Condition.parseValues ctx subject (Text.trim text))
    (line : Nat) :
    let block := OpenBlock.choice "case" subject
    Reads True ((b.within (block heads) opened bodies).add ctx inner stray
        ((Piece.tag "when" m.text).token line))
      (b.within (block (heads ++ [some m.value])) opened (bodies ++ [.empty])) := by
  intro block
  rw [add_unregistered (b := b.within (block heads) opened bodies) hknown hmode
    (by decide) rfl]
  -- The values are read in the mode of the markup, and the arm becomes the open body.
  refine turned_reads line (handOver_body_reads hbodies ?_)
  unfold OpenBlock.claim
  rw [OpenBlock.name, if_neg (by decide)]
  exact .after (ctx.withMode_reads hm) (.pure _)

/-- So does `else`, without values. -/
theorem add_choice_else_reads (hbodies : bodies ≠ []) (line : Nat) :
    let block := OpenBlock.choice "case" subject
    Reads True ((b.within (block heads) opened bodies).add ctx inner stray
        ((Piece.bareTag "else").token line))
      (b.within (block (heads ++ [none])) opened (bodies ++ [.empty])) := by
  intro block
  rw [add_bare (b := b.within (block heads) opened bodies) hknown hmode
    (by decide) rfl]
  refine turned_reads line (handOver_body_reads hbodies ?_)
  unfold OpenBlock.claim
  rw [OpenBlock.name, if_neg (by decide)]
  -- Only the strict mode objects to arguments, and there are none.
  show Reads True (if ctx.mode = .strict ∧ "" ≠ "" then _ else _) _
  rw [if_neg fun h => h.2 rfl]
  exact .pure _

end Builder

/-! ## Blocks are closed -/

namespace OpenBlock

open Written

/-- Bodies lose their blank texts together, if all of them are blank. -/
theorem elide_eq (bodies : List Body) :
    elide bodies = (bodies.map (elided (bodies.all Body.isBlank)), bodies.all Body.isBlank) := by
  unfold elide
  cases h : bodies.all Body.isBlank
  · have hsame : elided false = id := rfl
    simp [hsame]
  · rfl

/-- A conditional pairs its conditions with its bodies. -/
theorem close_conditional (name : String) (negated : Bool) (line : Option Nat)
    (parts : List (Condition × Body)) :
    (conditional name negated (parts.map Prod.fst)).close line (parts.map Prod.snd)
      = .conditional name negated
          (parts.map fun part => .mk part.1 (elided (parts.all fun p => p.2.isBlank) part.2)) line
          (parts.all fun p => p.2.isBlank) := by
  have hall : (parts.map Prod.snd).all Body.isBlank = parts.all fun p => p.2.isBlank := by
    rw [List.all_map]
    rfl
  simp only [close, elide_eq, hall, List.map_map, List.zipWith_map, List.zipWith_self,
    Function.comp]

/-- A choice pairs its heads with the bodies behind the first one. -/
theorem close_choice (name : String) (subject : Expression) (line : Option Nat) (before : Body)
    (parts : List (Option Condition × Body)) :
    (choice name subject (parts.map Prod.fst)).close line (before :: parts.map Prod.snd)
      = .choice (parts.map fun part => arm part.1
            (elided (before.isBlank && parts.all fun p => p.2.isBlank) part.2)) line
          (before.isBlank && parts.all fun p => p.2.isBlank) := by
  -- What stands before the first arm counts for whether the whole is blank, but is dropped.
  have hall : (before :: parts.map Prod.snd).all Body.isBlank
      = (before.isBlank && parts.all fun p => p.2.isBlank) := by
    rw [List.all_cons, List.all_map]
    rfl
  simp only [close, elide_eq, hall, List.map_cons, List.drop_succ_cons, List.drop_zero,
    List.map_map, List.zipWith_map, List.zipWith_self, Function.comp]

/-- A loop takes its first body, and the second one if there is one. -/
theorem close_loop (name position : String) (header : LoopHeader) (line : Option Nat)
    (first : Body) (second : Option Body) :
    (loop name position header).close line (first :: second.toList)
      = .loop position header (elided (first.isBlank && second.all Body.isBlank) first)
          (second.map (elided (first.isBlank && second.all Body.isBlank))) line
          (first.isBlank && second.all Body.isBlank) := by
  cases second <;> simp [close, elide_eq]

end OpenBlock

/-! ## Trees -/

namespace Written

variable {ctx : ParseContext} {inner : LinesReader} {stray : String → Parse Builder}
  {b b' : Builder}

open Builder

/-- One piece, and those that follow. -/
theorem reads_cons {fits more : Prop} {b'' : Builder} {piece : Piece} {pieces : List Piece}
    {line : Nat} (hpiece : Reads fits (b.add ctx inner stray (piece.token line)) b')
    (hpieces : Reads more
      (addAll ctx inner stray (tokens (line + lineFeeds piece.chars) pieces) b') b'') :
    Reads (fits ∧ more) (addAll ctx inner stray (tokens line (piece :: pieces)) b) b'' :=
  hpiece.bind hpieces

/-- Some pieces, and those that follow. -/
theorem reads_append {fits more : Prop} {b'' : Builder} {ps qs : List Piece} {line : Nat}
    (hps : Reads fits (addAll ctx inner stray (tokens line ps) b) b')
    (hqs : Reads more (addAll ctx inner stray (tokens (line + feeds ps) qs) b') b'') :
    Reads (fits ∧ more) (addAll ctx inner stray (tokens line (ps ++ qs)) b) b'' := by
  rw [tokens_append, addAll_append]
  exact hps.bind hqs

/-- No pieces. -/
theorem reads_nil {line : Nat} : Reads True (addAll ctx inner stray (tokens line []) b) b :=
  .pure b

/-- One piece. -/
theorem reads_singleton {fits : Prop} {piece : Piece} {line : Nat}
    (hpiece : Reads fits (b.add ctx inner stray (piece.token line)) b') :
    Reads fits (addAll ctx inner stray (tokens line [piece]) b) b' :=
  (reads_cons hpiece reads_nil).congr (by simp)

/-- A tag that starts a body, its nodes, and what comes behind them. -/
theorem reads_part {fits more : Prop} {b'' : Builder} {piece : Piece} {ps qs : List Piece}
    {line n depth : Nat} {block : OpenBlock} {opened : Option Nat} (bodies : List Body)
    {nodes : List Node} (hfeeds : lineFeeds piece.chars = n)
    (htag : Reads fits (b'.add ctx inner stray (piece.token line))
      (b.within block opened (bodies ++ [.empty])))
    (hnodes : Reads (depth ≤ (b.within block opened (bodies ++ [.empty])).room ctx)
      (addAll ctx inner stray (tokens (line + n) ps)
        (b.within block opened (bodies ++ [.empty])))
      ((b.within block opened (bodies ++ [.empty])).addNodes nodes))
    (hrest : Reads more (addAll ctx inner stray (tokens (line + n + feeds ps) qs)
      (b.within block opened (bodies ++ [bodyOf nodes]))) b'') :
    Reads (fits ∧ depth ≤ b.room ctx - 1 ∧ more)
      (addAll ctx inner stray (tokens line (piece :: (ps ++ qs))) b') b'' := by
  subst hfeeds
  -- The nodes of the body are read with one level less.
  rw [room_within, addNodes_within] at hnodes
  exact reads_cons htag (reads_append hnodes hrest)

/-- A whole block: the tag that opens it, its first body, what comes behind that, and its end. -/
theorem reads_block (hknown : ctx.registry.KnowsBlocks) {piece : Piece} {ps qs : List Piece}
    {line n depth more : Nat} {block block' : OpenBlock} {opened : Option Nat} {nodes : List Node}
    {bodies : List Body}
    (hmode : b.mode = .nodes) (hfeeds : lineFeeds piece.chars = n)
    (hopen : Reads (1 ≤ b.room ctx) (b.add ctx inner stray (piece.token line))
      (b.within block opened [.empty]))
    (hnodes : Reads (depth ≤ (b.within block opened [.empty]).room ctx)
      (addAll ctx inner stray (tokens (line + n) ps) (b.within block opened [.empty]))
      ((b.within block opened [.empty]).addNodes nodes))
    (hrest : Reads (more ≤ b.room ctx - 1)
      (addAll ctx inner stray (tokens (line + n + feeds ps) qs)
        (b.within block opened [bodyOf nodes]))
      (b.within block' opened bodies))
    (hbodies : bodies ≠ []) (hblock : block'.name ∈ blockNames) :
    Reads (1 + max depth more ≤ b.room ctx)
      (addAll ctx inner stray
        (tokens line (piece :: (ps ++ (qs ++ [.bareTag ("end" ++ block'.name)])))) b)
      (b.push (.tag (block'.close opened bodies))) := by
  -- The closing tag takes the block off again.
  have hend (line : Nat) : Reads True
      (addAll ctx inner stray (tokens line [.bareTag ("end" ++ block'.name)])
        (b.within block' opened bodies))
      (b.push (.tag (block'.close opened bodies))) :=
    reads_singleton (add_end_reads hknown hmode hbodies hblock line)
  have hall := reads_part [] hfeeds hopen hnodes (reads_append hrest (hend _))
  refine hall.congr ?_
  simp only [and_true]
  omega

/-! The recursion follows the tree. The builder and the line are arbitrary: a body is read into the
block that is open by then, behind whatever was written before it. -/

mutual

/-- A part of a tree adds its node. -/
theorem Item.reads (hknown : ctx.registry.KnowsBlocks) (item : Item) (haccepted : item.Accepted ctx)
    (hclear : ∀ piece ∈ item.pieces, piece.IsClear) (line : Nat) (b : Builder)
    (hmode : b.mode = .nodes) :
    Reads (item.depth ≤ b.room ctx) (addAll ctx inner stray (tokens line item.pieces) b)
      (b.push (item.node ctx.lines line)) := by
  cases item with
  | text s =>
    have hne : s ≠ "" := (hclear _ (List.mem_singleton_self _)).1
    exact (reads_singleton (add_text_reads hmode hne line)).congr (by simp [Item.depth])
  | output m =>
    exact (reads_singleton (add_output_reads hmode haccepted line)).congr (by simp [Item.depth])
  | assign m =>
    obtain ⟨source, hm⟩ := haccepted
    exact (reads_singleton (add_assign_reads hknown hmode hm line)).congr (by simp [Item.depth])
  | conditional negated m body branches =>
    obtain ⟨hm, hbodyAccepted, hbranchesAccepted⟩ := haccepted
    simp only [Item.pieces, List.forall_mem_cons, List.forall_mem_append] at hclear
    obtain ⟨-, hbodyClear, hbranchesClear, -⟩ := hclear
    have hname : lineFeeds (conditionalName negated).toList = 0 := by cases negated <;> rfl
    have hblock : conditionalName negated ∈ blockNames := by cases negated <;> decide
    have hall := reads_block hknown hmode (lineFeeds_tag hname m)
      (add_conditional_reads hknown hmode negated hm line)
      (Items.reads hknown body hbodyAccepted hbodyClear _ _ hmode)
      (Branches.reads hknown branches hbranchesAccepted hbranchesClear _ b hmode negated [m.value] _
        [_] (List.cons_ne_nil _ _))
      (List.cons_ne_nil _ _) hblock
    -- The conditions and the bodies of the open block are those of the parts.
    rw [Item.depth, Item.pieces, Item.node, ← OpenBlock.close_conditional]
    exact hall
  -- Blocks differ in their tags and in how their parts become bodies only.
  | loop m body alternative =>
    obtain ⟨hm, hbodyAccepted, halternativeAccepted⟩ := haccepted
    simp only [Item.pieces, List.forall_mem_cons, List.forall_mem_append] at hclear
    obtain ⟨-, hbodyClear, halternativeClear, -⟩ := hclear
    have hall := reads_block hknown hmode (lineFeeds_tag rfl m)
      (add_loop_reads hknown hmode hm line)
      (Items.reads hknown body hbodyAccepted hbodyClear _ _ hmode)
      (Alternative.reads hknown alternative halternativeAccepted halternativeClear _ b hmode _ _ _
        _)
      (List.cons_ne_nil _ _) (by simp [OpenBlock.name, blockNames])
    rw [Item.depth, Item.pieces, Item.node, ← OpenBlock.close_loop "for"]
    exact hall
  | choice m before arms =>
    obtain ⟨hm, hbeforeAccepted, harmsAccepted⟩ := haccepted
    simp only [Item.pieces, List.forall_mem_cons, List.forall_mem_append] at hclear
    obtain ⟨-, hbeforeClear, harmsClear, -⟩ := hclear
    have hall := reads_block hknown hmode (lineFeeds_tag rfl m)
      (add_choice_reads hknown hmode hm line)
      (Items.reads hknown before hbeforeAccepted hbeforeClear _ _ hmode)
      (Arms.reads hknown arms m.value harmsAccepted harmsClear _ b hmode [] _ [_]
        (List.cons_ne_nil _ _))
      (List.cons_ne_nil _ _) (by simp [OpenBlock.name, blockNames])
    rw [Item.depth, Item.pieces, Item.node, ← OpenBlock.close_choice "case" m.value]
    exact hall
  | capture m body =>
    obtain ⟨hm, hbodyAccepted⟩ := haccepted
    simp only [Item.pieces, List.forall_mem_cons, List.forall_mem_append] at hclear
    obtain ⟨-, hbodyClear, -⟩ := hclear
    have hall := reads_block hknown hmode (lineFeeds_tag rfl m)
      (add_capture_reads hknown hmode hm line)
      (Items.reads hknown body hbodyAccepted hbodyClear _ _ hmode)
      (reads_nil.congr (iff_of_true trivial (Nat.zero_le _)))
      (List.cons_ne_nil _ _) (by simp [OpenBlock.name, blockNames])
    -- Nothing comes between the body and the end.
    rw [Nat.max_zero] at hall
    exact hall

/-- Parts in order add their nodes. -/
theorem Items.reads (hknown : ctx.registry.KnowsBlocks) (items : Items)
    (haccepted : items.Accepted ctx)
    (hclear : ∀ piece ∈ items.pieces, piece.IsClear) (line : Nat) (b : Builder)
    (hmode : b.mode = .nodes) :
    Reads (items.depth ≤ b.room ctx) (addAll ctx inner stray (tokens line items.pieces) b)
      (b.addNodes (items.nodes ctx.lines line)) := by
  cases items with
  | nil =>
    rw [Items.nodes, addNodes_nil]
    exact reads_nil.congr (by simp [Items.depth])
  | cons item rest =>
    rw [Items.pieces, List.forall_mem_append] at hclear
    have hitem := Item.reads hknown item haccepted.1 hclear.1 line b hmode
    have hrest := Items.reads hknown rest haccepted.2 hclear.2 (line + feeds item.pieces)
      (b.push (item.node ctx.lines line)) hmode
    -- One more node in the current body opens nothing.
    rw [addNodes_push, room_push] at hrest
    exact (reads_append hitem hrest).congr (by simp only [Items.depth]; omega)

/-- Branches add their conditions and bodies to the block. -/
theorem Branches.reads (hknown : ctx.registry.KnowsBlocks) (branches : Branches)
    (haccepted : branches.Accepted ctx)
    (hclear : ∀ piece ∈ branches.pieces, piece.IsClear) (line : Nat) (b : Builder)
    (hmode : b.mode = .nodes) (negated : Bool) (conditions : List Condition)
    (opened : Option Nat) (bodies : List Body) (hbodies : bodies ≠ []) :
    Reads (branches.depth ≤ b.room ctx - 1)
      (addAll ctx inner stray (tokens line branches.pieces)
        (b.within (.conditional (conditionalName negated) negated conditions) opened bodies))
      (b.within (.conditional (conditionalName negated) negated
          (conditions ++ (branches.parts ctx.lines line).map Prod.fst)) opened
        (bodies ++ (branches.parts ctx.lines line).map Prod.snd)) := by
  cases branches with
  | nil =>
    rw [Branches.parts, List.map_nil, List.map_nil, List.append_nil, List.append_nil]
    exact reads_nil.congr (by simp [Branches.depth])
  | elsif m body rest =>
    obtain ⟨hm, hbodyAccepted, hrestAccepted⟩ := haccepted
    simp only [Branches.pieces, List.forall_mem_cons, List.forall_mem_append] at hclear
    obtain ⟨-, hbodyClear, hrestClear⟩ := hclear
    -- The first branch moves over to what the block has already.
    rw [Branches.parts, List.map_cons, List.map_cons, List.append_cons, List.append_cons bodies]
    have hall := reads_part bodies (lineFeeds_tag rfl m)
      (add_elsif_reads hknown hmode hbodies hm line)
      (Items.reads hknown body hbodyAccepted hbodyClear _ _ hmode)
      (Branches.reads hknown rest hrestAccepted hrestClear _ b hmode negated
        (conditions ++ [m.value]) opened _ (by simp))
    exact hall.congr (by simp only [Branches.depth, true_and]; omega)
  | otherwise body rest =>
    obtain ⟨hbodyAccepted, hrestAccepted⟩ := haccepted
    simp only [Branches.pieces, List.forall_mem_cons, List.forall_mem_append] at hclear
    obtain ⟨-, hbodyClear, hrestClear⟩ := hclear
    rw [Branches.parts, List.map_cons, List.map_cons, List.append_cons, List.append_cons bodies]
    have hall := reads_part bodies (lineFeeds_bareTag rfl)
      (add_conditional_else_reads hknown hmode hbodies line)
      (Items.reads hknown body hbodyAccepted hbodyClear _ _ hmode)
      (Branches.reads hknown rest hrestAccepted hrestClear _ b hmode negated
        (conditions ++ [.always]) opened _ (by simp))
    exact hall.congr (by simp only [Branches.depth, true_and]; omega)

/-- The alternative of a loop adds its body to the block. -/
theorem Alternative.reads (hknown : ctx.registry.KnowsBlocks) (alternative : Alternative)
    (haccepted : alternative.Accepted ctx)
    (hclear : ∀ piece ∈ alternative.pieces, piece.IsClear) (line : Nat) (b : Builder)
    (hmode : b.mode = .nodes) (position : String) (header : LoopHeader) (opened : Option Nat)
    (first : Body) :
    Reads (alternative.depth ≤ b.room ctx - 1)
      (addAll ctx inner stray (tokens line alternative.pieces)
        (b.within (.loop "for" position header) opened [first]))
      (b.within (.loop "for" position header) opened
        (first :: (alternative.body? ctx.lines line).toList)) := by
  -- Without an `else` the loop is closed at once.
  cases alternative with
  | none => exact reads_nil.congr (by simp [Alternative.depth])
  | otherwise body =>
    simp only [Alternative.pieces, List.forall_mem_cons] at hclear
    have hnodes := Items.reads hknown body haccepted hclear.2
      (line + lineFeeds (Piece.bareTag "else").chars)
      (b.within (.loop "for" position header) opened ([first] ++ [.empty])) hmode
    rw [room_within, addNodes_within] at hnodes
    have hall := reads_cons (add_loop_else_reads hknown hmode line) hnodes
    rw [lineFeeds_bareTag rfl] at hall
    exact hall.congr (by simp [Alternative.depth])

/-- Arms add their conditions and bodies to the block. -/
theorem Arms.reads (hknown : ctx.registry.KnowsBlocks) (arms : Arms) (subject : Expression)
    (haccepted : arms.Accepted ctx subject)
    (hclear : ∀ piece ∈ arms.pieces, piece.IsClear) (line : Nat) (b : Builder)
    (hmode : b.mode = .nodes) (heads : List (Option Condition)) (opened : Option Nat)
    (bodies : List Body) (hbodies : bodies ≠ []) :
    Reads (arms.depth ≤ b.room ctx - 1)
      (addAll ctx inner stray (tokens line arms.pieces)
        (b.within (.choice "case" subject heads) opened bodies))
      (b.within (.choice "case" subject (heads ++ (arms.parts ctx.lines line).map Prod.fst)) opened
        (bodies ++ (arms.parts ctx.lines line).map Prod.snd)) := by
  -- By induction on the arms, each of which adds a head and a body.
  cases arms with
  | nil =>
    rw [Arms.parts, List.map_nil, List.map_nil, List.append_nil, List.append_nil]
    exact reads_nil.congr (by simp [Arms.depth])
  | when m body rest =>
    obtain ⟨hm, hbodyAccepted, hrestAccepted⟩ := haccepted
    simp only [Arms.pieces, List.forall_mem_cons, List.forall_mem_append] at hclear
    obtain ⟨-, hbodyClear, hrestClear⟩ := hclear
    rw [Arms.parts, List.map_cons, List.map_cons, List.append_cons, List.append_cons bodies]
    have hall := reads_part bodies (lineFeeds_tag rfl m)
      (add_when_reads hknown hmode hbodies hm line)
      (Items.reads hknown body hbodyAccepted hbodyClear _ _ hmode)
      (Arms.reads hknown rest subject hrestAccepted hrestClear _ b hmode
        (heads ++ [some m.value]) opened _ (by simp))
    exact hall.congr (by simp only [Arms.depth, true_and]; omega)
  | otherwise body rest =>
    obtain ⟨hbodyAccepted, hrestAccepted⟩ := haccepted
    simp only [Arms.pieces, List.forall_mem_cons, List.forall_mem_append] at hclear
    obtain ⟨-, hbodyClear, hrestClear⟩ := hclear
    rw [Arms.parts, List.map_cons, List.map_cons, List.append_cons, List.append_cons bodies]
    have hall := reads_part bodies (lineFeeds_bareTag rfl)
      (add_choice_else_reads hknown hmode hbodies line)
      (Items.reads hknown body hbodyAccepted hbodyClear _ _ hmode)
      (Arms.reads hknown rest subject hrestAccepted hrestClear _ b hmode (heads ++ [none]) opened _
        (by simp))
    exact hall.congr (by simp only [Arms.depth, true_and]; omega)

end

end Written

/-! ## Templates -/

open Written

/-- A template that is written down from a tree is read as the document that the tree stands for,
unless a block is nested deeper than the registry allows. -/
theorem Document.parse_written {registry : Registry} {options : ParseOptions} {items : Items}
    (hknown : registry.KnowsBlocks) (hseparate : items.Separate)
    (haccepted : items.Accepted (.ofOptions registry options)) :
    let result := (Document.parse (.ofOptions registry options) items.source {}).1
    (items.depth ≤ registry.nestingLimit → result = .ok (items.document options.lines))
      ∧ (registry.nestingLimit < items.depth →
        ∃ e, result = .error e ∧ e.kind = .stackLevel) := by
  let ctx := ParseContext.ofOptions registry options
  let start : Builder := {}
  -- At first the whole limit of nesting is left.
  have hroom : start.room ctx = registry.nestingLimit := rfl
  have hbuilt : (start.addNodes (items.nodes options.lines 1)).finish ctx
      = pure (items.document options.lines) := by
    simp [Builder.finish, Builder.addNodes, start, Items.document, bodyOf, Body.empty, Body.nodes,
      Body.isBlank]
  have hread : Reads (items.depth ≤ registry.nestingLimit) (Document.parse ctx items.source)
      (items.document options.lines) := by
    -- The tokens of the source are the pieces that were written.
    refine .mapError ?_ fun e => e.kind_inTemplate _
    rw [Items.ofSource_source hseparate]
    have hnodes : Reads (items.depth ≤ start.room ctx)
        (Builder.addAll ctx (Body.parseLines registry.nestingLimit) ctx.refuseOuterTag
          (tokens 1 items.pieces) start)
        (start.addNodes (items.nodes options.lines 1)) :=
      Items.reads hknown items haccepted hseparate.clear 1 start rfl
    rw [hroom] at hnodes
    have hfinish : Reads True ((start.addNodes (items.nodes options.lines 1)).finish ctx)
        (items.document options.lines) := hbuilt ▸ .pure _
    exact (hnodes.bind (hfinish.after (.pure _))).congr (and_iff_left trivial)
  constructor
  · intro hfits
    obtain ⟨t, -, hparse⟩ := hread.gives hfits {} rfl
    exact congrArg Prod.fst hparse
  · intro hdeep
    obtain ⟨e, t, hparse, he⟩ := hread.tooDeep (Nat.not_le.mpr hdeep) {} rfl
    exact ⟨e, congrArg Prod.fst hparse, he⟩

namespace Written

/-- Orders under a title, the first of which is looked for in a block that shows nothing. -/
def orders : Items :=
  .cons (.capture ⟨"title", "title"⟩ (.cons (.text "Orders") .nil)) <|
  .cons (.loop ⟨"order in orders", { item := "order", collection := .variable "orders" }⟩
    (.cons (.conditional true ⟨"first", .truthy (.variable "first")⟩
        (.cons (.text "\n  ") <|
          .cons (.assign ⟨"first = order",
            ("first", { source := .variable "order", filters := [] })⟩) .nil)
        (.elsif ⟨"last", .truthy (.variable "last")⟩ (.cons (.text "\n") .nil)
          (.otherwise .nil .nil))) <|
      .cons (.output ⟨"order", { source := .variable "order", filters := [] }⟩) .nil)
    (.otherwise (.cons (.text "none") .nil))) <|
  .cons (.choice ⟨"kind", .variable "kind"⟩ (.cons (.text " ") .nil)
    (.when ⟨"urgent", .compare (.variable "kind") .eq (.variable "urgent")⟩
      (.cons (.text "!") .nil) (.otherwise .nil .nil))) .nil

/-- Texts and delimited pieces of the example alternate. -/
theorem orders_separate : orders.Separate where
  clear := by decide +kernel
  apart := by decide +kernel

/-- What a lax reading finds, from the tokens of the markup. -/
private theorem onLax_of_tokens {α : Type} {reader : Reader α} {markup : String}
    {tokens : List MarkupToken} {a : α} (htokens : lexLax markup = tokens)
    (ha : (reader tokens).1 = .ok a) : Reader.onLax reader markup = .ok a := by
  rw [Reader.onLax, htokens, ha]

/-- All markup of the example is accepted, whatever the limit on nesting. -/
theorem orders_accepted (limit : Nat) :
    orders.Accepted (.ofOptions { Registry.standard with nestingLimit := limit } {}) := by
  let ctx := ParseContext.ofOptions { Registry.standard with nestingLimit := limit } {}
  have htitle : captureTarget? (Text.trim "title") = some "title" := by decide +kernel
  -- The mode is lax, so nothing below asks for the strict readings.
  have hheader : (LoopHeader.parse ctx (Text.trim "order in orders") {}).1
      = .ok { item := "order", collection := .variable "orders" } :=
    congrArg (Except.mapError _) <| onLax_of_tokens
      (by decide +kernel : _ = [.id "order", .id "in", .id "orders"]) rfl
  have hfirst : (ctx.condition "if" (Text.trim "first") {}).1
      = .ok (.truthy (.variable "first")) :=
    congrArg (Except.mapError _) <| onLax_of_tokens (by decide +kernel : _ = [.id "first"]) rfl
  have hassign : (Markup.mk "first = order"
      ("first", { source := .variable "order", filters := [] })).IsAssignment ctx " order" :=
    ⟨by decide +kernel, onLax_of_tokens (by decide +kernel : _ = [.id "order"]) rfl⟩
  have hlast : (ctx.condition "if" (Text.trim "last") {}).1
      = .ok (.truthy (.variable "last")) :=
    congrArg (Except.mapError _) <| onLax_of_tokens (by decide +kernel : _ = [.id "last"]) rfl
  have horder : (ctx.withMode Pipeline.readStrict Pipeline.readLax "order" {}).1
      = .ok { source := .variable "order", filters := [] } :=
    onLax_of_tokens (by decide +kernel : _ = [.id "order"]) rfl
  have hkind : (Expression.parseSubject ctx (Text.trim "kind") {}).1 = .ok (.variable "kind") :=
    congrArg (Except.mapError _) <| onLax_of_tokens (by decide +kernel : _ = [.id "kind"]) rfl
  have hurgent : (Condition.parseValues ctx (.variable "kind") (Text.trim "urgent") {}).1
      = .ok (.compare (.variable "kind") .eq (.variable "urgent")) :=
    congrArg (Except.mapError _) <| onLax_of_tokens (by decide +kernel : _ = [.id "urgent"]) rfl
  refine ⟨⟨htitle, trivial, trivial⟩,
    ⟨hheader, ⟨?conditional, horder, trivial⟩, trivial, trivial⟩, ?choice, trivial⟩
  case conditional =>
    exact ⟨hfirst, ⟨trivial, ⟨_, hassign⟩, trivial⟩, hlast, ⟨trivial, trivial⟩, trivial, trivial⟩
  case choice =>
    exact ⟨hkind, ⟨trivial, trivial⟩, hurgent, ⟨trivial, trivial⟩, trivial, trivial⟩

end Written

/-- Blocks are read as they were written; with a lower limit they are nested too deep. -/
theorem Document.parse_orders :
    orders.depth = 2
      ∧ (Document.parse (.ofOptions .standard {}) orders.source {}).1 = .ok (orders.document false)
      ∧ ∃ e, (Document.parse (.ofOptions { Registry.standard with nestingLimit := 1 } {})
          orders.source {}).1 = .error e ∧ e.kind = .stackLevel :=
  ⟨rfl, (parse_written (fun _ _ => rfl) orders_separate (orders_accepted 100)).1 (by decide),
    (parse_written (fun _ _ => rfl) orders_separate (orders_accepted 1)).2 (by decide)⟩

end Stencil
