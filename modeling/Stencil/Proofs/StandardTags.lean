import Stencil.Proofs.Reading
import Stencil.Render.Partial

/-!
# Documents of standard tags

A document that is read with the standard tags holds no other tags, however deep. While
the document grows token by token, this is an invariant of the builder: it holds of the
body that is being filled, of the finished bodies and of those around the open blocks,
and every open block is a standard one.

## Key results

- `Document.parse_ensures`: what is read is standard, and what is refused is a syntax error
- `Settings.readPartial_isStandard`: the same of the partials of a render
-/

namespace Stencil

/-! ## The tags of a document -/

mutual

/-- The tags of a body, those inside other tags included. -/
def Body.tags : Body → List Tag
  | .mk nodes _ => Node.tagsAll nodes

def Node.tagsAll : List Node → List Tag
  | [] => []
  | node :: nodes => node.tags ++ Node.tagsAll nodes

/-- The tags of a node: the tag itself and those inside it. -/
def Node.tags : Node → List Tag
  | .text _ | .output _ => []
  | .tag tag => tag :: tag.inner

def Branch.tagsAll : List Branch → List Tag
  | [] => []
  | .mk _ body :: branches => body.tags ++ Branch.tagsAll branches

def Arm.tagsAll : List Arm → List Tag
  | [] => []
  | .when _ body :: arms | .otherwise body :: arms => body.tags ++ Arm.tagsAll arms

def Body.tagsAll : List Body → List Tag
  | [] => []
  | body :: bodies => body.tags ++ Body.tagsAll bodies

def Body.tagsIfAny : Option Body → List Tag
  | none => []
  | some body => body.tags

/-- The tags inside a tag. -/
def Tag.inner : Tag → List Tag
  | .conditional _ _ branches _ _ => Branch.tagsAll branches
  | .choice arms _ _ => Arm.tagsAll arms
  | .loop _ _ body otherwise _ _ => body.tags ++ Body.tagsIfAny otherwise
  | .capture _ body _ | .lines body _ | .transform _ _ body => body.tags
  | .sections _ bodies _ => Body.tagsAll bodies
  | .interrupt .. | .assign .. | .comment | .inlineComment | .raw _ | .echo _
  | .includePartial .. | .renderPartial .. | .counter .. => []

end

/-- Whether a tag is none of those that are for hosts only. -/
def Tag.isStandard : Tag → Bool
  | .transform .. | .sections .. | .counter .. => false
  | _ => true

/-- The variable that a tag stores its value in. -/
def Tag.target? : Tag → Option String
  | .assign target .. | .capture target .. => some target
  | _ => none

namespace Body

/-- Whether all tags of a body are standard, however deep they are. -/
def isStandard (body : Body) : Bool :=
  body.tags.all Tag.isStandard

/-- The variables that the tags of a body store values in. -/
def targets (body : Body) : List String :=
  body.tags.filterMap Tag.target?

end Body

/-- Whether all tags of a node are standard, however deep they are. -/
def Node.isStandard (node : Node) : Bool :=
  node.tags.all Tag.isStandard

/-! ## Building bodies -/

namespace Body

/-- A body is standard as its nodes are. -/
theorem isStandard_mk (nodes : List Node) (blank : Bool) :
    (mk nodes blank).isStandard = nodes.all Node.isStandard := by
  simp only [isStandard, tags]
  induction nodes with
  | nil => rfl
  | cons node nodes ih =>
    rw [Node.tagsAll, List.all_append, List.all_cons, ih]
    rfl

/-- The blank flag of a body does not matter. -/
theorem isStandard_eq (body : Body) : body.isStandard = body.nodes.all Node.isStandard := by
  cases body with
  | mk nodes blank => exact isStandard_mk nodes blank

/-- One more node has to be standard. -/
@[simp] theorem isStandard_push (body : Body) (node : Node) :
    (body.push node).isStandard = (body.isStandard && node.isStandard) := by
  simp only [isStandard_eq, nodes_push, List.all_append, List.all_cons, List.all_nil, Bool.and_true]

/-- Texts can be removed from a standard body. -/
theorem isStandard_withoutTexts {body : Body} (h : body.isStandard = true) :
    body.withoutTexts.isStandard = true := by
  rw [isStandard_eq] at h
  rw [withoutTexts, isStandard_mk, List.all_eq_true]
  intro node hn
  exact List.all_eq_true.mp h node (List.mem_filter.mp hn).1

/-- The last text of a standard body can be trimmed. -/
theorem isStandard_trimLastText {body : Body} (h : body.isStandard = true) :
    body.trimLastText.isStandard = true := by
  unfold trimLastText
  split
  · rw [isStandard_eq] at h
    rw [isStandard_mk, List.all_append, Bool.and_eq_true]
    constructor
    · rw [List.all_eq_true]
      intro node hn
      exact List.all_eq_true.mp h node (List.dropLast_subset _ hn)
    · split <;> rfl
  · exact h

end Body

/-! ## Blocks -/

namespace ParseContext

/-- A tag that a block does not know is refused with a syntax error. -/
theorem refuseTag_ensures {α : Type} {Q : α → Prop} (ctx : ParseContext)
    (block delimiter tag : String) :
    (ctx.refuseTag block delimiter tag : Parse α).Ensures Q fun e => e.isSyntax = true := by
  unfold refuseTag
  split
  · exact ctx.refuse_ensures _ _
  · split <;> exact ctx.refuse_ensures _ _

end ParseContext

namespace OpenBlock

/-- Whether the block becomes a standard tag. -/
def isStandard : OpenBlock → Bool
  | transform .. | sections .. => false
  | _ => true

/-- Bodies that are emptied because they are blank stay standard. -/
private theorem areStandard_elide {bodies : List Body} (h : bodies.all Body.isStandard = true) :
    (elide bodies).1.all Body.isStandard = true := by
  unfold elide
  dsimp only
  split
  · rw [List.all_map, List.all_eq_true]
    intro body hb
    exact Body.isStandard_withoutTexts (List.all_eq_true.mp h body hb)
  · exact h

/-- The branches of a conditional hold the bodies. -/
private theorem isStandard_branches {conditions : List Condition} {bodies : List Body}
    (h : bodies.all Body.isStandard = true) :
    (Branch.tagsAll (List.zipWith .mk conditions bodies)).all Tag.isStandard = true := by
  -- By induction on the bodies; what is left of the longer list is dropped.
  induction bodies generalizing conditions with
  | nil => cases conditions <;> rfl
  | cons body bodies ih =>
    rw [List.all_cons, Bool.and_eq_true] at h
    cases conditions with
    | nil => rfl
    | cons condition conditions =>
      rw [List.zipWith_cons_cons, Branch.tagsAll, List.all_append, Bool.and_eq_true]
      exact ⟨h.1, ih h.2⟩

/-- So do the arms of a choice. -/
private theorem isStandard_arms {heads : List (Option Condition)} {bodies : List Body}
    (h : bodies.all Body.isStandard = true) :
    (Arm.tagsAll (List.zipWith arm heads bodies)).all Tag.isStandard = true := by
  induction bodies generalizing heads with
  | nil => cases heads <;> rfl
  | cons body bodies ih =>
    rw [List.all_cons, Bool.and_eq_true] at h
    cases heads with
    | nil => rfl
    | cons head heads =>
      rw [List.zipWith_cons_cons]
      cases head <;> simp only [arm, Arm.tagsAll, List.all_append, Bool.and_eq_true] <;>
        exact ⟨h.1, ih h.2⟩

/-- A missing body is empty, and so standard. -/
private theorem isStandard_headD {bodies : List Body} (h : bodies.all Body.isStandard = true) :
    (bodies.headD .empty).isStandard = true := by
  cases bodies with
  | nil => rfl
  | cons body bodies => exact (Bool.and_eq_true_iff.mp h).1

/-- A missing body has no tags at all. -/
private theorem isStandard_tagsIfAny {bodies : List Body} (h : bodies.all Body.isStandard = true)
    (index : Nat) : (Body.tagsIfAny bodies[index]?).all Tag.isStandard = true := by
  cases hb : bodies[index]? with
  | none => rfl
  | some body => exact List.all_eq_true.mp h body (List.mem_of_getElem? hb)

/-- A standard block of standard bodies is a standard tag. -/
theorem isStandard_close {block : OpenBlock} (hblock : block.isStandard = true)
    (line : Option Nat) {bodies : List Body} (h : bodies.all Body.isStandard = true) :
    (Node.tag (block.close line bodies)).isStandard = true := by
  have he := areStandard_elide h
  -- Only its own bodies stand in what is made of a block.
  cases block with
  | conditional name negated conditions => exact isStandard_branches he
  | choice name subject heads =>
    -- What stands before the first arm is dropped.
    refine isStandard_arms (List.all_eq_true.mpr fun body hb => ?_)
    exact List.all_eq_true.mp he body (List.mem_of_mem_drop hb)
  | loop name position header =>
    -- The first body is that of the turns, the second that of `else`.
    let shown := (elide bodies).1
    show ((shown.headD .empty).tags ++ Body.tagsIfAny shown[1]?).all Tag.isStandard = true
    rw [List.all_append, Bool.and_eq_true]
    exact ⟨isStandard_headD he, isStandard_tagsIfAny he 1⟩
  | capture name target => exact isStandard_headD h
  | transform name f => exact nomatch hblock
  | sections name opens passes closes => exact nomatch hblock

/-- What a standard block makes of a tag keeps it standard. -/
theorem claim_ensures (ctx : ParseContext) {block : OpenBlock} (h : block.isStandard = true)
    (finished : Bool) (tag args : String) :
    (block.claim ctx finished tag args).Ensures
      (fun claim => ∀ block', claim = .body block' → block'.isStandard = true)
      (fun e => e.isSyntax = true) := by
  have refused (name : String) : (ctx.refuseTagIn name tag : Parse Claim).Ensures
      (fun claim => ∀ block', claim = .body block' → block'.isStandard = true)
      (fun e => e.isSyntax = true) := ctx.refuseTag_ensures _ _ _
  unfold claim
  split
  · exact .pure fun block' hc => nomatch hc
  · -- A block that goes on is of the same kind, with one more head.
    cases block with
    | conditional name negated conditions =>
      dsimp only
      split
      · refine .bind (ctx.condition_readsMarkup _ _).syntaxOnly fun condition _ => ?_
        exact .pure fun block' hc => by cases hc; rfl
      · exact .pure fun block' hc => by cases hc; rfl
      · exact refused name
    | choice name subject heads =>
      dsimp only
      split
      · refine .bind (Condition.parseValues_readsMarkup ctx _ _).syntaxOnly fun condition _ => ?_
        exact .pure fun block' hc => by cases hc; rfl
      · split
        · exact ctx.refuse_ensures _ _
        · exact .pure fun block' hc => by cases hc; rfl
      · exact refused name
    | loop name position header =>
      dsimp only
      split
      · exact .pure fun block' hc => by cases hc; rfl
      · exact refused name
    | capture name target => exact refused name
    | transform name f => exact nomatch h
    | sections name opens passes closes => exact nomatch h

end OpenBlock

/-! ## The builder -/

/-- A block that is open holds standard tags only. -/
structure BlockFrame.IsStandard (frame : BlockFrame) : Prop where
  block : frame.block.isStandard = true
  finished : frame.finished.all Body.isStandard = true
  enclosing : frame.enclosing.isStandard = true

/-- What was read so far holds standard tags only. -/
structure Builder.IsStandard (b : Builder) : Prop where
  body : b.body.isStandard = true
  frames : ∀ frame ∈ b.frames, frame.IsStandard

/-- The step gives a builder of standard tags, or fails with a syntax error. -/
abbrev Parse.BuildsStandard (x : Parse Builder) : Prop :=
  x.Ensures Builder.IsStandard fun e => e.isSyntax = true

/-- The reader of lines gives bodies of standard tags where those are registered. -/
def LinesReader.ReadsStandard (inner : LinesReader) : Prop :=
  ∀ ctx markup line, ctx.registry.tags = TagKind.standard →
    (inner ctx markup line).Ensures (fun body => body.isStandard = true)
      (fun e => e.isSyntax = true)

/-- Whether a tag of this kind is a standard one. -/
def TagKind.isStandard : TagKind → Bool
  | .transform _ | .sections .. | .counter => false
  | _ => true

/-- The tags of the language itself are standard. -/
theorem TagKind.isStandard_of_get? {name : String} {kind : TagKind}
    (h : TagKind.standard.get? name = some kind) : kind.isStandard = true := by
  have hall : TagKind.standard.all (fun e => e.2.isStandard) = true := rfl
  exact List.all_eq_true.mp hall _ (Assoc.mem_of_get?_eq_some h)

namespace Builder

variable {b : Builder}

/-- The mode of reading does not matter. -/
theorem IsStandard.withMode (hb : b.IsStandard) (mode : ReadingMode) :
    { b with mode }.IsStandard :=
  ⟨hb.body, hb.frames⟩

/-- A standard node may be added. -/
theorem IsStandard.push (hb : b.IsStandard) {node : Node} (hn : node.isStandard = true) :
    (b.push node).IsStandard := by
  refine ⟨?_, hb.frames⟩
  show (b.body.push node).isStandard = true
  rw [Body.isStandard_push, hb.body, hn]
  rfl

/-- A standard block may be opened. -/
private theorem openBlock_buildsStandard (ctx : ParseContext) (hb : b.IsStandard)
    (line : Option Nat) {block : OpenBlock} (h : block.isStandard = true) :
    (b.openBlock ctx line block).BuildsStandard := by
  refine .bind (ParseContext.deeper_ensures _) fun _ _ => .pure ⟨rfl, ?_⟩
  exact List.forall_mem_cons.mpr ⟨⟨h, rfl, hb.body⟩, hb.frames⟩

/-- What a standard tag starts with is standard. -/
private theorem start_buildsStandard {ctx : ParseContext}
    (hctx : ctx.registry.tags = TagKind.standard) {inner : LinesReader}
    (hinner : inner.ReadsStandard) (hb : b.IsStandard) {kind : TagKind}
    (hkind : kind.isStandard = true) (name args : String) :
    (b.start ctx inner kind name args).BuildsStandard := by
  refine .bind (P := fun _ => True) (fun _ => trivial) fun line _ => ?_
  refine .atLine ?_ line
  -- Markup is read first; then the tag is added, or a block for it is opened.
  cases kind with
  | conditional negated =>
    refine .bind (ctx.condition_readsMarkup _ _).syntaxOnly fun condition _ => ?_
    exact openBlock_buildsStandard ctx hb line rfl
  | choice =>
    refine .bind (Expression.parseSubject_readsMarkup ctx _).syntaxOnly fun subject _ => ?_
    exact openBlock_buildsStandard ctx hb line rfl
  | loop =>
    refine .bind (LoopHeader.parse_readsMarkup ctx _).syntaxOnly fun header _ => ?_
    exact openBlock_buildsStandard ctx hb line rfl
  | interrupt interrupt =>
    dsimp only
    split
    · exact ctx.refuse_ensures _ _
    · exact .pure (hb.push rfl)
  | assign =>
    dsimp only
    split
    · refine .bind (ctx.pipeline_readsMarkup _).syntaxOnly fun source _ => ?_
      exact .pure (hb.push rfl)
    · exact ctx.refuse_ensures _ _
  | capture =>
    dsimp only
    split
    · exact openBlock_buildsStandard ctx hb line rfl
    · exact ctx.refuse_ensures _ _
  | comment => exact .pure (hb.withMode _)
  | inlineComment =>
    dsimp only
    split
    · exact .pure (hb.push rfl)
    · exact ctx.refuse_ensures _ _
  | raw =>
    dsimp only
    split
    · refine .bind (P := fun _ => True) (fun _ => trivial) fun trimStart _ => ?_
      exact .pure (hb.withMode _)
    · exact ctx.refuse_ensures _ _
  | echo =>
    refine .bind (ctx.pipeline_readsMarkup _).syntaxOnly fun source _ => ?_
    exact .pure (hb.push rfl)
  | lines =>
    refine .bind (ParseContext.deeper_ensures _) fun deeper hd => ?_
    refine .bind (hinner deeper args _ (hd ▸ hctx)) fun body hbody => ?_
    exact .pure (hb.push hbody)
  | includePartial =>
    refine .bind (PartialCall.parse_readsMarkup ctx _ _).syntaxOnly fun call _ => ?_
    exact .pure (hb.push rfl)
  | renderPartial =>
    dsimp only
    split
    · refine .bind (PartialCall.parse_readsMarkup ctx _ _).syntaxOnly fun call _ => ?_
      split
      · exact .pure (hb.push rfl)
      · exact ctx.refuse_ensures _ _
    · exact ctx.refuse_ensures _ _
  | transform f => exact absurd hkind Bool.false_ne_true
  | sections opens passes closes => exact absurd hkind Bool.false_ne_true
  | counter => exact absurd hkind Bool.false_ne_true

/-- A tag that a block makes something of keeps the builder standard. -/
private theorem handOver_buildsStandard (ctx : ParseContext) {stray : String → Parse Builder}
    (hstray : ∀ tag, (stray tag).BuildsStandard) (hb : b.IsStandard) (tag args : String) :
    (b.handOver ctx stray tag args).BuildsStandard := by
  unfold handOver
  split
  · exact hstray tag
  · rename_i frame frames hframes
    have hall := hb.frames
    rw [hframes] at hall
    -- The body that is open joins the finished ones before the block makes anything of the tag.
    obtain ⟨hframe, hrest⟩ := List.forall_mem_cons.mp hall
    have hbodies : (frame.finished ++ [b.body]).all Body.isStandard = true := by
      rw [List.all_append, hframe.finished, Bool.true_and, List.all_cons, hb.body]
      rfl
    refine .bind (.atLine (frame.block.claim_ensures ctx hframe.block _ tag args) _)
      fun claim hclaim => ?_
    cases claim with
    | pass => exact .pure hb
    | body block =>
      refine .pure ⟨rfl, List.forall_mem_cons.mpr ⟨?_, hrest⟩⟩
      exact ⟨hclaim block rfl, hbodies, hframe.enclosing⟩
    | close =>
      refine .pure ⟨?_, hrest⟩
      show (frame.enclosing.push _).isStandard = true
      rw [Body.isStandard_push, hframe.enclosing, Bool.true_and]
      exact frame.block.isStandard_close hframe.block frame.line hbodies

/-- Text is standard. -/
private theorem addText_buildsStandard (hb : b.IsStandard) (text : String) :
    (b.addText text).BuildsStandard := by
  have added (text : String) : (if text.isEmpty then b else b.push (.text text)).IsStandard := by
    split
    · exact hb
    · exact hb.push rfl
  exact .bind (P := fun _ => True) (fun _ => trivial) fun trim _ => .pure (added _)

/-- Turning to a token adds no node but text. -/
private theorem turnTo_buildsStandard (hb : b.IsStandard) (d : Delimited) :
    (b.turnTo d).BuildsStandard := by
  refine .bind (.modify _) fun _ _ => ?_
  refine .bind (.modify _) fun _ _ => .pure ?_
  split
  · exact ⟨Body.isStandard_trimLastText hb.body, hb.frames⟩
  · exact hb

/-- An output is standard. -/
private theorem addOutput_buildsStandard (ctx : ParseContext) (hb : b.IsStandard)
    (d : Delimited) : (b.addOutput ctx d).BuildsStandard := by
  refine .bind (turnTo_buildsStandard hb d) fun b hb => ?_
  exact .bind (.atLine (ctx.pipeline_readsMarkup _).syntaxOnly _)
    fun pipeline _ => .pure (hb.push rfl)

/-- A tag is started, or handed to the block that is open. -/
private theorem addTag_buildsStandard {ctx : ParseContext}
    (hctx : ctx.registry.tags = TagKind.standard) {inner : LinesReader}
    (hinner : inner.ReadsStandard) {stray : String → Parse Builder}
    (hstray : ∀ tag, (stray tag).BuildsStandard) (hb : b.IsStandard) (d : Delimited) :
    (b.addTag ctx inner stray d).BuildsStandard := by
  refine .bind (turnTo_buildsStandard hb d) fun b hb => ?_
  split
  · exact ctx.refuse_ensures _ _
  · split
    · rename_i kind hkind
      rw [hctx] at hkind
      exact start_buildsStandard hctx hinner hb (TagKind.isStandard_of_get? hkind) _ _
    · exact handOver_buildsStandard ctx hstray hb _ _

/-- A comment is a standard tag without a body. -/
private theorem skip_buildsStandard (hb : b.IsStandard) (name : String) (depth : Nat)
    (inRaw : Bool) (token : Token) : (b.skip name depth inRaw token).BuildsStandard := by
  unfold skip
  split
  · exact .pure hb
  · -- Only the end of the comment adds a tag; everything else changes the mode at most.
    split
    · refine .pure ?_
      split
      · exact hb.withMode _
      · exact hb
    · split
      · exact .pure (hb.withMode _)
      · exact .pure (hb.withMode _)
      · exact .pure (hb.withMode _)
      · refine .bind (.modify _) fun _ _ => .pure ?_
        have hpush : (b.pushTag .comment).IsStandard := hb.push rfl
        exact hpush.withMode _
      · exact .pure hb

/-- A raw block is one text. -/
private theorem keep_buildsStandard (hb : b.IsStandard) (name : String) (trimStart : Bool)
    (text : String) (token : Token) : (b.keep name trimStart text token).BuildsStandard := by
  unfold keep
  split
  · have hpush (text : String) : (b.pushTag (.raw text)).IsStandard := hb.push rfl
    exact .bind (.modify _) fun _ _ => .pure ((hpush _).withMode _)
  · exact .pure (hb.withMode _)

/-- A token keeps the builder standard. -/
private theorem add_buildsStandard {ctx : ParseContext}
    (hctx : ctx.registry.tags = TagKind.standard) {inner : LinesReader}
    (hinner : inner.ReadsStandard) {stray : String → Parse Builder}
    (hstray : ∀ tag, (stray tag).BuildsStandard) (hb : b.IsStandard) (token : Token) :
    (b.add ctx inner stray token).BuildsStandard := by
  unfold add
  split
  · exact skip_buildsStandard hb _ _ _ token
  · exact keep_buildsStandard hb _ _ _ token
  · cases token with
    | text text line => exact addText_buildsStandard hb text
    | output d => exact addOutput_buildsStandard ctx hb d
    | tag d => exact addTag_buildsStandard hctx hinner hstray hb d

/-- So do any number of tokens. -/
private theorem addAll_buildsStandard {ctx : ParseContext}
    (hctx : ctx.registry.tags = TagKind.standard) {inner : LinesReader}
    (hinner : inner.ReadsStandard) {stray : String → Parse Builder}
    (hstray : ∀ tag, (stray tag).BuildsStandard) (hb : b.IsStandard) (tokens : List Token) :
    (addAll ctx inner stray tokens b).BuildsStandard := by
  induction tokens generalizing b with
  | nil => exact .pure hb
  | cons token tokens ih =>
    exact .bind (add_buildsStandard hctx hinner hstray hb token) fun b hb => ih hb

/-- At the end there is one body, or a block that is still open. -/
private theorem finish_ensures (ctx : ParseContext) (hb : b.IsStandard) :
    (b.finish ctx).Ensures (fun body => body.isStandard = true) (fun e => e.isSyntax = true) := by
  unfold finish
  split
  · exact ctx.refuse_ensures _ _
  · exact ctx.refuse_ensures _ _
  · exact ctx.refuse_ensures _ _
  · exact .pure hb.body

/-- At first nothing is built. -/
theorem IsStandard.initial : ({} : Builder).IsStandard :=
  ⟨rfl, fun _ h => nomatch h⟩

end Builder

/-! ## Documents -/

/-- By induction on the levels that are left for lines within lines. -/
theorem Body.parseLines_readsStandard (levels : Nat) :
    LinesReader.ReadsStandard (Body.parseLines levels) := by
  -- Lines may hold lines again, one level deeper.
  induction levels with
  | zero => exact fun _ _ _ _ => .fail rfl
  | succ levels ih =>
    intro ctx markup line hctx
    have hstray (tag : String) :
        (ctx.refuseTag "liquid" "%\x7d" tag : Parse Builder).BuildsStandard :=
      ctx.refuseTag_ensures _ _ _
    refine .bind (Builder.addAll_buildsStandard hctx ih hstray .initial _) fun b hb => ?_
    exact Builder.finish_ensures ctx hb

namespace Document

/-- A delimiter without an end is an error of syntax. -/
private theorem refuseUnterminated_ensures (ctx : ParseContext) (u : Unterminated) :
    (refuseUnterminated ctx u : Parse Document).Ensures (fun d => d.isStandard = true)
      (fun e => e.isSyntax = true) := by
  refine .bind (.modify _) fun _ _ => ?_
  split <;> exact ctx.refuse_ensures _ _

/-- A document that is read with the standard tags holds no others, and one that is refused
is refused with a syntax error. -/
theorem parse_ensures {ctx : ParseContext} (hctx : ctx.registry.tags = TagKind.standard)
    (source : String) :
    (Document.parse ctx source).Ensures (fun d => d.isStandard = true)
      (fun e => e.isSyntax = true) := by
  refine .mapError (E := fun e => e.isSyntax = true) ?_ fun e he => by
    rw [Error.isSyntax_inTemplate]
    exact he
  have hstray (tag : String) : (ctx.refuseOuterTag tag : Parse Builder).BuildsStandard := by
    unfold ParseContext.refuseOuterTag
    split <;> exact ctx.refuse_ensures _ _
  refine .bind (Builder.addAll_buildsStandard hctx (Body.parseLines_readsStandard _) hstray
    .initial _) fun b hb => ?_
  refine .bind (Builder.finish_ensures ctx hb) fun body hbody => ?_
  split
  · exact refuseUnterminated_ensures ctx _
  · exact .pure hbody

end Document

/-- A partial that is read with the standard tags holds no others. -/
theorem Settings.readPartial_isStandard {settings : Settings}
    (h : settings.registry.tags = TagKind.standard) {name : String} {document : Document}
    (hread : settings.readPartial name = .ok document) : document.isStandard = true := by
  unfold readPartial at hread
  cases hfile : settings.registry.files name with
  | error e =>
    rw [hfile] at hread
    exact nomatch hread
  | ok source =>
    rw [hfile] at hread
    let options : ParseOptions := { settings.parsing with name := some name }
    let ctx := ParseContext.ofOptions settings.registry options
    have hctx : ctx.registry.tags = TagKind.standard := h
    -- A partial is parsed by the same registry, whose tags are the standard ones.
    have hp := Document.parse_ensures hctx source {}
    have hread : (Document.parse ctx source {}).1 = .ok document := hread
    rw [hread] at hp
    exact hp

end Stencil
