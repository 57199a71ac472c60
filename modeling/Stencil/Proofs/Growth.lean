import Stencil.Proofs.Building
import Stencil.Proofs.StandardTags
import Stencil.Proofs.Tokens

/-!
# How bodies grow

Bodies are filled node by node, their last text is trimmed now and then, and a block that ends puts
its bodies into a tag. A property that lasts through all of this holds of every body of a document
while it is read with the standard tags, and of the document in the end.

Inside a tag whose lines are tags there are no texts, so its body may have a stronger property than
bodies in general.

## Key definitions

- `Body.Grows`: properties of bodies that last
- `Builder.Bodies`, `BlockFrame.Bodies`: a property of all bodies of a builder or an open block

## Key results

- `Body.Grows.add`: one token
- `Body.Grows.parseLines`: tags whose lines are tags
- `Body.Grows.parse`: documents
-/

namespace Stencil

/-- A property of bodies that lasts while they grow; `texts` says whether there may be texts, and
`Lines` is what holds of the bodies of lines. -/
structure Body.Grows (texts : Bool) (Lines Q : Body → Prop) : Prop where
  empty : Q .empty
  trim {body : Body} : Q body → Q body.trimLastText
  text {body : Body} (text : String) : texts = true → Q body → Q (body.push (.text text))
  output {body : Body} (p : Pipeline) : Q body → Q (body.push (.output p))
  single {body : Body} {kind : TagKind} {tag : Tag} : kind.isStandard = true → kind.Single tag →
    Q body → Q (body.push (.tag tag))
  lines {body inside : Body} (line : Option Nat) : Lines inside → Q body →
    Q (body.push (.tag (.lines inside line)))
  comment {body : Body} : Q body → Q (body.push (.tag .comment))
  raw {body : Body} (text : String) : Q body → Q (body.push (.tag (.raw text)))
  close {body : Body} {block : OpenBlock} {bodies : List Body} (line : Option Nat) :
    block.isStandard = true → (∀ inside ∈ bodies, Q inside) → Q body →
    Q (body.push (.tag (block.close line bodies)))

/-- A property of all bodies of an open block, and the block is standard. -/
structure BlockFrame.Bodies (Q : Body → Prop) (frame : BlockFrame) : Prop where
  enclosing : Q frame.enclosing
  finished : ∀ body ∈ frame.finished, Q body
  block : frame.block.isStandard = true

/-- A property of all bodies of a builder, and its open blocks are standard. -/
structure Builder.Bodies (Q : Body → Prop) (b : Builder) : Prop where
  body : Q b.body
  frames : ∀ frame ∈ b.frames, frame.Bodies Q

/-- The bodies of the block with one more. -/
theorem BlockFrame.Bodies.finished_concat {Q : Body → Prop} {frame : BlockFrame}
    (h : frame.Bodies Q) {body : Body} (hbody : Q body) :
    ∀ inside ∈ frame.finished ++ [body], Q inside :=
  List.forall_mem_append.mpr ⟨h.finished, List.forall_mem_singleton.mpr hbody⟩

/-- What is read by the lines, with the standard tags, satisfies the property. -/
def LinesReader.Gives (inner : LinesReader) (Q : Body → Prop) : Prop :=
  ∀ (ctx : ParseContext) markup line s body t, ctx.registry.tags = TagKind.standard →
    inner ctx markup line s = (.ok body, t) → Q body

theorem TagKind.isStandard_of_registered {registry : Registry}
    (h : registry.tags = TagKind.standard) {name : String} {kind : TagKind}
    (hkind : registry.tags.get? name = some kind) : kind.isStandard = true :=
  isStandard_of_get? (h ▸ hkind)

/-- A standard tag opens a standard block. -/
theorem TagKind.Opens.isStandard {name : String} {kind : TagKind} {block : OpenBlock}
    (h : kind.Opens name block) (hkind : kind.isStandard = true) : block.isStandard = true := by
  cases h with
  | conditional | choice | loop | capture => rfl
  | transform | sections => exact nomatch hkind

/-- A block stays standard from body to body. -/
theorem OpenBlock.Turns.isStandard {block block' : OpenBlock} {finished : Bool} {tag : String}
    (h : block.Turns finished tag block') (hblock : block.isStandard = true) :
    block'.isStandard = true := by
  cases h with
  | conditional | choice | loop => rfl
  | sections => exact hblock

/-- A delimited token that is turned to may trim the body that is being filled. -/
theorem Builder.body_facing {Q : Body → Prop} (htrim : ∀ {body}, Q body → Q body.trimLastText)
    {b : Builder} (h : Q b.body) (d : Delimited) : Q (b.facing d).body := by
  unfold facing
  split
  · exact htrim h
  · exact h

/-- What lasts separately lasts together. -/
theorem Body.Grows.and {texts : Bool} {Lines Q R : Body → Prop} (hQ : Body.Grows texts Lines Q)
    (hR : Body.Grows texts Lines R) : Body.Grows texts Lines fun body => Q body ∧ R body where
  empty := ⟨hQ.empty, hR.empty⟩
  trim h := ⟨hQ.trim h.1, hR.trim h.2⟩
  text s htexts h := ⟨hQ.text s htexts h.1, hR.text s htexts h.2⟩
  output p h := ⟨hQ.output p h.1, hR.output p h.2⟩
  single hkind htag h := ⟨hQ.single hkind htag h.1, hR.single hkind htag h.2⟩
  lines line hinside h := ⟨hQ.lines line hinside h.1, hR.lines line hinside h.2⟩
  comment h := ⟨hQ.comment h.1, hR.comment h.2⟩
  raw s h := ⟨hQ.raw s h.1, hR.raw s h.2⟩
  close line hblock hbodies h :=
    ⟨hQ.close line hblock (fun inside hi => (hbodies inside hi).1) h.1,
      hR.close line hblock (fun inside hi => (hbodies inside hi).2) h.2⟩

namespace Body.Grows

variable {texts : Bool} {Lines Q : Body → Prop} (hQ : Body.Grows texts Lines Q)
include hQ

/-- A token keeps the property. -/
theorem add {ctx : ParseContext} (hctx : ctx.registry.tags = TagKind.standard)
    {inner : LinesReader} (hinner : inner.Gives Lines) {token : Token}
    (htoken : token.isText = true → texts = true) {b b' : Builder} {w w' : Bool}
    (h : b.Bodies Q) (hadds : Builder.Adds ctx inner token b w b' w') : b'.Bodies Q := by
  have hfacing (d : Delimited) : Q (b.facing d).body := b.body_facing (Q := Q) hQ.trim h.body d
  -- What only changes the body that is being filled.
  have refilled {c : Builder} (hbody : Q c.body) (hframes : c.frames = b.frames) : c.Bodies Q :=
    ⟨hbody, hframes ▸ h.frames⟩
  cases hadds with
  | text hmode text line =>
    have hadded (text : String) : (b.withText text).Bodies Q := by
      unfold Builder.withText
      split
      · exact h
      · exact refilled (hQ.text text (htoken rfl) h.body) rfl
    exact hadded _
  | output hmode d p => exact refilled (hQ.output p (hfacing d)) (b.frames_facing d)
  | @single _ _ d _ _ _ _ hmode hname hkind htag =>
    exact refilled (hQ.single (TagKind.isStandard_of_registered hctx hkind) htag (hfacing d))
      (b.frames_facing d)
  | @lines _ _ d _ _ deeper _ _ _ hmode hname hkind hdeeper hs line hread =>
    have hstandard : deeper.registry.tags = TagKind.standard := hdeeper ▸ hctx
    exact refilled (hQ.lines line (hinner _ _ _ _ _ _ hstandard hread) (hfacing d))
      (b.frames_facing d)
  | @opens _ _ d _ _ _ _ hmode hname hkind hblock line =>
    have hstandard := hblock.isStandard (TagKind.isStandard_of_registered hctx hkind)
    exact ⟨hQ.empty,
      List.forall_mem_cons.mpr ⟨⟨hfacing d, List.forall_mem_nil _, hstandard⟩, h.frames⟩⟩
  | @comment _ _ d => exact refilled (hfacing d) (b.frames_facing d)
  | @raw _ _ d => exact refilled (hfacing d) (b.frames_facing d)
  | @pass _ _ d => exact refilled (hfacing d) (b.frames_facing d)
  | @body _ _ d _ _ frame frames block hmode hname hnone hframes hblock =>
    obtain ⟨hframe, hframes⟩ := List.forall_mem_cons.mp (hframes ▸ h.frames)
    have hstandard := hblock.isStandard hframe.block
    exact ⟨hQ.empty, List.forall_mem_cons.mpr
      ⟨⟨hframe.enclosing, hframe.finished_concat (hfacing d), hstandard⟩, hframes⟩⟩
  | @close _ _ d _ _ frame frames hmode hname hnone hframes hend =>
    obtain ⟨hframe, hframes⟩ := List.forall_mem_cons.mp (hframes ▸ h.frames)
    have hbodies := hframe.finished_concat (hfacing d)
    exact ⟨hQ.close frame.line hframe.block hbodies hframe.enclosing, hframes⟩
  | skip => exact refilled h.body rfl
  | endComment => exact refilled (hQ.comment h.body) rfl
  | keep => exact refilled h.body rfl
  | endRaw => exact refilled (hQ.raw _ h.body) rfl

/-- So do any number of tokens. -/
theorem addAll {ctx : ParseContext} (hctx : ctx.registry.tags = TagKind.standard)
    {inner : LinesReader} (hinner : inner.Gives Lines) {stray : String → Parse Builder}
    (hstray : ∀ tag w Q, (stray tag).Yields w Q) {tokens : List Token}
    (htokens : ∀ token ∈ tokens, token.isText = true → texts = true) {w : Bool} :
    (Builder.addAll ctx inner stray tokens {}).Yields w fun b _ => b.Bodies Q :=
  Builder.addAll_yields hstray (I := fun _ b _ => b.Bodies Q)
    (fun hmem h hadds => hQ.add hctx hinner (htokens _ hmem) h hadds) []
    ⟨hQ.empty, List.forall_mem_nil _⟩

/-! ## Documents -/

/-- The document of a template. -/
theorem parse {ctx : ParseContext} (hctx : ctx.registry.tags = TagKind.standard)
    (hlines : ∀ levels, LinesReader.Gives (Body.parseLines levels) Lines)
    (htexts : texts = true) {source : String} {s t : ParseState} {document : Document}
    (h : Document.parse ctx source s = (.ok document, t)) : Q document := by
  have hofStream : (Document.ofStream ctx (.ofSource source)).Yields s.trimNext
      fun document _ => Q document := by
    refine .bind (hQ.addAll hctx (hlines _) (fun _ _ _ => ctx.refuseOuterTag_yields _)
      fun _ _ _ => htexts) fun b _ hb => ?_
    refine .bind Builder.finish_yields fun body _ hbody => ?_
    obtain ⟨rfl, -⟩ := hbody
    -- A block that is left open ends in an error, which gives no document.
    split
    · exact Document.refuseUnterminated_yields ctx _
    · exact .pure hb.body
  exact Parse.Yields.mapError hofStream _ s document t rfl h

end Body.Grows

/-- Lines are tags without dashes. -/
theorem TokenStream.eq_tag_of_mem_ofLines {markup : String} {line : Nat} {token : Token}
    (h : token ∈ (ofLines markup line).tokens) : ∃ d, token = .tag d ∧ d.trimRight = false := by
  obtain ⟨⟨cs, number⟩, -, hline⟩ := List.mem_filterMap.mp h
  unfold lineTag? at hline
  dsimp only at hline
  split at hline
  · exact nomatch hline
  · cases hline
    exact ⟨_, rfl, rfl⟩

/-- The lines of a text hold no text of their own. -/
theorem TokenStream.isText_of_mem_ofLines {markup : String} {line : Nat} {token : Token}
    (h : token ∈ (ofLines markup line).tokens) : token.isText = false := by
  obtain ⟨d, rfl, -⟩ := eq_tag_of_mem_ofLines h
  rfl

/-- What lasts where there are no texts holds of the bodies of lines. -/
theorem Body.Grows.parseLines {Lines : Body → Prop} (hQ : Body.Grows false Lines Lines)
    (levels : Nat) : LinesReader.Gives (Body.parseLines levels) Lines := by
  induction levels with
  | zero => exact fun _ _ _ _ _ _ _ h => nomatch (Prod.mk.inj h).1
  | succ levels ih =>
    intro ctx markup line s body t hctx h
    have hyields : (Body.parseLines (levels + 1) ctx markup line).Yields s.trimNext
        fun body _ => Lines body := by
      -- Lines are tags only, so nothing needs to be known of texts.
      refine .bind (hQ.addAll hctx ih (fun _ _ _ => ctx.refuseTag_yields _ _ _)
        fun token htoken htext => ?_) fun b _ hb => ?_
      · rw [TokenStream.isText_of_mem_ofLines htoken] at htext
        exact nomatch htext
      · exact Builder.finish_yields.mono fun body _ hbody => hbody.1 ▸ hb.body
    exact hyields s body t rfl h

end Stencil
