import Stencil.Proofs.LineTokens
import Stencil.Proofs.Reading
import Stencil.Proofs.Spots

/-!
# Lines of the source

Where lines are kept for error messages, every output and every tag of a document keeps the line of
the source that its token starts on. Only tags on lines of their own may keep another one: they are
counted from the line of the tag that they belong to, and the line feeds in front of its arguments
are not among what is counted.

## Key definitions

- `Builder.StartsAt`: what a registered tag starts with, and the lines that it keeps
- `OpenedAt`, `ReadAt`: how the builder comes from the spots of the tokens that were added

## Key results

- `Builder.startsAt_of_add`: a registered tag keeps the line of its token
- `ReadAt.add`: every token keeps the invariant
- `Document.nodesAt_of_parse`: the lines that a document keeps
- `Document.not_nodesAt_linesAhead`: a line feed in front of lines is not counted
-/

namespace Stencil

open Attempt Builder

/-! ## What tokens start with -/

/-- What the attempt gives from the state `s`, if it gives anything, satisfies `Q`. -/
def Attempt.GivesFrom {σ α : Type} (s : σ) (x : Attempt σ α) (Q : α → Prop) : Prop :=
  ∀ a t, x s = (.ok a, t) → Q a

namespace Attempt.GivesFrom

variable {σ α β : Type} {s : σ} {Q : α → Prop} {R : β → Prop}

/-- Giving a value is giving what satisfies `Q`. -/
theorem pure {a : α} (h : Q a) : GivesFrom s (Pure.pure a) Q := by
  intro a' t ha
  obtain ⟨heq, -⟩ := Prod.mk.inj ha
  cases heq
  exact h

/-- What is given is given by the second step. -/
theorem bind {x : Attempt σ α} {f : α → Attempt σ β}
    (h : ∀ a t, x s = (.ok a, t) → GivesFrom t (f a) R) : GivesFrom s (x >>= f) R := by
  intro b u hb
  obtain ⟨a, t, ha, hb⟩ := ok_of_bind hb
  exact h a t ha b u hb

/-- An error gives nothing. -/
theorem mapError {x : Attempt σ α} (h : GivesFrom s x Q) (f : Error → Error) :
    GivesFrom s (Attempt.mapError f x) Q := by
  intro a t ha
  unfold Attempt.mapError at ha
  rcases hx : x s with ⟨r, u⟩
  rw [hx] at ha
  cases r with
  | ok b => exact h a t (hx.trans ha)
  | error e => exact nomatch (Prod.mk.inj ha).1

/-- What is refused gives nothing. -/
theorem refuse {s : ParseState} {Q : α → Prop} (ctx : ParseContext) (key : String)
    (values : Placeholders := []) : GivesFrom s (ctx.refuse key values) Q :=
  fun _ _ h => nomatch (Prod.mk.inj h).1

end Attempt.GivesFrom

namespace Builder

/-- What a registered tag on the given line starts with, and all lines that it keeps. -/
inductive StartsAt (ctx : ParseContext) (inner : LinesReader) (line : Nat) (kind : TagKind)
    (name args : String) (b : Builder) : Builder → Prop where
  | single {tag : Tag} (htag : kind.Single tag) (hline : tag.StandsAt line) :
      StartsAt ctx inner line kind name args b (b.pushTag tag)
  | lines {deeper : ParseContext} {body : Body} {s t : ParseState} (hkind : kind = .lines)
      (hdeeper : deeper.registry = ctx.registry) (hlines : deeper.lines = true)
      (hread : inner deeper args line s = (.ok body, t)) :
      StartsAt ctx inner line kind name args b (b.pushTag (.lines body (some line)))
  | opens {block : OpenBlock} (hblock : kind.Opens name block) :
      StartsAt ctx inner line kind name args b
        { b with
          body := .empty
          frames := { block, line := some line, enclosing := b.body } :: b.frames }
  | comment (hkind : kind = .comment) :
      StartsAt ctx inner line kind name args b { b with mode := .comment name 0 false }
  | raw (hkind : kind = .raw) (trimStart : Bool) :
      StartsAt ctx inner line kind name args b { b with mode := .raw name trimStart "" }

variable {ctx : ParseContext} {inner : LinesReader} {stray : String → Parse Builder}
  {b b' : Builder} {s t : ParseState} {d : Delimited}

/-- The current line is that of the state, which stays as it is. -/
private theorem eq_of_currentLine (hlines : ctx.lines = true) {line : Option Nat}
    (h : ctx.currentLine s = (.ok line, t)) : line = some s.line ∧ t = s := by
  rw [ParseContext.currentLine, ParseContext.lineOf, if_pos hlines] at h
  obtain ⟨hline, ht⟩ := Prod.mk.inj h
  exact ⟨(Except.ok.inj hline).symm, ht.symm⟩

/-- A pipeline notes the current line. -/
private theorem pipeline_givesFrom (hlines : ctx.lines = true) (markup : String) :
    GivesFrom s (ctx.pipeline markup) fun p => p.line = some s.line := by
  rw [ParseContext.pipeline_eq]
  exact .bind fun line t hline => .bind fun p u _ => .pure (eq_of_currentLine hlines hline).1

/-- A tag that is started stands on its line. -/
private theorem start_givesFrom (hlines : ctx.lines = true) (kind : TagKind)
    (name args : String) :
    GivesFrom s (b.start ctx inner kind name args)
      (StartsAt ctx inner s.line kind name args b) := by
  -- A tag opens a block on its line,
  have opened {block : OpenBlock} (hblock : kind.Opens name block) {u : ParseState} :
      GivesFrom u (b.openBlock ctx (some s.line) block)
        (StartsAt ctx inner s.line kind name args b) :=
    .bind fun _ _ _ => .pure (.opens hblock)
  -- or is added at its line.
  have added {tag : Tag} (htag : kind.Single tag) (hline : tag.StandsAt s.line) {u : ParseState} :
      GivesFrom u (pure (b.pushTag tag)) (StartsAt ctx inner s.line kind name args b) :=
    .pure (.single htag hline)
  refine .bind fun line t hline => .mapError ?_ _
  obtain ⟨rfl, rfl⟩ := eq_of_currentLine hlines hline
  cases kind with
  | conditional negated => exact .bind fun condition _ _ => opened (.conditional ..)
  | choice => exact .bind fun subject _ _ => opened (.choice _)
  | loop => exact .bind fun header _ _ => opened (.loop ..)
  | interrupt interrupt =>
    dsimp only
    split
    · exact .refuse ctx _ _
    · exact added (.interrupt ..) rfl
  | assign =>
    dsimp only
    split
    · refine .bind fun source t hsource => ?_
      exact added (.assign ..) ⟨rfl, pipeline_givesFrom hlines _ source t hsource⟩
    · exact .refuse ctx _
  | capture =>
    dsimp only
    split
    · exact opened (.capture _)
    · exact .refuse ctx _
  | comment => exact .pure (.comment rfl)
  | inlineComment =>
    dsimp only
    split
    · exact added .inlineComment trivial
    · exact .refuse ctx _
  | raw =>
    dsimp only
    split
    · exact .bind fun trimStart _ _ => .pure (.raw rfl trimStart)
    · exact .refuse ctx _ _
  | echo =>
    refine .bind fun source t hsource => ?_
    exact added (.echo _) (pipeline_givesFrom hlines _ source t hsource)
  | lines =>
    refine .bind fun deeper t hdeeper => .bind fun body u hread => .pure ?_
    unfold ParseContext.deeper at hdeeper
    split at hdeeper
    · cases (Prod.mk.inj hdeeper).1
    · obtain ⟨hctx, -⟩ := Prod.mk.inj hdeeper
      obtain rfl := Except.ok.inj hctx
      refine .lines rfl ?_ ?_ hread
      · rfl
      · exact hlines
  | includePartial => exact .bind fun call _ _ => added (.includePartial ..) rfl
  | renderPartial =>
    dsimp only
    split
    · refine .bind fun call _ _ => ?_
      split
      · exact added (.renderPartial ..) rfl
      · exact .refuse ctx _
    · exact .refuse ctx _
  | transform f => exact opened (.transform f)
  | sections first passes closes => exact opened (.sections ..)
  | counter => exact added (.counter ..) trivial

/-- A registered tag keeps the line of its token. -/
theorem startsAt_of_add (hlines : ctx.lines = true) (hmode : b.mode = .nodes)
    {name args : String} (hname : tagParts? d.markup = some (name, args)) {kind : TagKind}
    (hkind : ctx.registry.tags.get? name = some kind)
    (h : b.add ctx inner stray (.tag d) s = (.ok b', t)) :
    StartsAt ctx inner d.line kind name args (b.facing d) b' := by
  unfold add at h
  rw [hmode] at h
  dsimp only at h
  -- The tag is turned to first, which sets the line that everything is noted with.
  unfold addTag at h
  rw [bind_of_ok (turnTo_eq b d s), hname] at h
  dsimp only at h
  rw [hkind] at h
  exact start_givesFrom hlines kind name args b' t h

/-- An output keeps the line of its token. -/
theorem output_of_add (hlines : ctx.lines = true) (hmode : b.mode = .nodes)
    (h : b.add ctx inner stray (.output d) s = (.ok b', t)) :
    ∃ p : Pipeline, p.line = some d.line ∧ b' = (b.facing d).push (.output p) := by
  have hgives : GivesFrom s (b.addOutput ctx d) fun b' =>
      ∃ p : Pipeline, p.line = some d.line ∧ b' = (b.facing d).push (.output p) := by
    -- The line is that of the token from the moment it is turned to.
    refine .bind fun c u hturn => .bind fun p v hp => .pure ⟨p, ?_, ?_⟩
    all_goals
      rw [turnTo_eq] at hturn
      obtain ⟨hc, rfl⟩ := Prod.mk.inj hturn
      obtain rfl := Except.ok.inj hc
    · exact GivesFrom.mapError (pipeline_givesFrom hlines _) _ p v hp
    · rfl
  unfold add at h
  rw [hmode] at h
  exact hgives b' t h

end Builder

/-! ## Open blocks -/

/-- The nodes of the body that is being filled, without texts, and the open blocks around it keep
the lines of the spots of what was read. -/
inductive OpenedAt (ahead : Delimited → Nat) :
    List BlockFrame → List Node → List Spot → Prop where
  | outside {nodes : List Node} {all : List Spot} : NodesAt (TagAt ahead) nodes all →
      OpenedAt ahead [] nodes all
  | inside {frame : BlockFrame} {frames : List BlockFrame} {nodes : List Node} {opener : Spot}
      {before finished last : List Spot} :
      OpenedAt ahead frames (nonTexts frame.enclosing.nodes) before →
      opener.token.name? = some frame.block.name → frame.line = some opener.line → frame.Fits →
      FinishedAt (TagAt ahead) (frame.finished.map (nonTexts ·.nodes)) finished →
      NodesAt (TagAt ahead) nodes last →
      OpenedAt ahead (frame :: frames) nodes (before ++ opener :: (finished ++ last))

/-- Blocks of the host are not open. -/
theorem BlockFrame.Fits.not_sections {frame : BlockFrame} (h : frame.Fits)
    {name opens passes closes : String} : frame.block ≠ .sections name opens passes closes := by
  intro hblock
  unfold Fits at h
  rw [hblock] at h
  exact h

/-- A block that ends keeps its line. -/
theorem BlockFrame.Fits.standsAt {frame : BlockFrame} (h : frame.Fits) {line : Nat}
    (hline : frame.line = some line) (bodies : List Body) :
    (frame.block.close frame.line bodies).StandsAt line := by
  obtain ⟨block, kept, finished, enclosing⟩ := frame
  cases block with
  | conditional | choice | loop | capture => exact hline
  | transform | sections => exact h.elim

namespace OpenedAt

variable {ahead : Delimited → Nat} {frame : BlockFrame} {frames : List BlockFrame}
  {nodes : List Node} {all : List Spot}

/-- What is added to the body that is being filled. -/
theorem extend (h : OpenedAt ahead frames nodes all) {more : List Node} {behind : List Spot}
    (hmore : ∀ {nodes : List Node} {all : List Spot}, NodesAt (TagAt ahead) nodes all →
      NodesAt (TagAt ahead) (nodes ++ more) (all ++ behind)) :
    OpenedAt ahead frames (nodes ++ more) (all ++ behind) := by
  cases h with
  | outside h => exact .outside (hmore h)
  | inside henclosing hname hline hfits hfinished hlast =>
    rw [List.append_assoc, List.cons_append, List.append_assoc]
    exact .inside henclosing hname hline hfits hfinished (hmore hlast)

/-- Text adds no node. -/
theorem text (h : OpenedAt ahead frames nodes all) {spot : Spot}
    (htoken : spot.token.isText = true) : OpenedAt ahead frames nodes (all ++ [spot]) := by
  have hextended : OpenedAt ahead frames (nodes ++ []) (all ++ [spot]) := h.extend fun h => by
    rw [List.append_nil]
    exact .text h htoken
  rwa [List.append_nil] at hextended

/-- An output is a node at its spot. -/
theorem output (h : OpenedAt ahead frames nodes all) {spot : Spot} {d : Delimited} {p : Pipeline}
    (htoken : spot.token = .output d) (hline : p.line = some spot.line) :
    OpenedAt ahead frames (nodes ++ [.output p]) (all ++ [spot]) :=
  h.extend fun h => .output h htoken hline

/-- So is a tag. -/
theorem tag (h : OpenedAt ahead frames nodes all) {tag : Tag} {inside : List Spot}
    (htag : TagAt ahead tag inside) :
    OpenedAt ahead frames (nodes ++ [.tag tag]) (all ++ inside) :=
  h.extend fun h => .tag h htag

/-- The innermost open block. -/
theorem fits (h : OpenedAt ahead (frame :: frames) nodes all) : frame.Fits := by
  cases h with
  | inside _ _ _ hfits => exact hfits

/-- A block that is opened. -/
theorem opens (h : OpenedAt ahead frames nodes all) {spot : Spot}
    (henclosing : nonTexts frame.enclosing.nodes = nodes)
    (hname : spot.token.name? = some frame.block.name) (hline : frame.line = some spot.line)
    (hfits : frame.Fits) (hfinished : frame.finished = []) :
    OpenedAt ahead (frame :: frames) [] (all ++ [spot]) := by
  subst henclosing
  have hbodies : FinishedAt (TagAt ahead) (frame.finished.map (nonTexts ·.nodes)) [] := by
    rw [hfinished]
    exact .nil
  exact .inside h hname hline hfits hbodies .nil

/-- A tag between two bodies of a block. -/
theorem divide (h : OpenedAt ahead (frame :: frames) nodes all) {block : OpenBlock} {body : Body}
    (hnodes : nonTexts body.nodes = nodes) {spot : Spot} {name : String}
    (hname : spot.token.name? = some name)
    (hturns : frame.block.Turns (!frame.finished.isEmpty) name block) :
    OpenedAt ahead ({ frame with block, finished := frame.finished ++ [body] } :: frames) []
      (all ++ [spot]) := by
  subst hnodes
  obtain ⟨hfits, hnamed, hdivider⟩ := h.fits.turns hturns body
  cases h with
  | @inside _ _ _ opener before finished last hbefore hopener hline _ hall hlast =>
    -- The body that is finished, with the tag that ends it,
    have hbodies : FinishedAt (TagAt ahead)
        ((frame.finished ++ [body]).map (nonTexts ·.nodes)) (finished ++ last ++ [spot]) := by
      rw [List.map_append]
      exact .body hall hlast hname hdivider
    -- and an empty one behind it.
    have hinside : OpenedAt ahead
        ({ frame with block, finished := frame.finished ++ [body] } :: frames) []
        (before ++ opener :: (finished ++ last ++ [spot] ++ [])) :=
      .inside hbefore (hnamed ▸ hopener) hline hfits hbodies .nil
    rw [List.append_nil] at hinside
    rw [List.append_assoc, List.cons_append]
    exact hinside

/-- The end of a block. -/
theorem closes (h : OpenedAt ahead (frame :: frames) nodes all) {body : Body}
    (hnodes : nonTexts body.nodes = nodes) {spot : Spot}
    (hend : spot.token.name? = some ("end" ++ frame.block.name))
    (hbodies : ∀ inside ∈ frame.finished ++ [body], inside.IsFaithful) :
    OpenedAt ahead frames
      (nonTexts frame.enclosing.nodes
        ++ [.tag (frame.block.close frame.line (frame.finished ++ [body]))])
      (all ++ [spot]) := by
  subst hnodes
  obtain ⟨hencloses, hname⟩ := h.fits.encloses hbodies
  have hstands {line : Nat} (hline : frame.line = some line) :=
    h.fits.standsAt hline (frame.finished ++ [body])
  generalize frame.block.close frame.line (frame.finished ++ [body]) = tag at *
  have hholds := hencloses.holds
  rw [List.map_append, List.map_map] at hholds
  cases h with
  | @inside _ _ _ opener before finished last hbefore hopener hline _ hall hlast =>
    -- The opening tag, the bodies and the closing tag make up one tag.
    have htag : TagAt ahead tag (opener :: (finished ++ last) ++ [spot]) :=
      .block (hname ▸ hopener) (hname ▸ hend) (hstands hline) hall hlast hholds
    rw [List.append_assoc]
    exact hbefore.tag htag

end OpenedAt

/-! ## The invariant -/

/-- Inside a comment or raw text: what was read are the spots before the tag that starts it, and
those since satisfy `P`. -/
def PassedAt (ahead : Delimited → Nat) (name : String) (P : List Spot → Prop)
    (added : List Spot) (b : Builder) : Prop :=
  ∃ before opener inside, added = before ++ opener :: inside
    ∧ opener.token.name? = some name ∧ P inside
    ∧ OpenedAt ahead b.frames (nonTexts b.body.nodes) before

/-- How the builder comes from the spots of the tokens that were added. -/
def ReadAt (ahead : Delimited → Nat) (added : List Spot) (b : Builder) : Prop :=
  match b.mode with
  | .nodes => OpenedAt ahead b.frames (nonTexts b.body.nodes) added
  | .comment _ depth inRaw =>
    PassedAt ahead "comment"
      (fun inside => openInside? (inside.map Spot.token) = some (depth, inRaw)) added b
  | .raw .. =>
    PassedAt ahead "raw" (fun inside => ∀ spot ∈ inside, spot.token.name? ≠ some "endraw") added b

/-- The nodes of lines keep the lines of their spots, where lines are kept. -/
def LinesReader.GivesAt (ahead : Delimited → Nat) (inner : LinesReader) : Prop :=
  ∀ (ctx : ParseContext) markup line s body t, ctx.registry.tags = TagKind.standard →
    ctx.lines = true → inner ctx markup line s = (.ok body, t) →
      NodesAt (TagAt ahead) (nonTexts body.nodes) (Spot.ofLines line markup)

namespace ReadAt

variable {ahead : Delimited → Nat} {added : List Spot} {ctx : ParseContext} {inner : LinesReader}
  {stray : String → Parse Builder} {token : Token} {b b' : Builder} {s t : ParseState}

/-- Outside of comments and raw blocks the nodes stand at their spots. -/
theorem openedAt (h : ReadAt ahead added b) (hmode : b.mode = .nodes) :
    OpenedAt ahead b.frames (nonTexts b.body.nodes) added := by
  unfold ReadAt at h
  rwa [hmode] at h

/-- There nothing more is asked. -/
theorem of_openedAt (hmode : b.mode = .nodes)
    (h : OpenedAt ahead b.frames (nonTexts b.body.nodes) added) : ReadAt ahead added b := by
  unfold ReadAt
  rwa [hmode]

/-- To turn to a token changes texts alone. -/
theorem facing (h : ReadAt ahead added b) (hmode : b.mode = .nodes) (d : Delimited) :
    OpenedAt ahead b.frames (nonTexts (b.facing d).body.nodes) added := by
  have hnodes : nonTexts (b.facing d).body.nodes = nonTexts b.body.nodes := by
    unfold Builder.facing
    split
    · exact nonTexts_trimLastText b.body
    · rfl
  rw [hnodes]
  exact h.openedAt hmode

/-- A text changes texts alone. -/
theorem text (h : ReadAt ahead added b) (hmode : b.mode = .nodes) (text written : String)
    (line : Nat) : ReadAt ahead (added ++ [.own (.text text line)]) (b.withText written) := by
  have hadded : OpenedAt ahead b.frames (nonTexts b.body.nodes)
      (added ++ [.own (.text text line)]) := (h.openedAt hmode).text rfl
  unfold Builder.withText
  split
  · exact of_openedAt hmode hadded
  · refine of_openedAt hmode ?_
    show OpenedAt ahead b.frames (nonTexts (b.body.push (.text written)).nodes) _
    rw [nonTexts_push_text]
    exact hadded

/-- Between nodes, a token that becomes a node of its own. -/
theorem node (h : ReadAt ahead added b) (hmode : b.mode = .nodes) (d : Delimited) {node : Node}
    (hnode : node.isText = false)
    (hadded : ∀ {nodes : List Node}, OpenedAt ahead b.frames nodes added →
      OpenedAt ahead b.frames (nodes ++ [node]) (added ++ [.own token])) :
    ReadAt ahead (added ++ [.own token]) ((b.facing d).push node) := by
  refine of_openedAt ((mode_facing b d).trans hmode) ?_
  show OpenedAt ahead (b.facing d).frames (nonTexts ((b.facing d).body.push node).nodes) _
  rw [nonTexts_push hnode, frames_facing]
  exact hadded (h.facing hmode d)

/-- A registered tag. -/
theorem starts (hctx : ctx.registry.tags = TagKind.standard) (hinner : inner.GivesAt ahead)
    (h : ReadAt ahead added b) (hmode : b.mode = .nodes) {d : Delimited} {name args : String}
    (hname : tagParts? d.markup = some (name, args))
    (hahead : name = "liquid" → ahead d = 0) {kind : TagKind}
    (hkind : kind.standardName? = some name)
    (hstarts : StartsAt ctx inner d.line kind name args (b.facing d) b') :
    ReadAt ahead (added ++ [.own (.tag d)]) b' := by
  have hnamed : (Token.tag d).name? = some name := Token.name?_of_tagParts? hname
  have hfacing := h.facing hmode d
  -- What is inside the tag comes with the lines of the tag; the tokens of a block follow.
  cases hstarts with
  | single htag hline =>
    refine h.node hmode d rfl fun hopened => hopened.tag ?_
    exact .single htag ((htag.name_eq hkind).symm ▸ hnamed) hline
  | lines hlines hdeeper hkept hread =>
    subst hlines
    obtain rfl : "liquid" = name := Option.some.inj hkind
    refine h.node hmode d rfl fun hopened => hopened.tag ?_
    have hnodes := hinner _ _ _ _ _ _ (hdeeper ▸ hctx) hkept hread
    have hline : (Spot.own (.tag d)).line + ahead d = d.line := by
      rw [hahead rfl]
      rfl
    exact @TagAt.lines ahead _ (.own (.tag d)) d args rfl hname (hline.symm ▸ hnodes)
  | opens hblock =>
    refine of_openedAt ((mode_facing b d).trans hmode) ?_
    rw [frames_facing]
    exact hfacing.opens rfl (hblock.name_eq.symm ▸ hnamed) rfl (.of_opens hkind hblock rfl) rfl
  | comment hcomment =>
    subst hcomment
    obtain rfl : "comment" = name := Option.some.inj hkind
    exact ⟨added, .own (.tag d), [], rfl, hnamed, rfl, (frames_facing b d).symm ▸ hfacing⟩
  | raw hraw trimStart =>
    subst hraw
    obtain rfl : "raw" = name := Option.some.inj hkind
    exact ⟨added, .own (.tag d), [], rfl, hnamed, List.forall_mem_nil _,
      (frames_facing b d).symm ▸ hfacing⟩

/-- A token inside a comment or raw text. -/
theorem pass {name : String} {P Q : List Spot → Prop} (h : PassedAt ahead name P added b)
    (hpq : ∀ inside, P inside → Q (inside ++ [.own token])) {mode : ReadingMode} :
    PassedAt ahead name Q (added ++ [.own token]) { b with mode } := by
  obtain ⟨before, opener, inside, rfl, hopener, hinside, hopened⟩ := h
  exact ⟨before, opener, inside ++ [.own token], List.append_assoc .., hopener, hpq inside hinside,
    hopened⟩

/-- The end of a comment or of raw text. -/
theorem ends {name : String} {P : List Spot → Prop} (h : PassedAt ahead name P added b) {tag : Tag}
    (htag : ∀ {opener inside}, opener.token.name? = some name → P inside →
      TagAt ahead tag (opener :: inside ++ [.own token])) :
    ReadAt ahead (added ++ [.own token]) { b.pushTag tag with mode := .nodes } := by
  obtain ⟨before, opener, inside, rfl, hopener, hinside, hopened⟩ := h
  refine of_openedAt rfl ?_
  show OpenedAt ahead b.frames (nonTexts (b.body.push (.tag tag)).nodes) _
  rw [nonTexts_push rfl, List.append_assoc]
  exact hopened.tag (htag hopener hinside)

/-- A token of a document keeps the invariant. -/
theorem add (hctx : ctx.registry.tags = TagKind.standard) (hlines : ctx.lines = true)
    (hinner : inner.GivesAt ahead) (hstray : ∀ tag w Q, (stray tag).Yields w Q)
    (hahead : ∀ d args, token = .tag d → tagParts? d.markup = some ("liquid", args) → ahead d = 0)
    (h : ReadAt ahead added b) (hbodies : b.Bodies Body.IsSound)
    (hadd : b.add ctx inner stray token s = (.ok b', t)) :
    ReadAt ahead (added ++ [.own token]) b' := by
  -- A tag that is registered has the name of its kind, and keeps the line of its token.
  have registered {d : Delimited} {name args : String} {kind : TagKind} (htoken : token = .tag d)
      (hmode : b.mode = .nodes) (hname : tagParts? d.markup = some (name, args))
      (hkind : ctx.registry.tags.get? name = some kind) :
      ReadAt ahead (added ++ [.own token]) b' := by
    subst htoken
    refine h.starts hctx hinner hmode hname (fun hliquid => ?_)
      (TagKind.standardName?_of_registered hctx hkind)
      (startsAt_of_add hlines hmode hname hkind hadd)
    exact hahead d args rfl (hliquid ▸ hname)
  obtain ⟨w, w', hadds⟩ : ∃ w w', Adds ctx inner token b w b' w' :=
    ⟨_, _, add_yields hstray token s b' t rfl hadd⟩
  cases hadds with
  | text hmode text line => exact h.text hmode text _ line
  | @output _ _ hmode d p' =>
    obtain ⟨p, hline, hb⟩ := output_of_add hlines hmode hadd
    rw [hb]
    exact h.node hmode d rfl fun hopened => hopened.output rfl hline
  | single hmode hname hkind => exact registered rfl hmode hname hkind
  | lines hmode hname hkind => exact registered rfl hmode hname hkind
  | opens hmode hname hkind => exact registered rfl hmode hname hkind
  | comment hmode hname hkind => exact registered rfl hmode hname hkind
  | raw hmode hname hkind => exact registered rfl hmode hname hkind
  | @pass _ _ d name args frame frames hmode hname hnone hframes hblock =>
    obtain ⟨block, opens, passes, closes, hblock⟩ := hblock
    exact absurd hblock (hframes ▸ h.openedAt hmode).fits.not_sections
  | @body _ _ d name args frame frames block hmode hname hnone hframes hblock =>
    have hfacing := h.facing hmode d
    rw [hframes] at hfacing
    exact of_openedAt rfl (hfacing.divide rfl (Token.name?_of_tagParts? hname) hblock)
  | @close _ _ d name args frame frames hmode hname hnone hframes hend =>
    have hfacing := h.facing hmode d
    rw [hframes] at hfacing
    have hend : name = "end" ++ frame.block.name :=
      hend.resolve_right fun ⟨_, _, _, hblock⟩ => hfacing.fits.not_sections hblock
    have hsound := (hbodies.frames frame (hframes ▸ List.mem_cons_self ..)).finished_concat
      (b.body_facing (fun h => h.trimLastText) hbodies.body d)
    refine of_openedAt rfl ?_
    rw [nonTexts_push rfl]
    exact hfacing.closes rfl (hend ▸ Token.name?_of_tagParts? hname)
      fun inside hi => (hsound inside hi).faithful
  | @skip _ _ _ name depth depth' inRaw inRaw' hmode hgo =>
    unfold ReadAt at h
    rw [hmode] at h
    refine pass h fun inside hinside => ?_
    rw [List.map_append]
    show openInside? (_ ++ [_]) = _
    rw [openInside?_concat, hinside]
    exact hgo
  | @endComment _ _ _ d name hmode hend =>
    unfold ReadAt at h
    rw [hmode] at h
    obtain ⟨rfl, args, hparts⟩ := tagName?_eq_some_iff.mp hend
    exact ends h fun hopener hinside => .comment hopener (Token.name?_of_tagParts? hparts) hinside
  | @keep _ _ _ name text trimStart hmode hgo =>
    unfold ReadAt at h
    rw [hmode] at h
    refine pass h fun inside hinside => ?_
    refine List.forall_mem_append.mpr ⟨hinside, List.forall_mem_singleton.mpr fun hname => ?_⟩
    obtain ⟨⟨_, d⟩, hpair, rfl⟩ := Option.map_eq_some_iff.mp hname
    exact hgo d hpair
  | @endRaw _ _ _ d name text trimStart hmode hend =>
    unfold ReadAt at h
    rw [hmode] at h
    obtain ⟨rfl, args, hparts⟩ := tagName?_eq_some_iff.mp hend
    exact ends h fun hopener hinside => .raw _ hopener (Token.name?_of_tagParts? hparts) hinside

/-- Tokens that were all added. -/
theorem addAll (hctx : ctx.registry.tags = TagKind.standard) (hlines : ctx.lines = true)
    (hinner : inner.GivesAt ahead)
    (hinside : inner.Gives fun body => body.IsSound ∧ body.IsTextless)
    (hstray : ∀ tag w Q, (stray tag).Yields w Q) {tokens : List Token}
    (hahead : ∀ d args, .tag d ∈ tokens → tagParts? d.markup = some ("liquid", args) →
      ahead d = 0)
    (h : ReadAt ahead added b) (hbodies : b.Bodies Body.IsSound)
    (hadd : Builder.addAll ctx inner stray tokens b s = (.ok b', t)) :
    ReadAt ahead (added ++ tokens.map .own) b' := by
  -- With each token one more spot is read, and the bodies stay sound.
  induction tokens generalizing added b s with
  | nil =>
    obtain ⟨hb, -⟩ := Prod.mk.inj hadd
    obtain rfl := Except.ok.inj hb
    rwa [List.map_nil, List.append_nil]
  | cons token tokens ih =>
    obtain ⟨c, u, hfirst, hrest⟩ := ok_of_bind hadd
    have hread := h.add hctx hlines hinner hstray
      (fun d args htoken => hahead d args (htoken ▸ List.mem_cons_self ..)) hbodies hfirst
    have hsound := (Body.sound_grows true).add hctx hinside (fun _ => rfl) hbodies
      (add_yields hstray token s c u rfl hfirst)
    rw [List.map_cons, List.append_cons]
    exact ih (fun d args hmem => hahead d args (List.mem_cons_of_mem _ hmem)) hread hsound hrest

/-- All tokens from the start. -/
theorem of_addAll (hctx : ctx.registry.tags = TagKind.standard) (hlines : ctx.lines = true)
    (hinner : inner.GivesAt ahead)
    (hinside : inner.Gives fun body => body.IsSound ∧ body.IsTextless)
    (hstray : ∀ tag w Q, (stray tag).Yields w Q) {tokens : List Token}
    (hahead : ∀ d args, .tag d ∈ tokens → tagParts? d.markup = some ("liquid", args) →
      ahead d = 0)
    (hadd : Builder.addAll ctx inner stray tokens {} s = (.ok b, t)) :
    ReadAt ahead (tokens.map .own) b := by
  have hstart : ReadAt ahead [] {} := of_openedAt rfl (.outside .nil)
  exact addAll hctx hlines hinner hinside hstray hahead hstart ⟨.empty, List.forall_mem_nil _⟩ hadd

/-- When nothing is open any more, the nodes keep the lines of the spots. -/
theorem nodesAt (h : ReadAt ahead added b) {body : Body}
    (hfinish : b.finish ctx s = (.ok body, t)) :
    NodesAt (TagAt ahead) (nonTexts body.nodes) added := by
  obtain ⟨rfl, hframes, hmode, -⟩ := finish_yields s body t rfl hfinish
  have hopened := h.openedAt hmode
  rw [hframes] at hopened
  cases hopened with
  | outside hnodes => exact hnodes

end ReadAt

/-! ## Documents -/

/-- The nodes of lines keep the lines of their spots, however deep such lines are nested. -/
theorem Body.givesAt_parseLines {ahead : Delimited → Nat}
    (hahead : ∀ {markup line d}, .tag d ∈ (TokenStream.ofLines markup line).tokens → ahead d = 0)
    (levels : Nat) : (Body.parseLines levels).GivesAt ahead := by
  -- By induction on the levels that are left for lines within lines.
  induction levels with
  | zero => exact fun _ _ _ _ _ _ _ _ h => nomatch (Prod.mk.inj h).1
  | succ levels ih =>
    intro ctx markup line s body t hctx hlines h
    obtain ⟨b, u, hadd, hfinish⟩ := ok_of_bind h
    have hread := ReadAt.of_addAll hctx hlines ih (Body.sound_parseLines levels)
      (fun _ _ _ => ctx.refuseTag_yields _ _ _) (fun _ _ hmem _ => hahead hmem) hadd
    rw [Spot.ofLines_eq]
    exact hread.nodesAt hfinish

/-- There is no line feed in what is between line feeds. -/
theorem Text.not_mem_of_mem_pieces {cs piece : List Char} (h : piece ∈ pieces ['\n'] cs) :
    '\n' ∉ piece := by
  -- By induction on the characters: a line feed starts a new piece.
  induction cs generalizing piece with
  | nil =>
    rw [pieces_of_breakOn (List.cons_ne_nil _ _)] at h
    obtain rfl : piece = [] := List.mem_singleton.mp h
    exact List.not_mem_nil
  | cons c cs ih =>
    by_cases hc : c = '\n'
    · subst hc
      rw [pieces_feed_cons] at h
      rcases List.mem_cons.mp h with rfl | h
      · exact List.not_mem_nil
      · exact ih h
    · obtain ⟨line, lines, hcs, hall⟩ := pieces_cons_of_ne hc cs
      rw [hcs] at ih
      rw [hall] at h
      rcases List.mem_cons.mp h with rfl | h
      · intro hmem
        rcases List.mem_cons.mp hmem with hfeed | hmem
        · exact hc hfeed.symm
        · exact ih (List.mem_cons_self ..) hmem
      · exact ih (List.mem_cons_of_mem _ h)

/-- Nothing but characters of the text is left when it is trimmed. -/
theorem Text.mem_of_mem_trim {s : String} {c : Char} (h : c ∈ (trim s).toList) : c ∈ s.toList := by
  obtain ⟨before, after, -, -, hs⟩ := exists_trim s
  rw [hs]
  exact List.mem_append_left _ (List.mem_append_right _ h)

/-- There is no line feed in a line. -/
theorem TokenStream.linesAhead_of_mem_ofLines {markup : String} {line : Nat} {d : Delimited}
    (h : .tag d ∈ (ofLines markup line).tokens) : d.linesAhead = 0 := by
  obtain ⟨⟨piece, number⟩, hpiece, hline⟩ := List.mem_filterMap.mp h
  -- A line is cut at its line feeds, so it holds none.
  have hfeed : '\n' ∉ d.markup.toList := by
    unfold lineTag? at hline
    dsimp only at hline
    split at hline
    · exact nomatch hline
    · obtain rfl := Token.tag.inj (Option.some.inj hline)
      intro hmem
      have hmem := Text.mem_of_mem_trim hmem
      rw [String.toList_ofList] at hmem
      exact Text.not_mem_of_mem_pieces (List.fst_mem_of_mem_zipIdx hpiece) hmem
  have hnone {cs : List Char} (hcs : cs.Sublist d.markup.toList) : lineFeeds cs = 0 :=
    List.count_eq_zero.mpr fun hmem => hfeed (hcs.mem hmem)
  unfold Delimited.linesAhead
  dsimp only
  rw [hnone (List.takeWhile_sublist _), hnone]
  exact (List.takeWhile_sublist _).trans
    ((List.dropWhile_sublist _).trans (List.dropWhile_sublist _))

/-- No line comes behind the last one. -/
theorem Spot.line_le_of_mem_ofLines {line : Nat} {markup : String} {spot : Spot}
    (h : spot ∈ ofLines line markup) : spot.line ≤ line + lineFeeds markup.toList := by
  unfold ofLines at h
  have hlength := Text.length_pieces_feed markup.toList
  generalize Text.pieces ['\n'] markup.toList = pieces at h hlength
  -- There is one line more than there are line feeds.
  suffices hlt : spot.line < line + pieces.length by omega
  clear hlength
  -- By induction on the lines, whose numbers go up by one.
  induction pieces generalizing line with
  | nil => exact nomatch h
  | cons piece pieces ih =>
    rw [List.length_cons]
    rcases List.mem_append.mp h with h | h
    · obtain ⟨token, -, rfl⟩ := List.mem_map.mp h
      exact Nat.lt_add_of_pos_right (Nat.succ_pos _)
    · have hrest := ih h
      omega

namespace Document

/-- The lines that a document keeps, where `ahead` is right for all tags with lines. -/
private theorem nodesAt_of_ahead {ctx : ParseContext}
    (hctx : ctx.registry.tags = TagKind.standard) (hlines : ctx.lines = true) {source : String}
    {s t : ParseState} {document : Document}
    (h : Document.parse ctx source s = (.ok document, t)) {ahead : Delimited → Nat}
    (hinner : ∀ {markup line d}, .tag d ∈ (TokenStream.ofLines markup line).tokens → ahead d = 0)
    (hahead : ∀ d args, .tag d ∈ (TokenStream.ofSource source).tokens →
      tagParts? d.markup = some ("liquid", args) → ahead d = 0) :
    NodesAt (TagAt ahead) (nonTexts document.nodes)
      (Spot.ofTokens 1 (TokenStream.ofSource source).tokens) := by
  have hgives : GivesFrom s (Document.parse ctx source) fun document =>
      NodesAt (TagAt ahead) (nonTexts document.nodes)
        ((TokenStream.ofSource source).tokens.map .own) := by
    refine .mapError (.bind fun b u hadd => .bind fun body v hfinish => ?_) _
    have hread := ReadAt.of_addAll hctx hlines (Body.givesAt_parseLines hinner _)
      (Body.sound_parseLines _) (fun _ _ _ => ctx.refuseOuterTag_yields _) hahead hadd
    split
    · exact fun document w hrefuse =>
        refuseUnterminated_yields (Q := fun document _ => NodesAt _ (nonTexts document.nodes) _)
          ctx _ v document w rfl hrefuse
    · exact .pure (hread.nodesAt hfinish)
  -- The spots are the tokens, as the line feeds before a token give its line.
  have hspots : Spot.ofTokens 1 (TokenStream.ofSource source).tokens
      = (TokenStream.ofSource source).tokens.map .own :=
    Spot.ofTokens_eq (TokenStream.isCutOf_scan source.toList 1).lines
  rw [hspots]
  exact hgives document t h

/-- The lines that tokens and lines in tags are on fit the counter of lines, if there are not too
many line feeds. -/
private theorem line_lt_of_mem_ofTokens {source : String}
    (hfeeds : lineFeeds source.toList < UInt32.size - 1) {spot : Spot}
    (hspot : spot ∈ Spot.ofTokens 1 (TokenStream.ofSource source).tokens) :
    spot.line < UInt32.size
      ∧ ∀ d args, spot.token = .tag d → tagParts? d.markup = some ("liquid", args) →
          ∀ inner ∈ Spot.ofLines (spot.line + d.linesAhead) args, inner.line < UInt32.size := by
  obtain ⟨before, after, htokens, hline⟩ := Spot.mem_ofTokens hspot
  have hcut := TokenStream.isCutOf_scan source.toList 1
  have hall : lineFeeds (TokenStream.charsOf before) + lineFeeds (sourceOf spot.token).toList
      ≤ lineFeeds source.toList := by
    have hlossless := hcut.lossless
    rw [show TokenStream.scan source.toList 1 = .ofSource source from rfl, htokens,
      TokenStream.charsOf, List.flatMap_append, List.flatMap_cons] at hlossless
    rw [← hlossless, lineFeeds_append, lineFeeds_append, lineFeeds_append, TokenStream.charsOf]
    omega
  refine ⟨by omega, fun d args htag hargs inner hinner => ?_⟩
  -- The arguments are part of the markup, behind what comes ahead of them.
  obtain ⟨ahead, behind, hmarkup, hahead⟩ := Delimited.exists_ahead hargs
  have hsource : (sourceOf spot.token).toList = d.source.toList := by
    rw [htag]
    rfl
  have htoken : spot.token ∈ (TokenStream.ofSource source).tokens := by
    rw [htokens]
    exact List.mem_append_right _ List.mem_cons_self
  have hcutTag : d.IsCut .tag := by
    have htokenCut := hcut.tokens spot.token htoken
    rwa [htag] at htokenCut
  have hmarkupFeeds : d.linesAhead + lineFeeds args.toList ≤ lineFeeds d.source.toList := by
    rw [hcutTag.source, hmarkup, ← hahead]
    simp only [lineFeeds_append]
    omega
  have hinner := Spot.line_le_of_mem_ofLines hinner
  rw [hsource] at hall
  omega

/-- Every output and every tag of a document that was read with the standard tags keeps the line
that its token starts on, where lines are kept at all. Tags on lines of their own keep the line that
is counted from the start of the tag that they belong to; that is their line in the source where no
line feed comes in front of its arguments. Lines are counted with 32 bits, which is enough for a
source that has fewer line feeds than that. -/
theorem nodesAt_of_parse {ctx : ParseContext} (hctx : ctx.registry.tags = TagKind.standard)
    (hlines : ctx.lines = true) {source : String}
    (hfeeds : lineFeeds source.toList < UInt32.size - 1) {s t : ParseState} {document : Document}
    (h : Document.parse ctx source s = (.ok document, t)) :
    NodesAt (TagAt fun _ => 0) (nonTexts document.nodes)
        (Spot.ofTokens 1 (TokenStream.ofSource source).tokens)
      ∧ ((∀ d args, .tag d ∈ (TokenStream.ofSource source).tokens →
            tagParts? d.markup = some ("liquid", args) → d.linesAhead = 0) →
          NodesAt (TagAt Delimited.linesAhead) (nonTexts document.nodes)
            (Spot.ofTokens 1 (TokenStream.ofSource source).tokens))
      ∧ ∀ spot ∈ Spot.ofTokens 1 (TokenStream.ofSource source).tokens, spot.line < UInt32.size
          ∧ ∀ d args, spot.token = .tag d → tagParts? d.markup = some ("liquid", args) →
              ∀ inner ∈ Spot.ofLines (spot.line + d.linesAhead) args, inner.line < UInt32.size :=
  ⟨nodesAt_of_ahead hctx hlines h (fun _ => rfl) fun _ _ _ _ => rfl,
    fun hahead =>
      nodesAt_of_ahead hctx hlines h TokenStream.linesAhead_of_mem_ofLines hahead,
    fun _ => line_lt_of_mem_ofTokens hfeeds⟩

/-- An output, a block, and lines in lines. -/
theorem nodesAt_of_parse_nested :
    let source := "a\n\x7b\x7b x \x7d\x7d\n\x7b% if y %\x7d\n"
      ++ "\x7b% liquid echo z\n\n  if w\n liquid echo v\n endif %\x7d\n\x7b% endif %\x7d"
    lineFeeds source.toList < UInt32.size - 1
      ∧ ∃ document t, Document.parse (.ofOptions .standard { lines := true }) source {}
          = (.ok document, t)
        ∧ document.tags.map Tag.line = [some 3, some 4, some 4, some 6, some 7, some 7]
        ∧ NodesAt (TagAt Delimited.linesAhead) (nonTexts document.nodes)
            (Spot.ofTokens 1 (TokenStream.ofSource source).tokens) := by
  intro source
  have hfeeds : lineFeeds source.toList < UInt32.size - 1 := by decide +kernel
  have hread : ((Document.parse (.ofOptions .standard { lines := true }) source {}).1.toOption.map
      fun document => document.tags.map Tag.line)
        = some [some 3, some 4, some 4, some 6, some 7, some 7] := by decide +kernel
  -- No `liquid` tag of the source has line feeds before its arguments.
  have hahead : ((TokenStream.ofSource source).tokens.all (·.linesAhead == 0)) = true := by
    decide +kernel
  obtain ⟨document, hparse, hlines⟩ := Attempt.ok_of_map_toOption hread
  refine ⟨hfeeds, document, _, hparse, hlines, (nodesAt_of_parse rfl rfl hfeeds hparse).2.1 ?_⟩
  intro d args hmem _
  exact beq_iff_eq.mp (List.all_eq_true.mp hahead _ hmem)

/-- The line of an `echo` that stands alone in lines. -/
private def echoLine? : List Node → Option (Option Nat)
  | [.tag (.lines (.mk [.tag (.echo p)] _) _)] => some p.line
  | _ => none

/-- The only tag on a line of its own stands behind a line feed, which is not counted. -/
theorem not_nodesAt_linesAhead :
    let source := "\x7b% liquid\n  echo x %\x7d"
    ∃ document t, Document.parse (.ofOptions .standard { lines := true }) source {}
        = (.ok document, t)
      ∧ document.tags.map Tag.line = [some 1, some 1]
      ∧ ¬ NodesAt (TagAt Delimited.linesAhead) (nonTexts document.nodes)
          (Spot.ofTokens 1 (TokenStream.ofSource source).tokens) := by
  intro source
  have hread : ((Document.parse (.ofOptions .standard { lines := true }) source {}).1.toOption.map
      fun document => (document.tags.map Tag.line, echoLine? document.nodes))
        = some ([some 1, some 1], some (some 1)) := by decide +kernel
  have hspots : ((Spot.ofTokens 1 (TokenStream.ofSource source).tokens).all fun spot =>
      spot.line + spot.token.linesAhead == 2) = true := by decide +kernel
  obtain ⟨document, hparse, hread⟩ := Attempt.ok_of_map_toOption hread
  obtain ⟨hlines, hnodes⟩ := Prod.mk.inj hread
  -- The `echo` would have to stand on its own line, which is the second one.
  refine ⟨document, _, hparse, hlines, fun hat => ?_⟩
  unfold echoLine? at hnodes
  split at hnodes
  · rename_i p blank line hdocument
    rw [hdocument] at hat
    obtain ⟨inside, htag, hinside⟩ := hat.mem_tag (List.mem_singleton_self _)
    cases htag with
    | single hsingle => cases hsingle
    | block _ _ _ _ _ hholds => exact hholds
    | @lines _ spot d args htoken hparts hbody =>
      have hspot := List.all_eq_true.mp hspots _ (hinside spot (List.mem_singleton_self _))
      rw [htoken] at hspot
      have htwo : spot.line + d.linesAhead = 2 := beq_iff_eq.mp hspot
      rw [htwo] at hbody
      obtain ⟨inside, hecho, hinside⟩ := hbody.mem_tag (List.mem_singleton_self _)
      cases hecho with
      | block _ _ _ _ _ hholds => exact hholds
      | @single _ _ spot _ _ hstands =>
        have hstands : p.line = some spot.line := hstands
        have hle := Spot.le_line_of_mem_ofLines (hinside spot (List.mem_singleton_self _))
        rw [Option.some.inj hnodes] at hstands
        rw [← Option.some.inj hstands] at hle
        exact absurd hle (by decide)
  · cases hnodes

end Document

end Stencil
