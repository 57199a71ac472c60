import Stencil.Proofs.Faults
import Stencil.Proofs.SourceLines

/-!
# Lines that are kept

Where lines are kept at all, every output of a document and every standard tag in which something
can go wrong has one, however deep it is nested and whatever other tags are registered.

## Key definitions

- `Node.KeepsLine`, `Body.KeepsLines`: nodes with lines, and bodies all of whose nodes have them

## Key results

- `OpenBlock.mem_bodies_close`: the bodies of a finished block
- `Builder.KeepsLines.add`: one token
- `Document.keepsLines_of_parse`: documents
-/

namespace Stencil

open Attempt Builder

/-- The node has a line, unless it is idle or a tag of a host, which has none. -/
def Node.KeepsLine (node : Node) : Prop :=
  node.line.isSome = true ∨ node.isIdle = true ∨ ∃ tag, node = .tag tag ∧ tag.isStandard = false

/-- All nodes within the body keep their lines. -/
def Body.KeepsLines (body : Body) : Prop :=
  ∀ node, body.Within node → node.KeepsLine

/-- A tag keeps its line, and so do the nodes within its bodies. -/
structure Tag.KeepsLines (tag : Tag) : Prop where
  line : (Node.tag tag).KeepsLine
  bodies : ∀ body ∈ tag.bodies, body.KeepsLines

/-! ## Bodies -/

/-- A tag that stands on a line keeps it. -/
theorem Tag.StandsAt.keepsLine {tag : Tag} {line : Nat} (h : tag.StandsAt line) :
    (Node.tag tag).KeepsLine := by
  have hkept (hline : tag.line = some line) : (Node.tag tag).KeepsLine :=
    .inl (Option.isSome_iff_exists.mpr ⟨line, hline⟩)
  cases tag with
  | assign target source kept => exact hkept h.1
  | comment | inlineComment | raw => exact .inr (.inl rfl)
  | transform | sections | counter => exact .inr (.inr ⟨_, rfl, rfl⟩)
  | _ => exact hkept h

namespace Body.KeepsLines

variable {body : Body}

/-- An empty body has no nodes. -/
theorem empty : Body.empty.KeepsLines := by
  intro node h
  cases h with
  | here hmem => exact nomatch hmem
  | inside hmem _ _ => exact nomatch hmem

/-- Nodes of a body, and texts besides, make a body that keeps its lines if the first one does. -/
theorem of_nodes (h : body.KeepsLines) {body' : Body}
    (hnodes : ∀ node ∈ body'.nodes, node ∈ body.nodes ∨ node.isText = true) :
    body'.KeepsLines := by
  intro node hnode
  -- A node stands in the body itself or inside one of its tags.
  cases hnode with
  | here hmem =>
    rcases hnodes node hmem with hmem | htext
    · exact h node (.here hmem)
    · cases node with
      | text text => exact .inr (.inl rfl)
      | output | tag => exact nomatch htext
  | inside hmem hinner hwithin =>
    rcases hnodes _ hmem with hmem | htext
    · exact h node (.inside hmem hinner hwithin)
    · exact nomatch htext

/-- Trimming changes texts only. -/
theorem trimLastText (h : body.KeepsLines) : body.trimLastText.KeepsLines := by
  refine h.of_nodes fun node hmem => ?_
  unfold Body.trimLastText at hmem
  split at hmem
  · rcases List.mem_append.mp hmem with hmem | hmem
    · exact .inl (List.mem_of_mem_dropLast hmem)
    · split at hmem
      · exact nomatch hmem
      · exact .inr (List.mem_singleton.mp hmem ▸ rfl)
  · exact .inl hmem

/-- So does dropping them. -/
theorem withoutTexts (h : body.KeepsLines) : body.withoutTexts.KeepsLines :=
  h.of_nodes fun _ hmem => .inl (List.mem_filter.mp hmem).1

/-- A node without bodies is added. -/
theorem push (h : body.KeepsLines) {node : Node} (hline : node.KeepsLine)
    (hbodies : ∀ tag, node = .tag tag → ∀ inner ∈ tag.bodies, inner.KeepsLines) :
    (body.push node).KeepsLines := by
  intro node' hnode
  cases hnode with
  | here hmem =>
    rcases List.mem_append.mp hmem with hmem | hmem
    · exact h node' (.here hmem)
    · exact List.mem_singleton.mp hmem ▸ hline
  | inside hmem hinner hwithin =>
    rcases List.mem_append.mp hmem with hmem | hmem
    · exact h node' (.inside hmem hinner hwithin)
    · exact hbodies _ (List.mem_singleton.mp hmem).symm _ hinner node' hwithin

/-- One more tag with its line. -/
theorem pushTag (h : body.KeepsLines) {tag : Tag} (htag : tag.KeepsLines) :
    (body.push (.tag tag)).KeepsLines := by
  refine h.push htag.line fun tag' heq => ?_
  cases heq
  exact htag.bodies

/-- A text needs no line. -/
theorem pushText (h : body.KeepsLines) (text : String) : (body.push (.text text)).KeepsLines :=
  h.push (.inr (.inl rfl)) nofun

end Body.KeepsLines

/-- A tag without bodies keeps lines if it stands on one. -/
theorem TagKind.Single.keepsLines {kind : TagKind} {tag : Tag} (h : kind.Single tag) {line : Nat}
    (hline : tag.StandsAt line) : tag.KeepsLines := by
  refine ⟨hline.keepsLine, ?_⟩
  cases h <;> exact List.forall_mem_nil _

/-! ## Blocks -/

/-- The bodies of a finished block are those that were read, perhaps without their texts. -/
theorem OpenBlock.mem_bodies_close {block : OpenBlock} {line : Option Nat} {bodies : List Body}
    {body : Body} (h : body ∈ (block.close line bodies).bodies) :
    body = .empty ∨ ∃ whole ∈ bodies, body = whole ∨ body = whole.withoutTexts := by
  have helided {body : Body} (h : body ∈ (elide bodies).1) :
      ∃ whole ∈ bodies, body = whole ∨ body = whole.withoutTexts := by
    unfold elide at h
    dsimp only at h
    split at h
    · obtain ⟨whole, hwhole, rfl⟩ := List.mem_map.mp h
      exact ⟨whole, hwhole, .inr rfl⟩
    · exact ⟨body, h, .inl rfl⟩
  have hfirst {all : List Body} (h : body = all.headD .empty) : body = .empty ∨ body ∈ all := by
    subst h
    cases all with
    | nil => exact .inl rfl
    | cons first rest => exact .inr (List.mem_cons_self ..)
  -- A branch or an arm has one of the bodies; a body without a condition is dropped.
  cases block with
  | conditional name negated conditions =>
    have h : body ∈ (List.zipWith Branch.mk conditions (elide bodies).1).map Branch.body := h
    rw [map_body_branches] at h
    exact .inr (helided (List.mem_of_mem_take h))
  | choice name subject heads =>
    have h : body ∈ (List.zipWith arm heads ((elide bodies).1.drop 1)).map Arm.body := h
    rw [map_body_arms] at h
    exact .inr (helided (List.mem_of_mem_drop (List.mem_of_mem_take h)))
  | loop name position header =>
    have h : body ∈ (elide bodies).1.headD .empty :: (elide bodies).1[1]?.toList := h
    rcases List.mem_cons.mp h with h | h
    · exact (hfirst h).imp_right helided
    · exact .inr (helided (List.mem_of_getElem? (Option.mem_toList.mp h)))
  | capture name target =>
    exact (hfirst (List.mem_singleton.mp h)).imp_right fun h => ⟨body, h, .inl rfl⟩
  | transform name f =>
    exact (hfirst (List.mem_singleton.mp h)).imp_right fun h => ⟨body, h, .inl rfl⟩
  | sections name opens passes closes => exact .inr (helided h)

/-- A block that was opened on a line is a tag that keeps it. -/
theorem OpenBlock.keepsLines_close (block : OpenBlock) {line : Option Nat}
    (hline : line.isSome = true) {bodies : List Body} (h : ∀ body ∈ bodies, body.KeepsLines) :
    (block.close line bodies).KeepsLines := by
  refine ⟨?_, fun body hbody => ?_⟩
  · cases block with
    | transform | sections => exact .inr (.inr ⟨_, rfl, rfl⟩)
    | _ => exact .inl hline
  · rcases mem_bodies_close hbody with rfl | ⟨whole, hwhole, rfl | rfl⟩
    · exact .empty
    · exact h _ hwhole
    · exact (h whole hwhole).withoutTexts

/-! ## Documents that are built -/

/-- The bodies of an open block keep their lines, and the block has one. -/
structure BlockFrame.KeepsLines (frame : BlockFrame) : Prop where
  enclosing : frame.enclosing.KeepsLines
  finished : ∀ body ∈ frame.finished, body.KeepsLines
  line : frame.line.isSome = true

/-- All bodies of a builder keep their lines. -/
structure Builder.KeepsLines (b : Builder) : Prop where
  body : b.body.KeepsLines
  frames : ∀ frame ∈ b.frames, frame.KeepsLines

/-- What is read by the lines, where lines are kept, keeps its lines. -/
def LinesReader.KeepsLines (inner : LinesReader) : Prop :=
  ∀ (ctx : ParseContext) markup line s body t, ctx.lines = true →
    inner ctx markup line s = (.ok body, t) → body.KeepsLines

namespace Builder.KeepsLines

variable {ctx : ParseContext} {inner : LinesReader} {stray : String → Parse Builder}
  {b b' : Builder} {s t : ParseState} {token : Token}

/-- A dash at a tag makes no difference. -/
theorem facing (h : b.KeepsLines) (d : Delimited) : (b.facing d).KeepsLines :=
  ⟨b.body_facing (fun h => h.trimLastText) h.body d, (frames_facing b d).symm ▸ h.frames⟩

/-- The start of a registered tag. -/
theorem starts (h : b.KeepsLines) (hinner : inner.KeepsLines) {line : Nat} {kind : TagKind}
    {name args : String} (hstarts : StartsAt ctx inner line kind name args b b') :
    b'.KeepsLines := by
  cases hstarts with
  | single htag hline => exact ⟨h.body.pushTag (htag.keepsLines hline), h.frames⟩
  | lines hkind hdeeper hlines hread =>
    have hbody := hinner _ _ _ _ _ _ hlines hread
    exact ⟨h.body.pushTag ⟨.inl rfl, List.forall_mem_singleton.mpr hbody⟩, h.frames⟩
  | opens hblock =>
    exact ⟨.empty, List.forall_mem_cons.mpr ⟨⟨h.body, List.forall_mem_nil _, rfl⟩, h.frames⟩⟩
  | comment hkind => exact ⟨h.body, h.frames⟩
  | raw hkind trimStart => exact ⟨h.body, h.frames⟩

/-- A token is added. -/
theorem add (h : b.KeepsLines) (hlines : ctx.lines = true) (hinner : inner.KeepsLines)
    (hstray : ∀ tag w Q, (stray tag).Yields w Q)
    (hadd : b.add ctx inner stray token s = (.ok b', t)) : b'.KeepsLines := by
  have registered {d : Delimited} {name args : String} {kind : TagKind} (htoken : token = .tag d)
      (hmode : b.mode = .nodes) (hname : tagParts? d.markup = some (name, args))
      (hkind : ctx.registry.tags.get? name = some kind) : b'.KeepsLines := by
    subst htoken
    exact (h.facing d).starts hinner (startsAt_of_add hlines hmode hname hkind hadd)
  obtain ⟨w, w', hadds⟩ : ∃ w w', Adds ctx inner token b w b' w' :=
    ⟨_, _, add_yields hstray token s b' t rfl hadd⟩
  cases hadds with
  | text hmode text line =>
    have hadded (text : String) : (b.withText text).KeepsLines := by
      unfold withText
      split
      · exact h
      · exact ⟨h.body.pushText text, h.frames⟩
    exact hadded _
  | @output _ _ hmode d p' =>
    -- That an output was added says nothing of its line, which is that of its token.
    obtain ⟨p, hline, hb⟩ := output_of_add hlines hmode hadd
    rw [hb]
    have hkept : (Node.output p).KeepsLine := .inl (Option.isSome_iff_exists.mpr ⟨d.line, hline⟩)
    exact ⟨(h.facing d).body.push hkept nofun, (h.facing d).frames⟩
  | single hmode hname hkind => exact registered rfl hmode hname hkind
  | lines hmode hname hkind => exact registered rfl hmode hname hkind
  | opens hmode hname hkind => exact registered rfl hmode hname hkind
  | comment hmode hname hkind => exact registered rfl hmode hname hkind
  | raw hmode hname hkind => exact registered rfl hmode hname hkind
  | @pass _ _ d => exact h.facing d
  | @body _ _ d _ _ frame frames block hmode hname hnone hframes hblock =>
    obtain ⟨hframe, hframes⟩ := List.forall_mem_cons.mp (hframes ▸ h.frames)
    have hfinished := List.forall_mem_append.mpr
      ⟨hframe.finished, List.forall_mem_singleton.mpr (h.facing d).body⟩
    exact ⟨.empty, List.forall_mem_cons.mpr
      ⟨⟨hframe.enclosing, hfinished, hframe.line⟩, hframes⟩⟩
  | @close _ _ d _ _ frame frames hmode hname hnone hframes hend =>
    obtain ⟨hframe, hframes⟩ := List.forall_mem_cons.mp (hframes ▸ h.frames)
    have hbodies := List.forall_mem_append.mpr
      ⟨hframe.finished, List.forall_mem_singleton.mpr (h.facing d).body⟩
    exact ⟨hframe.enclosing.pushTag (frame.block.keepsLines_close hframe.line hbodies), hframes⟩
  | skip => exact ⟨h.body, h.frames⟩
  | endComment =>
    exact ⟨h.body.pushTag ⟨.inr (.inl rfl), List.forall_mem_nil _⟩, h.frames⟩
  | keep => exact ⟨h.body, h.frames⟩
  | endRaw => exact ⟨h.body.pushTag ⟨.inr (.inl rfl), List.forall_mem_nil _⟩, h.frames⟩

/-- So are any number of tokens. -/
theorem addAll (h : b.KeepsLines) (hlines : ctx.lines = true) (hinner : inner.KeepsLines)
    (hstray : ∀ tag w Q, (stray tag).Yields w Q) {tokens : List Token}
    (hadd : Builder.addAll ctx inner stray tokens b s = (.ok b', t)) : b'.KeepsLines := by
  induction tokens generalizing b s with
  | nil =>
    cases hadd
    exact h
  | cons token tokens ih =>
    obtain ⟨c, u, hfirst, hrest⟩ := ok_of_bind hadd
    exact ih (h.add hlines hinner hstray hfirst) hrest

/-- At first nothing is built. -/
theorem start : ({} : Builder).KeepsLines :=
  ⟨.empty, List.forall_mem_nil _⟩

/-- The finished body is the one that was filled. -/
theorem finish (h : b.KeepsLines) {body : Body} (hfinish : b.finish ctx s = (.ok body, t)) :
    body.KeepsLines := by
  obtain ⟨rfl, -⟩ := finish_yields s body t rfl hfinish
  exact h.body

end Builder.KeepsLines

/-! ## Documents -/

/-- By induction on the levels that are left for lines within lines. -/
theorem Body.keepsLines_parseLines (levels : Nat) :
    LinesReader.KeepsLines (Body.parseLines levels) := by
  induction levels with
  | zero => exact fun _ _ _ _ _ _ _ h => nomatch (Prod.mk.inj h).1
  | succ levels ih =>
    intro ctx markup line s body t hlines h
    obtain ⟨b, u, hadd, hfinish⟩ := ok_of_bind h
    have hb := Builder.KeepsLines.start.addAll hlines ih
      (fun _ _ _ => ctx.refuseTag_yields _ _ _) hadd
    exact hb.finish hfinish

/-- In a document that was read with lines every node keeps its line. -/
theorem Document.keepsLines_of_parse {ctx : ParseContext} (hlines : ctx.lines = true)
    {source : String} {s t : ParseState} {document : Document}
    (h : Document.parse ctx source s = (.ok document, t)) : document.KeepsLines := by
  have hgives : GivesFrom s (Document.parse ctx source) Body.KeepsLines := by
    refine .mapError (.bind fun b u hadd => .bind fun body v hfinish => ?_) _
    have hb := Builder.KeepsLines.start.addAll hlines (Body.keepsLines_parseLines _)
      (fun _ _ _ => ctx.refuseOuterTag_yields _) hadd
    -- An open block at the end is refused, so it gives no document.
    split
    · exact fun document w hrefuse =>
        refuseUnterminated_yields (Q := fun document _ => Body.KeepsLines document) ctx _ v document
          w rfl hrefuse
    · exact .pure (hb.finish hfinish)
  exact hgives document t h

end Stencil
