import Mathlib.Data.List.TakeWhile
import Stencil.Proofs.OpenBlocks

/-!
# White space is trimmed token by token

While a document is read, a dash that closes a token sets a flag for the text behind it, and a dash
that opens one trims the last node that was added. Both amount to the same as looking at the
neighbouring tokens, however blocks, comments and raw text come in between: the nodes of a document
come from the sites of its tokens.

There is one exception. The lines of a tag whose lines are tags are read before what comes behind
the tag, and each of them clears the flag. So a dash that closes such a tag has no effect, unless
all its lines are blank.

## Key definitions

- `ReadSoFar`: how the builder and the flag come from the tokens that were added

## Key results

- `ReadSoFar.add`: every token keeps the invariant
- `Body.givesNodes_parseLines`: the nodes of lines
- `Document.nodesFrom_of_parse`: the nodes of a document come from the sites of its tokens
- `Document.not_nodesFrom_closesTrimmed`: a dash behind lines has no effect
-/

namespace Stencil

open Builder

/-! ## Lines -/

namespace Text

/-- To trim the start of a text makes no difference to whether it is blank. -/
theorem isBlankText_trimStart (s : String) : isBlankText (trimStart s) = isBlankText s := by
  unfold isBlankText trimStart
  rw [String.toList_ofList]
  calc (s.toList.dropWhile isBlank).all isBlank
      = (s.toList.takeWhile isBlank ++ s.toList.dropWhile isBlank).all isBlank := by
        rw [List.all_append, List.all_takeWhile, Bool.true_and]
    _ = s.toList.all isBlank := by rw [List.takeWhile_append_dropWhile]

/-- Nothing is left of a text that is trimmed exactly if all of it is blank. -/
theorem isEmpty_trim (s : String) : (trim s).isEmpty = isBlankText s := by
  rw [← isBlankText_trimStart]
  unfold trim trimEnd isBlankText
  rw [Bool.eq_iff_iff, String.isEmpty_iff, String.ofList_eq_empty_iff, dropEndWhile,
    List.reverse_eq_nil_iff, List.dropWhile_eq_nil_iff, List.all_eq_true]
  exact forall_congr' fun c => by rw [List.mem_reverse]

/-- A text that is cut at blank characters is as blank as its pieces. -/
theorem all_pieces {p : Char → Bool} {pattern : List Char} (hpattern : pattern.all p = true)
    (cs : List Char) : (pieces pattern cs).all (·.all p) = cs.all p := by
  fun_induction pieces pattern cs with
  | case1 => rw [List.all_cons, List.all_nil, Bool.and_true]
  | case2 => rw [List.all_cons, List.all_nil, Bool.and_true]
  | case3 cs hp before after h ih =>
    rw [eq_of_breakOn_eq_some h, List.all_cons, ih, List.all_append, List.all_append, hpattern,
      Bool.and_true]

end Text

/-- There are no tags on lines exactly if all is blank. -/
theorem TokenStream.isEmpty_ofLines (markup : String) (line : Nat) :
    (ofLines markup line).tokens.isEmpty = Text.isBlankText markup := by
  -- A line is no tag if it is blank.
  have hline (cs : List Char) (number : Nat) :
      lineTag? cs number = none ↔ cs.all Text.isBlank = true := by
    have hempty := Text.isEmpty_trim (String.ofList cs)
    rw [Text.isBlankText, String.toList_ofList] at hempty
    unfold lineTag?
    dsimp only
    rw [hempty]
    split
    · rename_i hblank
      exact iff_of_true rfl hblank
    · rename_i hblank
      exact iff_of_false (fun h => nomatch h) hblank
  have hpattern : ['\n'].all Text.isBlank = true := by decide
  rw [Text.isBlankText, ← Text.all_pieces hpattern, Bool.eq_iff_iff, List.isEmpty_iff,
    List.all_eq_true]
  unfold ofLines
  rw [List.filterMap_eq_nil_iff]
  constructor
  · intro h cs hcs
    obtain ⟨index, hindex, rfl⟩ := List.getElem_of_mem hcs
    exact (hline _ _).mp (h (_, line + index)
      (List.mk_add_mem_zipIdx_iff_getElem?.mpr (List.getElem?_eq_getElem hindex)))
  · rintro h ⟨cs, number⟩ hcs
    exact (hline cs number).mpr (h cs (List.fst_mem_of_mem_zipIdx hcs))

/-! ## The last text -/

namespace Body

/-- The body before a token that asks for the last text to be trimmed, or does not. -/
def beforeNext (ask : Bool) (body : Body) : Body :=
  if ask then body.trimLastText else body

/-- The last node is a text. -/
def EndsInText (body : Body) : Prop :=
  ∃ text, body.nodes.getLast? = some (.text text)

/-- Without a text at the end nothing is trimmed. -/
theorem beforeNext_of_not_endsInText {body : Body} (h : ¬body.EndsInText) (ask : Bool) :
    body.beforeNext ask = body := by
  unfold beforeNext trimLastText
  split
  · split
    · rename_i text hlast
      exact absurd ⟨text, hlast⟩ h
    · rfl
  · rfl

/-- Only the text that comes last is trimmed. -/
theorem nodes_beforeNext_push_text (body : Body) (text : String) (ask : Bool) :
    ((body.push (.text text)).beforeNext ask).nodes
      = body.nodes ++ if ask then textNodes (Text.trimEnd text) else [.text text] := by
  unfold beforeNext
  cases ask with
  | false => rfl
  | true =>
    -- The text is the last node, so it is the one that is trimmed.
    have hlast : (body.push (.text text)).nodes.getLast? = some (.text text) :=
      List.getLast?_concat
    rw [if_pos rfl, if_pos rfl, trimLastText, hlast]
    show (body.nodes ++ [Node.text text]).dropLast ++ textNodes (Text.trimEnd text) = _
    rw [List.dropLast_concat]

/-- A body that ends in another node does not end in a text. -/
theorem not_endsInText_push {body : Body} {node : Node} (h : node.isText = false) :
    ¬(body.push node).EndsInText := by
  rintro ⟨text, hlast⟩
  have hnode : node = .text text := Option.some.inj (List.getLast?_concat.symm.trans hlast)
  subst hnode
  cases h

theorem not_endsInText_empty : ¬empty.EndsInText :=
  fun ⟨_, hlast⟩ => nomatch hlast

end Body

/-- A delimited token that is turned to asks for what is before it. -/
theorem Builder.body_facing_eq (b : Builder) (d : Delimited) :
    (b.facing d).body = b.body.beforeNext d.trimLeft := by
  unfold facing Body.beforeNext
  split <;> rfl

/-! ## The invariant -/

/-- Between nodes: what was read are the sites of all tokens so far, whatever the next token asks,
and the flag is what the last one asks. -/
structure AtNodes (first : Bool) (added : List Token) (b : Builder) (w : Bool) : Prop where
  asks : w = lastAsks Token.trimsNext first added
  last : w = true → ¬b.body.EndsInText
  opened : ∀ ask, Opened b.frames (b.body.beforeNext ask).nodes
    (sites Token.trimsNext first added ask)

/-- Inside a comment: what was read are the sites before the token that starts it. -/
def InComment (first : Bool) (added : List Token) (b : Builder) (depth : Nat) (inRaw : Bool) :
    Prop :=
  ∃ before opener inside, added = before ++ opener :: inside
    ∧ opener.name? = some "comment" ∧ openInside? inside = some (depth, inRaw)
    ∧ Opened b.frames b.body.nodes (sites Token.trimsNext first before opener.opensTrimmed)

/-- Inside raw text: what was read are the sites before the token that starts it, and all since was
kept. -/
def InRaw (first : Bool) (added : List Token) (b : Builder) (trimStart : Bool) (text : String) :
    Prop :=
  ∃ before opener inside, added = before ++ opener :: inside
    ∧ opener.name? = some "raw" ∧ (∀ token ∈ inside, token.name? ≠ some "endraw")
    ∧ trimStart = opener.closesTrimmed ∧ text = String.join (inside.map sourceOf)
    ∧ Opened b.frames b.body.nodes (sites Token.trimsNext first before opener.opensTrimmed)

/-- How the builder and the flag come from the tokens that were added, where `first` was asked of
the first one. -/
def ReadSoFar (first : Bool) (added : List Token) (b : Builder) (w : Bool) : Prop :=
  match b.mode with
  | .nodes => AtNodes first added b w
  | .comment _ depth inRaw => InComment first added b depth inRaw
  | .raw _ trimStart text => InRaw first added b trimStart text

/-- What the lines give comes from their tokens, and the flag stays as it is if there are none. -/
def LinesReader.GivesNodes (inner : LinesReader) : Prop :=
  ∀ (ctx : ParseContext) markup line s body t, ctx.registry.tags = TagKind.standard →
    inner ctx markup line s = (.ok body, t) →
      NodesFrom TagFrom body.nodes
        (sites (fun _ => false) s.trimNext (TokenStream.ofLines markup line).tokens false)
      ∧ t.trimNext = (s.trimNext && (TokenStream.ofLines markup line).tokens.isEmpty)

/-- A tag with another name has no lines. -/
theorem Token.trimsNext_of_tagParts? {d : Delimited} {name args : String}
    (h : tagParts? d.markup = some (name, args)) (hname : name ≠ "liquid") :
    (Token.tag d).trimsNext = d.trimRight := by
  -- Only the `liquid` tag holds lines.
  have hlines : (Token.tag d).holdsLines = false := by
    unfold holdsLines
    dsimp only
    rw [h]
    split
    · rename_i heq
      exact absurd (Prod.mk.inj (Option.some.inj heq)).1 hname
    · rfl
  rw [trimsNext, hlines]
  exact Bool.and_true _

/-- A tag with lines asks for what comes next only if its lines are blank. -/
theorem Token.trimsNext_of_lines {d : Delimited} {args : String}
    (h : tagParts? d.markup = some ("liquid", args)) :
    (Token.tag d).trimsNext = (d.trimRight && Text.isBlankText args) := by
  simp only [trimsNext, closesTrimmed, holdsLines, h, Bool.not_not]

namespace ReadSoFar

variable {first : Bool} {added : List Token} {token : Token} {b b' : Builder} {w w' : Bool}

/-- Outside of comments and raw blocks the nodes are what was read. -/
theorem atNodes (h : ReadSoFar first added b w) (hmode : b.mode = .nodes) :
    AtNodes first added b w := by
  unfold ReadSoFar at h
  rwa [hmode] at h

/-- Inside a comment they are what was read before it. -/
theorem inComment (h : ReadSoFar first added b w) {name : String} {depth : Nat} {inRaw : Bool}
    (hmode : b.mode = .comment name depth inRaw) : InComment first added b depth inRaw := by
  unfold ReadSoFar at h
  rwa [hmode] at h

/-- So it is inside a raw block. -/
theorem inRaw (h : ReadSoFar first added b w) {name text : String} {trimStart : Bool}
    (hmode : b.mode = .raw name trimStart text) : InRaw first added b trimStart text := by
  unfold ReadSoFar at h
  rwa [hmode] at h

/-- Outside of both nothing more is asked. -/
theorem of_atNodes (hmode : b.mode = .nodes) (h : AtNodes first added b w) :
    ReadSoFar first added b w := by
  unfold ReadSoFar
  rwa [hmode]

/-- After a token that is no text, what comes next trims nothing. -/
theorem of_end (hmode : b.mode = .nodes) (hw : w = token.trimsNext) (hlast : ¬b.body.EndsInText)
    (h : ∀ ask, Opened b.frames b.body.nodes
      (sites Token.trimsNext first (added ++ [token]) ask)) :
    ReadSoFar first (added ++ [token]) b w := by
  refine of_atNodes hmode ⟨hw.trans (lastAsks_concat ..).symm, fun _ => hlast, fun ask => ?_⟩
  rw [Body.beforeNext_of_not_endsInText hlast]
  exact h ask

/-- What was read when a delimited token is turned to. -/
theorem facing (h : ReadSoFar first added b w) (hmode : b.mode = .nodes) (d : Delimited) :
    Opened b.frames (b.facing d).body.nodes (sites Token.trimsNext first added d.trimLeft) := by
  rw [b.body_facing_eq]
  exact (h.atNodes hmode).opened d.trimLeft

/-- A text is trimmed as the tokens next to it ask. -/
theorem text (h : ReadSoFar first added b w) (hmode : b.mode = .nodes) {text : String}
    (hne : text ≠ "") (line : Nat) :
    ReadSoFar first (added ++ [.text text line])
      (b.withText (if w then Text.trimStart text else text)) false := by
  obtain ⟨hw, hlast, hopened⟩ := h.atNodes hmode
  obtain ⟨rest, hrest⟩ : ∃ rest, (if w then Text.trimStart text else text) = rest := ⟨_, rfl⟩
  have hsite (ask : Bool) : Opened b.frames
      (b.body.nodes ++ textNodes (if ask then Text.trimEnd rest else rest))
      (sites Token.trimsNext first (added ++ [.text text line]) ask) := by
    rw [sites_concat, ← hw, ← hrest]
    exact @Opened.text _ _ _ (hopened false) ⟨w, .text text line, ask⟩ text line rfl
  have hask : false = lastAsks Token.trimsNext first (added ++ [.text text line]) :=
    Eq.symm (lastAsks_concat added (.text text line) : _ = Token.trimsNext (.text text line))
  rw [hrest]
  unfold withText
  split
  · -- Only what asked for the text to be trimmed can leave nothing of it.
    rename_i hempty
    have hnil : rest = "" := String.isEmpty_iff.mp hempty
    have htrim : w = true := by
      cases w with
      | true => rfl
      | false => exact absurd (hrest.trans hnil) hne
    refine of_atNodes hmode ⟨hask, (fun hf => nomatch hf), fun ask => ?_⟩
    rw [Body.beforeNext_of_not_endsInText (hlast htrim)]
    have hnothing : textNodes (if ask then Text.trimEnd rest else rest) = [] := by
      subst hnil
      cases ask <;> rfl
    have h := hsite ask
    rwa [hnothing, List.append_nil] at h
  · rename_i hempty
    refine of_atNodes hmode ⟨hask, (fun hf => nomatch hf), fun ask => ?_⟩
    have hnodes := b.body.nodes_beforeNext_push_text rest ask
    have hwhole : textNodes rest = [.text rest] := if_neg hempty
    have h := hsite ask
    cases ask with
    | true =>
      show Opened b.frames ((b.body.push (.text rest)).beforeNext true).nodes _
      rw [hnodes]
      exact h
    | false =>
      show Opened b.frames ((b.body.push (.text rest)).beforeNext false).nodes _
      rw [hnodes]
      exact hwhole ▸ h

/-- Between nodes, a token that becomes a node of its own. -/
theorem node (h : ReadSoFar first added b w) (hmode : b.mode = .nodes) {d : Delimited}
    {node : Node} (hnode : node.isText = false) (hopens : token.opensTrimmed = d.trimLeft)
    (hw : w' = token.trimsNext)
    (hadded : ∀ ask, Opened b.frames (b.facing d).body.nodes
        (sites Token.trimsNext first added d.trimLeft) →
      Opened b.frames ((b.facing d).body.nodes ++ [node])
        (sites Token.trimsNext first added d.trimLeft
          ++ [⟨lastAsks Token.trimsNext first added, token, ask⟩])) :
    ReadSoFar first (added ++ [token]) ((b.facing d).push node) w' := by
  have hmode' : ((b.facing d).push node).mode = .nodes := (mode_facing b d).trans hmode
  refine of_end hmode' hw (Body.not_endsInText_push hnode) fun ask => ?_
  -- The dash in front of the token trims the text before it, and the token adds its own site.
  rw [sites_concat, hopens]
  show Opened (b.facing d).frames ((b.facing d).body.nodes ++ [node]) _
  rw [frames_facing]
  exact hadded ask (h.facing hmode d)

/-- A token inside a comment. -/
theorem skip (h : ReadSoFar first added b w) {name : String} {depth depth' : Nat}
    {inRaw inRaw' : Bool} (hmode : b.mode = .comment name depth inRaw)
    (hgo : skipped depth inRaw token = some (depth', inRaw')) :
    ReadSoFar first (added ++ [token]) { b with mode := .comment name depth' inRaw' } w' := by
  obtain ⟨before, opener, inside, rfl, hopener, hinside, hopened⟩ := h.inComment hmode
  refine ⟨before, opener, inside ++ [token], List.append_assoc .., hopener, ?_, hopened⟩
  rw [openInside?_concat, hinside]
  exact hgo

/-- The end of what was not read as nodes. -/
theorem closed {before inside : List Token} {opener closer : Token} {tag : Tag}
    (h : Opened b.frames b.body.nodes (sites Token.trimsNext first before opener.opensTrimmed))
    (hw : w' = closer.trimsNext)
    (htag : ∀ all : List Site, all.map Site.token = opener :: inside ++ [closer] →
      TagFrom tag all) :
    ReadSoFar first (before ++ opener :: inside ++ [closer])
      { b.pushTag tag with mode := .nodes } w' := by
  refine of_end rfl hw (Body.not_endsInText_push rfl) fun ask => ?_
  rw [List.append_assoc, sites_append]
  exact h.tag (htag _ (map_token_sites _))

/-- A comment that ends is one node. -/
theorem endComment (h : ReadSoFar first added b w) {name : String} {d : Delimited}
    (hmode : b.mode = .comment name 0 false) (hend : tagName? token = some ("endcomment", d)) :
    ReadSoFar first (added ++ [token]) { b.pushTag .comment with mode := .nodes } d.trimRight := by
  obtain ⟨before, opener, inside, rfl, hopener, hinside, hopened⟩ := h.inComment hmode
  obtain ⟨rfl, args, hparts⟩ := tagName?_eq_some_iff.mp hend
  have hw := (Token.trimsNext_of_tagParts? hparts (by decide)).symm
  exact closed hopened hw fun all hall =>
    .comment hall hopener (Token.name?_of_tagParts? hparts) hinside

/-- A token inside raw text. -/
theorem keep (h : ReadSoFar first added b w) {name text : String} {trimStart : Bool}
    (hmode : b.mode = .raw name trimStart text)
    (hgo : ∀ d, tagName? token ≠ some ("endraw", d)) :
    ReadSoFar first (added ++ [token])
      { b with mode := .raw name trimStart (text ++ sourceOf token) } w' := by
  obtain ⟨before, opener, inside, rfl, hopener, hinside, htrim, htext, hopened⟩ := h.inRaw hmode
  -- A token that goes on is no `endraw`.
  have htoken : token.name? ≠ some "endraw" := by
    intro hname
    obtain ⟨⟨_, d⟩, hpair, rfl⟩ := Option.map_eq_some_iff.mp hname
    exact hgo d hpair
  refine ⟨before, opener, inside ++ [token], List.append_assoc .., hopener, ?_, htrim, ?_, hopened⟩
  · exact List.forall_mem_append.mpr ⟨hinside, List.forall_mem_singleton.mpr htoken⟩
  · rw [htext, List.map_append, String.join_append]
    show _ = _ ++ ("" ++ sourceOf token)
    rw [String.empty_append]

/-- So is a raw block. -/
theorem endRaw (h : ReadSoFar first added b w) {name text : String} {trimStart : Bool}
    {d : Delimited} (hmode : b.mode = .raw name trimStart text)
    (hend : tagName? token = some ("endraw", d)) :
    ReadSoFar first (added ++ [token])
      { b.pushTag (.raw (rawText trimStart d.trimLeft text)) with mode := .nodes } d.trimRight := by
  obtain ⟨before, opener, inside, rfl, hopener, hinside, rfl, rfl, hopened⟩ := h.inRaw hmode
  obtain ⟨rfl, args, hparts⟩ := tagName?_eq_some_iff.mp hend
  have hw := (Token.trimsNext_of_tagParts? hparts (by decide)).symm
  refine closed hopened hw fun all hall => ?_
  have hcloser := Token.name?_of_tagParts? hparts
  exact @TagFrom.raw all opener (.tag d) inside hall hopener hcloser hinside

section

variable {d : Delimited} {name args : String} {kind : TagKind} {frame : BlockFrame}
  {frames : List BlockFrame}

/-- A tag without bodies. -/
theorem single (h : ReadSoFar first added b w) (hmode : b.mode = .nodes)
    (hname : tagParts? d.markup = some (name, args)) (hkind : kind.standardName? = some name)
    {tag : Tag} (htag : kind.Single tag) :
    ReadSoFar first (added ++ [.tag d]) ((b.facing d).pushTag tag) d.trimRight := by
  have hnamed : (Token.tag d).name? = some tag.name := by
    rw [htag.name_eq hkind]
    exact Token.name?_of_tagParts? hname
  exact h.node hmode rfl rfl (Token.trimsNext_of_tagParts? hname (htag.ne_liquid hkind)).symm
    fun _ hopened => hopened.tag (.single htag hnamed)

/-- A tag with lines, which were read before what is behind it. -/
theorem lines (h : ReadSoFar first added b w) (hmode : b.mode = .nodes)
    (hname : tagParts? d.markup = some ("liquid", args)) {body : Body} {line : Option Nat}
    {number : Nat}
    (hnodes : NodesFrom TagFrom body.nodes
      (sites (fun _ => false) d.trimRight (TokenStream.ofLines args number).tokens false))
    (hw : w' = (d.trimRight && (TokenStream.ofLines args number).tokens.isEmpty)) :
    ReadSoFar first (added ++ [.tag d]) ((b.facing d).pushTag (.lines body line)) w' := by
  have hasks : w' = (Token.tag d).trimsNext := by
    rw [hw, TokenStream.isEmpty_ofLines, Token.trimsNext_of_lines hname]
  exact h.node hmode rfl rfl hasks fun _ hopened => hopened.tag (.lines rfl hname hnodes)

/-- A tag that opens a block. -/
theorem opens (h : ReadSoFar first added b w) (hmode : b.mode = .nodes)
    (hname : tagParts? d.markup = some (name, args)) (hkind : kind.standardName? = some name)
    {block : OpenBlock} (hblock : kind.Opens name block) (line : Option Nat) :
    ReadSoFar first (added ++ [.tag d])
      { body := .empty
        frames := { block, line, enclosing := (b.facing d).body } :: b.frames
        mode := .nodes }
      d.trimRight := by
  -- The name of the block is that of its tag.
  have hnamed : (Token.tag d).name? = some block.name := by
    rw [hblock.name_eq]
    exact Token.name?_of_tagParts? hname
  refine of_end rfl (Token.trimsNext_of_tagParts? hname (hblock.ne_liquid hkind)).symm
    Body.not_endsInText_empty fun ask => ?_
  rw [sites_concat]
  exact (h.facing hmode d).opens rfl hnamed (.of_opens hkind hblock rfl) rfl

/-- The start of a comment. -/
theorem startComment (h : ReadSoFar first added b w) (hmode : b.mode = .nodes)
    (hname : tagParts? d.markup = some ("comment", args)) (w' : Bool) :
    ReadSoFar first (added ++ [.tag d])
      { b.facing d with mode := .comment "comment" 0 false } w' := by
  refine ⟨added, .tag d, [], rfl, Token.name?_of_tagParts? hname, rfl, ?_⟩
  exact (b.frames_facing d).symm ▸ h.facing hmode d

/-- The start of raw text. -/
theorem startRaw (h : ReadSoFar first added b w) (hmode : b.mode = .nodes)
    (hname : tagParts? d.markup = some ("raw", args)) (w' : Bool) :
    ReadSoFar first (added ++ [.tag d])
      { b.facing d with mode := .raw "raw" d.trimRight "" } w' := by
  refine ⟨added, .tag d, [], rfl, Token.name?_of_tagParts? hname, List.forall_mem_nil _, rfl, rfl,
    ?_⟩
  exact (b.frames_facing d).symm ▸ h.facing hmode d

/-- A tag between two bodies of a block. -/
theorem divide (h : ReadSoFar first added b w) (hmode : b.mode = .nodes)
    (hname : tagParts? d.markup = some (name, args)) (hframes : b.frames = frame :: frames)
    {block : OpenBlock} (hblock : frame.block.Turns (!frame.finished.isEmpty) name block) :
    ReadSoFar first (added ++ [.tag d])
      { body := .empty
        frames := { frame with block, finished := frame.finished ++ [(b.facing d).body] } :: frames
        mode := .nodes }
      d.trimRight := by
  have hfacing := h.facing hmode d
  rw [hframes] at hfacing
  obtain ⟨hfits, hnamed, hdivider⟩ := hfacing.fits.turns hblock (b.facing d).body
  -- A tag that divides a block is none with lines.
  have hlines : name ≠ "liquid" := by
    rintro rfl
    exact absurd hdivider (by decide)
  refine of_end rfl (Token.trimsNext_of_tagParts? hname hlines).symm Body.not_endsInText_empty
    fun ask => ?_
  rw [sites_concat]
  exact hfacing.divide
    { frame with block, finished := frame.finished ++ [(b.facing d).body] } rfl rfl hnamed hfits
    rfl (Token.name?_of_tagParts? hname) hdivider

/-- The end of a block. -/
theorem close (h : ReadSoFar first added b w) (hmode : b.mode = .nodes)
    (hname : tagParts? d.markup = some ("end" ++ frame.block.name, args))
    (hframes : b.frames = frame :: frames)
    (hbodies : ∀ inside ∈ frame.finished ++ [(b.facing d).body], inside.IsFaithful) :
    ReadSoFar first (added ++ [.tag d])
      { body := frame.enclosing.push
          (.tag (frame.block.close frame.line (frame.finished ++ [(b.facing d).body])))
        frames
        mode := .nodes }
      d.trimRight := by
  have hfacing := h.facing hmode d
  rw [hframes] at hfacing
  obtain ⟨hencloses, hnamed⟩ := hfacing.fits.encloses hbodies
  -- Neither is a closing tag, as it starts with another letter.
  have hlines : "end" ++ frame.block.name ≠ "liquid" := by
    intro heq
    have hchars := congrArg String.toList heq
    rw [String.toList_append] at hchars
    exact nomatch (List.cons.inj hchars).1
  refine of_end rfl (Token.trimsNext_of_tagParts? hname hlines).symm
    (Body.not_endsInText_push rfl) fun ask => ?_
  rw [sites_concat]
  exact hfacing.closes hnamed (Token.name?_of_tagParts? hname) hencloses

end

/-- A token of a document keeps the invariant. -/
theorem add {ctx : ParseContext} (hctx : ctx.registry.tags = TagKind.standard)
    {inner : LinesReader} (hinner : inner.GivesNodes)
    (htoken : ∀ text line, token = .text text line → text ≠ "")
    (h : ReadSoFar first added b w) (hbodies : b.Bodies Body.IsSound)
    (hadds : Adds ctx inner token b w b' w') : ReadSoFar first (added ++ [token]) b' w' := by
  -- A tag that is registered has the name of its kind.
  have named {name : String} {kind : TagKind} (hkind : ctx.registry.tags.get? name = some kind) :
      kind.standardName? = some name := TagKind.standardName?_of_registered hctx hkind
  -- Blocks of the host are not open.
  have not_sections {frame : BlockFrame} {frames : List BlockFrame}
      (hframes : b.frames = frame :: frames) {block opens passes closes : String}
      (hblock : frame.block = .sections block opens passes closes) : False := by
    have hstandard := (hbodies.frames frame (hframes ▸ List.mem_cons_self ..)).block
    rw [hblock] at hstandard
    exact nomatch hstandard
  cases hadds with
  | text hmode text line => exact h.text hmode (htoken text line rfl) line
  | output hmode d p =>
    exact h.node hmode rfl rfl (Bool.and_true _).symm fun _ hopened => hopened.output p rfl
  | single hmode hname hkind htag => exact h.single hmode hname (named hkind) htag
  | @lines _ _ d name args deeper body s t hmode hname hkind hdeeper hs line hread =>
    obtain rfl : name = "liquid" := (Option.some.inj (named hkind)).symm
    obtain ⟨hnodes, ht⟩ := hinner _ _ _ _ _ _ (hdeeper ▸ hctx) hread
    rw [hs] at hnodes ht
    exact h.lines hmode hname hnodes ht
  | opens hmode hname hkind hblock line => exact h.opens hmode hname (named hkind) hblock line
  | @comment _ _ d name args hmode hname hkind =>
    obtain rfl : name = "comment" := (Option.some.inj (named hkind)).symm
    exact h.startComment hmode hname _
  | @raw _ _ d name hmode hname hkind =>
    obtain rfl : name = "raw" := (Option.some.inj (named hkind)).symm
    exact h.startRaw hmode hname _
  | pass hmode hname hnone hframes hblock =>
    obtain ⟨block, opens, passes, closes, hblock⟩ := hblock
    exact (not_sections hframes hblock).elim
  | body hmode hname hnone hframes hblock => exact h.divide hmode hname hframes hblock
  | @close _ _ d name args frame frames hmode hname hnone hframes hend =>
    have hend : name = "end" ++ frame.block.name :=
      hend.resolve_right fun ⟨_, _, _, hblock⟩ => not_sections hframes hblock
    have hsound := (hbodies.frames frame (hframes ▸ List.mem_cons_self ..)).finished_concat
      (b.body_facing (fun h => h.trimLastText) hbodies.body d)
    exact h.close hmode (hend ▸ hname) hframes fun inside hi => (hsound inside hi).faithful
  | skip hmode hgo => exact h.skip hmode hgo
  | endComment hmode hend => exact h.endComment hmode hend
  | keep hmode hgo => exact h.keep hmode hgo
  | endRaw hmode hend => exact h.endRaw hmode hend

/-- Tokens that were all added. -/
theorem addAll {ctx : ParseContext} (hctx : ctx.registry.tags = TagKind.standard)
    {inner : LinesReader} (hinner : inner.GivesNodes)
    (hbodies : inner.Gives fun body => body.IsSound ∧ body.IsTextless)
    {stray : String → Parse Builder} (hstray : ∀ tag w Q, (stray tag).Yields w Q)
    {tokens : List Token} (htokens : ∀ text line, .text text line ∈ tokens → text ≠ "") :
    (Builder.addAll ctx inner stray tokens {}).Yields first (ReadSoFar first tokens) := by
  -- At first nothing was read, so nothing asks to be trimmed but the text at the front.
  have hstart : ReadSoFar first [] {} first := by
    refine of_atNodes rfl ⟨rfl, fun _ => Body.not_endsInText_empty, fun ask => ?_⟩
    rw [Body.beforeNext_of_not_endsInText Body.not_endsInText_empty]
    exact .outside .nil
  refine (Builder.addAll_yields hstray (I := fun added b w =>
    ReadSoFar first added b w ∧ b.Bodies Body.IsSound) ?_ [] ⟨hstart, ?_⟩).mono fun _ _ h => h.1
  · intro added b w token b' w' hmem h hadds
    refine ⟨h.1.add hctx hinner (fun text line htext => htokens text line (htext ▸ hmem)) h.2 hadds,
      (Body.sound_grows true).add hctx hbodies (fun _ => rfl) h.2 hadds⟩
  · exact ⟨.empty, List.forall_mem_nil _⟩

/-- When nothing is open any more, the nodes come from the sites. -/
theorem nodesFrom (h : ReadSoFar first added b w) (hmode : b.mode = .nodes)
    (hframes : b.frames = []) :
    NodesFrom TagFrom b.body.nodes (sites Token.trimsNext first added false)
      ∧ w = lastAsks Token.trimsNext first added := by
  have hat := h.atNodes hmode
  have hopened : Opened b.frames b.body.nodes _ := hat.opened false
  rw [hframes] at hopened
  cases hopened with
  | outside hnodes => exact ⟨hnodes, hat.asks⟩

end ReadSoFar

/-! ## Documents -/

/-- Tags on lines of their own ask for nothing. -/
theorem TokenStream.trimsNext_of_mem_ofLines {markup : String} {line : Nat} {token : Token}
    (h : token ∈ (ofLines markup line).tokens) : token.trimsNext = false := by
  obtain ⟨d, rfl, htrim⟩ := eq_tag_of_mem_ofLines h
  rw [Token.trimsNext, Token.closesTrimmed, htrim]
  rfl

/-- The nodes of lines come from the sites of their tokens, however deep such lines are nested. -/
theorem Body.givesNodes_parseLines (levels : Nat) : (Body.parseLines levels).GivesNodes := by
  induction levels with
  | zero => exact fun _ _ _ _ _ _ _ h => nomatch (Prod.mk.inj h).1
  | succ levels ih =>
    intro ctx markup line s body t hctx h
    have htokens : ∀ text number, .text text number ∈ (TokenStream.ofLines markup line).tokens →
        text ≠ "" := fun _ _ hmem => nomatch TokenStream.isText_of_mem_ofLines hmem
    -- The lines are read like any tokens, one level deeper.
    have hyields : (Body.parseLines (levels + 1) ctx markup line).Yields s.trimNext
        fun body w => NodesFrom TagFrom body.nodes (sites Token.trimsNext s.trimNext
            (TokenStream.ofLines markup line).tokens false)
          ∧ w = lastAsks Token.trimsNext s.trimNext (TokenStream.ofLines markup line).tokens := by
      refine .bind (ReadSoFar.addAll hctx ih (Body.sound_parseLines levels)
        (fun _ _ _ => ctx.refuseTag_yields _ _ _) htokens) fun b w hb => ?_
      refine Builder.finish_yields.mono fun body w' hbody => ?_
      obtain ⟨rfl, hframes, hmode, rfl⟩ := hbody
      exact hb.nodesFrom hmode hframes
    obtain ⟨hnodes, ht⟩ := hyields s body t rfl h
    -- No line asks for what is behind it to be trimmed.
    have hnone : ∀ token ∈ (TokenStream.ofLines markup line).tokens, token.trimsNext = false :=
      fun token hmem => TokenStream.trimsNext_of_mem_ofLines hmem
    refine ⟨sites_congr hnone ▸ hnodes, ht.trans ?_⟩
    unfold lastAsks
    cases hlast : (TokenStream.ofLines markup line).tokens.getLast? with
    | none =>
      rw [List.getLast?_eq_none_iff.mp hlast]
      exact (Bool.and_true _).symm
    | some token =>
      have hmem := List.mem_of_getLast? hlast
      rw [List.isEmpty_eq_false_iff_exists_mem.mpr ⟨token, hmem⟩, Bool.and_false]
      exact hnone token hmem

namespace Document

/-- The nodes of a document that was read with the standard tags come from the sites of its tokens:
a text is trimmed where a token next to it asks for that, and nowhere else. A dash at the end of a
tag asks for nothing if there are lines in the tag; where no such tag ends in a dash, that makes no
difference. -/
theorem nodesFrom_of_parse {ctx : ParseContext} (hctx : ctx.registry.tags = TagKind.standard)
    {source : String} {s t : ParseState} {document : Document}
    (h : Document.parse ctx source s = (.ok document, t)) :
    NodesFrom TagFrom document.nodes
        (sites Token.trimsNext s.trimNext (TokenStream.ofSource source).tokens false)
      ∧ ((∀ token ∈ (TokenStream.ofSource source).tokens,
            token.closesTrimmed = true → token.holdsLines = false) →
          NodesFrom TagFrom document.nodes
            (sites Token.closesTrimmed s.trimNext (TokenStream.ofSource source).tokens false)) := by
  have hnodes : NodesFrom TagFrom document.nodes
      (sites Token.trimsNext s.trimNext (TokenStream.ofSource source).tokens false) := by
    have htokens : ∀ text line, .text text line ∈ (TokenStream.ofSource source).tokens →
        text ≠ "" :=
      fun text line hmem => ((TokenStream.isCutOf_scan source.toList 1).tokens _ hmem).1
    have hofStream : (Document.ofStream ctx (.ofSource source)).Yields s.trimNext
        fun document _ => NodesFrom TagFrom document.nodes
          (sites Token.trimsNext s.trimNext (TokenStream.ofSource source).tokens false) := by
      refine .bind (ReadSoFar.addAll hctx (Body.givesNodes_parseLines _) (Body.sound_parseLines _)
        (fun _ _ _ => ctx.refuseOuterTag_yields _) htokens) fun b _ hb => ?_
      refine .bind Builder.finish_yields fun body _ hbody => ?_
      obtain ⟨rfl, hframes, hmode, -⟩ := hbody
      split
      · exact Document.refuseUnterminated_yields ctx _
      · exact .pure (hb.nodesFrom hmode hframes).1
    exact Parse.Yields.mapError hofStream _ s document t rfl h
  refine ⟨hnodes, fun hlines => ?_⟩
  -- Only a tag with lines closes with a dash and yet does not trim what is behind it.
  have hasks : ∀ token ∈ (TokenStream.ofSource source).tokens,
      token.trimsNext = token.closesTrimmed := by
    intro token hmem
    unfold Token.trimsNext
    cases hcloses : token.closesTrimmed with
    | false => rfl
    | true =>
      rw [hlines token hmem hcloses]
      rfl
  exact sites_congr hasks ▸ hnodes

/-- Text around the tags of a block and around raw text. -/
theorem nodesFrom_of_parse_branches :
    let source := "a {%- if x -%} b {%- else %} c {% endif -%} {% raw %}"
      ++ "{% endraw -%} d"
    ∃ document t, Document.parse (.ofOptions .standard {}) source {} = (.ok document, t)
      ∧ document.nodes.filterMap Node.text? = ["a", "d"]
      ∧ NodesFrom TagFrom document.nodes
          (sites Token.closesTrimmed false (TokenStream.ofSource source).tokens false) := by
  intro source
  have hread : ((Document.parse (.ofOptions .standard {}) source {}).1.toOption.map
      fun document => document.nodes.filterMap Node.text?) = some ["a", "d"] := by decide +kernel
  have hlines : ((TokenStream.ofSource source).tokens.all fun token =>
      !token.closesTrimmed || !token.holdsLines) = true := by decide +kernel
  obtain ⟨document, hparse, htexts⟩ := Attempt.ok_of_map_toOption hread
  refine ⟨document, _, hparse, htexts, (nodesFrom_of_parse rfl hparse).2 ?_⟩
  intro token hmem hcloses
  have htoken := List.all_eq_true.mp hlines token hmem
  rw [hcloses] at htoken
  exact (Bool.not_eq_true' _).mp htoken

/-- Behind a tag with lines, a dash at its end has no effect on the text. -/
theorem not_nodesFrom_closesTrimmed :
    let source := "{% liquid assign x = 1 -%} a"
    ∃ document t, Document.parse (.ofOptions .standard {}) source {} = (.ok document, t)
      ∧ .text " a" ∈ document.nodes
      ∧ ¬NodesFrom TagFrom document.nodes
          (sites Token.closesTrimmed false (TokenStream.ofSource source).tokens false) := by
  intro source
  have hread : ((Document.parse (.ofOptions .standard {}) source {}).1.toOption.map
      fun document => document.nodes.filterMap Node.text?) = some [" a"] := by decide +kernel
  -- All that the tokens next to it leave of the text.
  have hsites : ((sites Token.closesTrimmed false (TokenStream.ofSource source).tokens false).all
      fun site => match site.token with | .text whole _ => site.trimmed whole != " a" | _ => true)
      = true := by decide +kernel
  obtain ⟨document, hparse, htexts⟩ := Attempt.ok_of_map_toOption hread
  have hmem : Node.text " a" ∈ document.nodes := by
    have hlast : " a" ∈ document.nodes.filterMap Node.text? :=
      htexts ▸ List.mem_singleton_self _
    obtain ⟨node, hnode, heq⟩ := List.mem_filterMap.mp hlast
    exact Node.eq_text_of_text? heq ▸ hnode
  refine ⟨document, _, hparse, hmem, fun hfrom => ?_⟩
  obtain ⟨site, hsite, whole, line, htoken, htrimmed⟩ := hfrom.mem_text hmem
  have hleft := List.all_eq_true.mp hsites site hsite
  rw [htoken] at hleft
  exact absurd htrimmed.symm (bne_iff_ne.mp hleft)

end Document

end Stencil
