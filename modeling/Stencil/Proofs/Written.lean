import Mathlib.Data.List.Chain
import Stencil.Proofs.Tokens

/-!
# Templates as they are written

A template as a tree, before it is read: texts, outputs, assignments and the blocks of the
standard tags, each with its markup and what the markup stands for. `pieces` writes the tree down,
every delimiter with a space at either end, and `body` is the document that it stands for.

A tree can be written down if its texts are told from delimiters and from each other
(`Items.Separate`); then the tokens of the source are those of the pieces.

## Key results

- `TokenStream.scan_chars`: the tokens of pieces in which no two texts are adjacent
- `Written.Items.ofSource_source`: the tokens of a tree
-/

namespace Stencil

namespace Written

/-- Markup and what it is read as. -/
structure Markup (α : Type) where
  text : String
  value : α

mutual

/-- A part of a template. -/
inductive Item where
  | text (text : String)
  | output (source : Markup Pipeline)
  /-- The markup stands for the target and the source. -/
  | assign (parts : Markup (String × Pipeline))
  | conditional (negated : Bool) (condition : Markup Condition) (body : Items)
      (branches : Branches)
  | loop (header : Markup LoopHeader) (body : Items) (alternative : Alternative)
  /-- What is written before the first arm belongs to none of them. -/
  | choice (subject : Markup Expression) (before : Items) (arms : Arms)
  | capture (target : Markup String) (body : Items)

/-- Parts in order. -/
inductive Items where
  | nil
  | cons (item : Item) (rest : Items)

/-- The branches behind the first one, in any order. -/
inductive Branches where
  | nil
  | elsif (condition : Markup Condition) (body : Items) (rest : Branches)
  | otherwise (body : Items) (rest : Branches)

/-- What is rendered if there is nothing to loop over. -/
inductive Alternative where
  | none
  | otherwise (body : Items)

/-- The arms of a choice, in any order. -/
inductive Arms where
  | nil
  | when (condition : Markup Condition) (body : Items) (rest : Arms)
  | otherwise (body : Items) (rest : Arms)

end

/-! ## How a tree is written down -/

/-- A text, or what stands between delimiters, without the spaces next to them. -/
inductive Piece where
  | text (text : String)
  | delimited (delimiter : Delimiter) (inside : String)

namespace Piece

/-- A tag with markup. -/
def tag (name markup : String) : Piece :=
  delimited .tag (name ++ " " ++ markup)

/-- A tag without markup. -/
def bareTag (name : String) : Piece :=
  delimited .tag name

/-- Whether the piece is text. -/
def isText : Piece → Bool
  | text _ => true
  | delimited .. => false

/-- The characters of a piece. -/
def chars : Piece → List Char
  | text s => s.toList
  | delimited delimiter inside =>
    delimiter.opener ++ ' ' :: (inside.toList ++ [' ']) ++ delimiter.closer

/-- The token that the piece is cut into. -/
def token (line : Nat) : Piece → Token
  | text s => .text s line
  | delimited delimiter inside =>
    .delimited delimiter {
      source := String.ofList (delimited delimiter inside).chars
      markup := " " ++ inside ++ " "
      line
      trimLeft := false
      trimRight := false }

end Piece

/-- The characters of pieces. -/
def chars (pieces : List Piece) : List Char :=
  pieces.flatMap Piece.chars

/-- The tokens that the pieces are cut into, the first of which is on the given line. -/
def tokens (line : Nat) : List Piece → List Token
  | [] => []
  | piece :: pieces => piece.token line :: tokens (line + lineFeeds piece.chars) pieces

/-- The names of the blocks. -/
def blockNames : List String :=
  ["if", "unless", "for", "case", "capture"]

/-- The names of the tags that a tree is written with. -/
def tagNames : List String :=
  blockNames ++ blockNames.map ("end" ++ ·) ++ ["assign", "elsif", "else", "when"]

/-- The name of the tag that opens the block. -/
def conditionalName (negated : Bool) : String :=
  if negated then "unless" else "if"

mutual

/-- The pieces that the tree is written as. -/
def Item.pieces : Item → List Piece
  | .text s => [.text s]
  | .output m => [.delimited .output m.text]
  | .assign m => [.tag "assign" m.text]
  | .conditional negated m body branches =>
    .tag (conditionalName negated) m.text :: (body.pieces
      ++ (branches.pieces ++ [.bareTag ("end" ++ conditionalName negated)]))
  | .loop m body alternative =>
    .tag "for" m.text :: (body.pieces ++ (alternative.pieces ++ [.bareTag ("end" ++ "for")]))
  | .choice m before arms =>
    .tag "case" m.text :: (before.pieces ++ (arms.pieces ++ [.bareTag ("end" ++ "case")]))
  | .capture m body =>
    .tag "capture" m.text :: (body.pieces ++ [.bareTag ("end" ++ "capture")])

/-- The pieces that the tree is written as. -/
def Items.pieces : Items → List Piece
  | .nil => []
  | .cons item rest => item.pieces ++ rest.pieces

/-- The pieces that the tree is written as. -/
def Branches.pieces : Branches → List Piece
  | .nil => []
  | .elsif m body rest => .tag "elsif" m.text :: (body.pieces ++ rest.pieces)
  | .otherwise body rest => .bareTag "else" :: (body.pieces ++ rest.pieces)

/-- The pieces that the tree is written as. -/
def Alternative.pieces : Alternative → List Piece
  | .none => []
  | .otherwise body => .bareTag "else" :: body.pieces

/-- The pieces that the tree is written as. -/
def Arms.pieces : Arms → List Piece
  | .nil => []
  | .when m body rest => .tag "when" m.text :: (body.pieces ++ rest.pieces)
  | .otherwise body rest => .bareTag "else" :: (body.pieces ++ rest.pieces)

end

/-- The source that is written. -/
def Items.source (items : Items) : String :=
  String.ofList (chars items.pieces)

/-! ## What a tree stands for -/

/-- How many line feeds there are in pieces. -/
def feeds (pieces : List Piece) : Nat :=
  lineFeeds (chars pieces)

/-- How many line feeds there are in markup. -/
def Markup.feeds {α : Type} (m : Markup α) : Nat :=
  lineFeeds m.text.toList

/-- The line, if lines are kept. -/
def keptLine (lines : Bool) (line : Nat) : Option Nat :=
  if lines then some line else none

/-- The body of the nodes. -/
def bodyOf (nodes : List Node) : Body :=
  .mk nodes (nodes.all Node.isBlank)

/-- The body, without its texts if the block that it is a part of is blank. -/
def elided (blank : Bool) (body : Body) : Body :=
  if blank then body.withoutTexts else body

mutual

/-- The node that is written from the given line on. -/
def Item.node (lines : Bool) (line : Nat) : Item → Node
  | .text s => .text s
  | .output m => .output { m.value with line := keptLine lines line }
  | .assign m =>
    let kept := keptLine lines line
    .tag (.assign m.value.1 { m.value.2 with line := kept } kept)
  | .conditional negated m body branches =>
    let inside := line + m.feeds
    let parts := (m.value, bodyOf (body.nodes lines inside))
      :: branches.parts lines (inside + feeds body.pieces)
    let blank := parts.all fun part => part.2.isBlank
    .tag (.conditional (conditionalName negated) negated
      (parts.map fun part => .mk part.1 (elided blank part.2)) (keptLine lines line) blank)
  | .loop m body alternative =>
    let inside := line + m.feeds
    let first := bodyOf (body.nodes lines inside)
    let second := alternative.body? lines (inside + feeds body.pieces)
    let blank := first.isBlank && second.all Body.isBlank
    .tag (.loop (m.value.positionName (Text.trim m.text)) m.value (elided blank first)
      (second.map (elided blank)) (keptLine lines line) blank)
  | .choice m before arms =>
    let inside := line + m.feeds
    let parts := arms.parts lines (inside + feeds before.pieces)
    let blank := (bodyOf (before.nodes lines inside)).isBlank
      && parts.all fun part => part.2.isBlank
    .tag (.choice (parts.map fun part => OpenBlock.arm part.1 (elided blank part.2))
      (keptLine lines line) blank)
  | .capture m body =>
    .tag (.capture m.value (bodyOf (body.nodes lines (line + m.feeds))) (keptLine lines line))

/-- The nodes that are written from the given line on. -/
def Items.nodes (lines : Bool) (line : Nat) : Items → List Node
  | .nil => []
  | .cons item rest => item.node lines line :: rest.nodes lines (line + feeds item.pieces)

/-- The conditions and bodies that are written from the given line on. -/
def Branches.parts (lines : Bool) (line : Nat) : Branches → List (Condition × Body)
  | .nil => []
  | .elsif m body rest =>
    let inside := line + m.feeds
    (m.value, bodyOf (body.nodes lines inside))
      :: rest.parts lines (inside + feeds body.pieces)
  | .otherwise body rest =>
    (.always, bodyOf (body.nodes lines line)) :: rest.parts lines (line + feeds body.pieces)

/-- The body, if there is one. -/
def Alternative.body? (lines : Bool) (line : Nat) : Alternative → Option Body
  | .none => none
  | .otherwise body => some (bodyOf (body.nodes lines line))

/-- The conditions and bodies that are written from the given line on; the body that is for when
none held before has no condition. -/
def Arms.parts (lines : Bool) (line : Nat) : Arms → List (Option Condition × Body)
  | .nil => []
  | .when m body rest =>
    let inside := line + m.feeds
    (some m.value, bodyOf (body.nodes lines inside))
      :: rest.parts lines (inside + feeds body.pieces)
  | .otherwise body rest =>
    (none, bodyOf (body.nodes lines line)) :: rest.parts lines (line + feeds body.pieces)

end

/-- The document that is written. -/
def Items.document (lines : Bool) (items : Items) : Document :=
  bodyOf (items.nodes lines 1)

mutual

/-- How deep blocks are nested. -/
def Item.depth : Item → Nat
  | .text _ | .output _ | .assign _ => 0
  | .conditional _ _ body branches => 1 + max body.depth branches.depth
  | .loop _ body alternative => 1 + max body.depth alternative.depth
  | .choice _ before arms => 1 + max before.depth arms.depth
  | .capture _ body => 1 + body.depth

/-- How deep blocks are nested. -/
def Items.depth : Items → Nat
  | .nil => 0
  | .cons item rest => max item.depth rest.depth

/-- How deep blocks are nested. -/
def Branches.depth : Branches → Nat
  | .nil => 0
  | .elsif _ body rest | .otherwise body rest => max body.depth rest.depth

/-- How deep blocks are nested. -/
def Alternative.depth : Alternative → Nat
  | .none => 0
  | .otherwise body => body.depth

/-- How deep blocks are nested. -/
def Arms.depth : Arms → Nat
  | .nil => 0
  | .when _ body rest | .otherwise body rest => max body.depth rest.depth

end

/-! ## What can be written down -/

/-- A text is not empty and holds no brace, and nothing between delimiters closes them. -/
def Piece.IsClear : Piece → Prop
  | text s => s ≠ "" ∧ '{' ∉ s.toList
  | delimited delimiter inside => ¬ delimiter.closer <:+: inside.toList

/-- The pieces are not both text. -/
def Piece.Apart (p q : Piece) : Prop :=
  p.isText = false ∨ q.isText = false

instance Piece.decidableIsClear : DecidablePred Piece.IsClear
  | text s => inferInstanceAs (Decidable (s ≠ "" ∧ '{' ∉ s.toList))
  | delimited delimiter inside =>
    inferInstanceAs (Decidable (¬ delimiter.closer <:+: inside.toList))

instance Piece.decidableApart : DecidableRel Piece.Apart := fun p q =>
  inferInstanceAs (Decidable (p.isText = false ∨ q.isText = false))

/-- A tree can be told from its source. -/
structure Items.Separate (items : Items) : Prop where
  clear : ∀ piece ∈ items.pieces, piece.IsClear
  /-- No two texts are next to each other. -/
  apart : items.pieces.IsChain Piece.Apart

/-! ## What is accepted -/

/-- The markup is read as what it stands for. -/
def Markup.IsReadBy {α : Type} (m : Markup α) (read : String → Parse α) : Prop :=
  (read m.text {}).1 = .ok m.value

/-- An assignment, whose source is read as markup. -/
structure Markup.IsAssignment (m : Markup (String × Pipeline)) (ctx : ParseContext)
    (source : String) : Prop where
  parts : assignmentParts? (Text.trim m.text) = some (m.value.1, source)
  source : (Markup.mk source m.value.2).IsReadBy
    (ctx.withMode Pipeline.readStrict Pipeline.readLax)

mutual

/-- All markup is accepted in the mode of the context, a tag's without the blank characters around
it. -/
def Item.Accepted (ctx : ParseContext) : Item → Prop
  | .text _ => True
  | .output m => m.IsReadBy (ctx.withMode Pipeline.readStrict Pipeline.readLax)
  | .assign m => ∃ source, m.IsAssignment ctx source
  | .conditional _ m body branches =>
    m.IsReadBy (fun text => ctx.condition "if" (Text.trim text))
      ∧ body.Accepted ctx ∧ branches.Accepted ctx
  | .loop m body alternative =>
    m.IsReadBy (fun text => LoopHeader.parse ctx (Text.trim text))
      ∧ body.Accepted ctx ∧ alternative.Accepted ctx
  | .choice m before arms =>
    m.IsReadBy (fun text => Expression.parseSubject ctx (Text.trim text))
      ∧ before.Accepted ctx ∧ arms.Accepted ctx m.value
  | .capture m body => captureTarget? (Text.trim m.text) = some m.value ∧ body.Accepted ctx

/-- All markup is accepted. -/
def Items.Accepted (ctx : ParseContext) : Items → Prop
  | .nil => True
  | .cons item rest => item.Accepted ctx ∧ rest.Accepted ctx

/-- All markup is accepted. -/
def Branches.Accepted (ctx : ParseContext) : Branches → Prop
  | .nil => True
  | .elsif m body rest =>
    m.IsReadBy (fun text => ctx.condition "if" (Text.trim text))
      ∧ body.Accepted ctx ∧ rest.Accepted ctx
  | .otherwise body rest => body.Accepted ctx ∧ rest.Accepted ctx

/-- All markup is accepted. -/
def Alternative.Accepted (ctx : ParseContext) : Alternative → Prop
  | .none => True
  | .otherwise body => body.Accepted ctx

/-- All markup is accepted, where the values of an arm are compared with the subject. -/
def Arms.Accepted (ctx : ParseContext) (subject : Expression) : Arms → Prop
  | .nil => True
  | .when m body rest =>
    m.IsReadBy (fun text => Condition.parseValues ctx subject (Text.trim text))
      ∧ body.Accepted ctx ∧ rest.Accepted ctx subject
  | .otherwise body rest => body.Accepted ctx ∧ rest.Accepted ctx subject

end

end Written

/-- The tags that a tree is written with mean what the standard ones of these names mean, if there
are any. -/
def Registry.KnowsBlocks (registry : Registry) : Prop :=
  ∀ name ∈ Written.tagNames, registry.tags.get? name = TagKind.standard.get? name

namespace Written

/-! ## The tokens of a source -/

/-- Behind a space, nothing but the closer closes what was opened. -/
theorem closes_padded {delimiter : Delimiter} {inside : List Char}
    (h : ¬ delimiter.closer <:+: inside) : Closes delimiter (' ' :: (inside ++ [' '])) := by
  obtain ⟨x, hcloser, hx⟩ : ∃ x, delimiter.closer = [x, '}'] ∧ x ≠ ' ' := by
    cases delimiter
    · exact ⟨'}', rfl, by decide⟩
    · exact ⟨'%', rfl, by decide⟩
  rw [hcloser] at h
  intro a b hab
  rw [hcloser] at hab
  -- Were there more behind the closer, it would end in the text or in one of the spaces.
  rcases List.eq_nil_or_concat b with rfl | ⟨b, z, rfl⟩
  · rfl
  have hshort : ' ' :: (inside ++ [' ', x]) = a ++ [x, '}'] ++ b := by
    have hall : ' ' :: (inside ++ [' ', x]) ++ ['}'] = a ++ [x, '}'] ++ b ++ [z] := by
      simpa using hab
    exact (List.append_inj' hall rfl).1
  rcases List.eq_nil_or_concat b with rfl | ⟨b, z, rfl⟩
  · have hall : ' ' :: (inside ++ [' ']) ++ [x] = a ++ [x] ++ ['}'] := by simpa using hshort
    have hlast := (List.append_inj' hall rfl).1
    have hspace : ' ' :: inside ++ [' '] = a ++ [x] := by simpa using hlast
    exact absurd (List.cons.inj (List.append_inj' hspace rfl).2).1.symm hx
  have hshorter : ' ' :: (inside ++ [' ']) = a ++ [x, '}'] ++ b := by
    have hall : ' ' :: (inside ++ [' ']) ++ [x] = a ++ [x, '}'] ++ b ++ [z] := by
      simpa using hshort
    exact (List.append_inj' hall rfl).1
  rcases List.eq_nil_or_concat b with rfl | ⟨b, z, rfl⟩
  · have hall : ' ' :: inside ++ [' '] = a ++ [x] ++ ['}'] := by simpa using hshorter
    exact absurd (List.cons.inj (List.append_inj' hall rfl).2).1 (by decide)
  have hinside : ' ' :: inside = a ++ [x, '}'] ++ b := by
    have hall : ' ' :: inside ++ [' '] = a ++ [x, '}'] ++ b ++ [z] := by simpa using hshorter
    exact (List.append_inj' hall rfl).1
  cases a with
  | nil => exact absurd (List.cons.inj hinside).1.symm hx
  | cons y a =>
    refine absurd ⟨a, b, ?_⟩ h
    exact (List.cons.inj hinside).2.symm

/-- Between spaces there are no trim markers. -/
theorem ofInside_padded (delimiter : Delimiter) (inside : String) (line : Nat) :
    Token.delimited delimiter (.ofInside delimiter (' ' :: (inside.toList ++ [' '])) line)
      = (Piece.delimited delimiter inside).token line := by
  -- A blank stands at both ends, so neither dash of the inside is one of the delimiter.
  have hleading : leadingDash (' ' :: (inside.toList ++ [' ']))
      = (false, ' ' :: (inside.toList ++ [' '])) := rfl
  have htrailing : trailingDash (' ' :: (inside.toList ++ [' ']))
      = (false, ' ' :: (inside.toList ++ [' '])) := by
    have hlast : (' ' :: (inside.toList ++ [' '])).getLast? = some ' ' := by
      rw [← List.cons_append, List.getLast?_concat]
    rw [trailingDash, if_neg (by rw [hlast]; decide)]
  have hmarkup : String.ofList (' ' :: (inside.toList ++ [' '])) = " " ++ inside ++ " " := by
    apply String.toList_injective
    simp
  simp only [Delimited.ofInside, hleading, htrailing, hmarkup, Piece.token, Piece.chars]

theorem lineFeeds_padded (delimiter : Delimiter) (inside : String) :
    lineFeeds (Piece.delimited delimiter inside).chars = lineFeeds inside.toList := by
  rw [Piece.chars, lineFeeds_delimited]
  simp [lineFeeds]

theorem lineFeeds_bareTag {name : String} (hname : lineFeeds name.toList = 0) :
    lineFeeds (Piece.bareTag name).chars = 0 :=
  (lineFeeds_padded _ _).trans hname

theorem lineFeeds_tag {α : Type} {name : String} (hname : lineFeeds name.toList = 0)
    (m : Markup α) : lineFeeds (Piece.tag name m.text).chars = m.feeds := by
  have hspace : lineFeeds [' '] = 0 := rfl
  rw [Piece.tag, lineFeeds_padded, String.toList_append, String.toList_append, lineFeeds_append,
    lineFeeds_append, hname]
  show 0 + lineFeeds [' '] + m.feeds = _
  omega

theorem feeds_cons (piece : Piece) (pieces : List Piece) :
    feeds (piece :: pieces) = lineFeeds piece.chars + feeds pieces :=
  lineFeeds_append _ _

theorem tokens_append (line : Nat) (ps qs : List Piece) :
    tokens line (ps ++ qs) = tokens line ps ++ tokens (line + feeds ps) qs := by
  induction ps generalizing line with
  | nil => rfl
  | cons piece ps ih =>
    rw [List.cons_append, tokens, tokens, ih, feeds_cons, List.cons_append, Nat.add_assoc]

/-- Text holds no opener, not even together with what follows it. -/
theorem unopened_of_not_mem {text : List Char} (h : '{' ∉ text) (rest : List Char) :
    Unopened text rest := by
  intro b hb hne
  cases b with
  | nil => exact absurd rfl hne
  | cons c b =>
    have hc : c ≠ '{' := fun hc => h (hc ▸ hb.subset (List.mem_cons_self ..))
    rw [opening?_eq_none_iff]
    rintro delimiter ⟨after, hafter⟩
    cases delimiter <;> exact hc (List.cons.inj hafter).1.symm

/-- What is written behind a text opens a delimiter. -/
theorem opensOrEnds_of_isChain {s : String} {pieces : List Piece}
    (h : (Piece.text s :: pieces).IsChain Piece.Apart) : OpensOrEnds (chars pieces) := by
  cases pieces with
  | nil => exact .inl rfl
  | cons piece pieces =>
    have hapart : (Piece.text s).Apart piece := (List.isChain_cons_cons.mp h).1
    cases piece with
    | text s' => simp [Piece.Apart, Piece.isText] at hapart
    | delimited delimiter inside =>
      let behind := ' ' :: (inside.toList ++ [' ']) ++ delimiter.closer ++ chars pieces
      refine .inr ⟨delimiter, behind, ?_⟩
      rw [← opening?_append]
      simp [behind, chars, Piece.chars]

end Written

open Written

/-- Pieces in which no two texts are adjacent are cut as they were written. -/
theorem TokenStream.scan_chars {pieces : List Piece} (hclear : ∀ piece ∈ pieces, piece.IsClear)
    (hapart : pieces.IsChain Piece.Apart) (line : Nat) :
    scan (chars pieces) line
      = { tokens := Written.tokens line pieces, line := line + feeds pieces } := by
  induction pieces generalizing line with
  | nil => exact scan_nil line
  | cons piece pieces ih =>
    obtain ⟨hpiece, hpieces⟩ := List.forall_mem_cons.mp hclear
    have hrest := ih hpieces hapart.tail (line + lineFeeds piece.chars)
    rw [feeds_cons, ← Nat.add_assoc]
    cases piece with
    | text s =>
      -- A text that is not empty and opens nothing ends where the next piece begins.
      have hne : s.toList ≠ [] := fun h => hpiece.1 (String.toList_injective h)
      have hscan := scan_text hne (unopened_of_not_mem hpiece.2 _) (opensOrEnds_of_isChain hapart)
        line
      have hrest : scan (chars pieces) (line + lineFeeds s.toList) = _ := hrest
      rw [hrest, String.ofList_toList] at hscan
      exact hscan
    | delimited delimiter inside =>
      have hfeeds : lineFeeds (Piece.delimited delimiter inside).chars
          = lineFeeds (' ' :: (inside.toList ++ [' '])) := lineFeeds_delimited delimiter _
      have hscan := scan_delimited delimiter (closes_padded hpiece) (chars pieces) line
      rw [ofInside_padded, ← hfeeds, hrest] at hscan
      exact hscan

namespace Written

/-- The tokens of a tree. -/
theorem Items.ofSource_source {items : Items} (h : items.Separate) :
    TokenStream.ofSource items.source
      = { tokens := tokens 1 items.pieces, line := 1 + feeds items.pieces } := by
  rw [TokenStream.ofSource, Items.source, String.toList_ofList]
  exact TokenStream.scan_chars h.clear h.apart 1

end Written

end Stencil
