import Stencil.Proofs.OpenBlocks
import Stencil.Proofs.Tokens

/-!
# Where nodes stand

A spot is a token and the line of the source that it starts on. `NodesAt` and `TagAt` read a
document back off the spots that it comes from, with all lines that its outputs and tags keep for
error messages: an output keeps the line of its own token, and so does a tag, which may go on over
many tokens more. Texts keep no lines and are left out.

Lines that are tags of their own are counted from the line of the tag that they belong to. How many
line feeds come in front of them in that tag is left open, as `ahead`; for lines of the source it is
`Delimited.linesAhead`.

## Key definitions

- `Spot.ofTokens`, `Spot.ofLines`: the spots of tokens, and of lines in a tag
- `NodesAt`, `TagAt`: nodes and tags keep the lines of the spots that they come from
- `Delimited.linesAhead`: the line feeds between the start of a tag and its arguments

## Key results

- `Spot.mem_ofTokens`: the line of a spot counts the line feeds before it
- `Delimited.exists_ahead`: what comes before the arguments of a tag
- `NodesAt.mem_tag`: every tag keeps the lines of some of the spots
-/

namespace Stencil

open Builder

/-! ## Spots -/

/-- A token, and the line that it starts on. -/
structure Spot where
  token : Token
  line : Nat

namespace Spot

/-- The spots of tokens that come one behind the other, the first of them on the given line. -/
def ofTokens (line : Nat) : List Token → List Spot
  | [] => []
  | token :: tokens => ⟨token, line⟩ :: ofTokens (line + lineFeeds (sourceOf token).toList) tokens

/-- The spots of lines that are tags, unless they are blank; the first line has the given
number. -/
def ofPieces (line : Nat) : List (List Char) → List Spot
  | [] => []
  | piece :: pieces =>
    (TokenStream.lineTag? piece line).toList.map (⟨·, line⟩) ++ ofPieces (line + 1) pieces

/-- The spots of the lines of a text. -/
def ofLines (line : Nat) (markup : String) : List Spot :=
  ofPieces line (Text.pieces ['\n'] markup.toList)

/-- A token on the line that it says itself. -/
def own (token : Token) : Spot :=
  ⟨token, token.line⟩

/-- A token is on the line that the line feeds before it lead to. -/
theorem mem_ofTokens {line : Nat} {tokens : List Token} {spot : Spot}
    (h : spot ∈ ofTokens line tokens) :
    ∃ before after, tokens = before ++ spot.token :: after
      ∧ spot.line = line + lineFeeds (TokenStream.charsOf before) := by
  induction tokens generalizing line with
  | nil => exact nomatch h
  | cons token tokens ih =>
    -- Either the first token, before which there is nothing, or one behind it.
    rcases List.mem_cons.mp h with rfl | h
    · exact ⟨[], tokens, rfl, rfl⟩
    · obtain ⟨before, after, rfl, hline⟩ := ih h
      refine ⟨token :: before, after, rfl, ?_⟩
      rw [hline, TokenStream.charsOf_cons, lineFeeds, lineFeeds, lineFeeds, List.count_append,
        Nat.add_assoc]

/-- Tokens that say the line of their first character are where they say. -/
theorem ofTokens_eq {line : Nat} {tokens : List Token}
    (h : ∀ before token after, tokens = before ++ token :: after →
      token.line = line + lineFeeds (TokenStream.charsOf before)) :
    ofTokens line tokens = tokens.map own := by
  induction tokens generalizing line with
  | nil => rfl
  | cons token tokens ih =>
    have htoken : token.line = line := h [] token tokens rfl
    have hrest : ofTokens (line + lineFeeds (sourceOf token).toList) tokens = tokens.map own := by
      refine ih fun before next after heq => ?_
      rw [h (token :: before) next after (by rw [heq]; rfl), TokenStream.charsOf_cons, lineFeeds,
        lineFeeds, lineFeeds, List.count_append, Nat.add_assoc]
    rw [ofTokens, hrest, List.map_cons, own, htoken]

/-- Lines that are tags are where they say. -/
theorem ofLines_eq (line : Nat) (markup : String) :
    ofLines line markup = (TokenStream.ofLines markup line).tokens.map own := by
  unfold ofLines TokenStream.ofLines
  dsimp only
  generalize Text.pieces ['\n'] markup.toList = pieces
  induction pieces generalizing line with
  | nil => rfl
  | cons piece pieces ih =>
    rw [ofPieces, ih, List.zipIdx_cons, List.filterMap_cons]
    unfold TokenStream.lineTag?
    dsimp only
    split <;> rfl

/-- No line comes before the first one. -/
theorem le_line_of_mem_ofLines {line : Nat} {markup : String} {spot : Spot}
    (h : spot ∈ ofLines line markup) : line ≤ spot.line := by
  unfold ofLines at h
  generalize Text.pieces ['\n'] markup.toList = pieces at h
  induction pieces generalizing line with
  | nil => exact nomatch h
  | cons piece pieces ih =>
    rcases List.mem_append.mp h with h | h
    · obtain ⟨token, -, rfl⟩ := List.mem_map.mp h
      exact Nat.le_refl line
    · exact Nat.le_of_succ_le (ih h)

end Spot

/-- How many line feeds come between the start of a tag and its arguments: those in front of its
name and those behind it. -/
def Delimited.linesAhead (d : Delimited) : Nat :=
  let cs := d.markup.toList
  let rest := (cs.dropWhile Text.isBlank).dropWhile fun c => Text.isLetterOrDigit c || c == '_'
  lineFeeds (cs.takeWhile Text.isBlank) + lineFeeds (rest.takeWhile Text.isBlank)

def Token.linesAhead : Token → Nat
  | .tag d => d.linesAhead
  | _ => 0

/-- What comes before the arguments of a tag with lines has as many line feeds. -/
theorem Delimited.exists_ahead {d : Delimited} {args : String}
    (h : tagParts? d.markup = some ("liquid", args)) :
    ∃ ahead behind, d.markup.toList = ahead ++ args.toList ++ behind
      ∧ lineFeeds ahead = d.linesAhead := by
  unfold linesAhead
  unfold tagParts? at h
  dsimp only at h ⊢
  split at h
  · exact absurd (Prod.mk.inj (Option.some.inj h)).1 (by decide)
  · split at h
    · exact nomatch h
    · obtain ⟨hname, rfl⟩ := Prod.mk.inj (Option.some.inj h)
      generalize hp : (fun c => Text.isLetterOrDigit c || c == '_') = p at hname ⊢
      generalize hcs : d.markup.toList = cs at hname ⊢
      generalize hcore : cs.dropWhile Text.isBlank = core at hname ⊢
      have hfeeds : lineFeeds (core.takeWhile p) = 0 := by
        have hchars := congrArg String.toList hname
        rw [String.toList_ofList] at hchars
        rw [hchars]
        decide
      refine ⟨cs.takeWhile Text.isBlank ++ core.takeWhile p
          ++ (core.dropWhile p).takeWhile Text.isBlank,
        Text.takeEndWhile Text.isBlank ((core.dropWhile p).dropWhile Text.isBlank), ?_, ?_⟩
      · simp only [Text.trim, Text.trimStart, Text.trimEnd, String.toList_ofList, List.append_assoc,
          Text.dropEndWhile_append_takeEndWhile, List.takeWhile_append_dropWhile]
        rw [← hcore, List.takeWhile_append_dropWhile]
      · rw [lineFeeds, List.count_append, List.count_append, ← lineFeeds, ← lineFeeds, ← lineFeeds,
          hfeeds, Nat.add_zero]

/-! ## Lines of nodes -/

/-- The nodes that are no texts. -/
def nonTexts (nodes : List Node) : List Node :=
  nodes.filter fun node => !node.isText

/-- All lines that the tag keeps are the given one. -/
def Tag.StandsAt (line : Nat) : Tag → Prop
  | .assign _ source kept => kept = some line ∧ source.line = some line
  | .comment | .inlineComment | .raw _ | .transform .. | .sections .. | .counter .. => True
  | tag => tag.line = some line

/-- What a tag keeps of the bodies of its block, given by their nodes without texts. A choice has no
use for what comes before its first arm. -/
def Tag.Holds : Tag → List (List Node) → Prop
  | .conditional _ _ branches _ _, bodies => branches.map (nonTexts ·.body.nodes) = bodies
  | .choice arms _ _, bodies => arms.map (nonTexts ·.body.nodes) = bodies.drop 1
  | .loop _ _ body otherwise _ _, bodies =>
    nonTexts body.nodes :: otherwise.toList.map (nonTexts ·.nodes) = bodies
  | .capture _ body _, bodies => [nonTexts body.nodes] = bodies
  | _, _ => False

/-- The nodes, no texts among them, keep the lines of the spots that they come from, where `TagAt`
says so of tags. -/
inductive NodesAt (TagAt : Tag → List Spot → Prop) : List Node → List Spot → Prop where
  | nil : NodesAt TagAt [] []
  | text {nodes : List Node} {before : List Spot} {spot : Spot} :
      NodesAt TagAt nodes before → spot.token.isText = true →
      NodesAt TagAt nodes (before ++ [spot])
  | output {nodes : List Node} {before : List Spot} {spot : Spot} {d : Delimited}
      {p : Pipeline} : NodesAt TagAt nodes before → spot.token = .output d →
      p.line = some spot.line → NodesAt TagAt (nodes ++ [.output p]) (before ++ [spot])
  | tag {nodes : List Node} {before inside : List Spot} {tag : Tag} :
      NodesAt TagAt nodes before → TagAt tag inside →
      NodesAt TagAt (nodes ++ [.tag tag]) (before ++ inside)

/-- The bodies of a block, given by their nodes, keep the lines of the spots; behind each of them
comes the tag that starts the next one. -/
inductive FinishedAt (TagAt : Tag → List Spot → Prop) : List (List Node) → List Spot → Prop where
  | nil : FinishedAt TagAt [] []
  | body {bodies : List (List Node)} {nodes : List Node} {before inside : List Spot}
      {divider : Spot} {name : String} : FinishedAt TagAt bodies before →
      NodesAt TagAt nodes inside → divider.token.name? = some name → name ∈ dividers →
      FinishedAt TagAt (bodies ++ [nodes]) (before ++ inside ++ [divider])

/-- A tag keeps the line of the first of the spots that it comes from, and so on for the nodes in
it. -/
inductive TagAt (ahead : Delimited → Nat) : Tag → List Spot → Prop where
  | single {kind : TagKind} {tag : Tag} {spot : Spot} : kind.Single tag →
      spot.token.name? = some tag.name → tag.StandsAt spot.line → TagAt ahead tag [spot]
  /-- The lines of a tag are counted from the line of its first line. -/
  | lines {body : Body} {spot : Spot} {d : Delimited} {args : String} :
      spot.token = .tag d → tagParts? d.markup = some ("liquid", args) →
      NodesAt (TagAt ahead) (nonTexts body.nodes)
        (Spot.ofLines (spot.line + ahead d) args) →
      TagAt ahead (.lines body (some spot.line)) [spot]
  | comment {opener closer : Spot} {inside : List Spot} :
      opener.token.name? = some "comment" → closer.token.name? = some "endcomment" →
      openInside? (inside.map Spot.token) = some (0, false) →
      TagAt ahead .comment (opener :: inside ++ [closer])
  | raw {opener closer : Spot} {inside : List Spot} (text : String) :
      opener.token.name? = some "raw" → closer.token.name? = some "endraw" →
      (∀ spot ∈ inside, spot.token.name? ≠ some "endraw") →
      TagAt ahead (.raw text) (opener :: inside ++ [closer])
  | block {tag : Tag} {opener closer : Spot} {bodies : List (List Node)} {nodes : List Node}
      {finished last : List Spot} : opener.token.name? = some tag.name →
      closer.token.name? = some ("end" ++ tag.name) → tag.StandsAt opener.line →
      FinishedAt (TagAt ahead) bodies finished → NodesAt (TagAt ahead) nodes last →
      tag.Holds (bodies ++ [nodes]) →
      TagAt ahead tag (opener :: (finished ++ last) ++ [closer])

/-- Every tag comes from some of the spots. -/
theorem NodesAt.mem_tag {R : Tag → List Spot → Prop} {nodes : List Node} {all : List Spot}
    (h : NodesAt R nodes all) {tag : Tag} (hmem : .tag tag ∈ nodes) :
    ∃ inside, R tag inside ∧ ∀ spot ∈ inside, spot ∈ all := by
  -- What comes from some of the first spots comes from some of all.
  have among {before more : List Spot} :
      (∃ inside, R tag inside ∧ ∀ spot ∈ inside, spot ∈ before) →
      ∃ inside, R tag inside ∧ ∀ spot ∈ inside, spot ∈ before ++ more :=
    fun ⟨inside, htag, hall⟩ =>
      ⟨inside, htag, fun spot hspot => List.mem_append_left _ (hall spot hspot)⟩
  induction h with
  | nil => exact nomatch hmem
  | text h htext ih => exact among (ih hmem)
  | output h htoken hline ih =>
    rcases List.mem_append.mp hmem with hmem | hmem
    · exact among (ih hmem)
    · exact nomatch List.mem_singleton.mp hmem
  | tag h htag ih =>
    rcases List.mem_append.mp hmem with hmem | hmem
    · exact among (ih hmem)
    · cases List.mem_singleton.mp hmem
      exact ⟨_, htag, fun spot hspot => List.mem_append_right _ hspot⟩

/-! ## Texts -/

theorem nonTexts_append (nodes nodes' : List Node) :
    nonTexts (nodes ++ nodes') = nonTexts nodes ++ nonTexts nodes' :=
  List.filter_append ..

theorem nonTexts_push {body : Body} {node : Node} (h : node.isText = false) :
    nonTexts (body.push node).nodes = nonTexts body.nodes ++ [node] := by
  rw [Body.nodes_push, nonTexts_append]
  refine congrArg _ (List.filter_cons_of_pos ?_)
  rw [h]
  rfl

theorem nonTexts_push_text (body : Body) (text : String) :
    nonTexts (body.push (.text text)).nodes = nonTexts body.nodes := by
  rw [Body.nodes_push, nonTexts_append]
  exact List.append_nil _

/-- The texts that a blank block drops are left out. -/
theorem nonTexts_shownNodes (blank : Bool) (nodes : List Node) :
    nonTexts (shownNodes blank nodes) = nonTexts nodes := by
  unfold shownNodes nonTexts
  split
  · rw [List.filter_filter]
    simp only [Bool.and_self]
  · rfl

/-- Only texts are trimmed. -/
theorem nonTexts_trimLastText (body : Body) :
    nonTexts body.trimLastText.nodes = nonTexts body.nodes := by
  unfold Body.trimLastText
  split
  · rename_i text hlast
    obtain ⟨before, hnodes⟩ := List.getLast?_eq_some_iff.mp hlast
    show nonTexts (body.nodes.dropLast ++ _) = nonTexts body.nodes
    rw [hnodes, List.dropLast_concat, nonTexts_append, nonTexts_append]
    split <;> rfl
  · rfl

/-- What encloses the bodies holds what is no text in them. -/
theorem Tag.Encloses.holds {tag : Tag} {bodies : List (List Node)} (h : tag.Encloses bodies) :
    tag.Holds (bodies.map nonTexts) := by
  have shown {nodes bodies : List (List Node)} {blank : Bool}
      (hnodes : nodes = bodies.map (shownNodes blank)) :
      nodes.map nonTexts = bodies.map nonTexts := by
    rw [hnodes, List.map_map]
    exact List.map_congr_left fun nodes _ => nonTexts_shownNodes blank nodes
  cases tag with
  | conditional name negated branches line blank =>
    have hbodies := shown h.2
    rwa [List.map_map] at hbodies
  | choice arms line blank =>
    have hbodies := shown h.2
    rwa [List.map_map, List.map_drop] at hbodies
  | loop name header body otherwise line blank =>
    have hbodies := shown h.2
    rwa [List.map_cons, List.map_map] at hbodies
  | capture target body line =>
    obtain rfl : bodies = [body.nodes] := h
    rfl
  | interrupt | assign | comment | inlineComment | raw | echo | lines | includePartial
  | renderPartial | transform | sections | counter => exact h.elim

end Stencil
