import Stencil.Proofs.BlankTags

/-!
# Where texts come from

A document is read from tokens in order, and its tree can be read back off them: a text node comes
from a text token, a tag from one token or from those between its first and its last. What becomes
of a text token depends on nothing but the tokens next to it: a site is a token with what those
ask for. `NodesFrom` relates the nodes of a body to the sites that they come from, and `TagFrom`
does so for tags.

The relation does not mention how documents are read. It says which tokens belong together by the
names of their tags alone.

## Key definitions

- `Site`, `sites`: a token and what its neighbours ask for
- `NodesFrom`, `FinishedFrom`, `TagFrom`: the nodes, bodies and tags that sites become
- `Tag.Encloses`: what a tag keeps of the bodies of its block

## Key results

- `sites_concat`, `sites_append`: the sites of tokens in order
- `NodesFrom.mem_text`: every text node comes from a text token
-/

namespace Stencil

open Builder

/-! ## Sites -/

namespace Token

/-- Whether a dash at the start of the token asks for the text before it to be trimmed. -/
def opensTrimmed : Token → Bool
  | text .. => false
  | output d | tag d => d.trimLeft

/-- Whether a dash at the end of the token asks for the text behind it to be trimmed. -/
def closesTrimmed : Token → Bool
  | text .. => false
  | output d | tag d => d.trimRight

/-- The name of the tag, if the token is one. -/
def name? (token : Token) : Option String :=
  (tagName? token).map Prod.fst

/-- Whether the token is a tag with lines that are tags, not all of them blank. -/
def holdsLines : Token → Bool
  | tag d =>
    match tagParts? d.markup with
    | some ("liquid", args) => !Text.isBlankText args
    | _ => false
  | text .. | output _ => false

/-- Whether the text behind the token is trimmed at its start: a dash asks for it, unless tags on
lines of their own are read in between. -/
def trimsNext (token : Token) : Bool :=
  token.closesTrimmed && !token.holdsLines

end Token

/-- A token, and whether its neighbours ask for it to be trimmed. -/
structure Site where
  trimStart : Bool
  token : Token
  trimEnd : Bool

/-- What is left of a text at the site. -/
def Site.trimmed (site : Site) (text : String) : String :=
  let text := if site.trimStart then Text.trimStart text else text
  if site.trimEnd then Text.trimEnd text else text

/-- What the last token asks of what comes next, where `first` is asked if there is no token. -/
def lastAsks (asks : Token → Bool) (first : Bool) (tokens : List Token) : Bool :=
  (tokens.getLast?.map asks).getD first

/-- The sites of tokens: `asks` says what a token asks of the next one; `first` is asked of the
first token, and `last` of the last one. -/
def sites (asks : Token → Bool) (first : Bool) : List Token → (last : Bool) → List Site
  | [], _ => []
  | token :: tokens, last =>
    ⟨first, token, (tokens.head?.map Token.opensTrimmed).getD last⟩
      :: sites asks (asks token) tokens last

section

variable {asks : Token → Bool} {first last : Bool}

theorem sites_append (tokens tokens' : List Token) :
    sites asks first (tokens ++ tokens') last
      = sites asks first tokens ((tokens'.head?.map Token.opensTrimmed).getD last)
        ++ sites asks (lastAsks asks first tokens) tokens' last := by
  induction tokens generalizing first with
  | nil => rfl
  | cons token tokens ih =>
    rw [List.cons_append, sites, sites, ih, List.cons_append]
    -- The first token looks ahead to what follows it, in the second list if it is the last one.
    congr 1
    · cases tokens <;> rfl
    · congr 1
      unfold lastAsks
      cases tokens <;> rfl

/-- The site of one more token, which says what is asked of the one before. -/
theorem sites_concat (tokens : List Token) (token : Token) :
    sites asks first (tokens ++ [token]) last
      = sites asks first tokens token.opensTrimmed
        ++ [⟨lastAsks asks first tokens, token, last⟩] :=
  sites_append tokens [token]

@[simp] theorem lastAsks_concat (tokens : List Token) (token : Token) :
    lastAsks asks first (tokens ++ [token]) = asks token := by
  rw [lastAsks, List.getLast?_concat]
  rfl

/-- The sites depend on what the tokens at hand ask. -/
theorem sites_congr {asks' : Token → Bool} {tokens : List Token}
    (h : ∀ token ∈ tokens, asks token = asks' token) :
    sites asks first tokens last = sites asks' first tokens last := by
  induction tokens generalizing first with
  | nil => rfl
  | cons token tokens ih =>
    obtain ⟨htoken, h⟩ := List.forall_mem_cons.mp h
    rw [sites, sites, htoken, ih h]

/-- The tokens of the sites are those that they are made of. -/
theorem map_token_sites (tokens : List Token) :
    (sites asks first tokens last).map Site.token = tokens := by
  induction tokens generalizing first with
  | nil => rfl
  | cons token tokens ih => rw [sites, List.map_cons, ih]

end

/-! ## Trees from sites -/

/-- The text, if the node is one. -/
def Node.text? : Node → Option String
  | .text s => some s
  | .output _ | .tag _ => none

theorem Node.eq_text_of_text? {node : Node} {s : String} (h : node.text? = some s) :
    node = .text s := by
  cases node with
  | text t => exact congrArg _ (Option.some.inj h)
  | output p => exact nomatch h
  | tag tag => exact nomatch h

/-- The text node of a text, unless nothing is left of it. -/
def textNodes (text : String) : List Node :=
  if text.isEmpty then [] else [.text text]

/-- The nodes that a block keeps of one of its bodies. -/
def shownNodes (blank : Bool) (nodes : List Node) : List Node :=
  if blank then nodes.filter fun node => !node.isText else nodes

/-- What a tag keeps of the bodies of its block, given by their nodes. If all bodies are blank, so
is the tag, and the texts are dropped. A choice has no use for what comes before its first arm. -/
def Tag.Encloses : Tag → List (List Node) → Prop
  | .conditional _ _ branches _ blank, bodies =>
    blank = bodies.all (·.all Node.isBlank)
      ∧ branches.map (·.body.nodes) = bodies.map (shownNodes blank)
  | .choice arms _ blank, bodies =>
    blank = bodies.all (·.all Node.isBlank)
      ∧ arms.map (·.body.nodes) = (bodies.drop 1).map (shownNodes blank)
  | .loop _ _ body otherwise _ blank, bodies =>
    blank = bodies.all (·.all Node.isBlank)
      ∧ body.nodes :: otherwise.toList.map Body.nodes = bodies.map (shownNodes blank)
  | .capture _ body _, bodies => bodies = [body.nodes]
  | _, _ => False

/-- The tags that start one more body of a block. -/
def dividers : List String :=
  ["elsif", "else", "when"]

/-- Where the tokens inside a comment lead: how many comments are open among them, and whether a raw
block is; nothing if one of them ends the comment. -/
def openInside? (tokens : List Token) : Option (Nat × Bool) :=
  tokens.foldlM (fun (depth, inRaw) token => skipped depth inRaw token) (0, false)

theorem openInside?_concat (tokens : List Token) (token : Token) :
    openInside? (tokens ++ [token])
      = openInside? tokens >>= fun (depth, inRaw) => skipped depth inRaw token := by
  rw [openInside?, List.foldlM_append]
  simp [openInside?]

/-- The nodes of a body come from the sites, where `TagFrom` relates tags to theirs. -/
inductive NodesFrom (TagFrom : Tag → List Site → Prop) : List Node → List Site → Prop where
  | nil : NodesFrom TagFrom [] []
  | text {nodes : List Node} {before : List Site} {site : Site} {text : String} {line : Nat} :
      NodesFrom TagFrom nodes before → site.token = .text text line →
      NodesFrom TagFrom (nodes ++ textNodes (site.trimmed text)) (before ++ [site])
  | output {nodes : List Node} {before : List Site} {site : Site} {d : Delimited}
      (p : Pipeline) : NodesFrom TagFrom nodes before → site.token = .output d →
      NodesFrom TagFrom (nodes ++ [.output p]) (before ++ [site])
  | tag {nodes : List Node} {before inside : List Site} {tag : Tag} :
      NodesFrom TagFrom nodes before → TagFrom tag inside →
      NodesFrom TagFrom (nodes ++ [.tag tag]) (before ++ inside)

/-- The bodies of a block, given by their nodes, come from the sites; behind each of them comes the
tag that starts the next one. -/
inductive FinishedFrom (TagFrom : Tag → List Site → Prop) :
    List (List Node) → List Site → Prop where
  | nil : FinishedFrom TagFrom [] []
  | body {bodies : List (List Node)} {nodes : List Node} {before inside : List Site}
      {divider : Site} {name : String} : FinishedFrom TagFrom bodies before →
      NodesFrom TagFrom nodes inside → divider.token.name? = some name → name ∈ dividers →
      FinishedFrom TagFrom (bodies ++ [nodes]) (before ++ inside ++ [divider])

/-- A tag with all that belongs to it comes from the sites. -/
inductive TagFrom : Tag → List Site → Prop where
  | single {kind : TagKind} {tag : Tag} {site : Site} : kind.Single tag →
      site.token.name? = some tag.name → TagFrom tag [site]
  /-- The lines of a tag are tags and ask for nothing. -/
  | lines {body : Body} {line : Option Nat} {site : Site} {d : Delimited} {args : String}
      {number : Nat} : site.token = .tag d → tagParts? d.markup = some ("liquid", args) →
      NodesFrom TagFrom body.nodes
        (sites (fun _ => false) d.trimRight (TokenStream.ofLines args number).tokens false) →
      TagFrom (.lines body line) [site]
  | comment {all : List Site} {opener closer : Token} {inside : List Token} :
      all.map Site.token = opener :: inside ++ [closer] → opener.name? = some "comment" →
      closer.name? = some "endcomment" → openInside? inside = some (0, false) →
      TagFrom .comment all
  | raw {all : List Site} {opener closer : Token} {inside : List Token} :
      all.map Site.token = opener :: inside ++ [closer] → opener.name? = some "raw" →
      closer.name? = some "endraw" → (∀ token ∈ inside, token.name? ≠ some "endraw") →
      TagFrom
        (.raw (rawText opener.closesTrimmed closer.opensTrimmed
          (String.join (inside.map sourceOf))))
        all
  | block {tag : Tag} {opener closer : Site} {bodies : List (List Node)} {nodes : List Node}
      {finished last : List Site} : opener.token.name? = some tag.name →
      closer.token.name? = some ("end" ++ tag.name) → FinishedFrom TagFrom bodies finished →
      NodesFrom TagFrom nodes last → tag.Encloses (bodies ++ [nodes]) →
      TagFrom tag (opener :: (finished ++ last) ++ [closer])

/-- Every text node comes from a text token. -/
theorem NodesFrom.mem_text {R : Tag → List Site → Prop} {nodes : List Node} {all : List Site}
    (h : NodesFrom R nodes all) {text : String} (hmem : .text text ∈ nodes) :
    ∃ site ∈ all, ∃ whole line, site.token = .text whole line ∧ text = site.trimmed whole := by
  -- What comes from one of the first sites comes from one of all.
  have among {before more : List Site} :
      (∃ site ∈ before, ∃ whole line, site.token = .text whole line ∧ text = site.trimmed whole) →
      ∃ site ∈ before ++ more, ∃ whole line,
        site.token = .text whole line ∧ text = site.trimmed whole :=
    fun ⟨site, hsite, hrest⟩ => ⟨site, List.mem_append_left _ hsite, hrest⟩
  induction h with
  | nil => exact nomatch hmem
  | @text nodes before site whole line h htoken ih =>
    rcases List.mem_append.mp hmem with hmem | hmem
    · exact among (ih hmem)
    · refine ⟨site, List.mem_append_right _ (List.mem_singleton_self _), whole, line, htoken, ?_⟩
      unfold textNodes at hmem
      split at hmem
      · exact nomatch hmem
      · exact Node.text.inj (List.mem_singleton.mp hmem)
  | output p h htoken ih =>
    rcases List.mem_append.mp hmem with hmem | hmem
    · exact among (ih hmem)
    · exact nomatch List.mem_singleton.mp hmem
  | tag h htag ih =>
    rcases List.mem_append.mp hmem with hmem | hmem
    · exact among (ih hmem)
    · exact nomatch List.mem_singleton.mp hmem

end Stencil
