import Stencil.Text.Blank
import Stencil.Text.Letter
import Stencil.Text.Search

/-! # Tokens of a template

A template is text with outputs, between double braces, and tags, between a brace and a percent
sign.  `TokenStream.ofSource` cuts it at the first opener and at the first closer after it, again
and again; an opener without a closer ends the stream.  Between the delimiters, a dash at either
end asks for the neighbouring text to be trimmed and is no part of the markup.
`TokenStream.ofLines` reads text in which every line is a tag of its own.

* `append_textFrom`: the text before an opener and the rest are what was read.
* `length_lt_of_opening?_eq_some`: a delimited token takes something away. -/

namespace Stencil

/-- The two kinds of delimiters. -/
inductive Delimiter where
  | output
  | tag
deriving DecidableEq, Repr

namespace Delimiter

/-- What opens it. -/
def opener : Delimiter → List Char
  | output => ['{', '{']
  | tag => ['{', '%']

/-- What closes it. -/
def closer : Delimiter → List Char
  | output => ['}', '}']
  | tag => ['%', '}']

end Delimiter

/-- What stands between delimiters, apart from its trim markers. -/
structure Delimited where
  /-- The whole token with its delimiters. -/
  source : String
  markup : String
  /-- The line on which the token starts. -/
  line : Nat
  /-- Whether blank characters before the token go. -/
  trimLeft : Bool
  /-- Whether blank characters after the token go. -/
  trimRight : Bool
deriving DecidableEq, Repr

/-- A piece of a template. -/
inductive Token where
  | text (text : String) (line : Nat)
  | output (delimited : Delimited)
  | tag (delimited : Delimited)
deriving DecidableEq, Repr

/-- An opener that finds no closer, with all that follows it. -/
structure Unterminated where
  delimiter : Delimiter
  source : String
  line : Nat
deriving DecidableEq, Repr

/-- The pieces of a template in order. -/
structure TokenStream where
  tokens : List Token := []
  /-- What is left over when an opener finds no closer. -/
  unterminated : Option Unterminated := none
  /-- The line after the last token. -/
  line : Nat
deriving DecidableEq, Repr

/-- How many line feeds there are. -/
def lineFeeds (cs : List Char) : Nat :=
  cs.count '\n'

/-- A dash at the start, and the rest. -/
def leadingDash : List Char → Bool × List Char
  | '-' :: cs => (true, cs)
  | cs => (false, cs)

/-- A dash at the end, and what comes before it. -/
def trailingDash (cs : List Char) : Bool × List Char :=
  if cs.getLast? = some '-' then (true, cs.dropLast) else (false, cs)

/-- What stands between an opener and its closer, taken apart. -/
def Delimited.ofInside (delimiter : Delimiter) (inside : List Char) (line : Nat) : Delimited :=
  let (trimLeft, rest) := leadingDash inside
  let (trimRight, markup) := trailingDash rest
  { source := String.ofList (delimiter.opener ++ inside ++ delimiter.closer)
    markup := String.ofList markup
    line
    trimLeft
    trimRight }

/-- The token of a delimiter. -/
def Token.delimited (delimiter : Delimiter) (d : Delimited) : Token :=
  match delimiter with
  | .output => .output d
  | .tag => .tag d

/-- The opener that a text starts with, and what follows it. -/
def opening? : List Char → Option (Delimiter × List Char)
  | '{' :: '{' :: cs => some (.output, cs)
  | '{' :: '%' :: cs => some (.tag, cs)
  | _ => none

/-- The characters before the next opener, and the rest, where `passed` was read already, last
character first. -/
def textFrom (passed : List Char) : List Char → List Char × List Char
  | [] => (passed.reverse, [])
  | c :: cs =>
    match opening? (c :: cs) with
    | some _ => (passed.reverse, c :: cs)
    | none => textFrom (c :: passed) cs

/-- Text and rest together are what was read. -/
theorem append_textFrom (passed cs : List Char) :
    (textFrom passed cs).1 ++ (textFrom passed cs).2 = passed.reverse ++ cs := by
  induction cs generalizing passed with
  | nil => simp [textFrom]
  | cons c cs ih =>
    simp only [textFrom]
    split
    · rfl
    · simp [ih]

theorem length_textFrom_le (passed cs : List Char) : (textFrom passed cs).2.length ≤ cs.length := by
  induction cs generalizing passed with
  | nil => simp [textFrom]
  | cons c cs ih =>
    simp only [textFrom]
    split
    · exact Nat.le_refl _
    · exact Nat.le_succ_of_le (ih _)

theorem eq_of_opening?_eq_some {cs inside : List Char} {delimiter : Delimiter}
    (h : opening? cs = some (delimiter, inside)) : cs = delimiter.opener ++ inside := by
  unfold opening? at h
  split at h
  · cases h; rfl
  · cases h; rfl
  · simp at h

theorem length_lt_of_opening?_eq_some {cs inside after markup : List Char} {delimiter : Delimiter}
    (h : opening? cs = some (delimiter, inside))
    (h' : Text.breakOn delimiter.closer inside = some (markup, after)) :
    after.length < cs.length := by
  have h1 := Text.length_lt_of_breakOn_eq_some (by cases delimiter <;> simp [Delimiter.closer]) h'
  have h2 := congrArg List.length (eq_of_opening?_eq_some h)
  simp only [List.length_append] at h2
  omega

namespace TokenStream

/-- Puts a token in front. -/
def push (token : Token) (s : TokenStream) : TokenStream :=
  { s with tokens := token :: s.tokens }

/-- The tokens of the characters `cs`, the first of which is on the given line. -/
def scan (cs : List Char) (line : Nat) : TokenStream :=
  match _hcs : cs with
  | [] => { line }
  | c :: rest =>
    match _h : opening? (c :: rest) with
    | some (delimiter, inside) =>
      match _h' : Text.breakOn delimiter.closer inside with
      -- The rest of the source belongs to the opener, so no later opener is looked for.
      | none => { unterminated := some ⟨delimiter, String.ofList (c :: rest), line⟩, line }
      | some (markup, after) =>
        push (.delimited delimiter (.ofInside delimiter markup line))
          (scan after (line + lineFeeds markup))
    | none =>
      let text := (textFrom [c] rest).1
      push (.text (String.ofList text) line) (scan (textFrom [c] rest).2 (line + lineFeeds text))
termination_by cs.length
decreasing_by
  · exact length_lt_of_opening?_eq_some _h _h'
  · exact Nat.lt_succ_of_le (length_textFrom_le [c] rest)

/-- The tokens of a template. -/
def ofSource (source : String) : TokenStream :=
  scan source.toList 1

/-- The tag that a line of tags is, if it is not blank. -/
def lineTag? (cs : List Char) (line : Nat) : Option Token :=
  let markup := Text.trim (String.ofList cs)
  -- A line has no delimiters, so it is its own source and trims nothing.
  if markup.isEmpty then none else some (.tag ⟨markup, markup, line, false, false⟩)

/-- The tokens of a text whose lines are tags, the first of which has the given number. -/
def ofLines (markup : String) (line : Nat) : TokenStream :=
  let lines := (Text.pieces ['\n'] markup.toList).zipIdx line
  { tokens := lines.filterMap fun (cs, number) => lineTag? cs number
    line := line + lineFeeds markup.toList }

end TokenStream

/-- The name of a tag and its arguments.  The name is `#` or a run of letters, digits and
underscores; there is none if the markup starts with something else. -/
def tagParts? (markup : String) : Option (String × String) :=
  match markup.toList.dropWhile Text.isBlank with
  -- The sign is a name of its own: the arguments may follow without a blank.
  | '#' :: rest => some ("#", Text.trim (String.ofList rest))
  | cs =>
    let isNameChar := fun c => Text.isLetterOrDigit c || c == '_'
    let name := cs.takeWhile isNameChar
    if name.isEmpty then none
    else some (String.ofList name, Text.trim (String.ofList (cs.dropWhile isNameChar)))

end Stencil
