import Stencil.Decimal.Text
import Stencil.Error
import Stencil.Text.Search

/-! # Tokens of markup

What stands between the delimiters of an output or a tag is read as a list of small tokens: names,
numbers, quoted texts, comparisons and punctuation.  Blank ASCII characters separate them.  A
character that belongs to no token, or a quote that is never closed, is an error in a strict reading
and is skipped in a lax one.

* `length_lexeme_le`: the first lexeme takes at least its first character.
* `lexLax` always succeeds; `lexStrict` succeeds only without stray characters
  (`lexLax_of_lexStrict_eq_ok`). -/

namespace Stencil

/-- How two operands are compared. -/
inductive Operator where
  | eq
  | notEq
  | lt
  | ltEq
  | gt
  | gtEq
  | contains
deriving DecidableEq, Repr

/-- The spellings of the comparisons. -/
inductive Comparison where
  | eq
  | notEq
  | diamond
  | lt
  | ltEq
  | gt
  | gtEq
  | contains
deriving DecidableEq, Repr

namespace Comparison

/-- How the comparison is written. -/
def symbol : Comparison → String
  | eq => "=="
  | notEq => "!="
  | diamond => "<>"
  | lt => "<"
  | ltEq => "<="
  | gt => ">"
  | gtEq => ">="
  | contains => "contains"

/-- What the comparison asks. -/
def operator : Comparison → Operator
  | eq => .eq
  | notEq | diamond => .notEq
  | lt => .lt
  | ltEq => .ltEq
  | gt => .gt
  | gtEq => .gtEq
  | contains => .contains

end Comparison

/-- A token of markup. -/
inductive MarkupToken where
  | comparison (comparison : Comparison)
  | str (text : String)
  | int (n : Int64)
  | float (x : Float)
  | id (name : String)
  | dotDot
  | dot
  | pipe
  | colon
  | comma
  | openSquare
  | closeSquare
  | openRound
  | closeRound
  | question
  | dash
deriving DecidableEq

namespace MarkupToken

/-- The kinds of tokens, and the end of the markup. -/
inductive Kind where
  | comparison
  | str
  | int
  | float
  | id
  | dotDot
  | dot
  | pipe
  | colon
  | comma
  | openSquare
  | closeSquare
  | openRound
  | closeRound
  | question
  | dash
  | endOfMarkup
deriving DecidableEq, Repr

/-- The name of a kind in error messages. -/
def Kind.name : Kind → String
  | comparison => "comparison"
  | str => "string"
  | int | float => "number"
  | id => "id"
  | dotDot => "dotdot"
  | dot => "dot"
  | pipe => "pipe"
  | colon => "colon"
  | comma => "comma"
  | openSquare => "open_square"
  | closeSquare => "close_square"
  | openRound => "open_round"
  | closeRound => "close_round"
  | question => "question"
  | dash => "dash"
  | endOfMarkup => "end_of_string"

/-- The kind of a token. -/
def kind : MarkupToken → Kind
  | comparison _ => .comparison
  | str _ => .str
  | int _ => .int
  | float _ => .float
  | id _ => .id
  | dotDot => .dotDot
  | dot => .dot
  | pipe => .pipe
  | colon => .colon
  | comma => .comma
  | openSquare => .openSquare
  | closeSquare => .closeSquare
  | openRound => .openRound
  | closeRound => .closeRound
  | question => .question
  | dash => .dash

end MarkupToken

/-! ## Reading characters -/

/-- What the next characters of markup are. -/
inductive Lexeme where
  | blank
  | token (token : MarkupToken)
  /-- A character that belongs to no token. -/
  | stray (c : Char)

/-- The blank characters of ASCII, but not the vertical tab. -/
def isAsciiBlank (c : Char) : Bool :=
  c == ' ' || c == '\t' || c == '\n' || c == '\r' || c == '\x0c'

/-- The comparisons of two characters. -/
def doubleComparison? : Char → Char → Option Comparison
  | '=', '=' => some .eq
  | '!', '=' => some .notEq
  | '<', '>' => some .diamond
  | '<', '=' => some .ltEq
  | '>', '=' => some .gtEq
  | _, _ => none

/-- The tokens of one character. -/
def singleToken? : Char → Option MarkupToken
  | '<' => some (.comparison .lt)
  | '>' => some (.comparison .gt)
  | '|' => some .pipe
  | '.' => some .dot
  | ':' => some .colon
  | ',' => some .comma
  | '[' => some .openSquare
  | ']' => some .closeSquare
  | '(' => some .openRound
  | ')' => some .closeRound
  | '?' => some .question
  | '-' => some .dash
  | _ => none

/-- The number that starts with the digits of `cs`, and what follows it.  It has a fraction if a
point and a digit come next; a whole number too large for an integer is a floating point number.
-/
def lexNumber (negative : Bool) (cs : List Char) : MarkupToken × List Char :=
  let whole := cs.takeWhile Char.isDigit
  let rest := cs.dropWhile Char.isDigit
  match rest with
  | '.' :: d :: tail =>
    if d.isDigit then
      let fraction := (d :: tail).takeWhile Char.isDigit
      let digits := (Decimal.readNat? (whole ++ fraction)).getD 0
      (.float (Decimal.ofScientific negative digits (-fraction.length)),
        (d :: tail).dropWhile Char.isDigit)
    else (wholeNumber negative whole, rest)
  | _ => (wholeNumber negative whole, rest)
where
  wholeNumber (negative : Bool) (whole : List Char) : MarkupToken :=
    let n := (Decimal.readNat? whole).getD 0
    match Decimal.fit? (if negative then -(n : Int) else n) with
    | some i => .int i
    | none => .float (Decimal.ofScientific negative n 0)

/-- The characters of a name after its first. -/
def isNameChar (c : Char) : Bool :=
  c.isAlphanum || c == '_' || c == '-'

/-- The name that starts with `c`, and what follows it.  A question mark may end it.  The word for
the containment test is a comparison if a blank character or the end follows. -/
def lexName (c : Char) (cs : List Char) : MarkupToken × List Char :=
  let word := c :: cs.takeWhile isNameChar
  let rest := cs.dropWhile isNameChar
  let (word, rest) :=
    match rest with
    | '?' :: tail => (word ++ ['?'], tail)
    | _ => (word, rest)
  let name := String.ofList word
  if name = "contains" ∧ rest.head?.all isAsciiBlank then (.comparison .contains, rest)
  else (.id name, rest)

/-- What starts with a character that is no blank, no quote, no digit and no letter. -/
def lexPunctuation (c : Char) (cs : List Char) : Lexeme × List Char :=
  match singleToken? c with
  | some token => (.token token, cs)
  | none => (.stray c, cs)

/-- What the characters `c :: cs` start with, and what follows it. -/
def lexeme (c : Char) (cs : List Char) : Lexeme × List Char :=
  if isAsciiBlank c then (.blank, cs)
  else if c = '\'' ∨ c = '"' then
    match Text.breakOn [c] cs with
    | some (text, rest) => (.token (.str (String.ofList text)), rest)
    -- Without its partner the quote alone is stray, and what follows it is read as usual.
    | none => (.stray c, cs)
  else if c.isDigit then
    let (token, rest) := lexNumber false (c :: cs)
    (.token token, rest)
  else if c.isAlpha ∨ c = '_' then
    let (token, rest) := lexName c cs
    (.token token, rest)
  else
    match cs with
    | [] => lexPunctuation c cs
    | d :: tail =>
      match doubleComparison? c d with
      | some comparison => (.token (.comparison comparison), tail)
      | none =>
        -- A dash in front of a digit is its sign, wherever it stands.
        if c = '-' ∧ d.isDigit then
          let (token, rest) := lexNumber true cs
          (.token token, rest)
        else if c = '.' ∧ d = '.' then (.token .dotDot, tail)
        else lexPunctuation c cs

theorem length_dropWhile_le (p : Char → Bool) (cs : List Char) :
    (cs.dropWhile p).length ≤ cs.length :=
  (List.dropWhile_suffix p).length_le

theorem length_lexNumber_le (negative : Bool) (cs : List Char) :
    (lexNumber negative cs).2.length ≤ (cs.dropWhile Char.isDigit).length := by
  unfold lexNumber
  dsimp only
  split
  · rename_i d tail heq
    split
    · have := length_dropWhile_le Char.isDigit (d :: tail)
      simp only [heq, List.length_cons] at *
      omega
    · exact Nat.le_refl _
  · exact Nat.le_refl _

theorem length_lexName_le (c : Char) (cs : List Char) : (lexName c cs).2.length ≤ cs.length := by
  have h := length_dropWhile_le isNameChar cs
  unfold lexName
  dsimp only
  split
  · rename_i tail hd
    rw [hd] at h
    simp only [List.length_cons] at h
    dsimp only
    split <;> (dsimp only; omega)
  · dsimp only
    split <;> exact h

theorem length_lexPunctuation_le (c : Char) (cs : List Char) :
    (lexPunctuation c cs).2.length ≤ cs.length := by
  unfold lexPunctuation; split <;> exact Nat.le_refl _

/-- The first lexeme takes at least its first character. -/
theorem length_lexeme_le (c : Char) (cs : List Char) : (lexeme c cs).2.length ≤ cs.length := by
  unfold lexeme
  split
  · exact Nat.le_refl _
  split
  · split
    · rename_i h
      exact Nat.le_of_lt (Text.length_lt_of_breakOn_eq_some (by simp) h)
    · exact Nat.le_refl _
  split
  · rename_i hd
    refine Nat.le_trans (length_lexNumber_le false (c :: cs)) ?_
    rw [List.dropWhile_cons_of_pos hd]
    exact length_dropWhile_le _ _
  split
  · exact length_lexName_le c cs
  split
  · exact length_lexPunctuation_le c []
  · rename_i d tail
    split
    · exact Nat.le_succ _
    · split
      · exact Nat.le_trans (length_lexNumber_le true (d :: tail)) (length_dropWhile_le _ _)
      · split
        · exact Nat.le_succ _
        · exact length_lexPunctuation_le c (d :: tail)

/-- The lexemes of markup. -/
def lexemes : List Char → List Lexeme
  | [] => []
  | c :: cs => (lexeme c cs).1 :: lexemes (lexeme c cs).2
termination_by cs => cs.length
decreasing_by exact Nat.lt_succ_of_le (length_lexeme_le c cs)

/-- The tokens among the lexemes. -/
def Lexeme.token? : Lexeme → Option MarkupToken
  | token t => some t
  | _ => none

/-- The stray character, if it is one. -/
def Lexeme.stray? : Lexeme → Option Char
  | stray c => some c
  | _ => none

/-- The tokens of markup; stray characters are skipped. -/
def lexLax (markup : String) : List MarkupToken :=
  (lexemes markup.toList).filterMap Lexeme.token?

/-- The tokens of markup; the first stray character is an error. -/
def lexStrict (markup : String) : Except Error (List MarkupToken) :=
  let found := lexemes markup.toList
  match found.findSome? Lexeme.stray? with
  | some c => .error (.unexpectedCharacter c)
  | none => .ok (found.filterMap Lexeme.token?)

/-- What a strict reading accepts, a lax one reads in the same way. -/
theorem lexLax_of_lexStrict_eq_ok {markup : String} {tokens : List MarkupToken}
    (h : lexStrict markup = .ok tokens) : lexLax markup = tokens := by
  unfold lexStrict at h
  dsimp only at h
  split at h
  · exact nomatch h
  · exact Except.ok.inj h

end Stencil
