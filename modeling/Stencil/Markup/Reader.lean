import Stencil.Attempt
import Stencil.Expression

/-! # Reading markup

Expressions, filters and conditions from a list of markup tokens.  A reader takes tokens from the
front; when it fails, it leaves the tokens from which a lax reading goes on: a token that starts
no expression stays where it is, everything before it is gone.

Brackets nest at most `Reader.maxNesting` deep.  The grammar:

    expression := string | number | id segment* | '[' expression ']' segment*
                | '(' expression '..' expression ')' segment*
    segment    := '[' expression ']' | '.' id
    filters    := ('|' id (':' argument (',' argument)*)?)*
    argument   := id ':' expression | expression
    condition  := conjunction ('or' conjunction)*
    conjunction := comparison ('and' comparison)*
    comparison := expression (operator expression)?

A name without segments may be a keyword, and a range of two literal numbers is a literal. -/

namespace Stencil

/-- A computation that reads markup tokens. -/
abbrev Reader := Attempt (List MarkupToken)

namespace Reader

/-- How deep brackets may be nested. -/
def maxNesting : Nat := 100

/-- The kind of the next token. -/
def kindOf : List MarkupToken → MarkupToken.Kind
  | [] => .endOfMarkup
  | token :: _ => token.kind

/-- Takes the next token, if there is one. -/
def next : Reader (Option MarkupToken) := fun
  | [] => (.ok none, [])
  | token :: rest => (.ok (some token), rest)

/-- Takes the next token if it is of that kind, and says whether it was. -/
def takes (kind : MarkupToken.Kind) : Reader Bool := fun tokens =>
  if kindOf tokens = kind then (.ok true, tokens.tail) else (.ok false, tokens)

/-- Takes a token of that kind; any other is an error and stays. -/
def expect (kind : MarkupToken.Kind) : Reader Unit := fun tokens =>
  if kindOf tokens = kind then (.ok (), tokens.tail)
  else (.error (.expected kind.name (kindOf tokens).name), tokens)

/-- Nothing must be left. -/
def expectEnd : Reader Unit :=
  expect .endOfMarkup

/-- Takes a name; any other token is an error and stays. -/
def name : Reader String := fun
  | .id name :: rest => (.ok name, rest)
  | tokens => (.error (.expected MarkupToken.Kind.id.name (kindOf tokens).name), tokens)

/-- Takes the name `word` if it is next, and says whether it was. -/
def takesWord (word : String) : Reader Bool := fun
  | .id name :: rest => if name = word then (.ok true, rest) else (.ok false, .id name :: rest)
  | tokens => (.ok false, tokens)

/-- Whether a name and a colon are next. -/
def startsKeyword : List MarkupToken → Bool
  | .id _ :: .colon :: _ => true
  | _ => false

/-! ## Expressions -/

/-- The literal that a name without segments may be. -/
def keyword? : String → Option Expression
  | "nil" | "null" => some .nil
  | "true" => some (.literal (.bool true))
  | "false" => some (.literal (.bool false))
  | "empty" => some .empty
  | "blank" => some .blank
  | _ => none

/-- What a name with segments stands for. -/
def named (name : String) (segments : List Segment) : Expression :=
  match segments, keyword? name with
  | [], some literal => literal
  | _, _ => .lookup (.literal (.str name)) segments

/-- The integer that a literal number is cut down to. -/
def literalInteger? : Expression → Option Int64
  | .literal (.int n) => some n
  | .literal (.float x) => some x.toInt64
  | _ => none

/-- The range between two ends, a literal if both are literal numbers. -/
def rangeOf (first last : Expression) : Expression :=
  match literalInteger? first, literalInteger? last with
  | some a, some b => .literal (.range a b)
  | _, _ => .range first last

/-- The segments that follow; `bound` bounds their number, and `inner` reads what is in brackets. -/
def segmentsUpTo (inner : Reader Expression) : Nat → Reader (List Segment)
  | 0 => pure []
  | bound + 1 => fun tokens =>
    match tokens with
    | .openSquare :: rest =>
      (do
        let key ← inner
        expect .closeSquare
        let more ← segmentsUpTo inner bound
        return .mk key false :: more : Reader (List Segment)) rest
    | .dot :: rest =>
      (do
        let member ← name
        let more ← segmentsUpTo inner bound
        return .mk (.literal (.str member)) true :: more : Reader (List Segment)) rest
    | _ => (.ok [], tokens)

/-- The segments that follow.  Each takes at least one token, so their number is bounded by that of
the tokens. -/
def segments (inner : Reader Expression) : Reader (List Segment) := fun tokens =>
  segmentsUpTo inner tokens.length tokens

/-- An expression whose inner expressions are read by `inner`. -/
def primary (inner : Reader Expression) : Reader Expression := fun
  | .str s :: rest => (.ok (.literal (.str s)), rest)
  | .int n :: rest => (.ok (.literal (.int n)), rest)
  | .float x :: rest => (.ok (.literal (.float x)), rest)
  | .id name :: rest =>
    (do
      let path ← segments inner
      return named name path : Reader Expression) rest
  | .openSquare :: rest =>
    (do
      let name ← inner
      expect .closeSquare
      let path ← segments inner
      return .lookup name path : Reader Expression) rest
  | .openRound :: rest =>
    (do
      let first ← inner
      expect .dotDot
      let last ← inner
      expect .closeRound
      let range := rangeOf first last
      -- A path may follow a range as it may follow a name.
      let path ← segments inner
      return if path.isEmpty then range else .path range path : Reader Expression) rest
  | tokens => (.error (.notAnExpression (kindOf tokens).name), tokens)

/-- An expression in which brackets nest less than `levels` deep. -/
def expressionWithin : Nat → Reader Expression
  | 0 => Attempt.fail .tooDeep
  | levels + 1 => primary (expressionWithin levels)

/-- An expression. -/
def expression : Reader Expression :=
  expressionWithin maxNesting

/-! ## Filters -/

/-- An argument: by position, or under a name. -/
inductive Argument where
  | positional (value : Expression)
  | keyword (name : String) (value : Expression)

/-- An argument of a filter. -/
def argument : Reader Argument := fun
  | .id name :: .colon :: rest =>
    (do
      let value ← expression
      return .keyword name value : Reader Argument) rest
  | tokens =>
    (do
      let value ← expression
      return .positional value : Reader Argument) tokens

/-- A filter with one more argument. -/
def addArgument (call : FilterCall) : Argument → FilterCall
  | .positional value => { call with args := call.args ++ [value] }
  | .keyword name value => { call with keywords := call.keywords ++ [(name, value)] }

/-- The arguments of a filter, separated by commas; `bound` bounds their number. -/
def argumentsUpTo : Nat → FilterCall → Reader FilterCall
  | 0, call => pure call
  | bound + 1, call => do
    let arg ← argument
    if ← takes .comma then argumentsUpTo bound (addArgument call arg)
    else return addArgument call arg

/-- The arguments of a filter.  Each takes at least one token. -/
def arguments (call : FilterCall) : Reader FilterCall := fun tokens =>
  argumentsUpTo (tokens.length + 1) call tokens

/-- The filters that follow; `bound` bounds their number. -/
def filtersUpTo : Nat → Reader (List FilterCall)
  | 0 => pure []
  | bound + 1 => do
    if ← takes .pipe then
      let call : FilterCall := { name := ← name }
      let call ← if ← takes .colon then arguments call else pure call
      let more ← filtersUpTo bound
      return call :: more
    else return []

/-- The filters that follow.  Each takes at least one token. -/
def filters : Reader (List FilterCall) := fun tokens =>
  filtersUpTo tokens.length tokens

/-! ## Conditions -/

/-- Takes a comparison if one is next, and says what it asks. -/
def takesComparison : Reader (Option Operator) := fun
  | .comparison c :: rest => (.ok (some c.operator), rest)
  | tokens => (.ok none, tokens)

/-- An expression on its own, or two with a comparison between them. -/
def comparison : Reader Condition := do
  let left ← expression
  match ← takesComparison with
  | some op =>
    let right ← expression
    return .compare left op right
  | none => return .truthy left

/-- Conditions joined to `left` by `word`; `bound` bounds their number. -/
def joinedUpTo (word : String) (operand : Reader Condition)
    (join : Condition → Condition → Condition) : Nat → Condition → Reader Condition
  | 0, left => pure left
  | bound + 1, left => do
    if ← takesWord word then
      let right ← operand
      joinedUpTo word operand join bound (join left right)
    else return left

/-- Conditions joined by `word`, grouped to the left.  Each word takes a token. -/
def joined (word : String) (operand : Reader Condition)
    (join : Condition → Condition → Condition) : Reader Condition := do
  let left ← operand
  fun tokens => joinedUpTo word operand join tokens.length left tokens

/-- Comparisons joined by `and`. -/
def conjunction : Reader Condition :=
  joined "and" comparison .and

/-- A condition: conjunctions joined by `or`. -/
def condition : Reader Condition :=
  joined "or" conjunction .or

end Reader

end Stencil
