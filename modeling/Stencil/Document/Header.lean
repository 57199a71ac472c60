import Stencil.Document
import Stencil.Parsing
import Stencil.Text.Letter

/-! # Headers of tags

What follows the name of a tag: the clauses of a loop, the values of an arm, the call of a
partial, the target of an assignment.  Each is read as the error mode says. -/

namespace Stencil

/-! ## Loops -/

namespace LoopHeader

/-- The attributes that follow, each a name, a colon and a value, with or without a comma behind
it; `bound` bounds their number.  An attribute that loops do not have is an error in a strict
reading and is passed over in a lax one. -/
def attributesUpTo (messages : Catalogue) (strict : Bool) :
    Nat → LoopHeader → Reader LoopHeader
  | 0, header => pure header
  | bound + 1, header => do
    if Reader.startsKeyword (← Attempt.get) then
      let key ← Reader.name
      Reader.expect .colon
      let header ← clause messages strict key header
      -- Attributes may be separated by a comma or by nothing at all.
      let _ ← Reader.takes .comma
      attributesUpTo messages strict bound header
    else return header
where
  clause (messages : Catalogue) (strict : Bool) (key : String) (header : LoopHeader) :
      Reader LoopHeader := do
    match key with
    | "offset" =>
      if ← Reader.takesWord "continue" then return { header with offset := some .continue }
      else return { header with offset := some (.at (← Reader.expression)) }
    | "limit" => return { header with limit := some (← Reader.expression) }
    | _ =>
      if strict then
        Attempt.fail (.grammar (messages.text "errors.syntax.for_invalid_attribute"))
      else
        let _ ← Reader.expression
        return header

/-- The clauses of a loop: its variable, its collection and its attributes. -/
def read (messages : Catalogue) (strict : Bool) : Reader LoopHeader := do
  let item ← Reader.name
  if ← Reader.takesWord "in" then
    let collection ← Reader.expression
    let reversed ← Reader.takesWord "reversed"
    -- Each attribute takes a token at least, so the tokens bound their number.
    let bound := (← Attempt.get).length
    let header ← attributesUpTo messages strict bound { item, collection, reversed }
    if strict then Reader.expectEnd
    return header
  else Attempt.fail (.grammar (messages.text "errors.syntax.for_invalid_in"))

/-- The word after the first word `in`, as it is written. -/
def collectionWord (markup : String) : String :=
  match (Text.words markup).dropWhile (· ≠ "in") with
  | _ :: word :: _ => word
  | _ => ""

/-- The name under which the loop keeps its position. -/
def positionName (header : LoopHeader) (markup : String) : String :=
  header.item ++ "-" ++ collectionWord markup

/-- The error that a lax reading reports.  The missing `in` has a message of its own. -/
def laxError (messages : Catalogue) (e : Error) : Error :=
  -- Told by the message, as an error carries nothing else that could tell them apart.
  if e.message = messages.text "errors.syntax.for_invalid_in" then e
  else ParseContext.laxError (messages.text "errors.syntax.for") e

/-- The clauses of a loop, read as the error mode says. -/
def parse (ctx : ParseContext) (markup : String) : Parse LoopHeader :=
  let messages := ctx.registry.messages
  ctx.withMode (Reader.onStrict (read messages true))
    (fun m => (Reader.onLax (read messages false) m).mapError (laxError messages)) markup

end LoopHeader

/-! ## Choices -/

/-- The subject of a choice. -/
def Expression.parseSubject (ctx : ParseContext) (markup : String) : Parse Expression :=
  let message := ctx.message "errors.syntax.case"
  ctx.withMode Expression.readStrict
    (fun m => (Reader.onLax Reader.expression m).mapError (ParseContext.laxError message)) markup

namespace Condition

/-- Takes a comma or the word `or`, and says whether there was one. -/
def takesSeparator : Reader Bool := do
  -- One separator only: an `or` behind a comma is read as a value.
  if ← Reader.takes .comma then return true
  Reader.takesWord "or"

/-- Equality with further values, joined to `condition` by `or`; `bound` bounds their number. -/
def readMoreValues (subject : Expression) : Nat → Condition → Reader Condition
  | 0, condition => pure condition
  | bound + 1, condition => do
    if ← takesSeparator then
      let value ← Reader.expression
      readMoreValues subject bound (.or condition (.compare subject .eq value))
    else return condition

/-- Whether the subject equals one of the values, which commas or the word `or` separate. -/
def readValues (subject : Expression) : Reader Condition := do
  let value ← Reader.expression
  let bound := (← Attempt.get).length
  readMoreValues subject bound (.compare subject .eq value)

/-- The values of an arm, read as the error mode says. -/
def parseValues (ctx : ParseContext) (subject : Expression) (markup : String) : Parse Condition :=
  let message := ctx.message "errors.syntax.case_invalid_when"
  ctx.withMode (Reader.onStrict (.toEnd (readValues subject)))
    (fun m => (Reader.onLax (readValues subject) m).mapError (ParseContext.laxError message)) markup

end Condition

/-! ## Partials -/

namespace PartialCall

/-- The attributes that follow, each with or without a comma in front of it; `bound` bounds their
number. -/
def attributesUpTo : Nat → Reader (List (String × Expression))
  | 0 => pure []
  | bound + 1 => do
    let _ ← Reader.takes .comma
    if Reader.startsKeyword (← Attempt.get) then
      let key ← Reader.name
      Reader.expect .colon
      let value ← Reader.expression
      let more ← attributesUpTo bound
      return (key, value) :: more
    else return []

/-- The object that is passed, and whether the partial is rendered for each of its items. -/
def readObject : Reader (Option Expression × Bool) := do
  if ← Reader.takesWord "with" then return (some (← Reader.expression), false)
  if ← Reader.takesWord "for" then return (some (← Reader.expression), true)
  return (none, false)

/-- The name under which the object is passed. -/
def readAlias : Reader (Option String) := do
  if ← Reader.takesWord "as" then return some (← Reader.name) else return none

/-- The call of a partial: its template, its object with an alias, and its attributes. -/
def read : Reader PartialCall := do
  let template ← Reader.expression
  let (object, each) ← readObject
  let passedAs ← readAlias
  let bound := (← Attempt.get).length + 1
  let attributes ← attributesUpTo bound
  return { template, object, each, passedAs, attributes }

/-- The call of a partial, read as the error mode says; `key` is that of the message for a lax
reading that fails. -/
def parse (ctx : ParseContext) (key markup : String) : Parse PartialCall :=
  let message := ctx.message key
  ctx.withMode (Reader.onStrict (.toEnd read))
    (fun m => (Reader.onLax read m).mapError (ParseContext.laxError message)) markup

/-- The name of the template if it is a quoted text. -/
def literalName? (call : PartialCall) : Option String :=
  match call.template with
  | .literal (.str name) => some name
  | _ => none

/-- The name under which an object is passed unless it has an alias: what follows the last slash
of the template's name. -/
def defaultAlias (name : String) : String :=
  String.ofList (Text.takeEndWhile (· ≠ '/') name.toList)

/-- The name under which the object is passed to the template `name`. -/
def objectName (call : PartialCall) (name : String) : String :=
  call.passedAs.getD (defaultAlias name)

end PartialCall

/-! ## Targets -/

/-- Whether an assignment can bind the name: a letter or an underscore, then letters, digits and
what paths are written with. -/
def isAssignable (name : String) : Bool :=
  match name.toList with
  | [] => false
  | c :: cs =>
    (Text.isLetter c || c == '_')
      && cs.all fun d =>
        Text.isLetterOrDigit d || d == '_' || d == '-' || d == '.' || d == '[' || d == ']'
          || d == '\'' || d == '"'

/-- The target of an assignment and the markup of its source. -/
def assignmentParts? (markup : String) : Option (String × String) :=
  match Text.breakOn ['='] markup.toList with
  | some (target, source) =>
    let name := Text.trim (String.ofList target)
    -- Nothing is asked of the source here; it is read as a pipeline later.
    if isAssignable name then some (name, String.ofList source) else none
  | none => none

/-- What is between quotes, if the text starts and ends with one. -/
def unquoted? : List Char → Option (List Char)
  | c :: cs =>
    -- The two quotes need not be of the same kind.
    if c == '\'' || c == '"' then
      match cs.getLast? with
      | some d => if d == '\'' || d == '"' then some cs.dropLast else none
      | none => none
    else none
  | [] => none

/-- The target of a capture, with or without quotes. -/
def captureTarget? (markup : String) : Option String :=
  let written := (Text.trim markup).toList
  let name := (unquoted? written).getD written
  if !name.isEmpty && name.all fun c => Text.isLetterOrDigit c || c == '_' || c == '-' then
    some (String.ofList name)
  else none

/-- Whether every line but the first is blank or goes on with a number sign. -/
def isInlineComment (markup : String) : Bool :=
  -- The first line stands behind the number sign that the tag is named by.
  ((Text.pieces ['\n'] markup.toList).drop 1).all fun line =>
    match line.dropWhile Text.isBlank with
    | [] => true
    | c :: _ => c == '#'

end Stencil
