import Stencil.Attempt
import Stencil.Markup.Recovery
import Stencil.Registry

/-! # Reading templates: context and state

What is the same for every tag of a template that is being read, and what changes on the way: the
line of the current token, whether the next text loses its leading blank characters, and the
warnings so far. Markup is read as the error mode says.

* `ParseContext.withMode_of_ok`: what both readings accept in the same way leaves no trace. -/

namespace Stencil

/-- How a template is to be read. -/
structure ParseOptions where
  /-- The error mode, if it is not the registry's. -/
  mode : Option ErrorMode := none
  /-- Whether lines are kept for error messages. -/
  lines : Bool := false
  /-- The name of the template in error messages. -/
  name : Option String := none

/-- What is the same everywhere in a template, and how deep the current blocks are nested. -/
structure ParseContext where
  registry : Registry
  mode : ErrorMode
  lines : Bool
  template : Option String
  depth : Nat := 0

/-- What changes while a template is read. -/
structure ParseState where
  /-- The line of the current token. -/
  line : Nat := 1
  /-- Whether the next text loses the blank characters at its start. -/
  trimNext : Bool := false
  warnings : Array Error := #[]

/-- A computation that reads a part of a template. -/
abbrev Parse := Attempt ParseState

/-- The context in which a template is read. -/
def ParseContext.ofOptions (registry : Registry) (options : ParseOptions) : ParseContext :=
  { registry
    mode := options.mode.getD registry.errorMode
    lines := options.lines
    template := options.name }

namespace Parse

/-- Sets the current line. -/
def setLine (line : Nat) : Parse Unit :=
  Attempt.modify fun s => { s with line }

/-- Says whether the next text loses the blank characters at its start. -/
def setTrim (trim : Bool) : Parse Unit :=
  Attempt.modify fun s => { s with trimNext := trim }

/-- Whether blank characters are to go, which settles the matter. -/
def takeTrim : Parse Bool := fun s =>
  (.ok s.trimNext, { s with trimNext := false })

end Parse

namespace ParseContext

/-- The line of the current token, if lines are kept. -/
def lineOf (ctx : ParseContext) (s : ParseState) : Option Nat :=
  if ctx.lines then some s.line else none

/-- The line of the current token, if lines are kept. -/
def currentLine (ctx : ParseContext) : Parse (Option Nat) := fun s =>
  (.ok (ctx.lineOf s), s)

/-- The message of a key. -/
def message (ctx : ParseContext) (key : String) (values : Placeholders := []) : String :=
  ctx.registry.messages.text key values

/-- The grammar error with the message of a key, at the current line. -/
def grammarError (ctx : ParseContext) (key : String) (values : Placeholders) (s : ParseState) :
    Error :=
  (Error.grammar (ctx.message key values)).atLine (ctx.lineOf s)

/-- Fails with the message of a key at the current line. -/
def refuse {α : Type} (ctx : ParseContext) (key : String) (values : Placeholders := []) :
    Parse α := fun s =>
  (.error (ctx.grammarError key values s), s)

/-- The context one level deeper, unless blocks are nested too deep already. -/
def deeper (ctx : ParseContext) : Parse ParseContext := fun s =>
  if ctx.registry.nestingLimit ≤ ctx.depth then
    (.error (Error.tooDeep.atLine (ctx.lineOf s)), s)
  else (.ok { ctx with depth := ctx.depth + 1 }, s)

/-- The error that a lax reading reports: a message for the whole tag, unless something is nested
too deep. -/
def laxError (message : String) (e : Error) : Error :=
  match e.kind with
  | .stackLevel => e
  | _ => .grammar message

/-- Reads markup as the error mode says: strictly, laxly, or laxly with a warning of what a strict
reading objects to. -/
def withMode {α : Type} (ctx : ParseContext) (strict lax : String → Except Error α)
    (markup : String) : Parse α := fun s =>
  match ctx.mode with
  | .lax => (lax markup, s)
  | .strict => ((strict markup).mapError (·.atLine (ctx.lineOf s)), s)
  | .warn =>
    match strict markup with
    | .ok a => (.ok a, s)
    | .error e =>
      -- The warning stays even if the lax reading fails too.
      let warning := (e.atLine (ctx.lineOf s)).inTemplate ctx.template
      (lax markup, { s with warnings := s.warnings.push warning })

/-- The markup of an output, or of a tag that works on one. -/
def pipeline (ctx : ParseContext) (markup : String) : Parse Pipeline := fun s =>
  match ctx.withMode Pipeline.readStrict Pipeline.readLax markup s with
  | (.ok p, s') => (.ok { p with line := ctx.lineOf s }, s')
  | (.error e, s') => (.error e, s')

/-- A condition; a lax reading that fails reports the message of the tag. -/
def condition (ctx : ParseContext) (tag markup : String) : Parse Condition :=
  let message := ctx.message ("errors.syntax." ++ tag)
  ctx.withMode Condition.readStrict
    (fun m => (Condition.readLax m).mapError (laxError message)) markup

/-- An expression. -/
def expression (ctx : ParseContext) (markup : String) : Parse Expression :=
  ctx.withMode Expression.readStrict Expression.readLax markup

/-- What both readings accept in the same way is read without a trace in every mode. -/
theorem withMode_of_ok {α : Type} {ctx : ParseContext} {strict lax : String → Except Error α}
    {markup : String} {a : α} (hs : strict markup = .ok a) (hl : lax markup = .ok a)
    (s : ParseState) : ctx.withMode strict lax markup s = (.ok a, s) := by
  unfold withMode
  split
  · rw [hl]
  · rw [hs]; rfl
  · rw [hs]

end ParseContext

end Stencil
