import Stencil.Markup.Reader

/-! # Strict and lax readings

A strict reading wants the whole markup to follow the grammar.  A lax one makes the best of it: a
source that cannot be read is nil, what stands between the end of one filter and the next pipe is
skipped, and an argument that cannot be read is dropped.  Brackets that nest too deep are an error
in both.

* `Pipeline.readLax_of_lexLax_eq_nil`: markup without tokens is nil. -/

namespace Stencil

namespace Reader

/-- Whether a lax reading goes on after the error. -/
def isRecoverable (e : Error) : Bool :=
  e.kind != .stackLevel

/-- Goes on with nothing where reading failed, unless the failure cannot be passed over. -/
def attempted {α : Type} (reader : Reader α) : Reader (Option α) := fun tokens =>
  match reader tokens with
  | (.ok a, rest) => (.ok (some a), rest)
  | (.error e, rest) => if isRecoverable e then (.ok none, rest) else (.error e, rest)

/-- Skips to the next pipe. -/
def skipToPipe : Reader Unit :=
  Attempt.modify fun tokens => tokens.dropWhile (·.kind ≠ .pipe)

/-- The arguments of a filter that can be read, up to the next pipe; `bound` bounds the number of
attempts. -/
def argumentsLaxUpTo : Nat → FilterCall → Reader FilterCall
  | 0, call => pure call
  | bound + 1, call => fun tokens =>
    match kindOf tokens with
    | .pipe | .endOfMarkup => (.ok call, tokens)
    | .comma => argumentsLaxUpTo bound call tokens.tail
    | _ =>
      match attempted argument tokens with
      | (.ok (some arg), rest) => argumentsLaxUpTo bound (addArgument call arg) rest
      -- The token that stopped the reading is dropped with the argument.
      | (.ok none, rest) => argumentsLaxUpTo bound call rest.tail
      | (.error e, rest) => (.error e, rest)

/-- The arguments of a filter that can be read.  Each attempt takes at least one token. -/
def argumentsLax (call : FilterCall) : Reader FilterCall := fun tokens =>
  argumentsLaxUpTo tokens.length call tokens

/-- The filters that can be read; `bound` bounds the number of pipes. -/
def filtersLaxUpTo : Nat → Reader (List FilterCall)
  | 0 => pure []
  | bound + 1 => do
    skipToPipe
    if ← takes .pipe then
      match ← attempted name with
      | none => filtersLaxUpTo bound
      | some name =>
        let call : FilterCall := { name }
        let call ← if ← takes .colon then argumentsLax call else pure call
        let more ← filtersLaxUpTo bound
        return call :: more
    else return []

/-- The filters that can be read.  Each takes at least its pipe. -/
def filtersLax : Reader (List FilterCall) := fun tokens =>
  filtersLaxUpTo tokens.length tokens

/-- A source, nil if it cannot be read. -/
def sourceLax : Reader Expression := fun tokens =>
  match kindOf tokens with
  | .pipe | .endOfMarkup => (.ok .nil, tokens)
  | _ => (do return (← attempted expression).getD .nil : Reader Expression) tokens

/-- A source and its filters, as far as they can be read. -/
def pipelineLax : Reader Pipeline := do
  let source ← sourceLax
  let filters ← filtersLax
  return { source, filters }

/-- A source and its filters with nothing after them. -/
def pipelineStrict : Reader Pipeline := do
  let source ← expression
  let filters ← filters
  expectEnd
  return { source, filters }

/-- Runs a reader on strictly lexed markup. -/
def onStrict {α : Type} (reader : Reader α) (markup : String) : Except Error α :=
  match lexStrict markup with
  | .ok tokens => (reader tokens).1
  | .error e => .error e

/-- Runs a reader on laxly lexed markup. -/
def onLax {α : Type} (reader : Reader α) (markup : String) : Except Error α :=
  (reader (lexLax markup)).1

/-- A reader that leaves nothing over. -/
def toEnd {α : Type} (reader : Reader α) : Reader α := do
  let a ← reader
  expectEnd
  return a

end Reader

/-- The strict reading of an output's markup.  Markup without tokens is nil. -/
def Pipeline.readStrict (markup : String) : Except Error Pipeline :=
  match lexStrict markup with
  | .ok [] => .ok { source := .nil, filters := [] }
  | .ok tokens => (Reader.pipelineStrict tokens).1
  | .error e => .error e

/-- The lax reading of an output's markup. -/
def Pipeline.readLax (markup : String) : Except Error Pipeline :=
  Reader.onLax Reader.pipelineLax markup

/-- The strict reading of a condition. -/
def Condition.readStrict (markup : String) : Except Error Condition :=
  Reader.onStrict (.toEnd Reader.condition) markup

/-- The lax reading of a condition: as far as it can be read, whatever follows. -/
def Condition.readLax (markup : String) : Except Error Condition :=
  Reader.onLax Reader.condition markup

/-- The strict reading of an expression. -/
def Expression.readStrict (markup : String) : Except Error Expression :=
  Reader.onStrict (.toEnd Reader.expression) markup

/-- The lax reading of an expression, nil if none can be read. -/
def Expression.readLax (markup : String) : Except Error Expression :=
  Reader.onLax (do return (← Reader.attempted Reader.expression).getD .nil) markup

theorem Pipeline.readLax_of_lexLax_eq_nil {markup : String} (h : lexLax markup = []) :
    Pipeline.readLax markup = .ok { source := .nil, filters := [] } := by
  rw [Pipeline.readLax, Reader.onLax, h]; rfl

end Stencil
