/-! # Errors

What can go wrong while a template is read or rendered.  An error has a kind, a message without any
decoration, and, once they are known, the line and the name of the template it arose in.  One kind
stands for a program that gives no result, so that an outcome of that kind can be told from every
error that is reported.  Locations
are attached from the inside out and the first one stays, so an error keeps the place where it began
while it travels outwards.

* `Error.atLine_atLine`: of two lines the one attached first wins. -/

namespace Stencil

/-- What kind of thing went wrong. -/
inductive ErrorKind where
  /-- The template's text does not follow the grammar. -/
  | grammar
  /-- An argument is missing or of the wrong type. -/
  | argument
  /-- A failure raised by host data. -/
  | standard
  /-- A failure of the engine itself. -/
  | internal
  /-- A nesting ceiling was exceeded, while reading or while rendering. -/
  | stackLevel
  /-- A budget was exceeded. -/
  | memory
  /-- A partial could not be loaded. -/
  | fileSystem
  | zeroDivision
  | undefinedVariable
  | undefinedFilter
  | undefinedDropMethod
  /-- A failure of the host that the engine does not recognise and never shows in its output. -/
  | foreign
  /-- No result at all: the program breaks off, or never comes back.  It is no error that anybody
  gets to see; as an outcome it says that there is none. -/
  | crash
deriving DecidableEq, Repr, Inhabited

/-- An error with its location, as far as it is known. -/
structure Error where
  kind : ErrorKind
  message : String
  line : Option Nat := none
  template : Option String := none
deriving DecidableEq, Repr

namespace Error

/-! ## Causes -/

/-- Grammar error with a message of its own. -/
def grammar (message : String) : Error := ⟨.grammar, message, none, none⟩

/-- Argument error with a message of its own. -/
def argument (message : String) : Error := ⟨.argument, message, none, none⟩

/-- Something is nested deeper than its ceiling allows. -/
def tooDeep : Error := ⟨.stackLevel, "Nesting too deep", none, none⟩

/-- A budget is exhausted. -/
def overBudget : Error := ⟨.memory, "Memory limits exceeded", none, none⟩

/-- Neither a scope nor an environment binds the name. -/
def undefinedVariable (name : String) : Error :=
  ⟨.undefinedVariable, "undefined variable " ++ name, none, none⟩

/-- No filter is registered under the name. -/
def undefinedFilter (name : String) : Error :=
  ⟨.undefinedFilter, "undefined filter " ++ name, none, none⟩

/-- A host object, shown as `owner`, has no member of that name. -/
def undefinedDropMethod (name owner : String) : Error :=
  ⟨.undefinedDropMethod, "undefined method " ++ name ++ " for " ++ owner, none, none⟩

/-- The value is no integer where one is needed. -/
def invalidInteger : Error := argument "invalid integer"

/-- An integer was divided by the integer zero. -/
def dividedByZero : Error := ⟨.zeroDivision, "divided by 0", none, none⟩

/-- Two values that have no order were compared; `left` is a type and `right` a type or a value. -/
def incomparable (left right : String) : Error :=
  argument ("comparison of " ++ left ++ " with " ++ right ++ " failed")

/-- The program breaks off or never comes back.  Nobody gets to see a message. -/
def crash : Error := ⟨.crash, "", none, none⟩

/-- A markup token of another kind was needed. -/
def expected (wanted found : String) : Error :=
  grammar ("Expected " ++ wanted ++ " but found " ++ found)

/-- No expression starts with a markup token of this kind. -/
def notAnExpression (found : String) : Error :=
  grammar (found ++ " is not a valid expression")

/-- The character belongs to no markup token. -/
def unexpectedCharacter (c : Char) : Error :=
  grammar ("Unexpected character " ++ c.toString)

/-! ## Location -/

/-- Attaches a line unless the error has one. -/
def atLine (e : Error) (line : Option Nat) : Error :=
  match e.line with
  | some _ => e
  | none => { e with line }

/-- Attaches the name of a template unless the error has one. -/
def inTemplate (e : Error) (name : Option String) : Error :=
  match e.template with
  | some _ => e
  | none => { e with template := name }

/-- An error keeps its kind when a line is attached. -/
@[simp] theorem kind_atLine (e : Error) (line : Option Nat) : (e.atLine line).kind = e.kind := by
  unfold atLine; split <;> rfl

@[simp] theorem message_atLine (e : Error) (line : Option Nat) :
    (e.atLine line).message = e.message := by
  unfold atLine; split <;> rfl

@[simp] theorem template_atLine (e : Error) (line : Option Nat) :
    (e.atLine line).template = e.template := by
  unfold atLine; split <;> rfl

/-- It keeps its line, if it has one. -/
theorem line_atLine (e : Error) (line : Option Nat) : (e.atLine line).line = e.line.or line := by
  unfold atLine; split <;> simp_all

/-- It keeps its kind when a template is attached. -/
@[simp] theorem kind_inTemplate (e : Error) (name : Option String) :
    (e.inTemplate name).kind = e.kind := by
  unfold inTemplate; split <;> rfl

@[simp] theorem message_inTemplate (e : Error) (name : Option String) :
    (e.inTemplate name).message = e.message := by
  unfold inTemplate; split <;> rfl

@[simp] theorem line_inTemplate (e : Error) (name : Option String) :
    (e.inTemplate name).line = e.line := by
  unfold inTemplate; split <;> rfl

/-- It keeps its template, if it has one. -/
theorem template_inTemplate (e : Error) (name : Option String) :
    (e.inTemplate name).template = e.template.or name := by
  unfold inTemplate; split <;> simp_all

/-- Of two lines the one attached first wins. -/
theorem atLine_atLine (e : Error) (line line' : Option Nat) :
    (e.atLine line).atLine line' = e.atLine (line.or line') := by
  cases e with
  | mk kind message l template => cases l <;> cases line <;> rfl

/-! ## Text -/

/-- Whether the error only says that a name is not defined. -/
def isUndefined (e : Error) : Bool :=
  match e.kind with
  | .undefinedVariable | .undefinedFilter | .undefinedDropMethod => true
  | _ => false

/-- The form in which an error stands in a template's output. -/
def text (e : Error) : String :=
  let label := match e.kind with
    | .grammar => "Liquid syntax error"
    | _ => "Liquid error"
  let location := match e.template, e.line with
    -- A name is shown only together with a line.
    | some name, some line => " (" ++ name ++ " line " ++ toString line ++ "): "
    | none, some line => " (line " ++ toString line ++ "): "
    | _, none => ": "
  label ++ location ++ e.message

end Error

end Stencil
