import Stencil.Filter.Standard
import Stencil.Message

/-! # Registries

The configuration that templates are read and rendered with: which tags and filters there are,
where partials come from, what the host's objects answer, how strictly markup is read, how errors
are shown, the wording of messages and how deep blocks may be nested.  A registry does not change
while it is in use. -/

namespace Stencil

/-- How markup that does not follow the grammar is treated. -/
inductive ErrorMode where
  /-- Make the best of it. -/
  | lax
  /-- Make the best of it and keep a warning. -/
  | warn
  /-- Refuse the template. -/
  | strict
deriving DecidableEq, Repr, Inhabited

/-- What a tag does.  The last three are for hosts to register under names of their own. -/
inductive TagKind where
  /-- Branches, the first of which is taken when its condition fails if `negated`. -/
  | conditional (negated : Bool)
  /-- Arms chosen by the value of a subject. -/
  | choice
  | loop
  | interrupt (interrupt : Interrupt)
  | assign
  | capture
  | comment
  | inlineComment
  | raw
  | echo
  /-- Tags without delimiters, one a line. -/
  | lines
  | includePartial
  | renderPartial
  /-- A block whose output goes through a function. -/
  | transform (f : String → String)
  /-- A block of numbered sections: one tag opens a new section, one is passed over, and one closes
  the block early. -/
  | sections (opens passes closes : String)
  /-- Counts up in a register and writes the count. -/
  | counter

/-- Where partials come from: the source of a partial by its name. -/
abbrev FileSystem := String → Except Error String

namespace FileSystem

/-- Has no partials at all. -/
def none : FileSystem := fun _ =>
  .error ⟨.fileSystem, "This liquid context does not allow includes.", .none, .none⟩

/-- Partials that are kept in memory. -/
def ofFiles (files : Assoc String) : FileSystem := fun name =>
  match files.get? name with
  | some source => .ok source
  | .none => .error ⟨.fileSystem, "No such template '" ++ name ++ "'", .none, .none⟩

end FileSystem

/-- The tags that every template knows. -/
def TagKind.standard : Assoc TagKind := [
  ("if", .conditional false),
  ("unless", .conditional true),
  ("case", .choice),
  ("for", .loop),
  ("break", .interrupt .break),
  ("continue", .interrupt .continue),
  ("assign", .assign),
  ("capture", .capture),
  ("comment", .comment),
  ("#", .inlineComment),
  ("raw", .raw),
  ("echo", .echo),
  ("liquid", .lines),
  ("include", .includePartial),
  ("render", .renderPartial)]

/-- What templates are read and rendered with. -/
structure Registry where
  tags : Assoc TagKind := []
  filters : Assoc Filter := []
  files : FileSystem := .none
  /-- The code of the host's objects. -/
  answers : Answers := .none
  errorMode : ErrorMode := .lax
  /-- How errors are shown in the output, in place of their own text. -/
  showError : Option (Error → String) := none
  messages : Catalogue := {}
  /-- How deep blocks may be nested. -/
  nestingLimit : Nat := defaultDepth

namespace Registry

/-- No tags and no filters. -/
def empty : Registry := {}

/-- The standard tags and filters. -/
def standard : Registry :=
  { tags := TagKind.standard
    filters := Filter.standard }

/-- Adds a tag, or replaces the one of that name. -/
def addTag (r : Registry) (name : String) (kind : TagKind) : Registry :=
  { r with tags := r.tags.put name kind }

/-- Adds a filter, or replaces the one of that name. -/
def addFilter (r : Registry) (name : String) (filter : Filter) : Registry :=
  { r with filters := r.filters.put name filter }

end Registry

end Stencil
