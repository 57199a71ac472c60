import Stencil.Text.Search

/-! # Messages

The wording of grammar errors and of a few others, by dotted key, so that a host can replace it.  A
message may have placeholders, a name between `%{` and `}`; they are filled in one pass from left to
right, and a value that is put in is never looked at again.

* `fill_of_breakOn_eq_none`: a text without placeholders stays as it is. -/

namespace Stencil

/-- The named values for the placeholders of a message. -/
abbrev Placeholders := List (String × String)

namespace Message

/-- Fills the placeholders of `template`.  A placeholder whose name has no value stays, and so does
one that is never closed. -/
def fill (values : Placeholders) (template : List Char) : List Char :=
  match _h : Text.breakOn ['%', '\x7b'] template with
  | none => template
  | some (before, after) =>
    match _h' : Text.breakOn ['\x7d'] after with
    | none => template
    | some (name, rest) =>
      let value :=
        -- A placeholder without a value stays as it is written.
        match values.lookup (String.ofList name) with
        | some value => value.toList
        | none => ['%', '\x7b'] ++ name ++ ['\x7d']
      -- What a value brings in is not searched again.
      before ++ value ++ fill values rest
termination_by template.length
decreasing_by
  have := Text.length_lt_of_breakOn_eq_some (by simp) _h
  have := Text.length_lt_of_breakOn_eq_some (by simp) _h'
  omega

/-- Fills the placeholders of a message. -/
def interpolate (template : String) (values : Placeholders) : String :=
  String.ofList (fill values template.toList)

theorem fill_of_breakOn_eq_none {template : List Char} (values : Placeholders)
    (h : Text.breakOn ['%', '\x7b'] template = none) : fill values template = template := by
  rw [fill]
  split
  · rfl
  · rename_i h'
    rw [h] at h'
    exact nomatch h'

/-- The messages that are in force when the host replaces none. -/
def defaults : List (String × String) := [
  ("errors.syntax.assign",
    "Syntax Error in 'assign' - Valid syntax: assign [var] = [source]"),
  ("errors.syntax.capture", "Syntax Error in 'capture' - Valid syntax: capture [var]"),
  ("errors.syntax.case", "Syntax Error in 'case' - Valid syntax: case [condition]"),
  ("errors.syntax.case_invalid_when",
    "Syntax Error in tag 'case' - Valid when condition: "
      ++ "\x7b% when [condition] [or condition2...] %\x7d"),
  ("errors.syntax.case_invalid_else",
    "Syntax Error in tag 'case' - Valid else condition: \x7b% else %\x7d (no parameters) "),
  ("errors.syntax.for",
    "Syntax Error in 'for loop' - Valid syntax: for [item] in [collection]"),
  ("errors.syntax.for_invalid_in", "For loops require an 'in' clause"),
  ("errors.syntax.for_invalid_attribute",
    "Invalid attribute in for loop. Valid attributes are limit and offset"),
  ("errors.syntax.if", "Syntax Error in tag 'if' - Valid syntax: if [expression]"),
  ("errors.syntax.include",
    "Error in tag 'include' - Valid syntax: include '[template]' (with|for) [object|collection]"),
  ("errors.syntax.inline_comment_invalid",
    "Syntax error in tag '#' - Each line of comments must be prefixed by the '#' character"),
  ("errors.syntax.invalid_delimiter",
    "'%\x7btag\x7d' is not a valid delimiter for %\x7bblock_name\x7d tags. "
      ++ "use %\x7bblock_delimiter\x7d"),
  ("errors.syntax.render",
    "Syntax error in tag 'render' - Template name must be a quoted string"),
  ("errors.syntax.tag_never_closed", "'%\x7bblock_name\x7d' tag was never closed"),
  ("errors.syntax.tag_termination",
    "Tag '%\x7btoken\x7d' was not properly terminated with regexp: %\x7btag_end\x7d"),
  ("errors.syntax.tag_unexpected_args",
    "Syntax Error in '%\x7btag\x7d' - Valid syntax: %\x7btag\x7d"),
  ("errors.syntax.unexpected_else", "%\x7bblock_name\x7d tag does not expect 'else' tag"),
  ("errors.syntax.unexpected_outer_tag", "Unexpected outer '%\x7btag\x7d' tag"),
  ("errors.syntax.unknown_tag", "Unknown tag '%\x7btag\x7d'"),
  ("errors.syntax.variable_termination",
    "Variable '%\x7btoken\x7d' was not properly terminated with regexp: %\x7btag_end\x7d"),
  ("errors.argument.include", "Argument error in tag 'include' - Illegal template name"),
  ("errors.disabled.tag", "usage is not allowed in this context")]

end Message

/-- The messages in force: what the host replaced, then the defaults. -/
structure Catalogue where
  /-- Replaced messages, the latest first. -/
  overrides : List (String × String) := []

namespace Catalogue

/-- Replaces the message of a key. -/
def set (catalogue : Catalogue) (key message : String) : Catalogue :=
  ⟨(key, message) :: catalogue.overrides⟩

/-- The message of a key, before its placeholders are filled. -/
def find? (catalogue : Catalogue) (key : String) : Option String :=
  (catalogue.overrides.lookup key).or (Message.defaults.lookup key)

/-- The message of a key with its placeholders filled. -/
def text (catalogue : Catalogue) (key : String) (values : Placeholders := []) : String :=
  match catalogue.find? key with
  | some template => Message.interpolate template values
  -- A key without a message is reported in the place of one.
  | none => "translation missing: " ++ key

end Catalogue

end Stencil
