import Stencil.Filter
import Stencil.Text.Case
import Stencil.Text.Search

/-! # Filters on text

Filters that take a value by its text.  Lengths and positions count characters.

* `length_keepUpTo_le`: truncated text is not longer than asked for, unless the ending alone is. -/

namespace Stencil.Filter

/-- A filter on the text of its input. -/
def ofText (f : String → String) : Filter :=
  ⟨0, 0, fun _ input _ => .ok (.str (f input.text))⟩

/-- How a character is written in HTML text. -/
def escapeChar (c : Char) : List Char :=
  match c with
  | '&' => "&amp;".toList
  | '<' => "&lt;".toList
  | '>' => "&gt;".toList
  | '"' => "&quot;".toList
  | '\'' => "&#39;".toList
  | c => [c]

/-- The text with the characters escaped that mean something in HTML. -/
def escapeText (s : String) : String :=
  String.ofList (s.toList.flatMap escapeChar)

/-- The parts of a text between the occurrences of a pattern, without empty parts at the end.  The
empty pattern gives the characters and a single space the words. -/
def splitText (s pattern : String) : List String :=
  let parts :=
    if pattern.isEmpty then s.toList.map Char.toString
    else if pattern = " " then Text.words s
    else (Text.pieces pattern.toList s.toList).map String.ofList
  Text.dropEndWhile String.isEmpty parts

/-- Where a slice starts, if its offset lies within the `length` members; a negative offset counts
from the end. -/
def sliceStart? (offset : Int64) (length : Nat) : Option Nat :=
  let start := if offset.toInt < 0 then length + offset.toInt else offset.toInt
  if start < 0 ∨ (length : Int) < start then none else some start.toNat

/-- The members of a slice, none if it starts outside. -/
def sliceOf {α : Type} (offset : Int64) (count : Nat) (xs : List α) : List α :=
  match sliceStart? offset xs.length with
  | some start => (xs.drop start).take count
  | none => []

/-- The text cut to a number of characters, the ending included. -/
def keepUpTo (s ending : String) (limit : Nat) : String :=
  if s.length ≤ limit then s
  else String.ofList (s.toList.take (limit - ending.length)) ++ ending

theorem length_keepUpTo_le (s ending : String) (limit : Nat) :
    (keepUpTo s ending limit).length ≤ max limit ending.length := by
  unfold keepUpTo
  split
  · omega
  · simp only [String.length_append, String.length_ofList, List.length_take]
    omega

/-- A count that an argument asks for, `otherwise` if it was left out; a negative one is zero. -/
def countArgument (args : Arguments) (index otherwise : Nat) : Except Error Nat :=
  match args.positional[index]? with
  | some v => v.toInteger.map fun n => n.toInt.toNat
  | none => .ok otherwise

/-- The text of an argument, `otherwise` if it was left out. -/
def textArgument (args : Arguments) (index : Nat) (otherwise : String) : String :=
  match args.positional[index]? with
  | some v => v.text
  | none => otherwise

/-- Escapes HTML; nil stays nil. -/
def escape : Filter :=
  ⟨0, 0, fun _ input _ => .ok (match input with
    | .nil => .nil
    | v => .str (escapeText v.text))⟩

/-- Puts the argument behind the input. -/
def append : Filter :=
  ⟨1, 0, fun _ input args => .ok (.str (input.text ++ (args.arg 0).text))⟩

/-- Puts the argument in front of the input. -/
def prepend : Filter :=
  ⟨1, 0, fun _ input args => .ok (.str ((args.arg 0).text ++ input.text))⟩

/-- Removes every occurrence of the argument. -/
def remove : Filter :=
  ⟨1, 0, fun _ input args => .ok (.str (Text.replaceAll (args.arg 0).text "" input.text))⟩

/-- Puts the second argument in place of every occurrence of the first. -/
def replace : Filter :=
  ⟨1, 1, fun _ input args =>
    .ok (.str (Text.replaceAll (args.arg 0).text (args.arg 1).text input.text))⟩

/-- The list of the parts between the occurrences of the argument. -/
def split : Filter :=
  ⟨1, 0, fun _ input args =>
    .ok (.array ((splitText input.text (args.arg 0).text).map .str))⟩

/-- Cuts the text to fifty characters, or as many as asked for, with three dots or what is given
at the end of a text that was cut. -/
def truncate : Filter :=
  ⟨0, 2, fun _ input args =>
    match input with
    | .nil => .ok .nil
    | v => do
      let limit ← countArgument args 0 50
      return .str (keepUpTo v.text (textArgument args 1 "...") limit)⟩

/-- The members of a list, or the characters of a text, from an offset on: one, or as many as asked
for. -/
def slice : Filter :=
  ⟨1, 1, fun _ input args => do
    let offset ← (args.arg 0).toInteger
    let count ← countArgument args 1 1
    return match input with
      | .array items => .array (sliceOf offset count items)
      | v => .str (String.ofList (sliceOf offset count v.text.toList))⟩

end Stencil.Filter
