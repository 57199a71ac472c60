import Stencil.Text.Printable

/-! # Quoted text

The form in which text is shown inside lists and objects: between double quotes, with a backslash
before a quote or a backslash, names for the common control characters, and the code point in
hexadecimal for everything that is not printable. -/

namespace Stencil.Text

/-- The code point of a character between `\u{` and `}`, in lower-case hexadecimal. -/
def codeEscape (c : Char) : List Char :=
  ['\\', 'u', '\x7b'] ++ Nat.toDigits 16 c.toNat ++ ['\x7d']

/-- How one character is written between the quotes. -/
def quoteChar (c : Char) : List Char :=
  if c = '\x00' then ['\\', '0']
  else if c = '\t' then ['\\', 't']
  else if c = '\r' then ['\\', 'r']
  else if c = '\n' then ['\\', 'n']
  else if c = '\\' then ['\\', '\\']
  else if c = '"' then ['\\', '"']
  else if isPrintable c then [c]
  else codeEscape c

/-- The text between double quotes. -/
def quote (s : String) : String :=
  String.ofList ('"' :: s.toList.flatMap quoteChar ++ ['"'])

theorem quoteChar_of_isPrintable {c : Char} (h : isPrintable c = true) (hq : c ≠ '"')
    (hb : c ≠ '\\') : quoteChar c = [c] := by
  have h0 : c ≠ '\x00' := fun e => by subst e; exact absurd h (by decide)
  have ht : c ≠ '\t' := fun e => by subst e; exact absurd h (by decide)
  have hr : c ≠ '\r' := fun e => by subst e; exact absurd h (by decide)
  have hn : c ≠ '\n' := fun e => by subst e; exact absurd h (by decide)
  simp [quoteChar, h, hq, hb, h0, ht, hr, hn]

end Stencil.Text
