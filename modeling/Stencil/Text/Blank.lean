/-! # Blank characters

Which characters count as white space, and the ways text is trimmed and cut along them.  The class
is Unicode's White_Space property: twenty-five characters, among them the no-break space and the
line separators, but no zero-width character.

* `isBlank_of_isWhitespace`: the ASCII class of the core library is part of it.
* `dropEndWhile_append_takeEndWhile`: trimming only removes, and only at the end. -/

namespace Stencil.Text

/-- The characters with the White_Space property. -/
def isBlank (c : Char) : Bool :=
  let n := c.toNat
  (9 ≤ n && n ≤ 13) || n == 0x20 || n == 0x85 || n == 0xA0 || n == 0x1680
    || (0x2000 ≤ n && n ≤ 0x200A) || n == 0x2028 || n == 0x2029 || n == 0x202F
    || n == 0x205F || n == 0x3000

theorem isBlank_of_isWhitespace {c : Char} (h : c.isWhitespace = true) : isBlank c = true := by
  simp only [Char.isWhitespace, Bool.or_eq_true, decide_eq_true_eq] at h
  rcases h with ((h | h) | h) | h <;> subst h <;> decide

/-- What is left after the longest end of members that satisfy `p`. -/
def dropEndWhile {α : Type} (p : α → Bool) (xs : List α) : List α :=
  (xs.reverse.dropWhile p).reverse

/-- The longest end of members that satisfy `p`. -/
def takeEndWhile {α : Type} (p : α → Bool) (xs : List α) : List α :=
  (xs.reverse.takeWhile p).reverse

@[simp] theorem dropEndWhile_append_takeEndWhile {α : Type} (p : α → Bool) (xs : List α) :
    dropEndWhile p xs ++ takeEndWhile p xs = xs := by
  rw [dropEndWhile, takeEndWhile, ← List.reverse_append, List.takeWhile_append_dropWhile,
    List.reverse_reverse]

theorem all_takeEndWhile {α : Type} (p : α → Bool) (xs : List α) :
    (takeEndWhile p xs).all p = true := by
  rw [takeEndWhile, List.all_reverse]
  exact List.all_takeWhile

/-- Without the blank characters at its start. -/
def trimStart (s : String) : String :=
  String.ofList (s.toList.dropWhile isBlank)

/-- Without the blank characters at its end. -/
def trimEnd (s : String) : String :=
  String.ofList (dropEndWhile isBlank s.toList)

/-- Without the blank characters at either end. -/
def trim (s : String) : String :=
  trimEnd (trimStart s)

/-- Whether the text has blank characters only. -/
def isBlankText (s : String) : Bool :=
  s.toList.all isBlank

/-- The stretches of characters that are not blank; `word` is the one being read. -/
def wordsFrom (word : List Char) : List Char → List (List Char)
  | [] => if word.isEmpty then [] else [word.reverse]
  | c :: cs =>
    if isBlank c then
      if word.isEmpty then wordsFrom [] cs else word.reverse :: wordsFrom [] cs
    else wordsFrom (c :: word) cs

/-- The words of a text, cut at blank characters; no word is empty. -/
def words (s : String) : List String :=
  (wordsFrom [] s.toList).map String.ofList

end Stencil.Text
