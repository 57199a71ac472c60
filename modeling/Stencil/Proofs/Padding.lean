import Stencil.Parsing
import Stencil.Proofs.Lexemes
import Stencil.Token

/-!
# Spaces around markup

A space at either end of markup changes nothing: a tag gets its arguments trimmed, and an output
is read in lexemes, none of which takes in a space that follows it.

## Key results

- `tagParts?_padded`: the parts of a tag with a space at either end
- `lexemes_padded`: the lexemes of an output with a space at either end
- `Pipeline.readStrict_padded`, `Pipeline.readLax_padded`: what an output is read as
-/

namespace Stencil

/-! ## Tags -/

namespace Text

theorem dropEndWhile_append_space (cs : List Char) :
    dropEndWhile isBlank (cs ++ [' ']) = dropEndWhile isBlank cs := by
  have hblank : isBlank ' ' = true := by decide
  rw [dropEndWhile, List.reverse_append, List.reverse_singleton, List.singleton_append,
    List.dropWhile_cons_of_pos hblank]
  rfl

/-- Spaces at either end are trimmed with what else is blank there. -/
theorem trim_padded (cs : List Char) :
    trim (String.ofList (' ' :: (cs ++ [' ']))) = trim (String.ofList cs) := by
  have hblank : isBlank ' ' = true := by decide
  -- If all is blank, the space at the end is already gone from the start.
  have hdrop : (cs ++ [' ']).dropWhile isBlank
      = cs.dropWhile isBlank ++ [' '] ∨ (cs ++ [' ']).dropWhile isBlank = cs.dropWhile isBlank := by
    rw [List.dropWhile_append]
    split
    · rename_i hempty
      right
      rw [List.isEmpty_iff.mp hempty]
      simp [hblank]
    · exact .inl rfl
  simp only [trim, trimStart, trimEnd, String.toList_ofList, List.dropWhile_cons_of_pos hblank]
  rcases hdrop with hdrop | hdrop
  · rw [hdrop, dropEndWhile_append_space]
  · rw [hdrop]

end Text

/-- Whether the characters can be the name of a tag. -/
def isTagName (name : String) : Bool :=
  match name.toList with
  | [] => false
  | c :: cs =>
    !Text.isBlank c && c != '#' && (c :: cs).all fun c => Text.isLetterOrDigit c || c == '_'

/-- What follows the name and a space are the arguments. -/
theorem tagParts?_append {name : String} (hname : isTagName name = true) (rest : List Char) :
    tagParts? (String.ofList (' ' :: (name.toList ++ ' ' :: rest)))
      = some (name, Text.trim (String.ofList (' ' :: rest))) := by
  obtain ⟨chars, rfl⟩ : ∃ chars, name = String.ofList chars := ⟨name.toList, by simp⟩
  have hspace : Text.isLetterOrDigit ' ' = false := by decide +kernel
  have hblank : Text.isBlank ' ' = true := by decide
  unfold isTagName at hname
  rw [String.toList_ofList] at hname ⊢
  cases chars with
  | nil => exact nomatch hname
  | cons c cs =>
    simp only [Bool.and_eq_true, Bool.not_eq_true', bne_iff_ne] at hname
    obtain ⟨⟨hc, hsharp⟩, hall⟩ := hname
    -- The name ends at the blank, which is no character of a name.
    have htake : ((c :: cs) ++ ' ' :: rest).takeWhile (fun c => Text.isLetterOrDigit c || c == '_')
        = c :: cs := by
      rw [List.takeWhile_append_of_pos (List.all_eq_true.mp hall),
        List.takeWhile_cons_of_neg (by simp [hspace]), List.append_nil]
    have hdrop : ((c :: cs) ++ ' ' :: rest).dropWhile (fun c => Text.isLetterOrDigit c || c == '_')
        = ' ' :: rest := by
      rw [List.dropWhile_append_of_pos (List.all_eq_true.mp hall),
        List.dropWhile_cons_of_neg (by simp [hspace])]
    rw [List.cons_append] at htake hdrop
    unfold tagParts?
    simp only [String.toList_ofList, List.dropWhile_cons_of_pos hblank, List.cons_append,
      List.dropWhile_cons_of_neg (by simp [hc] : ¬ Text.isBlank c = true)]
    split
    · rename_i hcons
      exact absurd (List.cons.inj hcons).1 hsharp
    · rw [htake, hdrop]
      rfl

/-- A tag with markup, with a space at either end. -/
theorem tagParts?_padded {name : String} (hname : isTagName name = true) (markup : String) :
    tagParts? (" " ++ (name ++ " " ++ markup) ++ " ") = some (name, Text.trim markup) := by
  have hmarkup : " " ++ (name ++ " " ++ markup) ++ " "
      = String.ofList (' ' :: (name.toList ++ ' ' :: (markup.toList ++ [' ']))) := by
    apply String.toList_injective
    simp
  rw [hmarkup, tagParts?_append hname, Text.trim_padded, String.ofList_toList]

/-- A tag without markup, with a space at either end. -/
theorem tagParts?_bare {name : String} (hname : isTagName name = true) :
    tagParts? (" " ++ name ++ " ") = some (name, "") := by
  have hmarkup : " " ++ name ++ " " = String.ofList (' ' :: (name.toList ++ ' ' :: [])) := by
    apply String.toList_injective
    simp
  have htrim : Text.trim (String.ofList [' ']) = "" := by decide
  rw [hmarkup, tagParts?_append hname, htrim]

/-! ## Outputs -/

/-- A space behind markup is a lexeme of its own. -/
theorem lexemes_append_space (cs : List Char) :
    lexemes (cs ++ [' ']) = lexemes cs ++ [.blank] := by
  have hspace : lexemes [' '] = [.blank] := by simp [lexemes, lexeme, isAsciiBlank]
  have hquote : ∀ q ∈ [' '], q = '\'' ∨ q = '"' → Lexeme.stray q ∉ lexemes cs := by
    simp
  rw [lexemes_append rfl cs hquote, hspace]

/-- A space at either end of markup is a lexeme of its own. -/
theorem lexemes_padded (cs : List Char) :
    lexemes (' ' :: (cs ++ [' '])) = .blank :: (lexemes cs ++ [.blank]) := by
  have hblank : lexeme ' ' (cs ++ [' ']) = (.blank, cs ++ [' ']) := rfl
  rw [lexemes, hblank, lexemes_append_space]

theorem lexLax_padded (markup : String) : lexLax (" " ++ markup ++ " ") = lexLax markup := by
  have hchars : (" " ++ markup ++ " ").toList = ' ' :: (markup.toList ++ [' ']) := by simp
  rw [lexLax, hchars, lexemes_padded, List.filterMap_cons_none rfl, List.filterMap_append,
    List.filterMap_cons_none rfl, List.filterMap_nil, List.append_nil]
  rfl

theorem lexStrict_padded (markup : String) :
    lexStrict (" " ++ markup ++ " ") = lexStrict markup := by
  have hchars : (" " ++ markup ++ " ").toList = ' ' :: (markup.toList ++ [' ']) := by simp
  -- Blanks are no strays, so the first stray is the same.
  have hstray : (Lexeme.blank :: (lexemes markup.toList ++ [.blank])).findSome? Lexeme.stray?
      = (lexemes markup.toList).findSome? Lexeme.stray? := by
    simp [List.findSome?_cons, List.findSome?_append, Lexeme.stray?]
  have hlax := lexLax_padded markup
  rw [lexLax, lexLax, hchars, lexemes_padded] at hlax
  simp only [lexStrict, hchars, lexemes_padded, hstray, hlax]

namespace Pipeline

theorem readStrict_padded (markup : String) :
    readStrict (" " ++ markup ++ " ") = readStrict markup := by
  rw [readStrict, readStrict, lexStrict_padded]

theorem readLax_padded (markup : String) : readLax (" " ++ markup ++ " ") = readLax markup := by
  rw [readLax, readLax, Reader.onLax, Reader.onLax, lexLax_padded]

end Pipeline

end Stencil
