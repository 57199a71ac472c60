import Mathlib.Data.List.Infix
import Stencil.Markup.Token

/-!
# Lexemes of texts laid end to end

No lexeme but a quoted text takes in a blank character. So where a text goes on with a blank, its
lexemes are those of the part before and those of the part behind, unless a quote that the first
part leaves open is closed in the second.

## Key results

- `lexeme_append`: what a text starts with does not depend on what comes behind a blank
- `lexemes_append`: the lexemes of two texts laid end to end
- `lexStrict_append`, `lexStrict_blanks_append`: what is read strictly of such texts
-/

namespace Stencil

/-! ## Runs of characters -/

/-- The blanks are these five. -/
theorem cases_of_isAsciiBlank {c : Char} (h : isAsciiBlank c = true) :
    c = ' ' ∨ c = '\t' ∨ c = '\n' ∨ c = '\r' ∨ c = '\x0c' := by
  simpa only [isAsciiBlank, Bool.or_eq_true, beq_iff_eq, or_assoc] using h

/-- None of them is a digit. -/
theorem isDigit_of_isAsciiBlank {c : Char} (h : isAsciiBlank c = true) : c.isDigit = false := by
  rcases cases_of_isAsciiBlank h with rfl | rfl | rfl | rfl | rfl <;> decide

theorem isNameChar_of_isAsciiBlank {c : Char} (h : isAsciiBlank c = true) :
    isNameChar c = false := by
  rcases cases_of_isAsciiBlank h with rfl | rfl | rfl | rfl | rfl <;> decide

section

variable {tail : List Char} (htail : tail.head?.all isAsciiBlank = true)

include htail

/-- The end of a text or a blank character comes next. -/
theorem eq_nil_or_blank : tail = [] ∨ ∃ b rest, tail = b :: rest ∧ isAsciiBlank b = true := by
  cases tail with
  | nil => exact .inl rfl
  | cons b rest => exact .inr ⟨b, rest, rfl, by simpa using htail⟩

/-- A run of characters ends at a blank that is none of them. -/
theorem takeWhile_append_blank {p : Char → Bool} (hp : ∀ c, isAsciiBlank c = true → p c = false)
    (cs : List Char) : (cs ++ tail).takeWhile p = cs.takeWhile p := by
  induction cs with
  | nil =>
    obtain rfl | ⟨b, rest, rfl, hb⟩ := eq_nil_or_blank htail
    · rfl
    · rw [List.nil_append, List.takeWhile_cons_of_neg (by simp [hp b hb]), List.takeWhile_nil]
  | cons c cs ih => rw [List.cons_append, List.takeWhile_cons, List.takeWhile_cons, ih]

/-- What a blank is no part of ends before it. -/
theorem dropWhile_append_blank {p : Char → Bool} (hp : ∀ c, isAsciiBlank c = true → p c = false)
    (cs : List Char) : (cs ++ tail).dropWhile p = cs.dropWhile p ++ tail := by
  induction cs with
  | nil =>
    obtain rfl | ⟨b, rest, rfl, hb⟩ := eq_nil_or_blank htail
    · rfl
    · rw [List.nil_append, List.dropWhile_cons_of_neg (by simp [hp b hb]), List.dropWhile_nil,
        List.nil_append]
  | cons c cs ih =>
    rw [List.cons_append, List.dropWhile_cons, List.dropWhile_cons, ih]
    split <;> rfl

end

/-! ## Numbers -/

/-- A digit behind the point makes a fraction. -/
theorem lexNumber_of_fraction (negative : Bool) {cs tail : List Char} {d : Char}
    (h : cs.dropWhile Char.isDigit = '.' :: d :: tail) (hd : d.isDigit = true) :
    lexNumber negative cs
      = (.float (Decimal.ofScientific negative
          ((Decimal.readNat? (cs.takeWhile Char.isDigit
            ++ (d :: tail).takeWhile Char.isDigit)).getD 0)
          (-((d :: tail).takeWhile Char.isDigit).length)),
        (d :: tail).dropWhile Char.isDigit) := by
  unfold lexNumber
  rw [h]
  exact if_pos hd

theorem lexNumber_of_no_fraction (negative : Bool) {cs : List Char}
    (h : ∀ d tail, cs.dropWhile Char.isDigit = '.' :: d :: tail → d.isDigit = false) :
    lexNumber negative cs
      = (lexNumber.wholeNumber negative (cs.takeWhile Char.isDigit),
        cs.dropWhile Char.isDigit) := by
  unfold lexNumber
  dsimp only
  -- A dot with no digit behind it is not part of the number.
  split
  · rename_i d tail heq
    rw [if_neg (by simp [h d tail heq])]
  · rfl

/-! ## Names -/

/-- The word of a name or of a comparison, with what follows it. -/
def wordToken (word rest : List Char) : MarkupToken × List Char :=
  if String.ofList word = "contains" ∧ rest.head?.all isAsciiBlank then
    (.comparison .contains, rest)
  else (.id (String.ofList word), rest)

/-- A question mark belongs to the name before it. -/
theorem lexName_of_mark (c : Char) {cs tail : List Char}
    (h : cs.dropWhile isNameChar = '?' :: tail) :
    lexName c cs = wordToken (c :: cs.takeWhile isNameChar ++ ['?']) tail := by
  unfold lexName
  rw [h]
  rfl

/-- Without one the name ends where its characters do. -/
theorem lexName_of_no_mark (c : Char) {cs : List Char}
    (h : ∀ tail, cs.dropWhile isNameChar ≠ '?' :: tail) :
    lexName c cs = wordToken (c :: cs.takeWhile isNameChar) (cs.dropWhile isNameChar) := by
  unfold lexName
  dsimp only
  split
  · exact absurd ‹_› (h _)
  · rfl

/-! ## Quoted texts -/

/-- What was found in the first part of a text is found in the whole. -/
theorem Text.breakOn_append_right {pattern cs before after : List Char} (hp : pattern ≠ [])
    (h : breakOn pattern cs = some (before, after)) (tail : List Char) :
    breakOn pattern (cs ++ tail) = some (before, after ++ tail) := by
  rw [eq_of_breakOn_eq_some h, List.append_assoc]
  exact breakOn_append (after ++ tail) (first_of_breakOn hp h)

/-- A text is not broken on a character that it does not hold. -/
theorem Text.breakOn_singleton_eq_none_iff {c : Char} {cs : List Char} :
    breakOn [c] cs = none ↔ c ∉ cs := by
  rw [breakOn_eq_none_iff (List.cons_ne_nil c []), List.singleton_infix_iff]

/-- A text is broken at the first of a character. -/
theorem Text.breakOn_singleton_append {c : Char} {cs : List Char} (h : c ∉ cs)
    (rest : List Char) : breakOn [c] (cs ++ [c] ++ rest) = some (cs, rest) := by
  induction cs with
  | nil => simp [breakOn_cons, isPrefixOf?_cons_cons, isPrefixOf?_nil]
  | cons d cs ih =>
    obtain ⟨hd, hcs⟩ : c ≠ d ∧ c ∉ cs := by simpa using h
    rw [List.cons_append, List.cons_append, breakOn_cons, isPrefixOf?_cons_cons,
      if_neg (by simpa using hd), ih hcs]
    rfl

/-! ## Lexemes -/

/-- Punctuation does not depend on what is behind it. -/
theorem lexPunctuation_append (c : Char) (cs tail : List Char) :
    lexPunctuation c (cs ++ tail) = ((lexPunctuation c cs).1, (lexPunctuation c cs).2 ++ tail) := by
  unfold lexPunctuation
  split <;> rfl

/-- No comparison of two characters has a blank for its second. -/
theorem doubleComparison?_blank (c : Char) {b : Char} (hb : isAsciiBlank b = true) :
    doubleComparison? c b = none := by
  unfold doubleComparison?
  split <;> first | rfl | exact absurd hb (by decide)

section

variable {tail : List Char} (htail : tail.head?.all isAsciiBlank = true)

include htail

/-- A number does not take in a blank that follows it. -/
theorem lexNumber_append (negative : Bool) (cs : List Char) :
    lexNumber negative (cs ++ tail)
      = ((lexNumber negative cs).1, (lexNumber negative cs).2 ++ tail) := by
  have hwhole := takeWhile_append_blank htail (fun _ => isDigit_of_isAsciiBlank) cs
  have hrest := dropWhile_append_blank htail (fun _ => isDigit_of_isAsciiBlank) cs
  by_cases hfraction : ∃ d rest, cs.dropWhile Char.isDigit = '.' :: d :: rest ∧ d.isDigit = true
  · obtain ⟨d, rest, hcs, hd⟩ := hfraction
    rw [hcs, List.cons_append, List.cons_append] at hrest
    have htake := takeWhile_append_blank htail (fun _ => isDigit_of_isAsciiBlank) (d :: rest)
    have hdrop := dropWhile_append_blank htail (fun _ => isDigit_of_isAsciiBlank) (d :: rest)
    rw [List.cons_append] at htake hdrop
    rw [lexNumber_of_fraction negative hrest hd, lexNumber_of_fraction negative hcs hd, hwhole,
      htake, hdrop]
  · have hno : ∀ d rest, cs.dropWhile Char.isDigit = '.' :: d :: rest → d.isDigit = false :=
      fun d rest h => Bool.eq_false_iff.mpr fun hd => hfraction ⟨d, rest, h, hd⟩
    -- A blank is neither the point nor the first digit of a fraction.
    have hno' : ∀ d rest, (cs ++ tail).dropWhile Char.isDigit = '.' :: d :: rest →
        d.isDigit = false := by
      intro d rest h
      rw [hrest] at h
      match hcs : cs.dropWhile Char.isDigit with
      | [] =>
        rw [hcs, List.nil_append] at h
        exact absurd htail (by simp [h, isAsciiBlank])
      | [c] =>
        rw [hcs] at h
        obtain ⟨-, rfl⟩ := List.cons.inj h
        exact isDigit_of_isAsciiBlank (by simpa using htail)
      | c :: e :: _ =>
        rw [hcs] at h
        obtain ⟨rfl, hmore⟩ := List.cons.inj h
        obtain ⟨rfl, -⟩ := List.cons.inj hmore
        exact hno _ _ hcs
    rw [lexNumber_of_no_fraction negative hno', lexNumber_of_no_fraction negative hno, hwhole,
      hrest]

/-- A blank ends a word as the end of the markup does. -/
theorem wordToken_append (word rest : List Char) :
    wordToken word (rest ++ tail)
      = ((wordToken word rest).1, (wordToken word rest).2 ++ tail) := by
  -- Only the first character behind the word matters, and a blank ends it like nothing does.
  have hhead : (rest ++ tail).head?.all isAsciiBlank = rest.head?.all isAsciiBlank := by
    cases rest with
    | nil => simpa using htail
    | cons => rfl
  unfold wordToken
  rw [hhead]
  split <;> rfl

/-- Nor does a name take in a blank. -/
theorem lexName_append (c : Char) (cs : List Char) :
    lexName c (cs ++ tail) = ((lexName c cs).1, (lexName c cs).2 ++ tail) := by
  have hword := takeWhile_append_blank htail (fun _ => isNameChar_of_isAsciiBlank) cs
  have hrest := dropWhile_append_blank htail (fun _ => isNameChar_of_isAsciiBlank) cs
  -- A question mark may end a name; behind it nothing is part of the name.
  by_cases hmark : ∃ rest, cs.dropWhile isNameChar = '?' :: rest
  · obtain ⟨rest, hcs⟩ := hmark
    rw [hcs, List.cons_append] at hrest
    rw [lexName_of_mark c hrest, lexName_of_mark c hcs, hword, wordToken_append htail]
  · have hno : ∀ rest, cs.dropWhile isNameChar ≠ '?' :: rest := fun rest h => hmark ⟨rest, h⟩
    have hno' : ∀ rest, (cs ++ tail).dropWhile isNameChar ≠ '?' :: rest := by
      intro rest h
      rw [hrest] at h
      cases hcs : cs.dropWhile isNameChar with
      | nil =>
        rw [hcs, List.nil_append] at h
        exact absurd htail (by simp [h, isAsciiBlank])
      | cons d ds =>
        rw [hcs, List.cons_append] at h
        exact hno ds (by rw [hcs, (List.cons.inj h).1])
    rw [lexName_of_no_mark c hno', lexName_of_no_mark c hno, hword, hrest, wordToken_append htail]

/-- What a text starts with does not depend on what comes behind a blank, unless that closes a
quote. -/
theorem lexeme_append (c : Char) (cs : List Char)
    (hquote : ∀ q ∈ tail, q = '\'' ∨ q = '"' → (lexeme c cs).1 ≠ .stray q) :
    lexeme c (cs ++ tail) = ((lexeme c cs).1, (lexeme c cs).2 ++ tail) := by
  unfold lexeme at hquote ⊢
  split
  · rfl
  split
  · rename_i hblank hc
    rw [if_neg hblank, if_pos hc] at hquote
    cases hbreak : Text.breakOn [c] cs with
    | some parts => rw [Text.breakOn_append_right (List.cons_ne_nil c []) hbreak]
    | none =>
      rw [hbreak] at hquote
      have hcs : c ∉ cs := Text.breakOn_singleton_eq_none_iff.mp hbreak
      have htail : c ∉ tail := fun hmem => hquote c hmem hc rfl
      have hopen : Text.breakOn [c] (cs ++ tail) = none :=
        Text.breakOn_singleton_eq_none_iff.mpr (by simp [hcs, htail])
      rw [hopen]
  clear hquote
  split
  · rw [← List.cons_append, lexNumber_append htail]
  split
  · rw [lexName_append htail]
  -- What is left looks at the next character, which may be the blank.
  cases cs with
  | nil =>
    obtain rfl | ⟨b, rest, rfl, hb⟩ := eq_nil_or_blank htail
    · exact lexPunctuation_append c [] []
    · have hpunctuation := lexPunctuation_append c [] (b :: rest)
      rw [List.nil_append] at hpunctuation
      have hpoint : b ≠ '.' := fun h => absurd hb (by simp [h, isAsciiBlank])
      simp [doubleComparison?_blank c hb, isDigit_of_isAsciiBlank hb, hpoint, hpunctuation]
  | cons d rest =>
    simp only [List.cons_append]
    cases doubleComparison? c d with
    | some comparison => rfl
    | none =>
      dsimp only
      split
      · rw [← List.cons_append, lexNumber_append htail]
      · split
        · rfl
        · exact lexPunctuation_append c (d :: rest) tail

/-- The lexemes of two texts laid end to end are those of each, if the second starts with a blank
and closes no quote that the first leaves open. -/
theorem lexemes_append (cs : List Char)
    (hquote : ∀ q ∈ tail, q = '\'' ∨ q = '"' → Lexeme.stray q ∉ lexemes cs) :
    lexemes (cs ++ tail) = lexemes cs ++ lexemes tail := by
  -- Lexeme by lexeme: none of them looks past the blank behind it.
  fun_induction lexemes cs with
  | case1 => rfl
  | case2 c cs ih =>
    have hfirst := lexeme_append htail c cs fun q hq h heq =>
      hquote q hq h (heq ▸ List.mem_cons_self ..)
    have hmore := ih fun q hq h hmem => hquote q hq h (List.mem_cons_of_mem _ hmem)
    rw [List.cons_append, lexemes, hfirst, hmore, List.cons_append]

end

/-! ## Strict readings -/

/-- A blank character is a lexeme of its own. -/
theorem lexemes_blanks_append {blanks : List Char} (h : blanks.all isAsciiBlank = true)
    (cs : List Char) :
    lexemes (blanks ++ cs) = List.replicate blanks.length .blank ++ lexemes cs := by
  induction blanks with
  | nil => rfl
  | cons b blanks ih =>
    rw [List.all_cons, Bool.and_eq_true] at h
    have hb : lexeme b (blanks ++ cs) = (.blank, blanks ++ cs) := by
      unfold lexeme
      exact if_pos h.1
    rw [List.cons_append, lexemes, hb, ih h.2]
    rfl

/-- Blanks at the front are passed over. -/
theorem lexStrict_blanks_append {blanks : String} (h : blanks.toList.all isAsciiBlank = true)
    (markup : String) : lexStrict (blanks ++ markup) = lexStrict markup := by
  have hstray (n : Nat) :
      (List.replicate n Lexeme.blank).findSome? Lexeme.stray? = none := by
    induction n with
    | zero => rfl
    | succ n ih => exact ih
  have htoken (n : Nat) : (List.replicate n Lexeme.blank).filterMap Lexeme.token? = [] := by
    induction n with
    | zero => rfl
    | succ n ih => exact ih
  simp only [lexStrict, String.toList_append, lexemes_blanks_append h, List.findSome?_append,
    hstray, Option.none_or, List.filterMap_append, htoken, List.nil_append]

/-- What is read strictly has no stray characters. -/
theorem lexStrict_eq_ok_iff {markup : String} {tokens : List MarkupToken} :
    lexStrict markup = .ok tokens ↔
      (lexemes markup.toList).findSome? Lexeme.stray? = none
        ∧ (lexemes markup.toList).filterMap Lexeme.token? = tokens := by
  unfold lexStrict
  dsimp only
  split <;> simp_all

/-- Behind markup that can be read strictly, a blank starts a new reading. -/
theorem lexStrict_append {markup : String} {tokens : List MarkupToken}
    (h : lexStrict markup = .ok tokens) {rest : String}
    (hrest : rest.toList.head?.all isAsciiBlank = true) :
    lexStrict (markup ++ rest) = (lexStrict rest).map (tokens ++ ·) := by
  obtain ⟨hstray, rfl⟩ := lexStrict_eq_ok_iff.mp h
  have hlexemes : lexemes (markup ++ rest).toList
      = lexemes markup.toList ++ lexemes rest.toList := by
    rw [String.toList_append]
    refine lexemes_append hrest _ fun q _ _ hmem => ?_
    exact absurd (List.findSome?_eq_none_iff.mp hstray _ hmem) (by simp [Lexeme.stray?])
  simp only [lexStrict, hlexemes, List.findSome?_append, hstray, Option.none_or,
    List.filterMap_append]
  -- A stray behind is the first one, as there is none in front.
  cases (lexemes rest.toList).findSome? Lexeme.stray? <;> rfl

end Stencil
