import Stencil.Proofs.Padding
import Stencil.Proofs.Trimming
import Stencil.Proofs.Written

/-!
# The tokens of lines

Text whose lines are tags and the same tags between delimiters are cut into tokens that are read in
the same way: a tag has the same name and the same arguments whether the blank characters around
its markup were trimmed or not. It makes no difference either that the lines are trimmed together
first, as the arguments of the tag that they belong to.

## Key definitions

- `IsTagLine`: lines that can be written in both ways
- `tagLines`, `lineTags`: a tag with the lines, and a tag for each line
- `Token.Twins`: tokens that are read in the same way

## Key results

- `tagParts?_trim`: the parts of a tag whose markup is trimmed
- `Token.twins_lineTags`: the tokens of the lines in both ways
-/

namespace Stencil

/-! ## Trimmed text -/

namespace Text

/-- The code points of the blank characters. -/
def blankCodes : List Nat :=
  [9, 10, 11, 12, 13, 0x20, 0x85, 0xA0, 0x1680, 0x2000, 0x2001, 0x2002, 0x2003, 0x2004, 0x2005,
    0x2006, 0x2007, 0x2008, 0x2009, 0x200A, 0x2028, 0x2029, 0x202F, 0x205F, 0x3000]

/-- A blank is one of the blank codes. -/
theorem toNat_mem_blankCodes {c : Char} (h : isBlank c = true) : c.toNat ∈ blankCodes := by
  simp only [isBlank, Bool.or_eq_true, Bool.and_eq_true, decide_eq_true_eq, beq_iff_eq] at h
  simp only [blankCodes, List.mem_cons, List.not_mem_nil, or_false]
  omega

/-- A blank character is no part of a name. -/
theorem isLetterOrDigit_of_isBlank {c : Char} (h : isBlank c = true) :
    isLetterOrDigit c = false ∧ c ≠ '_' := by
  have hall : ∀ n ∈ blankCodes, isLetterOrDigit (Char.ofNat n) = false ∧ Char.ofNat n ≠ '_' := by
    decide +kernel
  rw [← Char.ofNat_toNat c]
  exact hall _ (toNat_mem_blankCodes h)

/-- What is dropped at the end may be appended. -/
theorem dropEndWhile_append_of_all {p : Char → Bool} {cs blanks : List Char}
    (h : blanks.all p = true) : dropEndWhile p (cs ++ blanks) = dropEndWhile p cs := by
  rw [dropEndWhile, List.reverse_append, List.dropWhile_append_of_pos]
  · rfl
  · exact fun c hc => List.all_eq_true.mp h c (List.mem_reverse.mp hc)

/-- Blank characters at the end are trimmed with what else is blank there. -/
theorem trim_append_of_all {cs blanks : List Char} (h : blanks.all isBlank = true) :
    trim (String.ofList (cs ++ blanks)) = trim (String.ofList cs) := by
  simp only [trim, trimStart, trimEnd, String.toList_ofList]
  rw [List.dropWhile_append]
  split
  · -- If all is blank, nothing is left either way.
    rename_i hempty
    rw [List.isEmpty_iff.mp hempty, List.dropWhile_eq_nil_iff.mpr (List.all_eq_true.mp h)]
  · rw [dropEndWhile_append_of_all h]

/-- Blank characters at the start are trimmed with what else is blank there. -/
theorem trim_append_of_all_left {cs blanks : List Char} (h : blanks.all isBlank = true) :
    trim (String.ofList (blanks ++ cs)) = trim (String.ofList cs) := by
  simp only [trim, trimStart, String.toList_ofList]
  rw [List.dropWhile_append_of_pos (List.all_eq_true.mp h)]

/-- The blank characters that are trimmed, and what is between them. -/
theorem exists_trim (s : String) : ∃ before after : List Char, before.all isBlank = true
    ∧ after.all isBlank = true ∧ s.toList = before ++ (trim s).toList ++ after := by
  refine ⟨s.toList.takeWhile isBlank, takeEndWhile isBlank (s.toList.dropWhile isBlank),
    List.all_takeWhile, all_takeEndWhile .., ?_⟩
  simp only [trim, trimStart, trimEnd, String.toList_ofList]
  rw [List.append_assoc, dropEndWhile_append_takeEndWhile, List.takeWhile_append_dropWhile]

end Text

/-! ## The parts of a tag -/

/-- What comes behind a run of characters does not lengthen it. -/
theorem takeWhile_append_of_all {p : Char → Bool} (cs : List Char) {more : List Char}
    (h : ∀ c ∈ more, ¬ p c = true) :
    (cs ++ more).takeWhile p = cs.takeWhile p
      ∧ (cs ++ more).dropWhile p = cs.dropWhile p ++ more := by
  induction cs with
  | nil =>
    cases more with
    | nil => exact ⟨rfl, rfl⟩
    | cons c more =>
      have hc := h c (List.mem_cons_self ..)
      exact ⟨List.takeWhile_cons_of_neg hc, List.dropWhile_cons_of_neg hc⟩
  | cons c cs ih =>
    -- The first character that fails the test is in the text, or behind it.
    by_cases hc : p c = true
    · simp only [List.cons_append, List.takeWhile_cons_of_pos hc, List.dropWhile_cons_of_pos hc, ih,
        and_self]
    · simp only [List.cons_append, List.takeWhile_cons_of_neg hc, List.dropWhile_cons_of_neg hc,
        and_self]

/-- The parts of a tag do not depend on the blank characters behind its markup. -/
theorem tagParts?_append_of_all {cs blanks : List Char} (h : blanks.all Text.isBlank = true) :
    tagParts? (String.ofList (cs ++ blanks)) = tagParts? (String.ofList cs) := by
  unfold tagParts?
  rw [String.toList_ofList, String.toList_ofList]
  cases hcore : cs.dropWhile Text.isBlank with
  | nil =>
    have hall : (cs ++ blanks).all Text.isBlank = true := by
      rw [List.all_append, h, Bool.and_true]
      exact List.all_eq_true.mpr (List.dropWhile_eq_nil_iff.mp hcore)
    rw [List.dropWhile_eq_nil_iff.mpr (List.all_eq_true.mp hall)]
  | cons c core =>
    have hdropped : (cs ++ blanks).dropWhile Text.isBlank = c :: core ++ blanks := by
      rw [List.dropWhile_append, hcore]
      rfl
    -- A blank is no part of a name, so the name ends where it did.
    have hname : ∀ c ∈ blanks, ¬ (Text.isLetterOrDigit c || c == '_') = true := by
      intro c hc
      obtain ⟨hletter, hne⟩ := Text.isLetterOrDigit_of_isBlank (List.all_eq_true.mp h c hc)
      simp [hletter, hne]
    obtain ⟨htake, hdrop⟩ := takeWhile_append_of_all (c :: core) hname
    rw [List.cons_append] at htake hdrop
    rw [hdropped, List.cons_append]
    by_cases hc : c = '#'
    · subst hc
      simp only [Text.trim_append_of_all h]
    · split
      · rename_i heq
        exact absurd (List.cons.inj heq).1 hc
      · split
        · rename_i heq
          exact absurd (List.cons.inj heq).1 hc
        · dsimp only
          rw [htake, hdrop, Text.trim_append_of_all h]

/-- The parts of a tag do not depend on the blank characters around its markup. -/
theorem tagParts?_trim (markup : String) : tagParts? (Text.trim markup) = tagParts? markup := by
  obtain ⟨before, after, hbefore, hafter, hmarkup⟩ := Text.exists_trim markup
  have hall : markup = String.ofList (before ++ (Text.trim markup).toList ++ after) := by
    rw [← hmarkup, String.ofList_toList]
  -- Blanks at the front are passed over,
  have hstart : tagParts? (String.ofList (before ++ (Text.trim markup).toList))
      = tagParts? (Text.trim markup) := by
    unfold tagParts?
    rw [String.toList_ofList, List.dropWhile_append_of_pos (List.all_eq_true.mp hbefore)]
  -- and those at the end are trimmed from the arguments.
  calc tagParts? (Text.trim markup)
      = tagParts? (String.ofList (before ++ (Text.trim markup).toList ++ after)) := by
        rw [tagParts?_append_of_all hafter, hstart]
    _ = tagParts? markup := by rw [← hall]

/-- Blanks around a tag make no difference. -/
theorem tagParts?_spaced (markup : String) :
    tagParts? (" " ++ markup ++ " ") = tagParts? markup := by
  have hspaced : " " ++ markup ++ " " = String.ofList (' ' :: (markup.toList ++ [' '])) := by
    rw [String.ext_iff]
    simp
  rw [hspaced, ← tagParts?_trim, Text.trim_padded, String.ofList_toList, tagParts?_trim]

/-! ## Pieces between line feeds -/

namespace Text

/-- The pieces of a text are the one before the pattern and those behind it. -/
theorem pieces_of_breakOn {pattern cs : List Char} (hp : pattern ≠ []) :
    pieces pattern cs =
      match breakOn pattern cs with
      | none => [cs]
      | some (before, after) => before :: pieces pattern after := by
  rw [pieces, dif_neg hp]
  split <;> rename_i heq <;> rw [heq]

/-- A line feed at the front ends an empty line. -/
theorem pieces_feed_cons (cs : List Char) :
    pieces ['\n'] ('\n' :: cs) = [] :: pieces ['\n'] cs := by
  have hbreak : breakOn ['\n'] ('\n' :: cs) = some ([], cs) := by
    rw [breakOn_cons, isPrefixOf?_cons_cons, if_pos (beq_self_eq_true _), isPrefixOf?_nil]
  rw [pieces_of_breakOn (List.cons_ne_nil _ _), hbreak]

/-- A character that is no line feed belongs to the first line. -/
theorem pieces_cons_of_ne {c : Char} (h : c ≠ '\n') (cs : List Char) :
    ∃ line lines, pieces ['\n'] cs = line :: lines
      ∧ pieces ['\n'] (c :: cs) = (c :: line) :: lines := by
  have hbreak : breakOn ['\n'] (c :: cs) = (breakOn ['\n'] cs).map fun r => (c :: r.1, r.2) := by
    rw [breakOn_cons, isPrefixOf?_cons_cons, if_neg (by simpa using Ne.symm h)]
  rw [pieces_of_breakOn (List.cons_ne_nil _ _), pieces_of_breakOn (List.cons_ne_nil _ _), hbreak]
  cases breakOn ['\n'] cs with
  | none => exact ⟨cs, [], rfl, rfl⟩
  | some found => exact ⟨found.1, pieces ['\n'] found.2, rfl, rfl⟩

/-- There is one line more than line feeds. -/
theorem length_pieces_feed (cs : List Char) : (pieces ['\n'] cs).length = lineFeeds cs + 1 := by
  induction cs with
  | nil =>
    rw [pieces_of_breakOn (List.cons_ne_nil _ _)]
    rfl
  | cons c cs ih =>
    by_cases hc : c = '\n'
    · rw [hc, pieces_feed_cons, List.length_cons, ih, lineFeeds, lineFeeds, List.count_cons_self]
    · obtain ⟨line, lines, hcs, hall⟩ := pieces_cons_of_ne hc cs
      rw [hcs, List.length_cons] at ih
      rw [hall, List.length_cons, ih, lineFeeds, lineFeeds, List.count_cons_of_ne hc]

/-- A line in front of a line feed. -/
theorem pieces_append_feed {line : List Char} (h : '\n' ∉ line) (cs : List Char) :
    pieces ['\n'] (line ++ '\n' :: cs) = line :: pieces ['\n'] cs := by
  induction line with
  | nil => exact pieces_feed_cons cs
  | cons c line ih =>
    obtain ⟨hc, hline⟩ := not_or.mp ((not_congr List.mem_cons).mp h)
    obtain ⟨first, rest, hrest, hall⟩ := pieces_cons_of_ne (Ne.symm hc) (line ++ '\n' :: cs)
    rw [ih hline] at hrest
    obtain ⟨rfl, rfl⟩ := List.cons.inj hrest
    exact hall

/-- The line without the blank characters at either end, unless nothing is left. -/
def trimmedLine? (line : List Char) : Option String :=
  let markup := trim (String.ofList line)
  if markup.isEmpty then none else some markup

/-- The lines that are not blank, trimmed. -/
def trimmedLines (cs : List Char) : List String :=
  (pieces ['\n'] cs).filterMap trimmedLine?

/-- An empty line is no tag. -/
theorem trimmedLine?_nil : trimmedLine? [] = none := by
  decide

/-- No characters, no lines. -/
theorem trimmedLines_nil : trimmedLines [] = [] := by
  rw [trimmedLines, pieces_of_breakOn (List.cons_ne_nil _ _)]
  exact List.filterMap_cons_none trimmedLine?_nil

/-- A blank at the front makes no difference to the lines. -/
theorem trimmedLines_cons_of_isBlank {c : Char} (h : isBlank c = true) (cs : List Char) :
    trimmedLines (c :: cs) = trimmedLines cs := by
  unfold trimmedLines
  by_cases hc : c = '\n'
  · rw [hc, pieces_feed_cons, List.filterMap_cons_none trimmedLine?_nil]
  · obtain ⟨line, lines, hcs, hall⟩ := pieces_cons_of_ne hc cs
    have htrim : trimmedLine? (c :: line) = trimmedLine? line := by
      unfold trimmedLine?
      rw [← List.singleton_append, trim_append_of_all_left (by simpa using h)]
    rw [hcs, hall, List.filterMap_cons, List.filterMap_cons, htrim]

/-- A character behind the text belongs to the last line, or starts a new one. -/
theorem exists_pieces_append (c : Char) (cs : List Char) :
    ∃ lines last, pieces ['\n'] cs = lines ++ [last]
      ∧ pieces ['\n'] (cs ++ [c]) = lines ++ if c = '\n' then [last, []] else [last ++ [c]] := by
  have hnil : pieces ['\n'] [] = [[]] := by
    rw [pieces_of_breakOn (List.cons_ne_nil _ _)]
    rfl
  induction cs with
  | nil =>
    refine ⟨[], [], hnil, ?_⟩
    by_cases hc : c = '\n'
    · subst hc
      rw [List.nil_append, pieces_feed_cons, hnil]
      rfl
    · obtain ⟨line, lines, hline, hall⟩ := pieces_cons_of_ne hc []
      obtain ⟨rfl, rfl⟩ := List.cons.inj (hnil.symm.trans hline)
      rw [List.nil_append, hall, if_neg hc]
      rfl
  | cons c' cs ih =>
    obtain ⟨lines, last, hcs, hmore⟩ := ih
    rw [List.cons_append]
    by_cases hc' : c' = '\n'
    · subst hc'
      refine ⟨[] :: lines, last, ?_, ?_⟩
      · rw [pieces_feed_cons, hcs, List.cons_append]
      · rw [pieces_feed_cons, hmore, List.cons_append]
    · obtain ⟨first, rest, hfirst, hall⟩ := pieces_cons_of_ne hc' cs
      obtain ⟨first', rest', hfirst', hall'⟩ := pieces_cons_of_ne hc' (cs ++ [c])
      rw [hcs] at hfirst
      rw [hmore] at hfirst'
      rw [hall, hall']
      -- The first line is the last one as well, or one of those before it.
      cases lines with
      | nil =>
        obtain ⟨rfl, rfl⟩ := List.cons.inj hfirst
        refine ⟨[], c' :: last, rfl, ?_⟩
        by_cases hc : c = '\n'
        · rw [if_pos hc] at hfirst' ⊢
          obtain ⟨rfl, rfl⟩ := List.cons.inj hfirst'
          rfl
        · rw [if_neg hc] at hfirst' ⊢
          obtain ⟨rfl, rfl⟩ := List.cons.inj hfirst'
          rfl
      | cons line lines =>
        obtain ⟨rfl, rfl⟩ := List.cons.inj hfirst
        obtain ⟨rfl, rfl⟩ := List.cons.inj hfirst'
        exact ⟨(c' :: line) :: lines, last, rfl, rfl⟩

theorem trimmedLines_append_of_isBlank {c : Char} (h : isBlank c = true) (cs : List Char) :
    trimmedLines (cs ++ [c]) = trimmedLines cs := by
  obtain ⟨lines, last, hcs, hmore⟩ := exists_pieces_append c cs
  unfold trimmedLines
  rw [hcs, hmore, List.filterMap_append, List.filterMap_append]
  refine congrArg _ ?_
  -- A line feed adds an empty line, which is no tag; another blank is trimmed from the last one.
  by_cases hc : c = '\n'
  · rw [if_pos hc, List.filterMap_cons, List.filterMap_cons_none trimmedLine?_nil,
      List.filterMap_cons]
  · have htrim : trimmedLine? (last ++ [c]) = trimmedLine? last := by
      unfold trimmedLine?
      rw [trim_append_of_all (by simpa using h)]
    rw [if_neg hc, List.filterMap_cons, List.filterMap_cons, htrim]

/-- What is trimmed from the whole text is blank in its lines. -/
theorem trimmedLines_trim (s : String) : trimmedLines (trim s).toList = trimmedLines s.toList := by
  obtain ⟨before, after, hbefore, hafter, hs⟩ := exists_trim s
  generalize (trim s).toList = cs at hs ⊢
  rw [hs]
  -- The blanks at the front and at the end go one by one.
  have hstart (more : List Char) : trimmedLines (before ++ more) = trimmedLines more := by
    clear hs
    induction before with
    | nil => rfl
    | cons c before ih =>
      rw [List.all_cons, Bool.and_eq_true] at hbefore
      rw [List.cons_append, trimmedLines_cons_of_isBlank hbefore.1, ih hbefore.2]
  have hend : trimmedLines (cs ++ after) = trimmedLines cs := by
    clear hs
    induction after generalizing cs with
    | nil => rw [List.append_nil]
    | cons c after ih =>
      rw [List.all_cons, Bool.and_eq_true] at hafter
      rw [List.append_cons, ih hafter.2, trimmedLines_append_of_isBlank hafter.1]
  rw [List.append_assoc, hstart, hend]

end Text

/-! ## Lines and tags -/

/-- A line that can be written as a tag between delimiters as well: it is not blank, and nothing in
it ends it. The tag is not one that keeps what follows as it is. -/
structure IsTagLine (line : String) : Prop where
  not_blank : Text.isBlankText line = false
  no_feed : '\n' ∉ line.toList
  no_closer : ¬ Delimiter.tag.closer <:+: line.toList
  not_raw : (tagParts? line).map Prod.fst ≠ some "raw"

/-- A tag with the lines. -/
def tagLines (lines : List String) : String :=
  "\x7b% liquid\n" ++ String.join (lines.map (· ++ "\n")) ++ "%\x7d"

/-- A tag for each line. -/
def lineTags (lines : List String) : String :=
  String.join (lines.map fun line => "\x7b% " ++ line ++ " %\x7d")

/-- Two tags that are read in the same way. If `same` is set they are the same tag; otherwise they
may be written in two ways, and raw text does not start with them. -/
structure Delimited.Twins (same : Bool) (d d' : Delimited) : Prop where
  parts : tagParts? d.markup = tagParts? d'.markup
  trimLeft : d.trimLeft = d'.trimLeft
  trimRight : d.trimRight = d'.trimRight
  eq : same = true → d = d'
  not_raw : same = false → ∀ args, tagParts? d.markup ≠ some ("raw", args)

/-- Tokens that are tags of this kind. -/
inductive Token.Twins (same : Bool) : Token → Token → Prop where
  | tag {d d' : Delimited} (h : d.Twins same d') : Twins same (.tag d) (.tag d')

namespace TokenStream

/-- The tokens of a text with lines are its lines that are not blank, trimmed. -/
theorem forall₂_ofLines (markup : String) (line : Nat) :
    List.Forall₂ (fun token text => ∃ number, token = .tag ⟨text, text, number, false, false⟩)
      (ofLines markup line).tokens (Text.trimmedLines markup.toList) := by
  unfold ofLines Text.trimmedLines
  dsimp only
  generalize Text.pieces ['\n'] markup.toList = pieces
  -- By induction on the lines: a blank one gives no token, and any other one a tag.
  induction pieces generalizing line with
  | nil => exact .nil
  | cons piece pieces ih =>
    have hline : lineTag? piece line = (Text.trimmedLine? piece).map fun text =>
        .tag ⟨text, text, line, false, false⟩ := by
      unfold lineTag? Text.trimmedLine?
      dsimp only
      split <;> rfl
    rw [List.zipIdx_cons, List.filterMap_cons, List.filterMap_cons, hline]
    cases Text.trimmedLine? piece with
    | none => exact ih (line + 1)
    | some text => exact .cons ⟨line, rfl⟩ (ih (line + 1))

/-- What is between the delimiters of a tag ends where its closer does not occur before. -/
theorem closes_tag {inside : List Char} (h : ¬ Delimiter.tag.closer <:+: inside) :
    Closes .tag inside := by
  intro a b hab
  -- A closer that ends earlier would end inside, or one character before the end, where its two
  -- characters do not fit.
  rcases List.eq_nil_or_concat b with rfl | ⟨b, z, rfl⟩
  · rfl
  have hshort : inside ++ ['%'] = a ++ Delimiter.tag.closer ++ b := by
    have hall : inside ++ ['%'] ++ ['\x7d'] = a ++ Delimiter.tag.closer ++ b ++ [z] := by
      simpa [Delimiter.closer] using hab
    exact (List.append_inj' hall rfl).1
  rcases List.eq_nil_or_concat b with rfl | ⟨b, z, rfl⟩
  · have hall : inside ++ ['%'] = a ++ ['%'] ++ ['\x7d'] := by
      simpa [Delimiter.closer] using hshort
    exact absurd (List.cons.inj (List.append_inj' hall rfl).2).1 (by decide)
  · have hall : inside ++ ['%'] = a ++ Delimiter.tag.closer ++ b ++ [z] := by
      simpa using hshort
    exact absurd ⟨a, b, (List.append_inj' hall rfl).1.symm⟩ h

/-- What occurs in a text on both sides of a character that is no part of it occurs on one. -/
theorem infix_append_cons {pattern a b : List Char} {c : Char} (hc : c ∉ pattern)
    (h : pattern <:+: a ++ c :: b) : pattern <:+: a ∨ pattern <:+: b := by
  obtain ⟨before, after, h⟩ := h
  -- ⟨c', hbefore, hafter⟩ := | The occurrence ends before the character, or starts behind it, as it
  -- does not hold it.
  obtain ⟨a', rfl, -⟩ | ⟨c', hbefore, hafter⟩ := List.append_eq_append_iff.mp h
  · exact .inl ⟨before, a', rfl⟩
  · cases c' with
    | nil => exact .inl ⟨before, [], by simpa using hbefore⟩
    | cons c' more =>
      obtain ⟨rfl, rfl⟩ := List.cons.inj hafter
      obtain ⟨a', rfl, hpattern⟩ | ⟨d, rfl, hmore⟩ := List.append_eq_append_iff.mp hbefore
      · exact absurd (hpattern ▸ List.mem_append_right _ (List.mem_cons_self ..)) hc
      · cases d with
        | nil =>
          rw [List.nil_append] at hmore
          exact absurd (hmore ▸ List.mem_cons_self ..) hc
        | cons d ds =>
          obtain ⟨rfl, rfl⟩ := List.cons.inj hmore
          exact .inr ⟨ds, after, rfl⟩

/-- The characters of the lines, with a line feed behind each. -/
theorem toList_join_lines (lines : List String) :
    (String.join (lines.map (· ++ "\n"))).toList
      = lines.flatMap fun line => line.toList ++ ['\n'] := by
  induction lines with
  | nil => rfl
  | cons line lines ih => simp [ih]

/-- Lines that are tags are read back. -/
theorem trimmedLines_lines {lines : List String} (h : ∀ line ∈ lines, IsTagLine line) :
    Text.trimmedLines (lines.flatMap fun line => line.toList ++ ['\n']) = lines.map Text.trim := by
  induction lines with
  | nil => exact Text.trimmedLines_nil
  | cons line lines ih =>
    obtain ⟨hline, hlines⟩ := List.forall_mem_cons.mp h
    have hsome : Text.trimmedLine? line.toList = some (Text.trim line) := by
      unfold Text.trimmedLine?
      rw [String.ofList_toList]
      exact if_neg (by rw [Text.isEmpty_trim, hline.not_blank]; exact Bool.false_ne_true)
    have hih := ih hlines
    unfold Text.trimmedLines at hih ⊢
    rw [List.flatMap_cons, List.append_assoc, List.singleton_append,
      Text.pieces_append_feed hline.no_feed, List.filterMap_cons_some hsome, hih, List.map_cons]

/-- What is between the delimiters of a tag with lines. -/
def insideLines (lines : List String) : List Char :=
  " liquid\n".toList ++ lines.flatMap fun line => line.toList ++ ['\n']

/-- No line closes the tag around them. -/
theorem not_closer_insideLines {lines : List String} (h : ∀ line ∈ lines, IsTagLine line) :
    ¬ Delimiter.tag.closer <:+: insideLines lines := by
  have hfeed : '\n' ∉ Delimiter.tag.closer := by decide
  have hlines : ¬ Delimiter.tag.closer <:+: lines.flatMap fun line => line.toList ++ ['\n'] := by
    induction lines with
    | nil => exact fun hinfix => absurd (List.infix_nil.mp hinfix) (by decide)
    | cons line lines ih =>
      obtain ⟨hline, hlines⟩ := List.forall_mem_cons.mp h
      rw [List.flatMap_cons, List.append_assoc, List.singleton_append]
      intro hinfix
      rcases infix_append_cons hfeed hinfix with hinfix | hinfix
      · exact hline.no_closer hinfix
      · exact ih hlines hinfix
  intro hinfix
  have hinside : insideLines lines
      = " liquid".toList ++ '\n' :: lines.flatMap fun line => line.toList ++ ['\n'] := rfl
  rw [hinside] at hinfix
  rcases infix_append_cons hfeed hinfix with hinfix | hinfix
  · exact absurd hinfix (by decide)
  · exact hlines hinfix

/-- A line feed comes last. -/
theorem getLast?_insideLines (lines : List String) :
    (insideLines lines).getLast? = some '\n' := by
  obtain ⟨before, hbefore⟩ : ∃ before : List Char,
      '\n' :: lines.flatMap (fun line => line.toList ++ ['\n']) = before ++ ['\n'] := by
    induction lines with
    | nil => exact ⟨[], rfl⟩
    | cons line lines ih =>
      obtain ⟨before, hbefore⟩ := ih
      refine ⟨'\n' :: line.toList ++ before, ?_⟩
      rw [List.flatMap_cons, List.append_assoc, List.singleton_append, hbefore, List.append_assoc]
      rfl
  have hinside : insideLines lines
      = " liquid".toList ++ '\n' :: lines.flatMap fun line => line.toList ++ ['\n'] := rfl
  rw [hinside, hbefore, ← List.append_assoc, List.getLast?_concat]

/-- The tag around the lines has them as its arguments. -/
theorem tagParts?_insideLines (lines : List String) :
    tagParts? (String.ofList (insideLines lines))
      = some ("liquid", Text.trim
          (String.ofList ('\n' :: lines.flatMap fun line => line.toList ++ ['\n']))) := by
  unfold tagParts?
  rw [String.toList_ofList]
  rfl

/-- A tag with lines is a single token. -/
theorem ofSource_tagLines {lines : List String} (h : ∀ line ∈ lines, IsTagLine line) :
    ∃ d, (ofSource (tagLines lines)).tokens = [.tag d]
      ∧ (ofSource (tagLines lines)).unterminated = none
      ∧ d.trimLeft = false ∧ d.trimRight = false
      ∧ ∃ args, tagParts? d.markup = some ("liquid", args)
        ∧ Text.trimmedLines args.toList = lines.map Text.trim := by
  have hopener : "\x7b% liquid\n".toList = Delimiter.tag.opener ++ " liquid\n".toList := by decide
  have hcloser : "%\x7d".toList = Delimiter.tag.closer := by decide
  have hsource : (tagLines lines).toList
      = Delimiter.tag.opener ++ insideLines lines ++ Delimiter.tag.closer ++ [] := by
    unfold tagLines insideLines
    rw [String.toList_append, String.toList_append, toList_join_lines, hopener, hcloser,
      List.append_nil, List.append_assoc Delimiter.tag.opener]
  -- The whole source is one tag, as no line closes it.
  have hscan := scan_delimited .tag (closes_tag (not_closer_insideLines h)) [] 1
  rw [scan_nil, ← hsource] at hscan
  have hleft : leadingDash (insideLines lines) = (false, insideLines lines) := rfl
  have hright : trailingDash (insideLines lines) = (false, insideLines lines) := by
    rw [trailingDash, if_neg (by rw [getLast?_insideLines]; decide)]
  refine ⟨.ofInside .tag (insideLines lines) 1, ?_, ?_, rfl, ?_,
    Text.trim (String.ofList ('\n' :: lines.flatMap fun line => line.toList ++ ['\n'])), ?_, ?_⟩
  · rw [ofSource, hscan]
    rfl
  · rw [ofSource, hscan]
    rfl
  · simp only [Delimited.ofInside, hleft, hright]
  · simp only [Delimited.ofInside, hleft, hright]
    exact tagParts?_insideLines lines
  · rw [Text.trimmedLines_trim, String.toList_ofList,
      Text.trimmedLines_cons_of_isBlank (by decide), trimmedLines_lines h]

/-- The tags between delimiters are one token each. -/
theorem forall₂_lineTags {lines : List String} (h : ∀ line ∈ lines, IsTagLine line) (line : Nat) :
    List.Forall₂ (fun token text => ∃ source number,
        token = .tag ⟨source, " " ++ text ++ " ", number, false, false⟩)
      (scan (lineTags lines).toList line).tokens lines
      ∧ (scan (lineTags lines).toList line).unterminated = none := by
  induction lines generalizing line with
  | nil =>
    have hnil : (lineTags []).toList = [] := rfl
    rw [hnil, scan_nil]
    exact ⟨.nil, rfl⟩
  | cons text lines ih =>
    obtain ⟨htext, hlines⟩ := List.forall_mem_cons.mp h
    have hsource : (lineTags (text :: lines)).toList
        = Delimiter.tag.opener ++ ' ' :: (text.toList ++ [' ']) ++ Delimiter.tag.closer
          ++ (lineTags lines).toList := by
      simp [lineTags, Delimiter.opener, Delimiter.closer]
    rw [hsource, scan_delimited .tag (Written.closes_padded htext.no_closer),
      Written.ofInside_padded]
    obtain ⟨htokens, hnone⟩ := ih hlines (line + lineFeeds (' ' :: (text.toList ++ [' '])))
    exact ⟨.cons ⟨_, line, rfl⟩ htokens, hnone⟩

end TokenStream

/-- The lines of a text are read in the same way as themselves. -/
theorem Token.twins_ofLines (markup : String) (line : Nat) :
    List.Forall₂ (Token.Twins true) (TokenStream.ofLines markup line).tokens
      (TokenStream.ofLines markup line).tokens := by
  have hlines := TokenStream.forall₂_ofLines markup line
  generalize (TokenStream.ofLines markup line).tokens = tokens at hlines ⊢
  generalize Text.trimmedLines markup.toList = texts at hlines
  induction hlines with
  | nil => exact .nil
  | cons htoken _ ih =>
    obtain ⟨number, rfl⟩ := htoken
    exact .cons (.tag ⟨rfl, rfl, rfl, fun _ => rfl, nofun⟩) ih

/-- Both ways to write the lines give tokens that are read in the same way. -/
theorem Token.twins_lineTags {lines : List String} (h : ∀ line ∈ lines, IsTagLine line)
    {args : String} (hargs : Text.trimmedLines args.toList = lines.map Text.trim) (line : Nat) :
    List.Forall₂ (Token.Twins false) (TokenStream.ofLines args line).tokens
      (TokenStream.ofSource (lineTags lines)).tokens := by
  have hlines := TokenStream.forall₂_ofLines args line
  have htags := (TokenStream.forall₂_lineTags h 1).1
  rw [hargs] at hlines
  unfold TokenStream.ofSource
  generalize (TokenStream.ofLines args line).tokens = tokens at hlines ⊢
  generalize (TokenStream.scan (lineTags lines).toList 1).tokens = tokens' at htags ⊢
  clear hargs
  -- By induction on the lines, each of which is a tag in both streams.
  induction htags generalizing tokens with
  | nil =>
    cases hlines
    exact .nil
  | cons htag _ ih =>
    obtain ⟨source, number, rfl⟩ := htag
    obtain ⟨htext, htexts⟩ := List.forall_mem_cons.mp h
    rw [List.map_cons] at hlines
    obtain ⟨_, tokens, ⟨number', rfl⟩, hrest, rfl⟩ := List.forall₂_cons_right_iff.mp hlines
    refine .cons (.tag ⟨?_, rfl, rfl, nofun, fun _ args => ?_⟩) (ih htexts _ hrest)
    · dsimp only
      rw [tagParts?_trim, tagParts?_spaced]
    · dsimp only
      rw [tagParts?_trim]
      exact fun hparts => htext.not_raw (congrArg (Option.map Prod.fst) hparts)

end Stencil
