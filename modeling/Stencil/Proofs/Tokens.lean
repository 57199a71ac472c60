import Stencil.Document.Builder

/-!
# How a template is cut into tokens

`TokenStream.IsCutOf s cs line` says what the tokens of a template are without saying how
they are found: put together they are the template, a text holds no opener, a delimited
token ends where its closer is complete for the first time, and what is left over is an
opener without a closer. There is exactly one stream of that kind, the one that
`TokenStream.scan` finds.

## Key results

- `TokenStream.scan_text`, `TokenStream.scan_delimited`: reading on behind a piece
- `TokenStream.isCutOf_scan`: what is found is cut as described
- `TokenStream.scan_of_isCutOf`: nothing else is
- `TokenStream.isCutOf_ofSource`: a whole template
-/

namespace Stencil

open Builder (sourceOf)

/-! ## Openers -/

/-- A text starts with an opener in one way at most. -/
theorem opening?_append (delimiter : Delimiter) (after : List Char) :
    opening? (delimiter.opener ++ after) = some (delimiter, after) := by
  cases delimiter <;> rfl

/-- Nothing opens where neither opener starts. -/
theorem opening?_eq_none_iff {cs : List Char} :
    opening? cs = none ↔ ∀ delimiter : Delimiter, ¬ delimiter.opener <+: cs := by
  constructor
  · rintro h delimiter ⟨after, rfl⟩
    rw [opening?_append] at h
    exact nomatch h
  · intro h
    cases hopen : opening? cs with
    | none => rfl
    | some found =>
      obtain ⟨delimiter, inside⟩ := found
      exact absurd ⟨inside, (eq_of_opening?_eq_some hopen).symm⟩ (h delimiter)

/-- No opener starts in `text`, not even one that ends in `rest`. -/
def Unopened (text rest : List Char) : Prop :=
  ∀ b, b <:+ text → b ≠ [] → opening? (b ++ rest) = none

/-- Nothing is left, or an opener comes next. -/
def OpensOrEnds (rest : List Char) : Prop :=
  rest = [] ∨ ∃ delimiter inside, opening? rest = some (delimiter, inside)

/-- The end of a text in which nothing opens is such a text. -/
theorem Unopened.tail {c : Char} {text rest : List Char} (h : Unopened (c :: text) rest) :
    Unopened text rest :=
  fun b hb => h b (hb.trans (List.suffix_cons c text))

/-- Text ends where an opener or the end comes. -/
theorem textFrom_append {text rest : List Char} (htext : Unopened text rest)
    (hrest : OpensOrEnds rest) (passed : List Char) :
    textFrom passed (text ++ rest) = (passed.reverse ++ text, rest) := by
  induction text generalizing passed with
  | nil =>
    rw [List.nil_append, List.append_nil]
    obtain rfl | ⟨delimiter, inside, hopen⟩ := hrest
    · rfl
    · cases rest with
      | nil => exact nomatch hopen
      | cons c cs => simp only [textFrom, hopen]
  | cons c text ih =>
    have hnone : opening? (c :: (text ++ rest)) = none :=
      htext (c :: text) (List.suffix_refl _) (List.cons_ne_nil _ _)
    rw [List.cons_append, textFrom, hnone]
    simp only [ih htext.tail, List.reverse_cons, List.append_assoc, List.cons_append,
      List.nil_append]

/-- What is passed over up to the next opener holds none. -/
theorem unopened_textFrom (passed cs : List Char) :
    ∃ text rest, cs = text ++ rest ∧ textFrom passed cs = (passed.reverse ++ text, rest)
      ∧ Unopened text rest ∧ OpensOrEnds rest := by
  induction cs generalizing passed with
  | nil =>
    refine ⟨[], [], rfl, by simp [textFrom], fun b hb hne => ?_, .inl rfl⟩
    exact absurd (List.suffix_nil.mp hb) hne
  | cons c cs ih =>
    -- The text ends where something opens.
    cases hopen : opening? (c :: cs) with
    | some found =>
      obtain ⟨delimiter, inside⟩ := found
      refine ⟨[], c :: cs, rfl, by simp [textFrom, hopen], fun b hb hne => ?_,
        .inr ⟨delimiter, inside, hopen⟩⟩
      exact absurd (List.suffix_nil.mp hb) hne
    | none =>
      obtain ⟨text, rest, rfl, htext, hunopened, hrest⟩ := ih (c :: passed)
      refine ⟨c :: text, rest, rfl, by simp [textFrom, hopen, htext], fun b hb hne => ?_, hrest⟩
      rcases List.suffix_cons_iff.mp hb with rfl | hb
      · exact hopen
      · exact hunopened b hb hne

/-- An opener that starts in a text lies in it, or the text ends with a brace and another
delimiter follows. -/
theorem unopened_iff {text rest : List Char} (hrest : OpensOrEnds rest) :
    Unopened text rest ↔
      (∀ delimiter : Delimiter, ¬ delimiter.opener <:+: text)
        ∧ (rest ≠ [] → text.getLast? ≠ some '{') := by
  constructor
  · intro h
    constructor
    · rintro delimiter ⟨a, b, rfl⟩
      have hnone := h (delimiter.opener ++ b) ⟨a, by simp⟩ (by cases delimiter <;> exact nofun)
      rw [List.append_assoc, opening?_append] at hnone
      exact nomatch hnone
    · intro hne hlast
      obtain ⟨a, rfl⟩ := List.getLast?_eq_some_iff.mp hlast
      have hnone := h ['{'] ⟨a, rfl⟩ (List.cons_ne_nil _ _)
      obtain rfl | ⟨delimiter, inside, hopen⟩ := hrest
      · exact hne rfl
      · -- The next delimiter starts with a brace as well.
        rw [eq_of_opening?_eq_some hopen] at hnone
        cases delimiter <;> exact nomatch hnone
  · rintro ⟨hopeners, hlast⟩ b hb hne
    rw [opening?_eq_none_iff]
    rintro delimiter ⟨after, hafter⟩
    match b, hb, hne with
    | [x], hb, _ =>
      -- Only the first character of the opener is in the text.
      have hx : x = '{' := by
        cases delimiter <;> exact (List.cons.inj hafter).1.symm
      have hne : rest ≠ [] := by
        rintro rfl
        cases delimiter <;> simp [Delimiter.opener] at hafter
      obtain ⟨a, rfl⟩ := hb
      exact hlast hne (by simp [hx])
    | x :: y :: b, hb, _ =>
      have hstart : delimiter.opener <+: x :: y :: b := by
        have hall : delimiter.opener <+: (x :: y :: b) ++ rest := ⟨after, hafter⟩
        refine List.prefix_of_prefix_length_le hall (List.prefix_append _ _) ?_
        cases delimiter <;> simp [Delimiter.opener]
      exact hopeners delimiter (hstart.isInfix.trans hb.isInfix)

/-! ## Reading on behind a piece -/

namespace Token

/-- The line on which the token starts. -/
def line : Token → Nat
  | text _ line => line
  | output d | tag d => d.line

/-- Whether the token is text. -/
def isText : Token → Bool
  | text .. => true
  | output _ | tag _ => false

end Token

/-- No characters, no line feeds. -/
@[simp] theorem lineFeeds_nil : lineFeeds [] = 0 := rfl

/-- Line feeds add up. -/
@[simp] theorem lineFeeds_append (cs cs' : List Char) :
    lineFeeds (cs ++ cs') = lineFeeds cs + lineFeeds cs' :=
  List.count_append

/-- Delimiters are on one line. -/
theorem lineFeeds_delimited (delimiter : Delimiter) (inside : List Char) :
    lineFeeds (delimiter.opener ++ inside ++ delimiter.closer) = lineFeeds inside := by
  have hopener : lineFeeds delimiter.opener = 0 := by cases delimiter <;> rfl
  have hcloser : lineFeeds delimiter.closer = 0 := by cases delimiter <;> rfl
  rw [lineFeeds_append, lineFeeds_append, hopener, hcloser]
  omega

/-- A closer has a character at least. -/
theorem Delimiter.closer_ne_nil (delimiter : Delimiter) : delimiter.closer ≠ [] := by
  cases delimiter <;> simp [closer]

/-- Where the closer is complete for the first time behind an opener, all is inside. -/
def Closes (delimiter : Delimiter) (inside : List Char) : Prop :=
  ∀ a b, inside ++ delimiter.closer = a ++ delimiter.closer ++ b → b = []

namespace TokenStream

/-- At the end there are no tokens. -/
@[simp] theorem scan_nil (line : Nat) : scan [] line = { line } := by
  rw [scan]

/-- A text that is followed by an opener, or by nothing. -/
theorem scan_text {text rest : List Char} (hne : text ≠ []) (htext : Unopened text rest)
    (hrest : OpensOrEnds rest) (line : Nat) :
    scan (text ++ rest) line
      = push (.text (String.ofList text) line) (scan rest (line + lineFeeds text)) := by
  cases text with
  | nil => exact absurd rfl hne
  | cons c text =>
    -- Nothing opens at the first character, so a text starts there.
    have hnone : opening? (c :: (text ++ rest)) = none :=
      htext (c :: text) (List.suffix_refl _) (List.cons_ne_nil _ _)
    have hfrom := textFrom_append htext.tail hrest [c]
    rw [List.cons_append, scan]
    split
    · rename_i h
      rw [hnone] at h
      cases h
    · rw [hfrom]
      rfl

/-- A delimiter with its closer. -/
theorem scan_delimited (delimiter : Delimiter) {inside : List Char}
    (hcloses : Closes delimiter inside) (rest : List Char) (line : Nat) :
    scan (delimiter.opener ++ inside ++ delimiter.closer ++ rest) line
      = push (.delimited delimiter (.ofInside delimiter inside line))
          (scan rest (line + lineFeeds inside)) := by
  -- The closer is found where it first stands.
  have hbreak := Text.breakOn_append rest hcloses
  have hopen : opening? (delimiter.opener ++ (inside ++ delimiter.closer ++ rest))
      = some (delimiter, inside ++ delimiter.closer ++ rest) := opening?_append _ _
  rw [List.append_assoc, List.append_assoc, ← List.append_assoc inside]
  cases hcs : delimiter.opener ++ (inside ++ delimiter.closer ++ rest) with
  | nil => cases delimiter <;> cases hcs
  | cons c cs =>
    rw [hcs] at hopen
    rw [scan]
    split
    · rename_i delimiter' inside' h
      rw [hopen] at h
      cases h
      split
      · rename_i h
        rw [hbreak] at h
        cases h
      · rename_i markup after h
        rw [hbreak] at h
        cases h
        rfl
    · rename_i h
      rw [hopen] at h
      cases h

/-- A delimiter without a closer. -/
theorem scan_unterminated (delimiter : Delimiter) {after : List Char}
    (h : ¬ delimiter.closer <:+: after) (line : Nat) :
    scan (delimiter.opener ++ after) line
      = { unterminated := some ⟨delimiter, String.ofList (delimiter.opener ++ after), line⟩
          line } := by
  -- No closer is found behind the opener.
  have hbreak := (Text.breakOn_eq_none_iff delimiter.closer_ne_nil).mpr h
  have hopen := opening?_append delimiter after
  cases hcs : delimiter.opener ++ after with
  | nil => cases delimiter <;> cases hcs
  | cons c cs =>
    rw [hcs] at hopen
    rw [scan]
    split
    · rename_i delimiter' inside' h
      rw [hopen] at h
      cases h
      split
      · rfl
      · rename_i markup after h
        rw [hbreak] at h
        cases h
    · rename_i h
      rw [hopen] at h
      cases h

end TokenStream

/-! ## What a cut is -/

/-- A dash, if there is one. -/
def dash : Bool → List Char
  | true => ['-']
  | false => []

/-- Between an opener and the first closer behind it, dashes at either end are trim markers. -/
structure Delimited.IsCut (delimiter : Delimiter) (d : Delimited) : Prop where
  source : d.source.toList
    = delimiter.opener ++ dash d.trimLeft ++ d.markup.toList ++ dash d.trimRight ++ delimiter.closer
  /-- The closer is complete at the end of the token and nowhere before. -/
  closes : ∀ before after,
    d.source.toList = delimiter.opener ++ before ++ delimiter.closer ++ after → after = []
  /-- A single dash is the left marker. -/
  left : d.trimLeft = false → (d.markup.toList ++ dash d.trimRight).head? ≠ some '-'
  right : d.trimRight = false → d.markup.toList.getLast? ≠ some '-'

/-- A text is not empty and holds no opener; a delimited token is cut at its delimiters. -/
def Token.IsCut : Token → Prop
  | .text s _ => s ≠ "" ∧ ∀ delimiter : Delimiter, ¬ delimiter.opener <:+: s.toList
  | .output d => d.IsCut .output
  | .tag d => d.IsCut .tag

namespace TokenStream

/-- The characters that the tokens are made of. -/
def charsOf (tokens : List Token) : List Char :=
  tokens.flatMap fun token => (sourceOf token).toList

/-- The characters that are left over. -/
def leftOver (s : TokenStream) : List Char :=
  (s.unterminated.map fun u => u.source.toList).getD []

/-- The tokens and what is left over are those of the characters `cs`, the first of which is
on the given line. -/
structure IsCutOf (s : TokenStream) (cs : List Char) (line : Nat) : Prop where
  /-- Nothing is lost. -/
  lossless : charsOf s.tokens ++ s.leftOver = cs
  tokens : ∀ token ∈ s.tokens, token.IsCut
  /-- Behind a text there is no other text. What comes behind it starts with a brace, so the
  text ends with none. -/
  texts : ∀ before text line after, s.tokens = before ++ .text text line :: after →
    (∀ next, after.head? = some next → next.isText = false)
      ∧ (charsOf after ++ s.leftOver ≠ [] → text.toList.getLast? ≠ some '{')
  /-- The line of a token is that of its first character. -/
  lines : ∀ before token after, s.tokens = before ++ token :: after →
    token.line = line + lineFeeds (charsOf before)
  /-- An opener without a closer is left over. -/
  unterminated : ∀ u, s.unterminated = some u →
    u.line = line + lineFeeds (charsOf s.tokens)
      ∧ ∃ after, u.source.toList = u.delimiter.opener ++ after
          ∧ ¬ u.delimiter.closer <:+: after
  lastLine : s.line = line + lineFeeds (charsOf s.tokens)

end TokenStream

/-! ## Trim markers -/

/-- Cutting a dash off at the front loses nothing. -/
theorem append_leadingDash (cs : List Char) :
    dash (leadingDash cs).1 ++ (leadingDash cs).2 = cs := by
  unfold leadingDash
  split <;> rfl

/-- Nor does cutting one off at the end. -/
theorem append_trailingDash (cs : List Char) :
    (trailingDash cs).2 ++ dash (trailingDash cs).1 = cs := by
  unfold trailingDash
  split
  · rename_i hlast
    obtain ⟨before, rfl⟩ := List.getLast?_eq_some_iff.mp hlast
    simp [dash]
  · simp [dash]

/-- A dash that was put in front is the one that is cut off. -/
theorem leadingDash_dash_append {trim : Bool} {cs : List Char}
    (h : trim = false → cs.head? ≠ some '-') : leadingDash (dash trim ++ cs) = (trim, cs) := by
  cases trim with
  | true => rfl
  | false =>
    show leadingDash cs = (false, cs)
    unfold leadingDash
    split
    · exact absurd rfl (h rfl)
    · rfl

/-- So is one that was put at the end. -/
theorem trailingDash_append_dash {trim : Bool} {cs : List Char}
    (h : trim = false → cs.getLast? ≠ some '-') : trailingDash (cs ++ dash trim) = (trim, cs) := by
  cases trim with
  | true => simp [trailingDash, dash]
  | false => simp [trailingDash, dash, h rfl]

/-- Without a dash that was cut off there is none at the front. -/
theorem head?_of_leadingDash {cs : List Char} (h : (leadingDash cs).1 = false) :
    cs.head? ≠ some '-' := by
  unfold leadingDash at h
  split at h
  · exact nomatch h
  · rename_i hne
    intro hhead
    obtain ⟨cs', rfl⟩ := List.head?_eq_some_iff.mp hhead
    exact hne cs' rfl

/-- Nor is there one at the end. -/
theorem getLast?_of_trailingDash {cs : List Char} (h : (trailingDash cs).1 = false) :
    (trailingDash cs).2.getLast? ≠ some '-' := by
  unfold trailingDash at h ⊢
  split at h
  · exact nomatch h
  · rename_i hlast
    rw [if_neg hlast]
    exact hlast

namespace Delimited

/-- What is taken apart between the delimiters is cut as it should be. -/
theorem isCut_ofInside {delimiter : Delimiter} {inside : List Char} (h : Closes delimiter inside)
    (line : Nat) : (ofInside delimiter inside line).IsCut delimiter where
  -- The dashes that were cut off are put back.
  source := by
    have hleft := append_leadingDash inside
    have hright := append_trailingDash (leadingDash inside).2
    simp only [ofInside, String.toList_ofList, List.append_assoc]
    rw [← List.append_assoc (trailingDash _).2, hright, ← List.append_assoc (dash _), hleft]
  closes before after hsource := by
    simp only [ofInside, String.toList_ofList, List.append_assoc] at hsource
    have hinside := List.append_cancel_left hsource
    exact h before after (by rw [hinside, List.append_assoc])
  left hleft := by
    have hright := append_trailingDash (leadingDash inside).2
    have hinside := append_leadingDash inside
    simp only [ofInside, String.toList_ofList] at hleft ⊢
    rw [hright]
    rw [hleft] at hinside
    rw [show (leadingDash inside).2 = inside from hinside]
    exact head?_of_leadingDash hleft
  right hright := by
    simp only [ofInside, String.toList_ofList] at hright ⊢
    exact getLast?_of_trailingDash hright

/-- There is one way only to take apart what is between the delimiters. -/
theorem IsCut.eq_ofInside {delimiter : Delimiter} {d : Delimited} (h : d.IsCut delimiter) :
    ∃ inside, d.source.toList = delimiter.opener ++ inside ++ delimiter.closer
      ∧ Closes delimiter inside ∧ d = ofInside delimiter inside d.line := by
  -- What was inside are the markup and the dashes around it.
  let inside := dash d.trimLeft ++ (d.markup.toList ++ dash d.trimRight)
  have hsource : d.source.toList = delimiter.opener ++ inside ++ delimiter.closer := by
    rw [h.source]
    simp only [inside, List.append_assoc]
  refine ⟨inside, hsource, fun a b hab => h.closes a b ?_, ?_⟩
  · rw [hsource, List.append_assoc, hab]
    simp only [List.append_assoc]
  · have hleft : leadingDash inside = (d.trimLeft, d.markup.toList ++ dash d.trimRight) :=
      leadingDash_dash_append h.left
    have hright : trailingDash (d.markup.toList ++ dash d.trimRight)
        = (d.trimRight, d.markup.toList) := trailingDash_append_dash h.right
    simp only [ofInside, hleft, hright, ← hsource, String.ofList_toList]

end Delimited

/-! ## Scanning cuts -/

/-- A token in delimiters keeps its source. -/
@[simp] theorem sourceOf_delimited (delimiter : Delimiter) (d : Delimited) :
    sourceOf (.delimited delimiter d) = d.source := by
  cases delimiter <;> rfl

/-- It keeps its line. -/
@[simp] theorem Token.line_delimited (delimiter : Delimiter) (d : Delimited) :
    (Token.delimited delimiter d).line = d.line := by
  cases delimiter <;> rfl

@[simp] theorem Token.isText_delimited (delimiter : Delimiter) (d : Delimited) :
    (Token.delimited delimiter d).isText = false := by
  cases delimiter <;> rfl

theorem Token.isCut_delimited {delimiter : Delimiter} {d : Delimited} (h : d.IsCut delimiter) :
    (Token.delimited delimiter d).IsCut := by
  cases delimiter <;> exact h

namespace TokenStream

/-- What comes next: the end, an opener without a closer, a delimited token or a text. -/
inductive Next : List Char → Prop
  | nothing : Next []
  | unterminated (delimiter : Delimiter) (after : List Char)
      (h : ¬ delimiter.closer <:+: after) : Next (delimiter.opener ++ after)
  | delimited (delimiter : Delimiter) (inside rest : List Char) (h : Closes delimiter inside) :
      Next (delimiter.opener ++ inside ++ delimiter.closer ++ rest)
  | text (text rest : List Char) (hne : text ≠ []) (htext : Unopened text rest)
      (hrest : OpensOrEnds rest) : Next (text ++ rest)

/-- Behind an opener either the closer is found or it is nowhere. -/
theorem next_of_opening? {cs inside : List Char} {delimiter : Delimiter}
    (h : opening? cs = some (delimiter, inside)) :
    (∃ after, cs = delimiter.opener ++ after ∧ ¬ delimiter.closer <:+: after)
      ∨ ∃ inside rest, cs = delimiter.opener ++ inside ++ delimiter.closer ++ rest
          ∧ Closes delimiter inside := by
  have hcs := eq_of_opening?_eq_some h
  -- The closer is somewhere behind the opener, or nowhere.
  cases hbreak : Text.breakOn delimiter.closer inside with
  | none =>
    exact .inl ⟨inside, hcs, (Text.breakOn_eq_none_iff delimiter.closer_ne_nil).mp hbreak⟩
  | some found =>
    obtain ⟨before, after⟩ := found
    refine .inr ⟨before, after, ?_, Text.first_of_breakOn delimiter.closer_ne_nil hbreak⟩
    rw [hcs, Text.eq_of_breakOn_eq_some hbreak]
    simp only [List.append_assoc]

/-- At every place one of the four pieces comes next. -/
theorem next (cs : List Char) : Next cs := by
  cases cs with
  | nil => exact .nothing
  | cons c cs =>
    -- Something opens here, or a text starts.
    cases hopen : opening? (c :: cs) with
    | some found =>
      obtain ⟨delimiter, inside⟩ := found
      obtain ⟨after, hcs, h⟩ | ⟨inside, rest, hcs, h⟩ := next_of_opening? hopen
      · rw [hcs]
        exact .unterminated delimiter after h
      · rw [hcs]
        exact .delimited delimiter inside rest h
    | none =>
      obtain ⟨text, rest, rfl, -, htext, hrest⟩ := unopened_textFrom [] cs
      refine .text (c :: text) rest (List.cons_ne_nil _ _) (fun b hb hne => ?_) hrest
      rcases List.suffix_cons_iff.mp hb with rfl | hb
      · exact hopen
      · exact htext b hb hne

/-- The characters of the first token come first. -/
@[simp] theorem charsOf_cons (token : Token) (tokens : List Token) :
    charsOf (token :: tokens) = (sourceOf token).toList ++ charsOf tokens :=
  List.flatMap_cons

/-- One more token in front, on the line where its characters start. -/
theorem IsCutOf.push {s : TokenStream} {cs : List Char} {line : Nat} {token : Token}
    (h : s.IsCutOf cs (line + lineFeeds (sourceOf token).toList)) (hcut : token.IsCut)
    (hline : token.line = line)
    (htext : token.isText = true → (∀ next, s.tokens.head? = some next → next.isText = false)
      ∧ (cs ≠ [] → (sourceOf token).toList.getLast? ≠ some '{')) :
    (push token s).IsCutOf ((sourceOf token).toList ++ cs) line where
  lossless := by
    rw [← h.lossless]
    simp [TokenStream.push, leftOver]
  tokens := List.forall_mem_cons.mpr ⟨hcut, h.tokens⟩
  texts before text line' after htokens := by
    -- The new token is a text between delimiters, or the text stands behind it.
    cases before with
    | nil =>
      obtain ⟨rfl, rfl⟩ := List.cons.inj htokens
      obtain ⟨hnext, hlast⟩ := htext rfl
      exact ⟨hnext, fun hne => hlast (by rwa [← h.lossless])⟩
    | cons token' before =>
      exact h.texts before text line' after (List.cons.inj htokens).2
  lines before token' after htokens := by
    cases before with
    | nil =>
      obtain ⟨rfl, rfl⟩ := List.cons.inj htokens
      simpa [charsOf] using hline
    | cons token'' before =>
      obtain ⟨rfl, hrest⟩ := List.cons.inj htokens
      rw [h.lines before token' after hrest, charsOf_cons, lineFeeds_append]
      omega
  unterminated u hu := by
    obtain ⟨huline, after, hafter, hopen⟩ := h.unterminated u hu
    refine ⟨?_, after, hafter, hopen⟩
    rw [huline]
    simp only [TokenStream.push, charsOf_cons, lineFeeds_append]
    omega
  lastLine := by
    have hlast := h.lastLine
    simp only [TokenStream.push, charsOf_cons, lineFeeds_append]
    omega

/-- A stream that starts with a delimiter or with nothing has no text at its start. -/
theorem isText_head_scan {cs : List Char} (h : OpensOrEnds cs) (line : Nat) (token : Token)
    (hhead : (scan cs line).tokens.head? = some token) : token.isText = false := by
  obtain rfl | ⟨delimiter, inside, hopen⟩ := h
  · rw [scan_nil] at hhead
    exact nomatch hhead
  · obtain ⟨after, rfl, h⟩ | ⟨inside, rest, rfl, h⟩ := next_of_opening? hopen
    · rw [scan_unterminated _ h] at hhead
      exact nomatch hhead
    · rw [scan_delimited _ h] at hhead
      cases hhead
      exact Token.isText_delimited _ _

/-- What is found is cut as it should be. -/
theorem isCutOf_scan (cs : List Char) (line : Nat) : (scan cs line).IsCutOf cs line := by
  -- Each piece is shorter than what it is cut from.
  induction hn : cs.length using Nat.strongRecOn generalizing cs line with
  | ind n ih =>
    subst hn
    cases next cs with
    | nothing =>
      rw [scan_nil]
      exact ⟨rfl, nofun, by simp, by simp, nofun, rfl⟩
    | unterminated delimiter after h =>
      rw [scan_unterminated delimiter h]
      refine ⟨by simp [charsOf, leftOver], nofun, by simp, by simp, ?_, rfl⟩
      rintro u hu
      cases hu
      exact ⟨rfl, after, String.toList_ofList, h⟩
    -- The closer has characters, so what is left is shorter.
    | delimited delimiter inside rest h =>
      have hshort : rest.length
          < (delimiter.opener ++ inside ++ delimiter.closer ++ rest).length := by
        have := List.length_pos_iff.mpr delimiter.closer_ne_nil
        simp only [List.length_append]
        omega
      have hsource : (sourceOf (.delimited delimiter (.ofInside delimiter inside line))).toList
          = delimiter.opener ++ inside ++ delimiter.closer := by
        simp [Delimited.ofInside]
      have hrest := ih _ hshort rest (line + lineFeeds inside) rfl
      rw [scan_delimited delimiter h, ← hsource]
      refine .push ?_ (Token.isCut_delimited (Delimited.isCut_ofInside h line)) ?_ fun htext => ?_
      · rw [hsource, lineFeeds_delimited]
        exact hrest
      · simp [Delimited.ofInside]
      · rw [Token.isText_delimited] at htext
        exact nomatch htext
    | text text rest hne htext hrest =>
      have hshort : rest.length < (text ++ rest).length := by
        have := List.length_pos_iff.mpr hne
        simp only [List.length_append]
        omega
      -- A text holds no opener, also none across its end.
      obtain ⟨hopeners, hlast⟩ := (unopened_iff hrest).mp htext
      have hsource : (sourceOf (.text (String.ofList text) line)).toList = text :=
        String.toList_ofList
      have hcut : (Token.text (String.ofList text) line).IsCut := by
        refine ⟨fun hempty => hne ?_, fun delimiter => ?_⟩
        · simpa using congrArg String.toList hempty
        · rw [String.toList_ofList]
          exact hopeners delimiter
      have hscan : (scan rest (line + lineFeeds text)).IsCutOf rest
          (line + lineFeeds (sourceOf (.text (String.ofList text) line)).toList) := by
        rw [hsource]
        exact ih _ hshort rest (line + lineFeeds text) rfl
      have hpush := hscan.push hcut rfl fun _ =>
        ⟨isText_head_scan hrest _, by rw [hsource]; exact hlast⟩
      rw [hsource] at hpush
      rw [scan_text hne htext hrest]
      exact hpush

/-- Behind its first token a stream is cut from what follows. -/
theorem IsCutOf.tail {s : TokenStream} {cs : List Char} {line : Nat} {token : Token}
    (h : (s.push token).IsCutOf cs line) :
    ∃ rest, cs = (sourceOf token).toList ++ rest ∧ token.line = line
      ∧ s.IsCutOf rest (line + lineFeeds (sourceOf token).toList) := by
  have htokens (before after : List Token) (token' : Token)
      (heq : s.tokens = before ++ token' :: after) :
      (s.push token).tokens = (token :: before) ++ token' :: after := by
    show token :: s.tokens = _
    rw [heq]
    rfl
  -- What is left is what the other tokens stand for.
  refine ⟨charsOf s.tokens ++ s.leftOver, ?_, ?_, rfl, ?_, ?_, ?_, ?_, ?_⟩
  · rw [← h.lossless]
    simp [TokenStream.push, leftOver]
  · have hline := h.lines [] token s.tokens rfl
    simpa [charsOf] using hline
  · exact fun token' htoken => h.tokens token' (List.mem_cons_of_mem _ htoken)
  · exact fun before text line' after heq => h.texts _ text line' after (htokens _ _ _ heq)
  · intro before token' after heq
    have hline := h.lines _ token' after (htokens _ _ _ heq)
    rw [charsOf_cons, lineFeeds_append] at hline
    omega
  · intro u hu
    obtain ⟨huline, hopen⟩ := h.unterminated u hu
    refine ⟨?_, hopen⟩
    simp only [TokenStream.push, charsOf_cons, lineFeeds_append] at huline
    omega
  · have hlast := h.lastLine
    simp only [TokenStream.push, charsOf_cons, lineFeeds_append] at hlast
    omega

/-- A stream without a text at its start starts with an opener, unless it is empty. -/
theorem IsCutOf.opensOrEnds {s : TokenStream} {cs : List Char} {line : Nat}
    (h : s.IsCutOf cs line) (hhead : ∀ next, s.tokens.head? = some next → next.isText = false) :
    OpensOrEnds cs := by
  obtain ⟨tokens, unterminated, lastLine⟩ := s
  have hdelimited (delimiter : Delimiter) (d : Delimited) (rest : List Char)
      (hcut : d.IsCut delimiter) : OpensOrEnds (d.source.toList ++ rest) := by
    obtain ⟨inside, hsource, -, -⟩ := hcut.eq_ofInside
    refine .inr ⟨delimiter, inside ++ delimiter.closer ++ rest, ?_⟩
    rw [hsource, List.append_assoc, List.append_assoc, opening?_append, List.append_assoc]
  have hlossless := h.lossless
  -- Without a text in front there is the end, an opener without a closer, or a token in delimiters.
  cases tokens with
  | nil =>
    cases unterminated with
    | none => exact .inl hlossless.symm
    | some u =>
      obtain ⟨-, after, hafter, -⟩ := h.unterminated u rfl
      refine .inr ⟨u.delimiter, after, ?_⟩
      rw [← hlossless, ← opening?_append, ← hafter]
      rfl
  | cons token tokens =>
    have hcut := h.tokens token (List.mem_cons_self ..)
    have hnot := hhead token rfl
    rw [← hlossless, charsOf_cons, List.append_assoc]
    cases token with
    | text text line => exact nomatch hnot
    | output d => exact hdelimited .output d _ hcut
    | tag d => exact hdelimited .tag d _ hcut

/-- Nothing else is cut as it should be. -/
theorem scan_of_isCutOf {s : TokenStream} {cs : List Char} {line : Nat} (h : s.IsCutOf cs line) :
    scan cs line = s := by
  obtain ⟨tokens, unterminated, lastLine⟩ := s
  -- By induction on the tokens: the first of them is what the scan finds at the front.
  induction tokens generalizing cs line with
  | nil =>
    have hlossless := h.lossless
    obtain rfl : lastLine = line := h.lastLine
    cases unterminated with
    | none =>
      obtain rfl : [] = cs := hlossless
      exact scan_nil _
    | some u =>
      obtain ⟨delimiter, source, uline⟩ := u
      obtain ⟨huline, after, hafter, hopen⟩ := h.unterminated _ rfl
      obtain rfl : source.toList = cs := hlossless
      obtain rfl : uline = lastLine := huline
      have hsource : String.ofList (delimiter.opener ++ after) = source := by
        rw [← hafter, String.ofList_toList]
      rw [hafter, scan_unterminated _ hopen, hsource]
  | cons token tokens ih =>
    have hpush : (push token ⟨tokens, unterminated, lastLine⟩).IsCutOf cs line := h
    obtain ⟨rest, rfl, hline, hrest⟩ := hpush.tail
    have hscan := ih hrest
    have hcut := h.tokens token (List.mem_cons_self ..)
    have hdelimited (delimiter : Delimiter) (d : Delimited) (hd : d.IsCut delimiter)
        (hdline : d.line = line)
        (hdscan : scan rest (line + lineFeeds d.source.toList)
          = ⟨tokens, unterminated, lastLine⟩) :
        scan (d.source.toList ++ rest) line
          = push (.delimited delimiter d) ⟨tokens, unterminated, lastLine⟩ := by
      obtain ⟨inside, hsource, hcloses, hd⟩ := hd.eq_ofInside
      rw [hsource] at hdscan ⊢
      rw [lineFeeds_delimited] at hdscan
      rw [scan_delimited delimiter hcloses, hdscan, ← hdline, ← hd]
    cases token with
    | text text textLine =>
      obtain rfl : textLine = line := hline
      obtain ⟨hne, hopeners⟩ := hcut
      obtain ⟨hnext, hlast⟩ := h.texts [] text textLine tokens rfl
      have hopens := hrest.opensOrEnds hnext
      -- A text that is followed by no text ends where the scan ends it.
      have hunopened : Unopened text.toList rest := by
        refine (unopened_iff hopens).mpr ⟨hopeners, fun hne => hlast ?_⟩
        have hlossless := hrest.lossless
        exact fun hnil => hne (hlossless.symm.trans hnil)
      have htext : text.toList ≠ [] := fun hnil => hne (String.toList_inj.mp hnil)
      show scan (text.toList ++ rest) textLine = _
      rw [scan_text htext hunopened hopens, String.ofList_toList]
      exact congrArg (push _) hscan
    | output d => exact hdelimited .output d hcut hline hscan
    | tag d => exact hdelimited .tag d hcut hline hscan

/-- An opener without a closer is left over if it comes where a token would start. -/
theorem IsCutOf.isSome_unterminated {s : TokenStream} {cs after : List Char} {line : Nat}
    {before : List Token} {delimiter : Delimiter} (h : s.IsCutOf cs line)
    (hbefore : before <+: s.tokens) (hcs : cs = charsOf before ++ delimiter.opener ++ after)
    (hopen : ¬ delimiter.closer <:+: after) : s.unterminated.isSome = true := by
  -- The tokens in front are cut off one by one; then the scan starts at the opener.
  induction before generalizing s cs line with
  | nil =>
    rw [← scan_of_isCutOf h, hcs]
    show (scan (delimiter.opener ++ after) line).unterminated.isSome = true
    rw [scan_unterminated _ hopen]
    rfl
  | cons token before ih =>
    obtain ⟨tokens, unterminated, lastLine⟩ := s
    obtain ⟨more, rfl⟩ := hbefore
    have hpush : (TokenStream.push token ⟨before ++ more, unterminated, lastLine⟩).IsCutOf cs
        line := h
    obtain ⟨rest, hrest, -, htail⟩ := hpush.tail
    rw [hcs, charsOf_cons, List.append_assoc, List.append_assoc] at hrest
    have hrest := List.append_cancel_left hrest
    rw [← List.append_assoc] at hrest
    have hsome := ih htail (List.prefix_append before more) hrest.symm
    exact hsome

/-- There are no more tokens than characters. -/
theorem IsCutOf.length_le {s : TokenStream} {cs : List Char} {line : Nat} (h : s.IsCutOf cs line) :
    s.tokens.length ≤ cs.length := by
  obtain ⟨tokens, unterminated, lastLine⟩ := s
  induction tokens generalizing cs line with
  | nil => exact Nat.zero_le _
  | cons token tokens ih =>
    have hpush : (TokenStream.push token ⟨tokens, unterminated, lastLine⟩).IsCutOf cs line := h
    obtain ⟨rest, rfl, -, htail⟩ := hpush.tail
    have hrest := ih htail
    have hcut := h.tokens token (List.mem_cons_self ..)
    -- Every token has a character at least.
    have hpos : 0 < (sourceOf token).toList.length := by
      have hdelimited (delimiter : Delimiter) (d : Delimited) (hd : d.IsCut delimiter) :
          0 < d.source.toList.length := by
        rw [hd.source]
        cases delimiter <;> simp [Delimiter.opener]
      cases token with
      | text text line =>
        exact List.length_pos_iff.mpr fun hnil => hcut.1 (String.toList_inj.mp hnil)
      | output d => exact hdelimited .output d hcut
      | tag d => exact hdelimited .tag d hcut
    simp only [List.length_cons, List.length_append] at hrest ⊢
    omega

/-- No token is on a line behind the last one, and that is no further than the line feeds lead. -/
theorem IsCutOf.line_le {s : TokenStream} {cs : List Char} {line : Nat} (h : s.IsCutOf cs line) :
    (∀ token ∈ s.tokens, token.line ≤ s.line) ∧ s.line ≤ line + lineFeeds cs := by
  constructor
  · intro token hmem
    obtain ⟨before, after, htokens⟩ := List.append_of_mem hmem
    rw [h.lines before token after htokens, h.lastLine, htokens, charsOf, charsOf,
      List.flatMap_append, lineFeeds_append]
    omega
  · rw [h.lastLine, ← h.lossless, lineFeeds_append]
    omega

/-- Whatever the template, it is cut into tokens in exactly one way. There are no more tokens than
characters, and something is left over exactly if an opener without a closer comes where a token
would start. Lines are counted with 32 bits, which is enough for all lines of a template that has
fewer line feeds than that. -/
theorem isCutOf_ofSource {source : String} (hfeeds : lineFeeds source.toList < UInt32.size - 1) :
    (ofSource source).IsCutOf source.toList 1
      ∧ ((∀ token ∈ (ofSource source).tokens, token.line < UInt32.size)
        ∧ (ofSource source).line < UInt32.size)
      ∧ (∀ s : TokenStream, s.IsCutOf source.toList 1 → s = ofSource source)
      ∧ (ofSource source).tokens.length ≤ source.length
      ∧ ((ofSource source).unterminated.isSome = true ↔
          ∃ before after, ∃ delimiter : Delimiter, before <+: (ofSource source).tokens
            ∧ source.toList = charsOf before ++ delimiter.opener ++ after
            ∧ ¬ delimiter.closer <:+: after) := by
  have hcut := isCutOf_scan source.toList 1
  obtain ⟨htokens, hlast⟩ := hcut.line_le
  have hlast : (ofSource source).line < UInt32.size := by
    rw [ofSource]
    omega
  refine ⟨hcut, ⟨fun token hmem => Nat.lt_of_le_of_lt (htokens token hmem) hlast, hlast⟩,
    fun s hs => (scan_of_isCutOf hs).symm, hcut.length_le, ?_, ?_⟩
  · -- The whole stream stands before the opener.
    intro hsome
    obtain ⟨u, hu⟩ := Option.isSome_iff_exists.mp hsome
    obtain ⟨-, after, hafter, hopen⟩ := hcut.unterminated u hu
    refine ⟨_, after, u.delimiter, List.prefix_refl _, ?_, hopen⟩
    have hlossless := hcut.lossless
    have hleft : (scan source.toList 1).leftOver = u.delimiter.opener ++ after := by
      rw [← hafter, leftOver, show (scan source.toList 1).unterminated = some u from hu]
      rfl
    rw [hleft] at hlossless
    rw [List.append_assoc]
    exact hlossless.symm
  · rintro ⟨before, after, delimiter, hbefore, hcs, hopen⟩
    exact hcut.isSome_unterminated hbefore hcs hopen

/-- A closer cannot share a character with its opener. -/
theorem isCutOf_ofSource_braces :
    let source := "\x7b%\x7d%\x7d\n"
    lineFeeds source.toList < UInt32.size - 1
      ∧ (ofSource source).tokens
        = [.tag ⟨"\x7b%\x7d%\x7d", "\x7d", 1, false, false⟩, .text "\n" 1]
      ∧ (ofSource source).IsCutOf source.toList 1 ∧ (ofSource source).line < UInt32.size := by
  intro source
  have hfeeds : lineFeeds source.toList < UInt32.size - 1 := by decide +kernel
  obtain ⟨hcut, ⟨-, hlast⟩, -⟩ := isCutOf_ofSource hfeeds
  exact ⟨hfeeds, by decide +kernel, hcut, hlast⟩

end TokenStream

end Stencil
