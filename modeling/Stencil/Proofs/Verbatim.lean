import Stencil.Proofs.Lockstep
import Stencil.Proofs.Padding
import Stencil.Proofs.Written

/-!
# Raw text

What stands between the tags of a raw block is written as it is. A template is cut into tokens
before anything is known of raw text, so what matters is how the text in the block is cut: where
nothing at its end can run on into the tag behind it, the tokens of the text are put together
again. If a delimiter is left open, or the text ends in a brace, the tag is swallowed, and the
block has no end.

## Key definitions

- `EndsClosed`: nothing at the end of a text can run on
- `rawSource`: a text in a raw block

## Key results

- `TokenStream.scan_append`: the tokens behind a text that ends closed
- `TokenStream.not_isEndraw_of_open`: behind any other text the end of a raw block is not found
- `Template.render_rawSource`: when a raw block is read and what it is rendered as
-/

namespace Stencil

open Builder (sourceOf tagName?)
open Written (Piece)

/-! ## Names -/

/-- The name of a tag other than `#` lies in its markup, and there in what comes before a brace. -/
theorem infix_of_tagParts? {chars rest : List Char} (hrest : rest = [] ∨ rest.head? = some '{')
    {name args : String} (h : tagParts? (String.ofList (chars ++ rest)) = some (name, args)) :
    name = "#" ∨ name.toList <:+: chars := by
  -- A brace is neither a blank nor part of a name, so both end before it.
  have hstops (p : Char → Bool) (hp : p '{' = false) :
      rest.dropWhile p = rest ∧ rest.takeWhile p = [] := by
    rcases hrest with rfl | hrest
    · exact ⟨rfl, rfl⟩
    · obtain ⟨more, rfl⟩ := List.head?_eq_some_iff.mp hrest
      have hbrace : ¬p '{' = true := Bool.eq_false_iff.mp hp
      exact ⟨List.dropWhile_cons_of_neg hbrace, List.takeWhile_cons_of_neg hbrace⟩
  obtain ⟨word, hword, hdrop⟩ : ∃ word, word <:+ chars
      ∧ (chars ++ rest).dropWhile Text.isBlank = word ++ rest := by
    rw [List.dropWhile_append]
    split
    · exact ⟨[], List.nil_suffix, (hstops _ (by decide)).1⟩
    · exact ⟨_, List.dropWhile_suffix _, rfl⟩
  unfold tagParts? at h
  rw [String.toList_ofList, hdrop] at h
  split at h
  · exact .inl (Prod.mk.inj (Option.some.inj h)).1.symm
  · dsimp only at h
    split at h
    · exact nomatch h
    · right
      rw [← (Prod.mk.inj (Option.some.inj h)).1, String.toList_ofList, List.takeWhile_append]
      split
      · rw [(hstops _ (by decide)).2, List.append_nil]
        exact hword.isInfix
      · exact (List.takeWhile_prefix _).isInfix.trans hword.isInfix

/-- The token ends a raw block. -/
def Token.IsEndraw (token : Token) : Prop :=
  ∃ d, tagName? token = some ("endraw", d)

/-- Text ends no raw block. -/
theorem Token.not_isEndraw_text (text : String) (line : Nat) :
    ¬(Token.text text line).IsEndraw := by
  rintro ⟨d, hname⟩
  cases hname

/-- A delimited token has its name from what is inside, up to a brace. -/
theorem Token.infix_of_isEndraw {chars rest : List Char}
    (hrest : rest = [] ∨ rest.head? = some '{') {delimiter : Delimiter} {d : Delimited}
    (hmarkup : d.markup = String.ofList (chars ++ rest))
    (h : (Token.delimited delimiter d).IsEndraw) : "endraw".toList <:+: chars := by
  obtain ⟨d', hname⟩ := h
  obtain ⟨htoken, args, hparts⟩ := Builder.tagName?_eq_some_iff.mp hname
  -- Only a tag ends a raw block.
  cases delimiter with
  | output => exact nomatch htoken
  | tag =>
    cases htoken
    rw [hmarkup] at hparts
    rcases infix_of_tagParts? hrest hparts with hsharp | hoccurs
    · exact absurd hsharp (by decide)
    · exact hoccurs

/-- Where the name does not occur inside, the token ends no raw block. -/
theorem Token.not_isEndraw_ofInside {inside : List Char} (h : ¬ "endraw".toList <:+: inside)
    (delimiter : Delimiter) (line : Nat) :
    ¬(Token.delimited delimiter (.ofInside delimiter inside line)).IsEndraw := by
  have hmarkup : (trailingDash (leadingDash inside).2).2 <:+: inside := by
    have hleading : (leadingDash inside).2 <:+ inside := ⟨_, append_leadingDash inside⟩
    have htrailing : (trailingDash (leadingDash inside).2).2 <+: (leadingDash inside).2 :=
      ⟨_, append_trailingDash _⟩
    exact htrailing.isInfix.trans hleading.isInfix
  intro hend
  refine h ((infix_of_isEndraw (.inl rfl) ?_ hend).trans hmarkup)
  exact congrArg String.ofList (List.append_nil _).symm

/-! ## Texts that end closed -/

/-- Nothing at the end of the text can run on: no delimiter is left open, and the text does not end
in a brace that could be a part of one. -/
def EndsClosed (cs : List Char) (line : Nat) : Prop :=
  (TokenStream.scan cs line).unterminated = none ∧ cs.getLast? ≠ some '{'

/-- What is behind a text that is followed by an opener has no influence on it. -/
theorem Unopened.append {text rest : List Char} (h : Unopened text rest)
    (hrest : OpensOrEnds rest) {more : List Char} (hmore : OpensOrEnds more)
    (hlast : rest = [] → text.getLast? ≠ some '{') :
    Unopened text (rest ++ more) ∧ OpensOrEnds (rest ++ more) := by
  have hopens : OpensOrEnds (rest ++ more) := by
    -- ⟨delimiter, inside, hopen⟩ := hrest | The text ends at the end of what is behind it, or at an
    -- opener that is still there.
    obtain rfl | ⟨delimiter, inside, hopen⟩ := hrest
    · exact hmore
    · rw [eq_of_opening?_eq_some hopen, List.append_assoc]
      exact .inr ⟨delimiter, _, opening?_append delimiter _⟩
  refine ⟨(unopened_iff hopens).mpr ?_, hopens⟩
  obtain ⟨hopeners, hbrace⟩ := (unopened_iff hrest).mp h
  refine ⟨hopeners, fun _ => ?_⟩
  by_cases hnil : rest = []
  · exact hlast hnil
  · exact hbrace hnil

namespace TokenStream

/-- What is behind a token in delimiters is closed if the whole is. -/
theorem endsClosed_delimited {delimiter : Delimiter} {inside : List Char}
    (hcloses : Closes delimiter inside) (behind : List Char) (line : Nat) :
    EndsClosed (delimiter.opener ++ inside ++ delimiter.closer ++ behind) line
      ↔ EndsClosed behind (line + lineFeeds inside) := by
  unfold EndsClosed
  rw [scan_delimited delimiter hcloses]
  refine and_congr_right fun _ => ?_
  -- Behind the closer, or the closer itself ends in no brace that opens.
  cases behind with
  | nil =>
    refine iff_of_true ?_ nofun
    rw [List.append_nil]
    cases delimiter <;> simp [Delimiter.closer]
  | cons c cs => rw [List.getLast?_append_of_ne_nil _ (List.cons_ne_nil c cs)]

/-- So is what is behind a text. -/
theorem endsClosed_text {text behind : List Char} (hne : text ≠ []) (htext : Unopened text behind)
    (hbehind : OpensOrEnds behind) (hmore : behind ≠ []) (line : Nat) :
    EndsClosed (text ++ behind) line ↔ EndsClosed behind (line + lineFeeds text) := by
  unfold EndsClosed
  rw [scan_text hne htext hbehind, List.getLast?_append_of_ne_nil _ hmore]
  rfl

/-- To show something of all texts, it is enough to look at what comes first. -/
theorem next_induction {motive : List Char → Prop} (nothing : motive [])
    (unterminated : ∀ (delimiter : Delimiter) after, ¬ delimiter.closer <:+: after →
      motive (delimiter.opener ++ after))
    (delimited : ∀ (delimiter : Delimiter) inside behind, Closes delimiter inside →
      motive behind → motive (delimiter.opener ++ inside ++ delimiter.closer ++ behind))
    (text : ∀ text behind, text ≠ [] → Unopened text behind → OpensOrEnds behind →
      motive behind → motive (text ++ behind))
    (cs : List Char) : motive cs := by
  -- What is behind a piece is shorter, as a piece has a character at least.
  induction hn : cs.length using Nat.strongRecOn generalizing cs with
  | ind n ih =>
    subst hn
    cases next cs with
    | nothing => exact nothing
    | unterminated delimiter after h => exact unterminated delimiter after h
    | delimited delimiter inside behind h =>
      have hopener : 0 < delimiter.opener.length := by cases delimiter <;> exact Nat.two_pos
      refine delimited delimiter inside behind h (ih _ ?_ behind rfl)
      simp only [List.length_append]
      omega
    | text words behind hne h hbehind =>
      have hwords := List.length_pos_of_ne_nil hne
      refine text words behind hne h hbehind (ih _ ?_ behind rfl)
      rw [List.length_append]
      omega

/-- What does not occur in a text occurs neither in its first delimiters nor behind them. -/
private theorem not_infix_inside {name : List Char} {delimiter : Delimiter}
    {inside behind : List Char}
    (h : ¬ name <:+: delimiter.opener ++ inside ++ delimiter.closer ++ behind) :
    ¬ name <:+: inside := by
  have hinside : inside <:+: delimiter.opener ++ inside ++ delimiter.closer ++ behind :=
    ⟨delimiter.opener, delimiter.closer ++ behind, by rw [List.append_assoc _ _ behind]⟩
  exact fun hname => h (hname.trans hinside)

/-- A word that is nowhere is not in the part behind. -/
private theorem not_infix_behind {name before behind : List Char}
    (h : ¬ name <:+: before ++ behind) : ¬ name <:+: behind :=
  fun hname => h (hname.trans (List.suffix_append before behind).isInfix)

/-- Behind a text that ends closed, reading starts anew. -/
theorem scan_append {rest : List Char} (hrest : OpensOrEnds rest) {cs : List Char} {line : Nat}
    (h : EndsClosed cs line) :
    ∃ line', (scan (cs ++ rest) line).tokens = (scan cs line).tokens ++ (scan rest line').tokens
      ∧ (scan (cs ++ rest) line).unterminated = (scan rest line').unterminated := by
  induction cs using next_induction generalizing line with
  | nothing =>
    refine ⟨line, ?_, rfl⟩
    rw [scan_nil]
    rfl
  | unterminated delimiter after hopen =>
    have hclosed := h.1
    rw [scan_unterminated delimiter hopen] at hclosed
    exact nomatch hclosed
  | delimited delimiter inside behind hcloses ih =>
    obtain ⟨line', htokens, hleft⟩ := ih ((endsClosed_delimited hcloses behind line).mp h)
    rw [List.append_assoc, scan_delimited delimiter hcloses, scan_delimited delimiter hcloses]
    exact ⟨line', congrArg (List.cons _) htokens, hleft⟩
  | text text behind hne htext hopens ih =>
    -- Only at the very end could the text run on into what comes next.
    have hlast : behind = [] → text.getLast? ≠ some '{' := by
      rintro rfl
      exact List.append_nil text ▸ h.2
    obtain ⟨htext', hopens'⟩ := htext.append hopens hrest hlast
    have hbehind : EndsClosed behind (line + lineFeeds text) := by
      by_cases hnil : behind = []
      · subst hnil
        exact ⟨by rw [scan_nil], nofun⟩
      · exact (endsClosed_text hne htext hopens hnil line).mp h
    obtain ⟨line', htokens, hleft⟩ := ih hbehind
    rw [List.append_assoc, scan_text hne htext' hopens', scan_text hne htext hopens]
    exact ⟨line', congrArg (List.cons _) htokens, hleft⟩

/-- A text in which the name does not occur has no end of a raw block in it. -/
theorem not_isEndraw_of_mem_scan {cs : List Char} (hcs : ¬ "endraw".toList <:+: cs) {line : Nat}
    {token : Token} (h : token ∈ (scan cs line).tokens) : ¬token.IsEndraw := by
  -- By induction on the pieces: a word that is nowhere in the source is in none of them.
  induction cs using next_induction generalizing line with
  | nothing =>
    rw [scan_nil] at h
    exact absurd h List.not_mem_nil
  | unterminated delimiter after hopen =>
    rw [scan_unterminated delimiter hopen] at h
    exact absurd h List.not_mem_nil
  | delimited delimiter inside behind hcloses ih =>
    rw [scan_delimited delimiter hcloses] at h
    rcases List.mem_cons.mp h with rfl | h
    · exact Token.not_isEndraw_ofInside (not_infix_inside hcs) delimiter line
    · exact ih (not_infix_behind hcs) h
  | text text behind hne htext hopens ih =>
    rw [scan_text hne htext hopens] at h
    rcases List.mem_cons.mp h with rfl | h
    · exact Token.not_isEndraw_text _ _
    · exact ih (not_infix_behind hcs) h

/-! ## The end of a raw block -/

/-- What the tag behind raw text starts with, up to its closer. -/
def endrawStart : List Char :=
  "\x7b% endraw ".toList

/-- The characters of the closing tag. -/
theorem chars_endraw : (Piece.bareTag "endraw").chars = endrawStart ++ ['%', '\x7d'] := by
  decide

/-- They start with an opener. -/
theorem opensOrEnds_endraw : OpensOrEnds (Piece.bareTag "endraw").chars :=
  .inr ⟨.tag, _, rfl⟩

/-- What ends in a character that does not come behind a text is found in the text or not at all. -/
theorem not_infix_append {pattern cs more : List Char} {c : Char}
    (hlast : pattern.getLast? = some c) (hmore : c ∉ more) (h : ¬ pattern <:+: cs) :
    ¬ pattern <:+: cs ++ more := by
  rintro ⟨a, b, hab⟩
  obtain ⟨pattern, rfl⟩ := List.getLast?_eq_some_iff.mp hlast
  -- The pattern ends in front of what is appended, or its last character is among it.
  rcases List.append_eq_append_iff.mp hab with ⟨x, hcs, -⟩ | ⟨x, hcs, hx⟩
  · exact h ⟨a, x, hcs.symm⟩
  · rcases List.eq_nil_or_concat x with rfl | ⟨x, z, rfl⟩
    · exact h ⟨a, [], by rw [hcs, List.append_nil, List.append_nil]⟩
    · have hends : a ++ pattern ++ [c] = cs ++ x ++ [z] := by simpa using hcs
      have hz : c = z := (List.cons.inj (List.append_inj' hends rfl).2).1
      exact hmore (hx ▸ by simp [hz])

/-- No closer is completed by the start of the tag behind the text. -/
theorem not_closer_append {delimiter : Delimiter} {after : List Char}
    (h : ¬ delimiter.closer <:+: after) :
    ¬ delimiter.closer <:+: after ++ (endrawStart ++ ['%']) := by
  have hlast : delimiter.closer.getLast? = some '\x7d' := by cases delimiter <;> rfl
  exact not_infix_append hlast (by decide) h

/-- An output that is left open is not closed by the tag behind the text. -/
theorem not_closer_endraw {after : List Char} (h : ¬ Delimiter.output.closer <:+: after) :
    ¬ Delimiter.output.closer <:+: after ++ (Piece.bareTag "endraw").chars := by
  rintro ⟨a, b, hab⟩
  rw [chars_endraw] at hab
  rcases List.eq_nil_or_concat b with rfl | ⟨b, z, rfl⟩
  · have hends : a ++ Delimiter.output.closer = (after ++ endrawStart) ++ ['%', '\x7d'] := by
      simpa using hab
    exact absurd (List.append_inj' hends rfl).2 (by decide)
  · have hends : a ++ Delimiter.output.closer ++ b ++ [z]
        = after ++ (endrawStart ++ ['%']) ++ ['\x7d'] := by simpa using hab
    exact not_closer_append h ⟨a, b, (List.append_inj' hends rfl).1⟩

/-- A tag that is left open goes on to the end of the tag behind the text. -/
theorem closes_endraw {after : List Char} (h : ¬ Delimiter.tag.closer <:+: after) :
    Closes .tag (after ++ endrawStart) := by
  intro a b hab
  rcases List.eq_nil_or_concat b with rfl | ⟨b, z, rfl⟩
  · rfl
  · have hends : a ++ Delimiter.tag.closer ++ b ++ [z]
        = after ++ (endrawStart ++ ['%']) ++ ['\x7d'] := by
      simpa [Delimiter.closer] using hab.symm
    exact absurd ⟨a, b, (List.append_inj' hends rfl).1⟩ (not_closer_append h)

/-- A dash at the front is cut off before the closing tag. -/
theorem leadingDash_endraw (after : List Char) :
    (leadingDash (after ++ endrawStart)).2 = (leadingDash after).2 ++ endrawStart := by
  cases after with
  | nil => decide
  | cons c after =>
    -- The dash is cut off whatever follows.
    by_cases hc : c = '-'
    · subst hc
      rfl
    · have hnone (cs : List Char) : leadingDash (c :: cs) = (false, c :: cs) := by
        unfold leadingDash
        split
        · rename_i heq
          exact absurd (List.cons.inj heq).1 hc
        · rfl
      rw [List.cons_append, hnone, hnone, List.cons_append]

/-- The name of a tag that is left open lies in the text. -/
theorem not_isEndraw_swallowing {after : List Char} (h : ¬ "endraw".toList <:+: after)
    (line : Nat) :
    ¬(Token.delimited .tag (.ofInside .tag (after ++ endrawStart) line)).IsEndraw := by
  -- No dash stands before the closer of the tag that was swallowed,
  have htrailing (cs : List Char) : (trailingDash (cs ++ endrawStart)).2 = cs ++ endrawStart := by
    have hlast : (cs ++ endrawStart).getLast? ≠ some '-' := by
      rw [List.getLast?_append_of_ne_nil _ (by decide)]
      decide
    rw [trailingDash, if_neg hlast]
  -- so its markup ends in the swallowed text, behind what was there before.
  have hmarkup : (Delimited.ofInside .tag (after ++ endrawStart) line).markup
      = String.ofList ((leadingDash after).2 ++ endrawStart) := by
    show String.ofList (trailingDash (leadingDash (after ++ endrawStart)).2).2 = _
    rw [leadingDash_endraw, htrailing]
  intro hend
  have hoccurs := Token.infix_of_isEndraw (.inr rfl) hmarkup hend
  exact h (hoccurs.trans (List.IsSuffix.isInfix ⟨_, append_leadingDash after⟩))

/-- A brace at the end of the text opens an output together with the tag behind it. -/
theorem not_isEndraw_brace {text : List Char} (hne : text ≠ []) (htext : Unopened text [])
    {line : Nat} (h : ¬EndsClosed text line) {token : Token}
    (hmem : token ∈ (scan (text ++ (Piece.bareTag "endraw").chars) line).tokens) :
    ¬token.IsEndraw := by
  have hscan := scan_text hne htext (.inl rfl) line
  rw [List.append_nil, scan_nil] at hscan
  have hbrace : text.getLast? = some '{' := by
    by_contra hlast
    exact h ⟨by rw [hscan]; rfl, hlast⟩
  obtain ⟨text, rfl⟩ := List.getLast?_eq_some_iff.mp hbrace
  have hopeners := ((unopened_iff (.inl rfl)).mp htext).1
  have hopen : ¬ Delimiter.output.closer <:+: "% endraw %\x7d".toList := by
    have hnil : ¬ Delimiter.output.closer <:+: [] :=
      fun h => List.cons_ne_nil _ _ (List.infix_nil.mp h)
    exact fun hoccurs => not_closer_endraw hnil (hoccurs.trans ⟨['{'], [], rfl⟩)
  -- The last brace and the first one of the tag open an output, which is not closed.
  have hchars : text ++ ['{'] ++ (Piece.bareTag "endraw").chars
      = text ++ (Delimiter.output.opener ++ "% endraw %\x7d".toList) := by
    rw [List.append_assoc]
    exact congrArg (text ++ ·) (by decide)
  rw [hchars] at hmem
  by_cases hnil : text = []
  · subst hnil
    rw [List.nil_append, scan_unterminated .output hopen] at hmem
    exact absurd hmem List.not_mem_nil
  · have hopens : OpensOrEnds (Delimiter.output.opener ++ "% endraw %\x7d".toList) :=
      .inr ⟨.output, _, opening?_append .output _⟩
    have htext : Unopened text (Delimiter.output.opener ++ "% endraw %\x7d".toList) := by
      refine (unopened_iff hopens).mpr ⟨fun delimiter hoccurs => ?_, fun _ hlast => ?_⟩
      · exact hopeners delimiter (hoccurs.trans (List.prefix_append _ _).isInfix)
      · obtain ⟨before, rfl⟩ := List.getLast?_eq_some_iff.mp hlast
        exact hopeners .output ⟨before, [], by simp [Delimiter.opener]⟩
    rw [scan_text hnil htext hopens, scan_unterminated .output hopen] at hmem
    rw [List.mem_singleton.mp hmem]
    exact Token.not_isEndraw_text _ _

/-- Behind a text that does not end closed, the end of a raw block is not found. -/
theorem not_isEndraw_of_open {cs : List Char} (hcs : ¬ "endraw".toList <:+: cs) {line : Nat}
    (h : ¬EndsClosed cs line) {token : Token}
    (hmem : token ∈ (scan (cs ++ (Piece.bareTag "endraw").chars) line).tokens) :
    ¬token.IsEndraw := by
  induction cs using next_induction generalizing line with
  | nothing => exact absurd ⟨by rw [scan_nil], nofun⟩ h
  | unterminated delimiter after hopen =>
    rw [List.append_assoc] at hmem
    cases delimiter with
    | output =>
      rw [scan_unterminated .output (not_closer_endraw hopen)] at hmem
      exact absurd hmem List.not_mem_nil
    | tag =>
      -- The closer of the tag behind the text closes the one that was left open.
      have hchars : Delimiter.tag.opener ++ (after ++ (Piece.bareTag "endraw").chars)
          = Delimiter.tag.opener ++ (after ++ endrawStart) ++ Delimiter.tag.closer ++ [] := by
        rw [chars_endraw, List.append_nil, List.append_assoc, List.append_assoc]
        rfl
      rw [hchars, scan_delimited .tag (closes_endraw hopen), scan_nil] at hmem
      rw [List.mem_singleton.mp hmem]
      exact not_isEndraw_swallowing (not_infix_behind hcs) line
  | delimited delimiter inside behind hcloses ih =>
    rw [List.append_assoc, scan_delimited delimiter hcloses] at hmem
    rcases List.mem_cons.mp hmem with rfl | hmem
    · exact Token.not_isEndraw_ofInside (not_infix_inside hcs) delimiter line
    · exact ih (not_infix_behind hcs)
        (fun hclosed => h ((endsClosed_delimited hcloses behind line).mpr hclosed)) hmem
  | text text behind hne htext hbehind ih =>
    by_cases hnil : behind = []
    · subst hnil
      rw [List.append_nil] at h hcs hmem
      exact not_isEndraw_brace hne htext h hmem
    · obtain ⟨htext', hopens'⟩ := htext.append hbehind opensOrEnds_endraw fun hb => absurd hb hnil
      rw [List.append_assoc, scan_text hne htext' hopens'] at hmem
      rcases List.mem_cons.mp hmem with rfl | hmem
      · exact Token.not_isEndraw_text _ _
      · exact ih (not_infix_behind hcs)
          (fun hclosed => h ((endsClosed_text hne htext hbehind hnil line).mpr hclosed)) hmem

end TokenStream

/-! ## Raw blocks -/

/-- The text in a raw block. -/
def rawSource (s : String) : String :=
  "\x7b% raw %\x7d" ++ s ++ "\x7b% endraw %\x7d"

namespace TokenStream

/-- A tag without arguments. -/
theorem scan_bareTag {name : String} (hname : '%' ∉ name.toList)
    (hfeeds : lineFeeds name.toList = 0) (rest : List Char) (line : Nat) :
    scan ((Piece.bareTag name).chars ++ rest) line
      = push ((Piece.bareTag name).token line) (scan rest line) := by
  have hclear : ¬ Delimiter.tag.closer <:+: name.toList :=
    fun hoccurs => hname (hoccurs.subset (List.mem_cons_self ..))
  -- A bare tag is on one line.
  have hline : line + lineFeeds (' ' :: (name.toList ++ [' '])) = line := by
    have hspaces := Written.lineFeeds_padded .tag name
    rw [Piece.chars, lineFeeds_delimited, hfeeds] at hspaces
    rw [hspaces, Nat.add_zero]
  have hscan := scan_delimited .tag (Written.closes_padded hclear) rest line
  rw [Written.ofInside_padded, hline] at hscan
  exact hscan

/-- The tokens of a raw block are those of its tags and those of what is between them. -/
theorem ofSource_rawSource (s : String) :
    ofSource (rawSource s)
      = push ((Piece.bareTag "raw").token 1)
          (scan (s.toList ++ (Piece.bareTag "endraw").chars) 1) := by
  have hchars : (rawSource s).toList
      = (Piece.bareTag "raw").chars ++ (s.toList ++ (Piece.bareTag "endraw").chars) := by
    rw [rawSource, String.toList_append, String.toList_append, List.append_assoc]
    rfl
  rw [ofSource, hchars]
  exact scan_bareTag (by decide) (by decide) _ 1

end TokenStream

namespace Builder

variable {ctx : ParseContext} {inner : LinesReader} {stray : String → Parse Builder} {b : Builder}

/-- The tag that starts a raw block. -/
theorem add_raw (hctx : ctx.registry.tags = TagKind.standard) (p : ParseState) :
    add ctx inner stray {} ((Piece.bareTag "raw").token 1) p
      = (.ok { mode := .raw "raw" false "" }, { p with line := 1, trimNext := false }) := by
  have hparts := tagParts?_bare (by decide : isTagName "raw" = true)
  have hkind : ctx.registry.tags.get? "raw" = some .raw := by
    rw [hctx]
    rfl
  show addTag ctx inner stray {} _ p = _
  simp only [addTag, turnTo, bind_assoc, hparts, hkind]
  rfl

/-- A token that does not end the block is kept as it is. -/
theorem keep_of_not_isEndraw {token : Token} (h : ¬token.IsEndraw) (name text : String)
    (trimStart : Bool) :
    b.keep name trimStart text token
      = pure { b with mode := .raw name trimStart (text ++ sourceOf token) } := by
  unfold keep
  split
  · rename_i d hname
    exact absurd ⟨d, hname⟩ h
  · rfl

/-- In a raw block, all but the tag that ends it is kept. -/
theorem addAll_kept {name text : String} {trimStart : Bool}
    (hmode : b.mode = .raw name trimStart text) {tokens : List Token}
    (h : ∀ token ∈ tokens, ¬token.IsEndraw) :
    addAll ctx inner stray tokens b
      = pure { b with
          mode := .raw name trimStart (text ++ String.join (tokens.map sourceOf)) } := by
  -- By induction on the tokens: the text grows by their sources.
  induction tokens generalizing b text with
  | nil =>
    obtain ⟨body, frames, mode⟩ := b
    have hnone : text ++ String.join [] = text := String.append_empty
    rw [List.map_nil, hnone, ← hmode]
    rfl
  | cons token tokens ih =>
    obtain ⟨htoken, h⟩ := List.forall_mem_cons.mp h
    have hadd : b.add ctx inner stray token
        = pure { b with mode := .raw name trimStart (text ++ sourceOf token) } := by
      unfold add
      rw [hmode]
      exact keep_of_not_isEndraw htoken name text trimStart
    have hjoin : text ++ String.join ((token :: tokens).map sourceOf)
        = text ++ sourceOf token ++ String.join (tokens.map sourceOf) := by
      rw [List.map_cons, String.join_cons, String.append_assoc]
    rw [addAll, hadd, pure_bind, ih rfl h, hjoin]

/-- The tag that ends a raw block. -/
theorem add_endraw (text : String) (line : Nat) (p : ParseState) :
    add ctx inner stray { mode := .raw "raw" false text } ((Piece.bareTag "endraw").token line) p
      = (.ok { body := Body.empty.push (.tag (.raw text)) }, { p with trimNext := false }) := by
  have hparts := tagParts?_bare (by decide : isTagName "endraw" = true)
  have hname : tagName? ((Piece.bareTag "endraw").token line) = some ("endraw", _) :=
    tagName?_eq_some_iff.mpr ⟨rfl, "", hparts⟩
  show keep _ "raw" false text _ p = _
  unfold keep
  rw [hname]
  rfl

end Builder

/-! ## Reading raw blocks -/

/-- The sources of tokens, one after the other. -/
theorem toList_join_sources (tokens : List Token) :
    (String.join (tokens.map sourceOf)).toList = TokenStream.charsOf tokens := by
  induction tokens with
  | nil => rfl
  | cons token tokens ih =>
    rw [List.map_cons, String.join_cons, String.toList_append, ih, TokenStream.charsOf_cons]

/-- Where nothing is left over, the sources of the tokens are the text. -/
theorem join_sources_of_endsClosed {s : String} {line : Nat} (h : EndsClosed s.toList line) :
    String.join ((TokenStream.scan s.toList line).tokens.map sourceOf) = s := by
  have hcut := (TokenStream.isCutOf_scan s.toList line).lossless
  rw [TokenStream.leftOver, h.1, Option.map_none, Option.getD_none, List.append_nil] at hcut
  exact String.toList_injective ((toList_join_sources _).trans hcut)

namespace Document

open TokenStream

variable {ctx : ParseContext} (hctx : ctx.registry.tags = TagKind.standard) {s : String}
  (hs : ¬ "endraw".toList <:+: s.toList) (p : ParseState)

include hctx hs

/-- A raw block around a text that ends closed is a document with nothing else. -/
theorem parse_rawSource (hclosed : EndsClosed s.toList 1) :
    (Document.parse ctx (rawSource s) p).1 = .ok (Body.empty.push (.tag (.raw s))) := by
  obtain ⟨line, htokens, hleft⟩ := scan_append opensOrEnds_endraw hclosed
  have hend := scan_bareTag (by decide : '%' ∉ "endraw".toList) (by decide) [] line
  rw [List.append_nil, scan_nil] at hend
  rw [hend] at htokens hleft
  -- The opening tag, the tokens that are kept, and the closing tag.
  have hread (inner : LinesReader) (stray : String → Parse Builder) :
      Builder.addAll ctx inner stray (ofSource (rawSource s)).tokens {} p
        = (.ok { body := Body.empty.push (.tag (.raw s)) },
            { p with line := 1, trimNext := false }) := by
    have hkept : ∀ token ∈ (scan s.toList 1).tokens, ¬token.IsEndraw :=
      fun token htoken => not_isEndraw_of_mem_scan hs htoken
    have hall : (ofSource (rawSource s)).tokens = (Piece.bareTag "raw").token 1
        :: ((scan s.toList 1).tokens ++ [(Piece.bareTag "endraw").token line]) := by
      rw [ofSource_rawSource, push, htokens]
      rfl
    rw [hall, Builder.addAll, Attempt.bind_of_ok (Builder.add_raw hctx p), Builder.addAll_append,
      Builder.addAll_kept rfl hkept, pure_bind, join_sources_of_endsClosed hclosed,
      String.empty_append, Builder.addAll, Attempt.bind_of_ok (Builder.add_endraw s line _)]
    rfl
  have hleft : (ofSource (rawSource s)).unterminated = none := by
    rw [ofSource_rawSource, push]
    exact hleft
  have hstream : Document.ofStream ctx (ofSource (rawSource s)) p
      = (.ok (Body.empty.push (.tag (.raw s))), { p with line := 1, trimNext := false }) := by
    unfold Document.ofStream
    rw [Attempt.bind_of_ok (hread _ _), hleft]
    rfl
  unfold Document.parse Attempt.mapError
  rw [hstream]

/-- A raw block around any other text has no end. -/
theorem parse_rawSource_of_open (hopen : ¬EndsClosed s.toList 1) :
    ∃ e, (Document.parse ctx (rawSource s) p).1 = .error e
      ∧ e.message = ctx.message "errors.syntax.tag_never_closed" [("block_name", "raw")] := by
  have hkept : ∀ token ∈ (scan (s.toList ++ (Piece.bareTag "endraw").chars) 1).tokens,
      ¬token.IsEndraw := fun token htoken => not_isEndraw_of_open hs hopen htoken
  -- All tokens are kept, so the block is still open at the end.
  have hstream : ∃ t, Document.ofStream ctx (ofSource (rawSource s)) p
      = ctx.refuseUnclosed "raw" t := by
    refine ⟨{ p with line := 1, trimNext := false }, ?_⟩
    unfold Document.ofStream
    rw [ofSource_rawSource, push, Builder.addAll, bind_assoc,
      Attempt.bind_of_ok (Builder.add_raw hctx p), Builder.addAll_kept rfl hkept, pure_bind]
    rfl
  obtain ⟨t, hstream⟩ := hstream
  unfold Document.parse Attempt.mapError
  rw [hstream]
  exact ⟨_, rfl, by simp [ParseContext.grammarError, Error.grammar]⟩

end Document

/-! ## Rendering raw text -/

namespace Render

/-- A text is written if the budget allows it. -/
theorem emit_of_fits (text : String) {r : RenderState} (hcaptures : r.progress.budget.captures = 0)
    (hlength : exceeds (r.progress.budget.length + text.utf8ByteSize)
      r.progress.budget.lengthCeiling = false) :
    ∃ t, emit text r = (.ok (), t) ∧ t.frame = r.frame
      ∧ t.progress.output = r.progress.output ++ text := by
  rw [emit_eq, Budget.chargeWrite_of_not_captured hcaptures, hlength]
  exact ⟨_, rfl, rfl, rfl⟩

/-- Nodes are rendered if the budget allows it. -/
theorem chargeScore_of_fits (amount : Nat) {r : RenderState}
    (hscore : exceeds (r.progress.budget.score + amount) r.progress.budget.scoreCeiling = false) :
    charge (·.chargeScore amount) r
      = (.ok (), { r with progress.budget.score := r.progress.budget.score + amount }) := by
  rw [charge_eq, Budget.chargeScore_eq, hscore]
  rfl

end Render

open Render in
/-- A document with nothing but raw text writes the text, if the budget allows it. -/
theorem Document.render_raw (settings : Settings) (s : String) {r : RenderState}
    (hstart : r.frame.interrupts = []) (hcaptures : r.progress.budget.captures = 0)
    (hscore : exceeds (r.progress.budget.score + 1) r.progress.budget.scoreCeiling = false)
    (hlength : exceeds (r.progress.budget.length + s.utf8ByteSize) r.progress.budget.lengthCeiling
      = false) :
    ∃ t, Document.render settings (Body.empty.push (.tag (.raw s))) r = (.ok (), t)
      ∧ t.progress.output = r.progress.output ++ s := by
  have hbody (partials : PartialRenderer) :
      ∃ t, Body.render settings partials (Body.empty.push (.tag (.raw s))) r = (.ok (), t)
        ∧ t.progress.output = r.progress.output ++ s := by
    -- The body is charged for its single node, and then the text is written.
    let charged : RenderState :=
      { r with progress.budget.score := r.progress.budget.score + 1 }
    obtain ⟨t, hemit, hframe, houtput⟩ := emit_of_fits s (r := charged) hcaptures hlength
    refine ⟨t, ?_, houtput⟩
    have htag : Tag.render settings partials (.raw s) charged = (.ok (), t) := by
      rw [Tag.render]
      exact hemit
    have hgoes : interrupted t = (.ok false, t) := by
      have hnone : t.frame.interrupts = [] := (congrArg Frame.interrupts hframe).trans hstart
      rw [interrupted, hnone]
      rfl
    have hnode : Node.render settings partials (.tag (.raw s)) charged = (.ok true, t) := by
      rw [Node.render, Attempt.bind_of_ok (rescuing_of_ok htag _ _), Attempt.bind_of_ok hgoes]
      rfl
    show (charge (·.chargeScore 1) >>= fun _ => Node.renderAll settings partials [.tag (.raw s)]) r
      = _
    rw [Attempt.bind_of_ok (chargeScore_of_fits 1 hscore), Node.renderAll_cons,
      Attempt.bind_of_ok hnode]
    rfl
  unfold Document.render
  cases r.progress.budget.scopesLeft with
  | zero => exact hbody _
  | succ levels => exact hbody _

namespace Template

/-- A template whose document is rendered without an error gives what was written. -/
theorem render_of_ok {t : Template} {document : Document} (hdocument : t.document = some document)
    {values : Object} {options : RenderOptions} {r : RenderState}
    (h : document.render (options.settings t.registry t.parsing false) (t.start values options)
      = (.ok (), r)) : (t.render values options).1 = .ok r.progress.output := by
  -- A run that ends well gives the output.
  have hrun : t.run values options false = (.ok r.progress.output, t.keep (.ok ()) r) := by
    unfold run
    rw [hdocument]
    dsimp only
    rw [h]
    rfl
  unfold render
  rw [hrun]

/-- A raw block is read in every error mode if no delimiter in its text is left open and the text
does not end in a brace; then it is rendered as the text, whatever delimiters there are in it.
Otherwise the block has no end. -/
theorem render_rawSource {t : Template} (hstandard : t.registry.tags = TagKind.standard)
    {s : String} (hs : ¬ "endraw".toList <:+: s.toList) (options : ParseOptions) :
    ((TokenStream.ofSource s).unterminated = none → s.toList.getLast? ≠ some '{' →
      (t.parse (rawSource s) options).1 = .ok ()
        ∧ (exceeds 1 t.budget.scoreCeiling = false →
          exceeds s.utf8ByteSize t.budget.lengthCeiling = false →
          ∀ values renderOptions,
            ((t.parse (rawSource s) options).2.render values renderOptions).1 = .ok s))
    ∧ ((TokenStream.ofSource s).unterminated ≠ none ∨ s.toList.getLast? = some '{' →
      ∃ e, (t.parse (rawSource s) options).1 = .error e
        ∧ e.message = t.registry.messages.text "errors.syntax.tag_never_closed"
            [("block_name", "raw")]) := by
  obtain ⟨p, hp⟩ : ∃ p, Document.parse (.ofOptions t.registry options) (rawSource s) {} = p :=
    ⟨_, rfl⟩
  obtain ⟨outcome, state⟩ := p
  constructor
  · -- What is closed is read back as one raw block and rendered as it is,
    intro hleft hlast
    have hread := @Document.parse_rawSource (.ofOptions t.registry options) hstandard s hs {}
      ⟨hleft, hlast⟩
    rw [hp] at hread
    subst hread
    have hparse : t.parse (rawSource s) options = (.ok (), { t with
        document := some (Body.empty.push (.tag (.raw s)))
        parsing := options
        warnings := state.warnings }) := by
      unfold parse
      rw [hp]
    rw [hparse]
    refine ⟨rfl, fun hscore hlength values renderOptions => ?_⟩
    obtain ⟨r, hrender, houtput⟩ := Document.render_raw
      (renderOptions.settings t.registry options false) s
      (r := start { t with parsing := options } values renderOptions) rfl rfl hscore
      ((Nat.zero_add _).symm ▸ hlength)
    rw [render_of_ok rfl hrender, houtput]
    exact congrArg Except.ok String.empty_append
  · -- and what is left open swallows the closing tag.
    intro hopen
    have hopen : ¬EndsClosed s.toList 1 := by
      rintro ⟨hleft, hlast⟩
      exact hopen.elim (· hleft) hlast
    obtain ⟨e, hread, hmessage⟩ := @Document.parse_rawSource_of_open
      (.ofOptions t.registry options) hstandard s hs {} hopen
    rw [hp] at hread
    subst hread
    refine ⟨e, ?_, hmessage⟩
    unfold parse
    rw [hp]

/-- Delimiters that are complete are kept, and one that is left open swallows the end. -/
theorem render_rawSource_delimiters :
    let s := "\x7b\x7b a \x7d\x7d%\x7d \x7b% b %\x7d"
    let t : Template := {}
    (t.parse (rawSource s)).1 = .ok () ∧ ((t.parse (rawSource s)).2.render []).1 = .ok s
      ∧ ∃ e, (t.parse (rawSource (s ++ "\x7b% c"))).1 = .error e := by
  intro s t
  have hs : ¬ "endraw".toList <:+: s.toList := by decide +kernel
  have hopen : ¬ "endraw".toList <:+: (s ++ "\x7b% c").toList := by decide +kernel
  have hleft : (TokenStream.ofSource s).unterminated = none := by decide +kernel
  have hlast : s.toList.getLast? ≠ some '{' := by decide +kernel
  have hmore : (TokenStream.ofSource (s ++ "\x7b% c")).unterminated ≠ none := by decide +kernel
  have hstandard : t.registry.tags = TagKind.standard := rfl
  obtain ⟨hparse, hrender⟩ := (render_rawSource hstandard hs {}).1 hleft hlast
  obtain ⟨e, herror, -⟩ := (render_rawSource hstandard hopen {}).2 (.inl hmore)
  exact ⟨hparse, hrender rfl rfl [] {}, e, herror⟩

/-- An opener of an output swallows the end of a raw block, although the block has one. -/
theorem not_render_rawSource :
    ¬ "endraw".toList <:+: "\x7b\x7b".toList
      ∧ (match (parse {} (rawSource "\x7b\x7b")).1 with
          | .ok () => none
          | .error e => some e.message) = some "'raw' tag was never closed" := by
  decide +kernel

end Template

end Stencil
