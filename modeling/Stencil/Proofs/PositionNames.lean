import Stencil.Document.Header
import Stencil.Proofs.GrammarReading
import Stencil.Proofs.Lexemes
import Stencil.Proofs.Positions

/-!
# The names of positions

A loop keeps its position under the name of its variable and the word that its collection starts
with. That word is cut out of the markup at blank characters, while the collection is read from its
tokens. The two agree where the loop is laid out so that the collection is one word; then loops over
different collections have different names, and none moves the position of the other.

## Key definitions

- `LoopHeader.Layout`: markup of a loop whose collection is the word behind `in`

## Key results

- `Text.words_append`: the words of a text that starts with a word
- `LoopHeader.derived_of_read`: what a strict reading of a loop derives
- `Moves.get?_eq`, `Document.loopStart_afterAll`: loops of other names leave a position alone
- `LoopHeader.positionName_apart`: which names are different, and what follows
-/

namespace Stencil

/-! ## Words -/

namespace Text

/-- Whether the text is one word: it has characters, and none of them is blank. -/
def isWord (s : String) : Bool :=
  !s.toList.isEmpty && s.toList.all fun c => !isBlank c

/-- Whether the text is a gap: it has characters, and markup skips all of them. -/
def isGap (s : String) : Bool :=
  !s.toList.isEmpty && s.toList.all isAsciiBlank

/-- The blanks of markup are blanks. -/
theorem isBlank_of_isAsciiBlank {c : Char} (h : isAsciiBlank c = true) : isBlank c = true := by
  rcases cases_of_isAsciiBlank h with rfl | rfl | rfl | rfl | rfl <;> decide

/-- Characters that are not blank go on with the word being read. -/
theorem wordsFrom_append {cs : List Char} (hcs : (cs.all fun c => !isBlank c) = true)
    (word rest : List Char) :
    wordsFrom word (cs ++ rest) = wordsFrom (cs.reverse ++ word) rest := by
  induction cs generalizing word with
  | nil => rfl
  | cons c cs ih =>
    rw [List.all_cons, Bool.and_eq_true, Bool.not_eq_true'] at hcs
    rw [List.cons_append, wordsFrom, hcs.1, if_neg Bool.false_ne_true, ih hcs.2,
      List.reverse_cons, List.append_assoc, List.singleton_append]

/-- A word ends at the end of the text or at a blank. -/
theorem wordsFrom_of_blank {word : List Char} (hword : word ≠ []) {rest : List Char}
    (hrest : rest.head?.all isAsciiBlank = true) :
    wordsFrom word rest = word.reverse :: wordsFrom [] rest := by
  have hword : word.isEmpty = false := by simpa using hword
  obtain rfl | ⟨b, rest, rfl, hb⟩ := eq_nil_or_blank hrest
  · rw [wordsFrom, if_neg (by simp [hword])]
    rfl
  · simp [wordsFrom, isBlank_of_isAsciiBlank hb, hword]

/-- The words of a text that starts with a word. -/
theorem words_append {w : String} (hw : isWord w = true) {rest : String}
    (hrest : rest.toList.head?.all isAsciiBlank = true) : words (w ++ rest) = w :: words rest := by
  rw [isWord, Bool.and_eq_true, Bool.not_eq_true', List.isEmpty_eq_false_iff] at hw
  have hreverse : w.toList.reverse ++ [] ≠ [] := by simpa using hw.1
  rw [words, String.toList_append, wordsFrom_append hw.2, wordsFrom_of_blank hreverse hrest,
    List.map_cons]
  simp [words]

/-- Blanks at the front are no word. -/
theorem wordsFrom_blanks_append {blanks : List Char} (h : blanks.all isAsciiBlank = true)
    (cs : List Char) : wordsFrom [] (blanks ++ cs) = wordsFrom [] cs := by
  induction blanks with
  | nil => rfl
  | cons b blanks ih =>
    rw [List.all_cons, Bool.and_eq_true] at h
    rw [List.cons_append, wordsFrom, if_pos (isBlank_of_isAsciiBlank h.1)]
    exact ih h.2

/-- A gap is made of blanks. -/
theorem all_of_isGap {gap : String} (h : isGap gap = true) :
    gap.toList.all isAsciiBlank = true :=
  ((Bool.and_eq_true _ _).mp h).2

/-- A gap in front is no word. -/
theorem words_gap_append {gap : String} (h : isGap gap = true) (s : String) :
    words (gap ++ s) = words s := by
  rw [words, String.toList_append, wordsFrom_blanks_append (all_of_isGap h), words]

/-- What is in front of a gap ends there. -/
theorem head?_gap_append {gap : String} (h : isGap gap = true) (s : String) :
    (gap ++ s).toList.head?.all isAsciiBlank = true := by
  rw [String.toList_append]
  unfold isGap at h
  cases hgap : gap.toList with
  | nil =>
    rw [hgap] at h
    exact nomatch h
  | cons b bs =>
    simp only [hgap, List.all_cons, Bool.and_eq_true] at h
    simpa using h.2.1

end Text

/-! ## What is read -/

namespace Reader

open Grammar Attempt

/-- A segment is no keyword. -/
theorem startsKeyword_of_startsSegment {tokens : List MarkupToken}
    (h : startsSegment tokens = true) : startsKeyword tokens = false := by
  unfold startsSegment at h
  split at h
  · rfl
  · rfl
  · exact nomatch h

/-- What goes on as a path is no word of the header. -/
theorem takesWord_of_startsSegment {tokens : List MarkupToken} (h : startsSegment tokens = true)
    (word : String) : takesWord word tokens = (.ok false, tokens) :=
  takesWord_of_ne fun rest hrest => by
    rw [hrest] at h
    exact nomatch h

end Reader

namespace LoopHeader

open Reader Grammar Attempt

/-- A clause leaves the item and the collection of a header. -/
private theorem front_of_clause {messages : Catalogue} {strict : Bool} {key : String}
    {header header' : LoopHeader} {tokens rest : List MarkupToken}
    (h : attributesUpTo.clause messages strict key header tokens = (.ok header', rest)) :
    header'.item = header.item ∧ header'.collection = header.collection := by
  unfold attributesUpTo.clause at h
  -- One case for each key, none of which touches the item or the collection.
  split at h
  · obtain ⟨goesOn, rest₁, hgoesOn, h⟩ := ok_of_bind h
    cases goesOn with
    | true =>
      cases h
      exact ⟨rfl, rfl⟩
    | false =>
      obtain ⟨e, rest₂, he, h⟩ := ok_of_bind h
      cases h
      exact ⟨rfl, rfl⟩
  · obtain ⟨e, rest₁, he, h⟩ := ok_of_bind h
    cases h
    exact ⟨rfl, rfl⟩
  · split at h
    · exact nomatch h
    · obtain ⟨e, rest₁, he, h⟩ := ok_of_bind h
      cases h
      exact ⟨rfl, rfl⟩

/-- Attributes change neither the variable nor the collection. -/
theorem front_of_attributesUpTo {messages : Catalogue} {strict : Bool} {bound : Nat}
    {header header' : LoopHeader} {tokens rest : List MarkupToken}
    (h : attributesUpTo messages strict bound header tokens = (.ok header', rest)) :
    header'.item = header.item ∧ header'.collection = header.collection := by
  induction bound generalizing header tokens with
  | zero =>
    cases h
    exact ⟨rfl, rfl⟩
  | succ bound ih =>
    obtain ⟨left, rest₁, hget, h⟩ := ok_of_bind h
    cases hget
    split at h
    · obtain ⟨key, rest₂, hkey, h⟩ := ok_of_bind h
      obtain ⟨u, rest₃, hcolon, h⟩ := ok_of_bind h
      obtain ⟨next, rest₄, hclause, h⟩ := ok_of_bind h
      obtain ⟨comma, rest₅, hcomma, h⟩ := ok_of_bind h
      obtain ⟨hitem, hcollection⟩ := ih h
      obtain ⟨hitem', hcollection'⟩ := front_of_clause hclause
      exact ⟨hitem.trans hitem', hcollection.trans hcollection'⟩
    · cases h
      exact ⟨rfl, rfl⟩

/-- There are no attributes where a segment comes next. -/
theorem attributesUpTo_of_startsSegment {tokens : List MarkupToken}
    (h : startsSegment tokens = true) (messages : Catalogue) (strict : Bool) (bound : Nat)
    (header : LoopHeader) :
    attributesUpTo messages strict bound header tokens = (.ok header, tokens) := by
  cases bound with
  | zero => rfl
  | succ bound =>
    rw [attributesUpTo, bind_apply]
    dsimp only [Attempt.get]
    rw [if_neg (by simp [startsKeyword_of_startsSegment h])]
    rfl

/-- A loop that is read strictly starts with its variable, the word `in` and its collection, and no
segment follows that. -/
theorem derived_of_read {messages : Catalogue} {tokens rest : List MarkupToken}
    {header : LoopHeader} (h : read messages true tokens = (.ok header, rest)) :
    ∃ (t : Expr) (behind : List MarkupToken),
      tokens = .id header.item :: .id "in" :: (t.tokens ++ behind)
        ∧ t.value = header.collection ∧ startsSegment behind = false := by
  obtain ⟨item, rest₁, hitem, h⟩ := ok_of_bind h
  obtain ⟨isIn, rest₂, hin, h⟩ := ok_of_bind h
  cases isIn with
  | false => exact nomatch (Prod.mk.inj h).1
  | true =>
    obtain ⟨collection, rest₃, hcollection, h⟩ := ok_of_bind h
    obtain ⟨reversed, rest₄, hreversed, h⟩ := ok_of_bind h
    obtain ⟨left, rest₅, hget, h⟩ := ok_of_bind h
    cases hget
    obtain ⟨header', rest₅, hattributes, h⟩ := ok_of_bind h
    obtain ⟨u, rest₆, hend, h⟩ := ok_of_bind h
    cases h
    obtain ⟨t, rfl, rfl, -⟩ := derived_of_expressionWithin hcollection
    obtain ⟨hvariable, hvalue⟩ := front_of_attributesUpTo hattributes
    refine ⟨t, rest₃, ?_, hvalue.symm, ?_⟩
    · have hword : rest₁ = .id "in" :: (t.tokens ++ rest₃) := eq_of_takesWord hin
      rw [eq_cons_of_name hitem, hword, hvariable]
    · -- A segment would be left over, and nothing must be.
      by_contra hsegment
      rw [Bool.not_eq_false] at hsegment
      rw [takesWord_of_startsSegment hsegment] at hreversed
      cases hreversed
      rw [attributesUpTo_of_startsSegment hsegment] at hattributes
      cases hattributes
      rw [eq_nil_of_expectEnd hend] at hsegment
      exact nomatch hsegment

/-! ## Layouts -/

/-- The markup of a loop that is laid out in words: its variable, the word `in`, and a word that the
whole collection stands in. -/
structure Layout where
  item : String
  /-- The gap in front of the word `in`. -/
  before : String := " "
  /-- The gap behind the word `in`. -/
  behind : String := " "
  /-- The word that the collection stands in. -/
  word : String
  /-- What follows that word. -/
  rest : String := ""
  /-- How the collection is written. -/
  collection : Expr
  /-- What follows the collection in its word. -/
  more : List MarkupToken := []
  item_isWord : Text.isWord item = true := by decide
  item_ne_in : item ≠ "in" := by decide
  lexStrict_item : lexStrict item = .ok [.id item] := by
    exact lexStrict_eq_ok_iff.mpr (by decide +kernel)
  before_isGap : Text.isGap before = true := by decide
  behind_isGap : Text.isGap behind = true := by decide
  word_isWord : Text.isWord word = true := by decide
  lexStrict_word : lexStrict word = .ok (collection.tokens ++ more) := by
    exact lexStrict_eq_ok_iff.mpr (by decide +kernel)
  rest_blank : rest.toList.head?.all isAsciiBlank = true := by decide
  /-- The collection does not go on behind its word. -/
  collection_ends : startsSegment (more ++ lexLax rest) = false := by decide +kernel

namespace Layout

/-- The text that is laid out. -/
def markup (l : Layout) : String :=
  l.item ++ (l.before ++ ("in" ++ (l.behind ++ (l.word ++ l.rest))))

/-- The words of a header are those of its layout. -/
theorem words_markup (l : Layout) :
    Text.words l.markup = l.item :: "in" :: l.word :: Text.words l.rest := by
  rw [markup, Text.words_append l.item_isWord (Text.head?_gap_append l.before_isGap _),
    Text.words_gap_append l.before_isGap,
    Text.words_append (by decide) (Text.head?_gap_append l.behind_isGap _),
    Text.words_gap_append l.behind_isGap, Text.words_append l.word_isWord l.rest_blank]

/-- The word that names the position is the one that the collection stands in. -/
theorem collectionWord_markup (l : Layout) : collectionWord l.markup = l.word := by
  rw [collectionWord, words_markup, List.dropWhile_cons_of_pos (by simpa using l.item_ne_in),
    List.dropWhile_cons_of_neg (by simp)]

/-- The word between is a name. -/
private theorem lexStrict_in : lexStrict "in" = .ok [.id "in"] :=
  lexStrict_eq_ok_iff.mpr (by decide +kernel)

/-- The tokens of the markup. -/
theorem eq_of_lexStrict_markup (l : Layout) {tokens : List MarkupToken}
    (h : lexStrict l.markup = .ok tokens) :
    tokens = .id l.item :: .id "in" :: (l.collection.tokens ++ (l.more ++ lexLax l.rest)) := by
  -- Each part ends where a blank comes next, so the parts are read one by one.
  rw [markup, lexStrict_append l.lexStrict_item (Text.head?_gap_append l.before_isGap _),
    lexStrict_blanks_append (Text.all_of_isGap l.before_isGap),
    lexStrict_append lexStrict_in (Text.head?_gap_append l.behind_isGap _),
    lexStrict_blanks_append (Text.all_of_isGap l.behind_isGap),
    lexStrict_append l.lexStrict_word l.rest_blank] at h
  cases hrest : lexStrict l.rest with
  | error e =>
    rw [hrest] at h
    exact nomatch h
  | ok behind =>
    rw [hrest] at h
    rw [lexLax_of_lexStrict_eq_ok hrest, ← Except.ok.inj h]
    simp

/-- What a strict reading finds is what was laid out. -/
theorem header_eq (l : Layout) {messages : Catalogue} {header : LoopHeader}
    (h : onStrict (read messages true) l.markup = .ok header) :
    header.item = l.item ∧ header.collection = l.collection.value := by
  unfold onStrict at h
  split at h
  · rename_i tokens htokens
    have hread : read messages true tokens = (.ok header, (read messages true tokens).2) :=
      Prod.ext h rfl
    obtain ⟨t, behind, rfl, hvalue, hbehind⟩ := derived_of_read hread
    have heq := l.eq_of_lexStrict_markup htokens
    simp only [List.cons.injEq, MarkupToken.id.injEq, true_and] at heq
    obtain ⟨hitem, hcollection⟩ := heq
    -- On neither side a segment follows, so the same expression was derived.
    obtain ⟨rfl, -⟩ := t.eq_of_tokens_append _ hbehind l.collection_ends hcollection
    exact ⟨hitem, hvalue.symm⟩
  · exact nomatch h

/-- What a word starts with is determined by the word. -/
theorem collection_eq_of_word_eq {l l' : Layout} (h : l.word = l'.word) :
    l.collection = l'.collection := by
  -- What follows in the word decides whether a segment comes next, if anything follows there.
  have hends (l : Layout) : startsSegment l.more = false := by
    have hl := l.collection_ends
    cases hmore : l.more with
    | nil => rfl
    | cons token more =>
      rw [hmore] at hl
      cases token <;> first | rfl | exact hl
  have hword := l.lexStrict_word
  rw [h, l'.lexStrict_word] at hword
  exact (Expr.eq_of_tokens_append _ _ (hends l') (hends l) (Except.ok.inj hword)).1.symm

end Layout

/-- With one variable, the names of two positions differ as the words do. -/
theorem positionName_eq_iff {header header' : LoopHeader} (hitem : header.item = header'.item)
    (markup markup' : String) :
    header.positionName markup = header'.positionName markup'
      ↔ collectionWord markup = collectionWord markup' := by
  rw [positionName, positionName, hitem]
  exact String.append_right_inj _

end LoopHeader

/-! ## Other names -/

open Render

/-- Loops of other names leave a position alone. -/
theorem Moves.get?_eq {settings : Settings} {p q : Assoc Nat} {entries : List LoopEntry}
    (h : Moves settings p entries q) {name : String}
    (hname : ∀ entry ∈ entries, entry.name ≠ name) : q.get? name = p.get? name := by
  induction h with
  | done => rfl
  | @enter entry entries t q hslice _ ih =>
    have hputs : Puts entry.name (loopSlice settings entry.name entry.header) :=
      Puts.loopSlice entry.name entry.header
    have hput := hputs entry.state
    rw [hslice] at hput
    -- The first loop puts its own position, and the loops behind it put theirs.
    obtain ⟨position, hposition⟩ := hput
    have hne : ¬ name = entry.name := (hname entry (List.mem_cons_self ..)).symm
    rw [ih fun entry' hmem => hname entry' (List.mem_cons_of_mem _ hmem), hposition,
      Assoc.get?_put, if_neg hne]

/-- A loop goes on from the same place after loops of other names. -/
theorem Document.loopStart_afterAll {settings : Settings} {documents : List Document}
    {s : RenderState} {name : String}
    (hname : ∀ entry ∈ entriesOfAll settings documents s, entry.name ≠ name) :
    (loopStart settings name (some .continue) (afterAll settings documents s)).1
      = (loopStart settings name (some .continue) s).1 := by
  have hkept : (afterAll settings documents s).positions.get? name = s.positions.get? name :=
    (moves_entriesOfAll documents s).get?_eq hname
  exact congrArg (fun position => Except.ok (position.getD 0)) hkept

/-- Two loops with one variable are read strictly. The names of their positions differ exactly if
the words behind the first `in` of their markup do, and those differ with the collections where both
loops are laid out in words. Where the names differ, the first loop goes on from the same place
whatever loops of the second one's name, or of any other name, are rendered before it. -/
theorem LoopHeader.positionName_apart {messages : Catalogue} {markup markup' : String}
    {header header' : LoopHeader}
    (hread : Reader.onStrict (read messages true) markup = .ok header)
    (hread' : Reader.onStrict (read messages true) markup' = .ok header')
    (hitem : header.item = header'.item) :
    let name := header.positionName markup
    let name' := header'.positionName markup'
    (name ≠ name' ↔ collectionWord markup ≠ collectionWord markup')
      ∧ (∀ l l' : Layout, l.markup = markup → l'.markup = markup' →
        header.collection ≠ header'.collection → name ≠ name')
      ∧ (name ≠ name' → ∀ (settings : Settings) (documents : List Document) (s : RenderState),
        (∀ entry ∈ Document.entriesOfAll settings documents s,
          entry.name = name' ∨ entry.name ≠ name) →
        (loopStart settings name (some .continue) (Document.afterAll settings documents s)).1
          = (loopStart settings name (some .continue) s).1) := by
  intro name name'
  have hwords : name = name' ↔ collectionWord markup = collectionWord markup' :=
    positionName_eq_iff hitem _ _
  refine ⟨not_congr hwords, ?_, ?_⟩
  · rintro l l' rfl rfl hcollection hname
    have hword := hwords.mp hname
    rw [l.collectionWord_markup, l'.collectionWord_markup] at hword
    -- One word holds one collection.
    refine hcollection ?_
    rw [(l.header_eq hread).2, (l'.header_eq hread').2, Layout.collection_eq_of_word_eq hword]
  · intro hname settings documents s hentries
    refine Document.loopStart_afterAll fun entry hmem => ?_
    rcases hentries entry hmem with h | h
    · exact h ▸ hname.symm
    · exact h

/-- What a strict reading finds, from the tokens of the markup. -/
private theorem onStrict_of_tokens {α : Type} {reader : Reader α} {markup : String}
    {tokens : List MarkupToken} {a : α}
    (htokens : (lexemes markup.toList).findSome? Lexeme.stray? = none
      ∧ (lexemes markup.toList).filterMap Lexeme.token? = tokens)
    (ha : (reader tokens).1 = .ok a) : Reader.onStrict reader markup = .ok a := by
  rw [Reader.onStrict, lexStrict_eq_ok_iff.mpr htokens]
  exact ha

/-- Two loops over ranges that are written as words. The second one is rendered, and the first one
still goes on behind its first item. -/
theorem LoopHeader.positionName_apart_ranges :
    let l : Layout := { item := "i", word := "(1..2)", collection := .range (.int 1) (.int 2) .nil }
    let l' : Layout :=
      { item := "i", word := "(1..4)", rest := " limit: 3"
        collection := .range (.int 1) (.int 4) .nil }
    let header : LoopHeader := { item := "i", collection := .literal (.range 1 2) }
    let header' : LoopHeader :=
      { item := "i", collection := .literal (.range 1 4), limit := some (.literal (.int 3)) }
    let name := header.positionName l.markup
    let name' := header'.positionName l'.markup
    let document : Document :=
      .mk [.tag (.loop name' header' (.mk [] false) none none false)] false
    let s : RenderState := { progress.registers.positions := [(name, 1)] }
    Reader.onStrict (read {} true) l.markup = .ok header
      ∧ Reader.onStrict (read {} true) l'.markup = .ok header'
      ∧ name ≠ name'
      ∧ (Document.entriesOfAll {} [document] s).map (·.name) = [name']
      ∧ (loopStart {} name (some .continue) (Document.afterAll {} [document] s)).1 = .ok 1 := by
  intro l l' header header' name name' document s
  have hread : Reader.onStrict (read {} true) l.markup = .ok header :=
    onStrict_of_tokens (by decide +kernel : _ ∧ _ = [.id "i", .id "in", .openRound, .int 1, .dotDot,
      .int 2, .closeRound]) rfl
  have hread' : Reader.onStrict (read {} true) l'.markup = .ok header' :=
    onStrict_of_tokens (by decide +kernel : _ ∧ _ = [.id "i", .id "in", .openRound, .int 1, .dotDot,
      .int 4, .closeRound, .id "limit", .colon, .int 3]) rfl
  have hcollection : header.collection ≠ header'.collection := by
    simp [header, header']
  have hentries : (Document.entriesOfAll {} [document] s).map (·.name) = [name'] := by
    decide +kernel
  -- The keys differ by the collections, so the second loop finds no position of the first.
  obtain ⟨-, hapart, hkept⟩ := positionName_apart hread hread' rfl
  have hname : name ≠ name' := hapart l l' rfl rfl hcollection
  refine ⟨hread, hread', hname, hentries, (hkept hname {} [document] s ?_).trans ?_⟩
  · intro entry hmem
    have hmem := List.mem_map_of_mem (f := (·.name)) hmem
    rw [hentries] at hmem
    exact .inl (List.mem_singleton.mp hmem)
  · decide +kernel

/-- Only the first of the words that a collection is written in gets into the name. So these two
loops, over different ranges, share their position. -/
theorem LoopHeader.not_positionName_apart_blanks :
    let header : LoopHeader := { item := "i", collection := .literal (.range 1 2) }
    let header' : LoopHeader :=
      { item := "i", collection := .literal (.range 1 4), offset := some .continue }
    Reader.onStrict (read {} true) "i in (1 .. 2)" = .ok header
      ∧ Reader.onStrict (read {} true) "i in (1 .. 4) offset: continue" = .ok header'
      ∧ header.collection ≠ header'.collection
      ∧ header.positionName "i in (1 .. 2)" = "i-(1"
      ∧ header'.positionName "i in (1 .. 4) offset: continue" = "i-(1" := by
  intro header header'
  refine ⟨?_, ?_, by simp [header, header'], by decide +kernel, by decide +kernel⟩
  · -- Each header is read as a range, whatever blanks stand around the dots.
    exact onStrict_of_tokens (by decide +kernel : _ ∧ _ = [.id "i", .id "in", .openRound, .int 1,
      .dotDot, .int 2, .closeRound]) rfl
  · exact onStrict_of_tokens (by decide +kernel : _ ∧ _ = [.id "i", .id "in", .openRound, .int 1,
      .dotDot, .int 4, .closeRound, .id "offset", .colon, .id "continue"]) rfl

end Stencil
