import Stencil.Markup.Recovery
import Stencil.Proofs.Grammar
import Stencil.Proofs.Outcome

/-!
# Strict readers and the grammar

What a strict reader of expressions and filters accepts are the tokens that a tree of the grammar
derives, and it gives what the tree stands for. In one direction the readers follow the tree; the
token that comes next decides each of their choices, so what follows a tree must be of a kind that
cannot extend it. In the other direction a successful reading gives the tree back.

## Key results

- `Grammar.Expr.read_tokens`, `Grammar.Output.read_tokens`: what is derived is read
- `Reader.derived_of_expressionWithin`, `Reader.derived_of_pipelineStrict`: what is read is derived
- `Reader.pipelineStrict_iff_derived`: the two together, with the uniqueness of derivations
-/

namespace Stencil

open Attempt Reader Grammar

namespace Reader

/-- The filter of that name, with the arguments that follow it if there is a colon. -/
def filterNamed (name : String) : Reader FilterCall := do
  if ← takes .colon then arguments { name } else return { name }

/-- One filter is read, and then the others. -/
theorem filtersUpTo_succ (bound : Nat) :
    filtersUpTo (bound + 1) = do
      if ← takes .pipe then
        let call ← name >>= filterNamed
        let more ← filtersUpTo bound
        return call :: more
      else return [] := by
  rw [filtersUpTo]
  congr 1
  funext found
  cases found with
  | false => rfl
  | true =>
    simp only [if_true, bind_assoc, filterNamed]
    congr 1
    funext name
    congr 1
    funext found
    cases found <;> rfl

end Reader

/-! ## What is derived is read -/

namespace Grammar

/-- The integer of a numeral is that of the literal it stands for. -/
theorem Expr.literalInteger?_value (e : Expr) : literalInteger? e.value = e.integer? := by
  cases e with
  | str text => rfl
  | int n => rfl
  | float x => rfl
  | id name path =>
    rw [Expr.value]
    split
    · rename_i literal _ hkeyword
      -- No keyword is a number.
      unfold keyword? at hkeyword
      split at hkeyword <;> cases hkeyword <;> rfl
    · rfl
  | bracketed name path => rfl
  | range first last path =>
    rw [Expr.value]
    split
    · split <;> rfl
    · rfl

/-- A path without segments is the empty one. -/
theorem Path.isEmpty_segments (path : Path) : path.segments.isEmpty = path.isNil := by
  cases path <;> rfl

/-- A name with a path is read as the value of the expression. -/
theorem Expr.named_segments (name : String) (path : Path) :
    named name path.segments = (Expr.id name path).value := by
  rw [Expr.value]
  cases path with
  | nil => cases h : keyword? name <;> simp [named, Path.segments, Path.isNil, h]
  | key key rest => simp [named, Path.segments, Path.isNil]
  | dot name' rest => simp [named, Path.segments, Path.isNil]

/-- So is a range, with or without a path behind it. -/
theorem Expr.range_segments (first last : Expr) (path : Path) :
    (if path.segments.isEmpty then rangeOf first.value last.value
      else .path (rangeOf first.value last.value) path.segments)
      = (Expr.range first last path).value := by
  rw [Path.isEmpty_segments, rangeOf, first.literalInteger?_value, last.literalInteger?_value]
  rfl

/-- Without a segment no more are read. -/
theorem segmentsUpTo_of_startsSegment {rest : List MarkupToken} (h : startsSegment rest = false)
    (inner : Reader Expression) (bound : Nat) : segmentsUpTo inner bound rest = (.ok [], rest) := by
  cases bound with
  | zero => rfl
  | succ bound =>
    rw [segmentsUpTo]
    dsimp only
    split
    · exact nomatch h
    · exact nomatch h
    · rfl

mutual

/-- An expression is read as what it stands for if it is not nested too deep. -/
theorem Expr.read_tokens (e : Expr) {levels : Nat} (hlevels : e.nesting < levels)
    {rest : List MarkupToken} (hrest : startsSegment rest = false) :
    expressionWithin levels (e.tokens ++ rest) = (.ok e.value, rest) := by
  obtain ⟨levels, rfl⟩ : ∃ n, levels = n + 1 := ⟨levels - 1, by omega⟩
  cases e with
  | str text => rfl
  | int n => rfl
  | float x => rfl
  | id name path =>
    have hpath : segments (expressionWithin levels) (path.tokens ++ rest)
        = (.ok path.segments, rest) := by
      simp only [Expr.nesting] at hlevels
      exact Path.read_tokens path (by omega) hrest (Nat.le_refl _)
    show (segments (expressionWithin levels) >>= fun path => pure (named name path))
      (path.tokens ++ rest) = _
    rw [bind_of_ok hpath, pure_apply, Expr.named_segments]
  | bracketed name path =>
    simp only [Expr.nesting] at hlevels
    have hname : expressionWithin levels (name.tokens ++ .closeSquare :: (path.tokens ++ rest))
        = (.ok name.value, .closeSquare :: (path.tokens ++ rest)) :=
      Expr.read_tokens name (by omega) rfl
    have hclose : expect .closeSquare (.closeSquare :: (path.tokens ++ rest))
        = (.ok (), path.tokens ++ rest) := rfl
    have hpath : segments (expressionWithin levels) (path.tokens ++ rest)
        = (.ok path.segments, rest) :=
      Path.read_tokens path (by omega) hrest (Nat.le_refl _)
    rw [Expr.tokens, List.cons_append, List.append_assoc, List.cons_append]
    show (do
      let name ← expressionWithin levels
      expect .closeSquare
      let path ← segments (expressionWithin levels)
      return .lookup name path : Reader Expression) _ = _
    rw [bind_of_ok hname, bind_of_ok hclose, bind_of_ok hpath]
    rfl
  | range first last path =>
    simp only [Expr.nesting] at hlevels
    have hfirst : expressionWithin levels
        (first.tokens ++ .dotDot :: (last.tokens ++ .closeRound :: (path.tokens ++ rest)))
          = (.ok first.value, .dotDot :: (last.tokens ++ .closeRound :: (path.tokens ++ rest))) :=
      Expr.read_tokens first (by omega) rfl
    have hdots : expect .dotDot (.dotDot :: (last.tokens ++ .closeRound :: (path.tokens ++ rest)))
        = (.ok (), last.tokens ++ .closeRound :: (path.tokens ++ rest)) := rfl
    have hlast : expressionWithin levels (last.tokens ++ .closeRound :: (path.tokens ++ rest))
        = (.ok last.value, .closeRound :: (path.tokens ++ rest)) :=
      Expr.read_tokens last (by omega) rfl
    have hclose : expect .closeRound (.closeRound :: (path.tokens ++ rest))
        = (.ok (), path.tokens ++ rest) := rfl
    have hpath : segments (expressionWithin levels) (path.tokens ++ rest)
        = (.ok path.segments, rest) :=
      Path.read_tokens path (by omega) hrest (Nat.le_refl _)
    rw [Expr.tokens, List.cons_append, List.append_assoc, List.cons_append, List.append_assoc,
      List.cons_append, ← Expr.range_segments]
    show (do
      let first ← expressionWithin levels
      expect .dotDot
      let last ← expressionWithin levels
      expect .closeRound
      let range := rangeOf first last
      let path ← segments (expressionWithin levels)
      return if path.isEmpty then range else .path range path : Reader Expression) _ = _
    rw [bind_of_ok hfirst, bind_of_ok hdots, bind_of_ok hlast, bind_of_ok hclose, bind_of_ok hpath]
    rfl

/-- Segments are read as what they stand for. -/
theorem Path.read_tokens (path : Path) {levels : Nat} (hlevels : path.nesting ≤ levels)
    {rest : List MarkupToken} (hrest : startsSegment rest = false) {bound : Nat}
    (hbound : (path.tokens ++ rest).length ≤ bound) :
    segmentsUpTo (expressionWithin levels) bound (path.tokens ++ rest)
      = (.ok path.segments, rest) := by
  cases path with
  | nil => exact segmentsUpTo_of_startsSegment hrest _ _
  | key key more =>
    simp only [Path.nesting] at hlevels
    simp only [Path.tokens, List.cons_append, List.append_assoc, List.length_cons,
      List.length_append] at hbound
    obtain ⟨bound, rfl⟩ : ∃ n, bound = n + 1 := ⟨bound - 1, by omega⟩
    have hkey : expressionWithin levels (key.tokens ++ .closeSquare :: (more.tokens ++ rest))
        = (.ok key.value, .closeSquare :: (more.tokens ++ rest)) :=
      Expr.read_tokens key (by omega) rfl
    have hclose : expect .closeSquare (.closeSquare :: (more.tokens ++ rest))
        = (.ok (), more.tokens ++ rest) := rfl
    have hmore : segmentsUpTo (expressionWithin levels) bound (more.tokens ++ rest)
        = (.ok more.segments, rest) :=
      Path.read_tokens more (by omega) hrest (by simp only [List.length_append]; omega)
    rw [Path.tokens, List.cons_append, List.append_assoc, List.cons_append]
    show (do
      let key ← expressionWithin levels
      expect .closeSquare
      let more ← segmentsUpTo (expressionWithin levels) bound
      return .mk key false :: more : Reader (List Segment)) _ = _
    rw [bind_of_ok hkey, bind_of_ok hclose, bind_of_ok hmore]
    rfl
  | dot name more =>
    simp only [Path.nesting] at hlevels
    simp only [Path.tokens, List.cons_append, List.length_cons] at hbound
    obtain ⟨bound, rfl⟩ : ∃ n, bound = n + 1 := ⟨bound - 1, by omega⟩
    have hname : Reader.name (.id name :: (more.tokens ++ rest))
        = (.ok name, more.tokens ++ rest) := rfl
    have hmore : segmentsUpTo (expressionWithin levels) bound (more.tokens ++ rest)
        = (.ok more.segments, rest) :=
      Path.read_tokens more hlevels hrest (by omega)
    show (do
      let member ← Reader.name
      let more ← segmentsUpTo (expressionWithin levels) bound
      return .mk (.literal (.str member)) true :: more : Reader (List Segment))
        (.id name :: (more.tokens ++ rest)) = _
    rw [bind_of_ok hname, bind_of_ok hmore]
    rfl

end

/-! ### Filters -/

/-- The argument that the tree stands for. -/
def Arg.argument : Arg → Argument
  | positional value => .positional value.value
  | keyword name value => .keyword name value.value

/-- The tokens of an argument are read back as the argument. -/
theorem Arg.read_tokens (arg : Arg) (hnesting : arg.value.nesting < maxNesting)
    {rest : List MarkupToken} (hrest : endsArg rest = true) :
    Reader.argument (arg.tokens ++ rest) = (.ok arg.argument, rest) := by
  have hsegment := startsSegment_of_endsArg hrest
  cases arg with
  | positional value =>
    have hvalue : expression (value.tokens ++ rest) = (.ok value.value, rest) :=
      value.read_tokens hnesting hsegment
    show Reader.argument (value.tokens ++ rest) = _
    unfold Reader.argument
    split
    · -- Then a name and a colon would start the expression.
      exact absurd ‹_› (value.tokens_append_ne_keyword hrest)
    · rw [bind_of_ok hvalue]
      rfl
  | keyword name value =>
    have hvalue : expression (value.tokens ++ rest) = (.ok value.value, rest) :=
      value.read_tokens hnesting hsegment
    show (do
      let value ← expression
      return Argument.keyword name value : Reader Argument) (value.tokens ++ rest) = _
    rw [bind_of_ok hvalue]
    rfl

/-- Arguments are added in order, by position and by name apart. -/
theorem foldl_addArgument (call : FilterCall) (args : List Arg) :
    (args.map Arg.argument).foldl addArgument call
      = { name := call.name
          args := call.args ++ args.filterMap Arg.positional?
          keywords := call.keywords ++ args.filterMap Arg.keyword? } := by
  induction args generalizing call with
  | nil => simp
  | cons arg args ih =>
    rw [List.map_cons, List.foldl_cons, ih]
    cases arg <;>
      simp [Arg.argument, addArgument, List.filterMap_cons, Arg.positional?, Arg.keyword?]

/-- What ends a filter starts with nothing but a pipe. -/
theorem takes_of_endsFilter {rest : List MarkupToken} (hrest : endsFilter rest = true)
    {kind : MarkupToken.Kind} (hpipe : kind ≠ .pipe) (hend : kind ≠ .endOfMarkup) :
    takes kind rest = (.ok false, rest) := by
  have hkind : kindOf rest ≠ kind := by
    unfold endsFilter at hrest
    split at hrest
    · exact hend.symm
    · exact hpipe.symm
    · exact nomatch hrest
  rw [takes, if_neg hkind]

/-- Arguments are read one after the other, as long as commas come between them. -/
theorem argumentsUpTo_tokens (arg : Arg) (args : List Arg)
    (hnesting : ∀ a ∈ arg :: args, a.value.nesting < maxNesting) {rest : List MarkupToken}
    (hrest : endsFilter rest = true) {bound : Nat} (hbound : args.length < bound)
    (call : FilterCall) :
    argumentsUpTo bound call (arg.tokens ++ (moreArgTokens args ++ rest))
      = (.ok (((arg :: args).map Arg.argument).foldl addArgument call), rest) := by
  obtain ⟨harg, hargs⟩ := List.forall_mem_cons.mp hnesting
  have hfirst := arg.read_tokens harg (endsArg_moreArgTokens args hrest)
  obtain ⟨bound, rfl⟩ : ∃ n, bound = n + 1 := ⟨bound - 1, by omega⟩
  rw [argumentsUpTo, bind_of_ok hfirst]
  -- By induction on the arguments behind the first one, each of them with its comma.
  induction args generalizing arg call bound with
  | nil =>
    have hcomma : takes .comma rest = (.ok false, rest) :=
      takes_of_endsFilter hrest (by decide) (by decide)
    exact bind_of_ok hcomma _
  | cons next args ih =>
    obtain ⟨hnext, hmore⟩ := List.forall_mem_cons.mp hargs
    have hcomma : takes .comma (.comma :: (next.tokens ++ (moreArgTokens args ++ rest)))
        = (.ok true, next.tokens ++ (moreArgTokens args ++ rest)) := rfl
    have hread := next.read_tokens hnext (endsArg_moreArgTokens args hrest)
    simp only [List.length_cons] at hbound
    obtain ⟨bound, rfl⟩ : ∃ n, bound = n + 1 := ⟨bound - 1, by omega⟩
    have hrec := ih next hargs (addArgument call arg.argument) hnext hmore hread bound (by omega)
    rw [show moreArgTokens (next :: args) ++ rest
      = .comma :: (next.tokens ++ (moreArgTokens args ++ rest)) by simp [moreArgTokens],
      bind_of_ok hcomma]
    show argumentsUpTo (bound + 1) (addArgument call arg.argument) _ = _
    rw [argumentsUpTo, bind_of_ok hread]
    exact hrec

/-- Each argument has a token at least. -/
theorem length_le_moreArgTokens (args : List Arg) : args.length ≤ (moreArgTokens args).length := by
  induction args with
  | nil => exact Nat.le_refl _
  | cons arg args ih =>
    simp only [moreArgTokens, List.flatMap_cons, List.length_append, List.length_cons] at ih ⊢
    omega

/-- The arguments of a filter are read after its name, if it has any. -/
theorem Filter.read_argTokens (f : Filter)
    (hnesting : ∀ arg ∈ f.args, arg.value.nesting < maxNesting) {rest : List MarkupToken}
    (hrest : endsFilter rest = true) :
    filterNamed f.name (argTokens f.args ++ rest) = (.ok f.call, rest) := by
  obtain ⟨name, args⟩ := f
  -- Without arguments no colon follows.
  cases args with
  | nil => exact bind_of_ok (takes_of_endsFilter hrest (by decide) (by decide)) _
  | cons arg args =>
    have hcolon : takes .colon (argTokens (arg :: args) ++ rest)
        = (.ok true, arg.tokens ++ (moreArgTokens args ++ rest)) := by
      rw [← List.append_assoc]
      rfl
    have hlength : args.length < (arg.tokens ++ (moreArgTokens args ++ rest)).length + 1 := by
      have := length_le_moreArgTokens args
      simp only [List.length_append]
      omega
    rw [filterNamed, bind_of_ok hcolon]
    show argumentsUpTo _ _ _ = _
    rw [argumentsUpTo_tokens arg args hnesting hrest hlength, foldl_addArgument]
    simp [Filter.call]

/-- Filters are read one after the other, up to the end. -/
theorem filtersUpTo_tokens (filters : List Filter)
    (hnesting : ∀ f ∈ filters, ∀ arg ∈ f.args, arg.value.nesting < maxNesting) {bound : Nat}
    (hbound : filters.length ≤ bound) :
    filtersUpTo bound (filters.flatMap Filter.tokens) = (.ok (filters.map Filter.call), []) := by
  -- By induction on the filters, each of them with its pipe.
  induction filters generalizing bound with
  | nil => cases bound <;> rfl
  | cons f filters ih =>
    obtain ⟨hf, hmore⟩ := List.forall_mem_cons.mp hnesting
    simp only [List.length_cons] at hbound
    obtain ⟨bound, rfl⟩ : ∃ n, bound = n + 1 := ⟨bound - 1, by omega⟩
    have hpipe : takes .pipe ((f :: filters).flatMap Filter.tokens)
        = (.ok true, .id f.name :: (argTokens f.args ++ filters.flatMap Filter.tokens)) := rfl
    have hcall : (Reader.name >>= filterNamed)
        (.id f.name :: (argTokens f.args ++ filters.flatMap Filter.tokens))
          = (.ok f.call, filters.flatMap Filter.tokens) :=
      f.read_argTokens hf (endsFilter_tokens filters)
    rw [filtersUpTo_succ, bind_of_ok hpipe]
    show ((Reader.name >>= filterNamed) >>= fun call => _) _ = _
    rw [bind_of_ok hcall, bind_of_ok (ih hmore (by omega))]
    rfl

/-- So has each filter. -/
theorem length_le_filterTokens (filters : List Filter) :
    filters.length ≤ (filters.flatMap Filter.tokens).length := by
  induction filters with
  | nil => exact Nat.le_refl _
  | cons f filters ih =>
    simp only [List.flatMap_cons, List.length_append, List.length_cons, Filter.tokens] at ih ⊢
    omega

/-- Filters do not go on with a path. -/
theorem startsSegment_filterTokens (filters : List Filter) :
    startsSegment (filters.flatMap Filter.tokens) = false := by
  cases filters <;> rfl

/-- An output is read as what it stands for if it is not nested too deep. -/
theorem Output.read_tokens (d : Output) (h : d.NestsWithin (maxNesting - 1)) :
    pipelineStrict d.tokens = (.ok d.pipeline, []) := by
  -- What nests within the bound is read in one go, the source as the arguments.
  have hnesting : d.source.nesting < maxNesting := by
    have := h.source
    unfold maxNesting at this ⊢
    omega
  have hargs : ∀ f ∈ d.filters, ∀ arg ∈ f.args, arg.value.nesting < maxNesting := by
    intro f hf arg harg
    have := h.args f hf arg harg
    unfold maxNesting at this ⊢
    omega
  have hsource : expression d.tokens = (.ok d.source.value, d.filters.flatMap Filter.tokens) :=
    d.source.read_tokens hnesting (startsSegment_filterTokens d.filters)
  have hfilters : Reader.filters (d.filters.flatMap Filter.tokens)
      = (.ok (d.filters.map Filter.call), []) :=
    filtersUpTo_tokens d.filters hargs (length_le_filterTokens d.filters)
  rw [pipelineStrict, bind_of_ok hsource, bind_of_ok hfilters]
  rfl

end Grammar

/-! ## What is read is derived -/

/-- Whether the token is the only one of its kind. -/
def MarkupToken.isPlain : MarkupToken → Bool
  | comparison _ | str _ | int _ | float _ | id _ => false
  | _ => true

/-- Of a plain token there is one of each kind. -/
theorem MarkupToken.eq_of_kind_eq {token token' : MarkupToken} (hplain : token.isPlain = true)
    (h : token'.kind = token.kind) : token' = token := by
  cases token <;> cases token' <;> simp_all [isPlain, kind]

namespace Reader

/-- Where the kind of a plain token comes next, the token does. -/
theorem eq_cons_of_kindOf (token : MarkupToken) (hplain : token.isPlain = true)
    {tokens : List MarkupToken} (h : kindOf tokens = token.kind) :
    tokens = token :: tokens.tail := by
  cases tokens with
  | nil => cases token <;> exact nomatch h
  | cons token' rest => rw [MarkupToken.eq_of_kind_eq hplain h, List.tail_cons]

/-- A plain token that is expected is the one that was taken. -/
theorem eq_cons_of_expect (token : MarkupToken) (hplain : token.isPlain = true)
    {tokens rest : List MarkupToken} {u : Unit} (h : expect token.kind tokens = (.ok u, rest)) :
    tokens = token :: rest := by
  unfold expect at h
  split at h
  · obtain ⟨-, rfl⟩ := Prod.mk.inj h
    exact eq_cons_of_kindOf token hplain ‹_›
  · exact nomatch h

/-- Either the token was there and is taken, or nothing is. -/
theorem eq_of_takes (token : MarkupToken) (hplain : token.isPlain = true)
    {tokens rest : List MarkupToken} {found : Bool}
    (h : takes token.kind tokens = (.ok found, rest)) :
    if found = true then tokens = token :: rest else rest = tokens := by
  unfold takes at h
  split at h
  · cases h
    exact eq_cons_of_kindOf token hplain ‹_›
  · cases h
    rfl

/-- The word is not next, so nothing is taken. -/
theorem takesWord_of_ne {word : String} {tokens : List MarkupToken}
    (h : ∀ rest, tokens ≠ .id word :: rest) : takesWord word tokens = (.ok false, tokens) := by
  unfold takesWord
  split
  · rename_i name rest
    have hne : name ≠ word := fun heq => h rest (heq ▸ rfl)
    rw [if_neg hne]
  · rfl

/-- Either the word was there and is taken, or nothing is. -/
theorem eq_of_takesWord {word : String} {tokens rest : List MarkupToken} {found : Bool}
    (h : takesWord word tokens = (.ok found, rest)) :
    if found = true then tokens = .id word :: rest else rest = tokens := by
  by_cases hword : ∃ behind, tokens = .id word :: behind
  · obtain ⟨behind, rfl⟩ := hword
    rw [takesWord, if_pos rfl] at h
    cases h
    exact rfl
  · rw [takesWord_of_ne fun behind hbehind => hword ⟨behind, hbehind⟩] at h
    cases h
    exact rfl

/-- A name that is read is the token that was taken. -/
theorem eq_cons_of_name {tokens rest : List MarkupToken} {word : String}
    (h : name tokens = (.ok word, rest)) : tokens = .id word :: rest := by
  unfold name at h
  split at h
  · cases h
    rfl
  · exact nomatch h

/-- Where the end is expected there are no tokens. -/
theorem eq_nil_of_expectEnd {tokens rest : List MarkupToken} {u : Unit}
    (h : expectEnd tokens = (.ok u, rest)) : tokens = [] := by
  cases tokens with
  | nil => rfl
  | cons token tokens =>
    have hkind : token.kind ≠ .endOfMarkup := by cases token <;> nofun
    rw [expectEnd, expect, kindOf, if_neg hkind] at h
    exact nomatch h

/-- Segments that were read are derived, if what was read in brackets is. -/
theorem derived_of_segmentsUpTo {levels : Nat} {inner : Reader Expression}
    (hinner : ∀ tokens e rest, inner tokens = (.ok e, rest) →
      ∃ t : Expr, t.tokens ++ rest = tokens ∧ t.value = e ∧ t.nesting < levels)
    {bound : Nat} {tokens rest : List MarkupToken} {path : List Segment}
    (h : segmentsUpTo inner bound tokens = (.ok path, rest)) :
    ∃ t : Path, t.tokens ++ rest = tokens ∧ t.segments = path ∧ t.nesting ≤ levels := by
  induction bound generalizing tokens path with
  | zero =>
    cases h
    exact ⟨.nil, rfl, rfl, Nat.zero_le _⟩
  | succ bound ih =>
    rw [segmentsUpTo] at h
    dsimp only at h
    split at h
    · -- A key in brackets.
      obtain ⟨key, tokens₁, hkey, h₁⟩ := ok_of_bind h
      obtain ⟨u, tokens₂, hclose, h₂⟩ := ok_of_bind h₁
      obtain ⟨more, tokens₃, hmore, h₃⟩ := ok_of_bind h₂
      cases h₃
      obtain ⟨key, rfl, rfl, hnesting⟩ := hinner _ _ _ hkey
      obtain rfl := eq_cons_of_expect .closeSquare rfl hclose
      obtain ⟨more, rfl, rfl, hmoreNesting⟩ := ih hmore
      refine ⟨.key key more, ?_, rfl, ?_⟩
      · simp [Path.tokens]
      · simp only [Path.nesting]
        omega
    · -- A name behind a dot.
      obtain ⟨member, tokens₁, hmember, h₁⟩ := ok_of_bind h
      obtain ⟨more, tokens₂, hmore, h₂⟩ := ok_of_bind h₁
      cases h₂
      obtain rfl := eq_cons_of_name hmember
      obtain ⟨more, rfl, rfl, hmoreNesting⟩ := ih hmore
      exact ⟨.dot member more, rfl, rfl, hmoreNesting⟩
    · cases h
      exact ⟨.nil, rfl, rfl, Nat.zero_le _⟩

/-- An expression that was read is derived, and it is not nested too deep. -/
theorem derived_of_expressionWithin {levels : Nat} {tokens rest : List MarkupToken}
    {e : Expression} (h : expressionWithin levels tokens = (.ok e, rest)) :
    ∃ t : Expr, t.tokens ++ rest = tokens ∧ t.value = e ∧ t.nesting < levels := by
  induction levels generalizing tokens rest e with
  | zero => exact nomatch h
  | succ levels ih =>
    have hinner : ∀ tokens e rest, expressionWithin levels tokens = (.ok e, rest) →
        ∃ t : Expr, t.tokens ++ rest = tokens ∧ t.value = e ∧ t.nesting < levels :=
      fun _ _ _ => ih
    unfold expressionWithin primary at h
    split at h
    · cases h
      exact ⟨.str _, rfl, rfl, Nat.succ_pos _⟩
    · cases h
      exact ⟨.int _, rfl, rfl, Nat.succ_pos _⟩
    · cases h
      exact ⟨.float _, rfl, rfl, Nat.succ_pos _⟩
    · -- A name with a path; the keywords among the names are told apart by their value.
      rename_i name behind
      obtain ⟨path, tokens₁, hpath, h₁⟩ := ok_of_bind h
      cases h₁
      obtain ⟨path, rfl, rfl, hnesting⟩ := derived_of_segmentsUpTo hinner hpath
      exact ⟨.id name path, rfl, (Expr.named_segments name path).symm, Nat.lt_succ_of_le hnesting⟩
    · -- A name in brackets is an expression one level deeper.
      obtain ⟨name, tokens₁, hname, h₁⟩ := ok_of_bind h
      obtain ⟨u, tokens₂, hclose, h₂⟩ := ok_of_bind h₁
      obtain ⟨path, tokens₃, hpath, h₃⟩ := ok_of_bind h₂
      cases h₃
      obtain ⟨name, rfl, rfl, hnesting⟩ := ih hname
      obtain rfl := eq_cons_of_expect .closeSquare rfl hclose
      obtain ⟨path, rfl, rfl, hpathNesting⟩ := derived_of_segmentsUpTo hinner hpath
      refine ⟨.bracketed name path, ?_, rfl, ?_⟩
      · simp [Expr.tokens]
      · simp only [Expr.nesting]
        omega
    · -- A range, whose ends are a level deeper too.
      obtain ⟨first, tokens₁, hfirst, h₁⟩ := ok_of_bind h
      obtain ⟨u, tokens₂, hdots, h₂⟩ := ok_of_bind h₁
      obtain ⟨last, tokens₃, hlast, h₃⟩ := ok_of_bind h₂
      obtain ⟨u, tokens₄, hclose, h₄⟩ := ok_of_bind h₃
      obtain ⟨path, tokens₅, hpath, h₅⟩ := ok_of_bind h₄
      cases h₅
      obtain ⟨first, rfl, rfl, hfirstNesting⟩ := ih hfirst
      obtain rfl := eq_cons_of_expect .dotDot rfl hdots
      obtain ⟨last, rfl, rfl, hlastNesting⟩ := ih hlast
      obtain rfl := eq_cons_of_expect .closeRound rfl hclose
      obtain ⟨path, rfl, rfl, hpathNesting⟩ := derived_of_segmentsUpTo hinner hpath
      refine ⟨.range first last path, ?_, (Expr.range_segments first last path).symm, ?_⟩
      · simp [Expr.tokens]
      · simp only [Expr.nesting]
        omega
    · exact nomatch h

/-- What is read as an argument are the tokens of one. -/
theorem derived_of_argument {tokens rest : List MarkupToken} {arg : Argument}
    (h : argument tokens = (.ok arg, rest)) :
    ∃ t : Arg, t.tokens ++ rest = tokens ∧ t.argument = arg ∧ t.value.nesting < maxNesting := by
  unfold argument at h
  split at h
  · rename_i name behind
    obtain ⟨value, tokens₁, hvalue, h₁⟩ := ok_of_bind h
    cases h₁
    obtain ⟨value, rfl, rfl, hnesting⟩ := derived_of_expressionWithin hvalue
    exact ⟨.keyword name value, rfl, rfl, hnesting⟩
  · obtain ⟨value, tokens₁, hvalue, h₁⟩ := ok_of_bind h
    cases h₁
    obtain ⟨value, rfl, rfl, hnesting⟩ := derived_of_expressionWithin hvalue
    exact ⟨.positional value, rfl, rfl, hnesting⟩

/-- Arguments that were read are derived. The bound must exceed the number of tokens: otherwise it
could be used up behind a comma. -/
theorem derived_of_argumentsUpTo {bound : Nat} {tokens rest : List MarkupToken}
    (hbound : tokens.length < bound) {call call' : FilterCall}
    (h : argumentsUpTo bound call tokens = (.ok call', rest)) :
    ∃ arg args, arg.tokens ++ (moreArgTokens args ++ rest) = tokens
      ∧ ((arg :: args).map Arg.argument).foldl addArgument call = call'
      ∧ ∀ a ∈ arg :: args, a.value.nesting < maxNesting := by
  -- By induction on the bound, which the tokens never reach.
  induction bound generalizing tokens call with
  | zero => omega
  | succ bound ih =>
    obtain ⟨arg, tokens₁, harg, h₁⟩ := ok_of_bind h
    obtain ⟨found, tokens₂, hcomma, h₂⟩ := ok_of_bind h₁
    obtain ⟨arg, rfl, rfl, hnesting⟩ := derived_of_argument harg
    have hbehind := eq_of_takes .comma rfl hcomma
    cases found with
    | true =>
      obtain rfl : tokens₁ = .comma :: tokens₂ := hbehind
      have hlength : tokens₂.length < bound := by
        simp only [List.length_append, List.length_cons] at hbound
        omega
      obtain ⟨next, args, rfl, hfold, hmore⟩ := ih hlength h₂
      refine ⟨arg, next :: args, ?_, hfold, List.forall_mem_cons.mpr ⟨hnesting, hmore⟩⟩
      simp [moreArgTokens]
    | false =>
      obtain rfl : tokens₂ = tokens₁ := hbehind
      cases h₂
      have hall : ∀ a ∈ [arg], a.value.nesting < maxNesting :=
        List.forall_mem_singleton.mpr hnesting
      exact ⟨arg, [], rfl, rfl, hall⟩

/-- A filter that was read is derived. -/
theorem derived_of_filterNamed {name : String} {tokens rest : List MarkupToken} {call : FilterCall}
    (h : filterNamed name tokens = (.ok call, rest)) :
    ∃ f : Filter, f.tokens ++ rest = .pipe :: .id name :: tokens ∧ f.call = call
      ∧ ∀ arg ∈ f.args, arg.value.nesting < maxNesting := by
  obtain ⟨found, tokens₁, hcolon, h₁⟩ := ok_of_bind h
  have hbehind := eq_of_takes .colon rfl hcolon
  -- With a colon there is an argument at least.
  cases found with
  | true =>
    obtain rfl : tokens = .colon :: tokens₁ := hbehind
    obtain ⟨arg, args, rfl, hfold, hnesting⟩ :=
      derived_of_argumentsUpTo (Nat.lt_succ_self _) h₁
    refine ⟨⟨name, arg :: args⟩, ?_, ?_, hnesting⟩
    · simp [Filter.tokens, argTokens]
    · rw [← hfold, foldl_addArgument]
      simp [Filter.call]
  | false =>
    obtain rfl : tokens₁ = tokens := hbehind
    cases h₁
    exact ⟨⟨name, []⟩, rfl, rfl, List.forall_mem_nil _⟩

/-- Filters that were read are derived, up to what no pipe starts. -/
theorem derived_of_filtersUpTo {bound : Nat} {tokens rest : List MarkupToken}
    {calls : List FilterCall} (h : filtersUpTo bound tokens = (.ok calls, rest)) :
    ∃ filters : List Filter, filters.flatMap Filter.tokens ++ rest = tokens
      ∧ filters.map Filter.call = calls
      ∧ ∀ f ∈ filters, ∀ arg ∈ f.args, arg.value.nesting < maxNesting := by
  -- By induction on the bound: it may be reached, and then the filters end there.
  induction bound generalizing tokens calls with
  | zero =>
    cases h
    exact ⟨[], rfl, rfl, nofun⟩
  | succ bound ih =>
    rw [filtersUpTo_succ] at h
    obtain ⟨found, tokens₁, hpipe, h₁⟩ := ok_of_bind h
    have hbehind := eq_of_takes .pipe rfl hpipe
    cases found with
    | true =>
      obtain rfl : tokens = .pipe :: tokens₁ := hbehind
      obtain ⟨call, tokens₂, hcall, h₂⟩ := ok_of_bind h₁
      obtain ⟨more, tokens₃, hmore, h₃⟩ := ok_of_bind h₂
      cases h₃
      obtain ⟨name, tokens₄, hname, hargs⟩ := ok_of_bind hcall
      obtain rfl := eq_cons_of_name hname
      obtain ⟨f, htokens, rfl, hf⟩ := derived_of_filterNamed hargs
      obtain ⟨filters, rfl, rfl, hfilters⟩ := ih hmore
      refine ⟨f :: filters, ?_, rfl, List.forall_mem_cons.mpr ⟨hf, hfilters⟩⟩
      rw [List.flatMap_cons, List.append_assoc, htokens]
    | false =>
      obtain rfl : tokens₁ = tokens := hbehind
      cases h₁
      exact ⟨[], rfl, rfl, nofun⟩

/-- An output that was read is derived. -/
theorem derived_of_pipelineStrict {tokens rest : List MarkupToken} {p : Pipeline}
    (h : pipelineStrict tokens = (.ok p, rest)) :
    ∃ d : Output, d.tokens = tokens ∧ d.NestsWithin (maxNesting - 1) ∧ d.pipeline = p := by
  obtain ⟨source, tokens₁, hsource, h₁⟩ := ok_of_bind h
  obtain ⟨calls, tokens₂, hfilters, h₂⟩ := ok_of_bind h₁
  obtain ⟨u, tokens₃, hend, h₃⟩ := ok_of_bind h₂
  cases h₃
  obtain ⟨source, rfl, rfl, hnesting⟩ := derived_of_expressionWithin hsource
  obtain ⟨filters, rfl, rfl, hargs⟩ := derived_of_filtersUpTo hfilters
  obtain rfl : tokens₂ = [] := eq_nil_of_expectEnd hend
  refine ⟨⟨source, filters⟩, ?_, ?_, rfl⟩
  · rw [List.append_nil]
    rfl
  · exact ⟨Nat.le_pred_of_lt hnesting, fun f hf arg harg => Nat.le_pred_of_lt (hargs f hf arg harg)⟩

/-- The strict reader of outputs accepts what the grammar derives with at most 99 brackets around
any expression, and gives what the derivation stands for; nothing can be derived in two ways. -/
theorem pipelineStrict_iff_derived :
    (∀ tokens p, (pipelineStrict tokens).1 = .ok p ↔
      ∃ d : Output, d.tokens = tokens ∧ d.NestsWithin 99 ∧ d.pipeline = p)
    ∧ Function.Injective Output.tokens := by
  constructor
  · intro tokens p
    constructor
    · intro h
      have hread : pipelineStrict tokens = (.ok p, (pipelineStrict tokens).2) := Prod.ext h rfl
      exact derived_of_pipelineStrict hread
    · rintro ⟨d, rfl, hnesting, rfl⟩
      rw [d.read_tokens hnesting]
  · intro d d' h
    exact d.eq_of_tokens d' h

/-- In `a.nil | f: nil, x: (1..2)` the name behind the dot is no keyword, and the range is a
literal. -/
example : (pipelineStrict [.id "a", .dot, .id "nil", .pipe, .id "f", .colon, .id "nil", .comma,
    .id "x", .colon, .openRound, .int 1, .dotDot, .int 2, .closeRound]).1
      = .ok {
        source := .lookup (.literal (.str "a")) [.mk (.literal (.str "nil")) true]
        filters := [{
          name := "f"
          args := [.nil]
          keywords := [("x", .literal (.range 1 2))] }] } := by
  rfl

end Reader

end Stencil
