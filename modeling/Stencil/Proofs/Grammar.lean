import Stencil.Markup.Reader

/-!
# The grammar of expressions and filters

The ways in which markup can be derived, as trees. A tree has one constructor for each production:

    expr    := string | number | id path | '[' expr ']' path | '(' expr '..' expr ')' path
    path    := ('[' expr ']' | '.' id)*
    arg     := id ':' expr | expr
    filters := ('|' id (':' arg (',' arg)*)?)*
    output  := expr filters

`tokens` is what a tree derives, `value` or `call` what it stands for, and `nesting` how many
brackets stand around its innermost expression.

## Key results

- `Expr.eq_of_tokens_append`: an expression that is followed by no segment can be derived in one
  way only
- `Output.eq_of_tokens`: so can an output
-/

namespace Stencil.Grammar

mutual

/-- How an expression is written. -/
inductive Expr where
  | str (text : String)
  | int (n : Int64)
  | float (x : Float)
  | id (name : String) (path : Path)
  | bracketed (name : Expr) (path : Path)
  | range (first last : Expr) (path : Path)

/-- How the segments behind a name or a bracket are written. -/
inductive Path where
  | nil
  | key (key : Expr) (rest : Path)
  | dot (name : String) (rest : Path)

end

/-! ## What a tree derives -/

mutual

/-- The tokens that the tree derives. -/
def Expr.tokens : Expr → List MarkupToken
  | .str text => [.str text]
  | .int n => [.int n]
  | .float x => [.float x]
  | .id name path => .id name :: path.tokens
  | .bracketed name path => .openSquare :: (name.tokens ++ .closeSquare :: path.tokens)
  | .range first last path =>
    .openRound :: (first.tokens ++ .dotDot :: (last.tokens ++ .closeRound :: path.tokens))

/-- The tokens that the tree derives. -/
def Path.tokens : Path → List MarkupToken
  | .nil => []
  | .key key rest => .openSquare :: (key.tokens ++ .closeSquare :: rest.tokens)
  | .dot name rest => .dot :: .id name :: rest.tokens

end

/-! ## What a tree stands for -/

/-- The integer that a numeral is cut down to. -/
def Expr.integer? : Expr → Option Int64
  | .int n => some n
  | .float x => some x.toInt64
  | .str _ | .id .. | .bracketed .. | .range .. => none

/-- Whether there are no segments. -/
def Path.isNil : Path → Bool
  | .nil => true
  | .key .. | .dot .. => false

mutual

/-- The expression that the tree stands for. A keyword without segments is a literal, and so is a
range between two numerals. -/
def Expr.value : Expr → Expression
  | .str text => .literal (.str text)
  | .int n => .literal (.int n)
  | .float x => .literal (.float x)
  | .id name path =>
    match path.isNil, Reader.keyword? name with
    | true, some literal => literal
    | _, _ => .lookup (.literal (.str name)) path.segments
  | .bracketed name path => .lookup name.value path.segments
  | .range first last path =>
    let range := match first.integer?, last.integer? with
      | some a, some b => .literal (.range a b)
      | _, _ => .range first.value last.value
    if path.isNil then range else .path range path.segments

/-- The segments that the tree stands for. -/
def Path.segments : Path → List Segment
  | .nil => []
  | .key key rest => .mk key.value false :: rest.segments
  | .dot name rest => .mk (.literal (.str name)) true :: rest.segments

end

/-! ## How deep a tree is -/

mutual

/-- How many brackets stand around the innermost expression. -/
def Expr.nesting : Expr → Nat
  | .str _ | .int _ | .float _ => 0
  | .id _ path => path.nesting
  | .bracketed name path => max (name.nesting + 1) path.nesting
  | .range first last path => max (max (first.nesting + 1) (last.nesting + 1)) path.nesting

/-- How many brackets stand around the innermost expression. -/
def Path.nesting : Path → Nat
  | .nil => 0
  | .key key rest => max (key.nesting + 1) rest.nesting
  | .dot _ rest => rest.nesting

end

/-! ## Filters -/

/-- How an argument is written. -/
inductive Arg where
  | positional (value : Expr)
  | keyword (name : String) (value : Expr)

namespace Arg

/-- What is passed. -/
def value : Arg → Expr
  | positional value => value
  | keyword _ value => value

/-- The tokens that the tree derives. -/
def tokens : Arg → List MarkupToken
  | positional value => value.tokens
  | keyword name value => .id name :: .colon :: value.tokens

/-- What is passed by position. -/
def positional? : Arg → Option Expression
  | positional value => some value.value
  | keyword .. => none

/-- What is passed under a name. -/
def keyword? : Arg → Option (String × Expression)
  | positional _ => none
  | keyword name value => some (name, value.value)

end Arg

/-- The tokens of arguments behind the first one. -/
def moreArgTokens (args : List Arg) : List MarkupToken :=
  args.flatMap fun arg => .comma :: arg.tokens

/-- The tokens of arguments with a colon in front of them and commas between them; without arguments
there is no colon either. -/
def argTokens : List Arg → List MarkupToken
  | [] => []
  | arg :: args => .colon :: (arg.tokens ++ moreArgTokens args)

/-- How a filter is written. -/
structure Filter where
  name : String
  args : List Arg

namespace Filter

/-- The tokens that the tree derives. -/
def tokens (f : Filter) : List MarkupToken :=
  .pipe :: .id f.name :: argTokens f.args

/-- The call that the tree stands for. -/
def call (f : Filter) : FilterCall where
  name := f.name
  args := f.args.filterMap Arg.positional?
  keywords := f.args.filterMap Arg.keyword?

end Filter

/-- How an output is written. -/
structure Output where
  source : Expr
  filters : List Filter

namespace Output

/-- The tokens that the tree derives. -/
def tokens (d : Output) : List MarkupToken :=
  d.source.tokens ++ d.filters.flatMap Filter.tokens

/-- The pipeline that the tree stands for. -/
def pipeline (d : Output) : Pipeline where
  source := d.source.value
  filters := d.filters.map Filter.call

/-- At most `n` brackets stand around any expression. -/
structure NestsWithin (d : Output) (n : Nat) : Prop where
  source : d.source.nesting ≤ n
  args : ∀ f ∈ d.filters, ∀ arg ∈ f.args, arg.value.nesting ≤ n

end Output

/-! ## There is one way to derive a list of tokens -/

/-- Whether a segment comes next. -/
def startsSegment : List MarkupToken → Bool
  | .openSquare :: _ | .dot :: _ => true
  | _ => false

mutual

/-- Of tokens that start with an expression and go on with no segment, the expression is determined,
and so is what follows it. -/
theorem Expr.eq_of_tokens_append (e e' : Expr) {rest rest' : List MarkupToken}
    (hrest : startsSegment rest = false) (hrest' : startsSegment rest' = false)
    (h : e.tokens ++ rest = e'.tokens ++ rest') : e = e' ∧ rest = rest' := by
  -- The first token tells the kind of the expression, and what follows it the parts.
  cases e with
  | str text => cases e' <;> simp_all [Expr.tokens]
  | int n => cases e' <;> simp_all [Expr.tokens]
  | float x => cases e' <;> simp_all [Expr.tokens]
  | id name path =>
    cases e' with
    | id name' path' =>
      simp only [Expr.tokens, List.cons_append, List.cons.injEq, MarkupToken.id.injEq] at h
      obtain ⟨rfl, hpath⟩ := h
      obtain ⟨rfl, hbehind⟩ := Path.eq_of_tokens_append path path' hrest hrest' hpath
      exact ⟨rfl, hbehind⟩
    | _ => simp [Expr.tokens] at h
  | bracketed name path =>
    cases e' with
    | bracketed name' path' =>
      simp only [Expr.tokens, List.cons_append, List.append_assoc, List.cons.injEq, true_and] at h
      obtain ⟨rfl, hclose⟩ := Expr.eq_of_tokens_append name name' rfl rfl h
      have hpath := (List.cons.inj hclose).2
      obtain ⟨rfl, hbehind⟩ := Path.eq_of_tokens_append path path' hrest hrest' hpath
      exact ⟨rfl, hbehind⟩
    | _ => simp [Expr.tokens] at h
  | range first last path =>
    cases e' with
    | range first' last' path' =>
      simp only [Expr.tokens, List.cons_append, List.append_assoc, List.cons.injEq, true_and] at h
      obtain ⟨rfl, hdots⟩ := Expr.eq_of_tokens_append first first' rfl rfl h
      have hlast := (List.cons.inj hdots).2
      obtain ⟨rfl, hclose⟩ := Expr.eq_of_tokens_append last last' rfl rfl hlast
      have hpath := (List.cons.inj hclose).2
      obtain ⟨rfl, hbehind⟩ := Path.eq_of_tokens_append path path' hrest hrest' hpath
      exact ⟨rfl, hbehind⟩
    | _ => simp [Expr.tokens] at h

/-- The same for segments. -/
theorem Path.eq_of_tokens_append (path path' : Path) {rest rest' : List MarkupToken}
    (hrest : startsSegment rest = false) (hrest' : startsSegment rest' = false)
    (h : path.tokens ++ rest = path'.tokens ++ rest') : path = path' ∧ rest = rest' := by
  cases path with
  | nil =>
    cases path' with
    | nil => exact ⟨rfl, h⟩
    -- A segment cannot be what follows the other path.
    | key key' more' =>
      obtain rfl : rest = _ := h
      exact nomatch hrest
    | dot name' more' =>
      obtain rfl : rest = _ := h
      exact nomatch hrest
  | key key more =>
    cases path' with
    | nil =>
      obtain rfl : _ = rest' := h
      exact nomatch hrest'
    | key key' more' =>
      simp only [Path.tokens, List.cons_append, List.append_assoc, List.cons.injEq, true_and] at h
      obtain ⟨rfl, hclose⟩ := Expr.eq_of_tokens_append key key' rfl rfl h
      have hmore := (List.cons.inj hclose).2
      obtain ⟨rfl, hbehind⟩ := Path.eq_of_tokens_append more more' hrest hrest' hmore
      exact ⟨rfl, hbehind⟩
    | dot name' more' => simp [Path.tokens] at h
  | dot name more =>
    cases path' with
    | nil =>
      obtain rfl : _ = rest' := h
      exact nomatch hrest'
    | key key' more' => simp [Path.tokens] at h
    | dot name' more' =>
      simp only [Path.tokens, List.cons_append, List.cons.injEq, MarkupToken.id.injEq,
        true_and] at h
      obtain ⟨rfl, hmore⟩ := h
      obtain ⟨rfl, hbehind⟩ := Path.eq_of_tokens_append more more' hrest hrest' hmore
      exact ⟨rfl, hbehind⟩

end

/-- Whether a filter ends: another one comes next, or nothing. -/
def endsFilter : List MarkupToken → Bool
  | [] | .pipe :: _ => true
  | _ => false

/-- Whether an argument ends: another one comes next, or the filter ends. -/
def endsArg : List MarkupToken → Bool
  | .comma :: _ => true
  | rest => endsFilter rest

/-- Where an argument ends no path goes on. -/
theorem startsSegment_of_endsArg {rest : List MarkupToken} (h : endsArg rest = true) :
    startsSegment rest = false := by
  unfold startsSegment
  split
  · exact nomatch h
  · exact nomatch h
  · rfl

/-- A name in front of a colon is no expression by itself. -/
theorem Expr.tokens_append_ne_keyword (e : Expr) {name : String} {rest behind : List MarkupToken}
    (hrest : endsArg rest = true) : e.tokens ++ rest ≠ .id name :: .colon :: behind := by
  intro h
  -- Only a name can be mistaken for a keyword, and only if a colon is next.
  cases e with
  | id name' path =>
    have hcolon := (List.cons.inj h).2
    cases path with
    | nil =>
      obtain rfl : rest = _ := hcolon
      exact nomatch hrest
    | key key more => exact nomatch hcolon
    | dot name' more => exact nomatch hcolon
  | _ => exact nomatch h

/-- An argument is the only one with its tokens. -/
theorem Arg.eq_of_tokens_append (arg arg' : Arg) {rest rest' : List MarkupToken}
    (hrest : endsArg rest = true) (hrest' : endsArg rest' = true)
    (h : arg.tokens ++ rest = arg'.tokens ++ rest') : arg = arg' ∧ rest = rest' := by
  have hsegment := startsSegment_of_endsArg hrest
  have hsegment' := startsSegment_of_endsArg hrest'
  cases arg with
  | positional value =>
    cases arg' with
    | positional value' =>
      obtain ⟨rfl, hbehind⟩ := Expr.eq_of_tokens_append value value' hsegment hsegment' h
      exact ⟨rfl, hbehind⟩
    | keyword name' value' => exact absurd h (value.tokens_append_ne_keyword hrest)
  | keyword name value =>
    cases arg' with
    | positional value' => exact absurd h.symm (value'.tokens_append_ne_keyword hrest')
    | keyword name' value' =>
      -- Both are keywords, so the name is read off the first token.
      simp only [Arg.tokens, List.cons_append, List.cons.injEq, MarkupToken.id.injEq,
        true_and] at h
      obtain ⟨rfl, hvalue⟩ := h
      obtain ⟨rfl, hbehind⟩ := Expr.eq_of_tokens_append value value' hsegment hsegment' hvalue
      exact ⟨rfl, hbehind⟩

/-- Behind an argument a comma follows, or the end of the filter. -/
theorem endsArg_moreArgTokens (args : List Arg) {rest : List MarkupToken}
    (hrest : endsFilter rest = true) : endsArg (moreArgTokens args ++ rest) = true := by
  cases args with
  | nil =>
    show endsArg rest = true
    unfold endsArg
    split
    · rfl
    · exact hrest
  | cons arg args => rfl

/-- So are the arguments behind commas. -/
theorem eq_of_moreArgTokens_append (args args' : List Arg) {rest rest' : List MarkupToken}
    (hrest : endsFilter rest = true) (hrest' : endsFilter rest' = true)
    (h : moreArgTokens args ++ rest = moreArgTokens args' ++ rest') :
    args = args' ∧ rest = rest' := by
  induction args generalizing args' with
  | nil =>
    cases args' with
    | nil => exact ⟨rfl, h⟩
    | cons arg' args' =>
      obtain rfl : rest = _ := h
      exact nomatch hrest
  | cons arg args ih =>
    cases args' with
    | nil =>
      obtain rfl : _ = rest' := h
      exact nomatch hrest'
    | cons arg' args' =>
      simp only [moreArgTokens, List.flatMap_cons, List.cons_append, List.append_assoc,
        List.cons.injEq, true_and] at h
      obtain ⟨rfl, hmore⟩ := Arg.eq_of_tokens_append arg arg' (endsArg_moreArgTokens args hrest)
        (endsArg_moreArgTokens args' hrest') h
      obtain ⟨rfl, hbehind⟩ := ih args' hmore
      exact ⟨rfl, hbehind⟩

/-- So are all arguments of a filter. -/
theorem eq_of_argTokens_append (args args' : List Arg) {rest rest' : List MarkupToken}
    (hrest : endsFilter rest = true) (hrest' : endsFilter rest' = true)
    (h : argTokens args ++ rest = argTokens args' ++ rest') : args = args' ∧ rest = rest' := by
  cases args with
  | nil =>
    cases args' with
    | nil => exact ⟨rfl, h⟩
    | cons arg' args' =>
      obtain rfl : rest = _ := h
      exact nomatch hrest
  | cons arg args =>
    cases args' with
    | nil =>
      obtain rfl : _ = rest' := h
      exact nomatch hrest'
    | cons arg' args' =>
      simp only [argTokens, List.cons_append, List.append_assoc, List.cons.injEq, true_and] at h
      obtain ⟨rfl, hmore⟩ := Arg.eq_of_tokens_append arg arg' (endsArg_moreArgTokens args hrest)
        (endsArg_moreArgTokens args' hrest') h
      obtain ⟨rfl, hbehind⟩ := eq_of_moreArgTokens_append args args' hrest hrest' hmore
      exact ⟨rfl, hbehind⟩

/-- A filter ends at the next pipe or at the end. -/
theorem endsFilter_tokens (filters : List Filter) :
    endsFilter (filters.flatMap Filter.tokens) = true := by
  cases filters <;> rfl

/-- Filters are the only ones with their tokens. -/
theorem eq_of_filterTokens (filters filters' : List Filter)
    (h : filters.flatMap Filter.tokens = filters'.flatMap Filter.tokens) : filters = filters' := by
  induction filters generalizing filters' with
  | nil =>
    cases filters' with
    | nil => rfl
    | cons f' filters' => exact nomatch h
  | cons f filters ih =>
    cases filters' with
    | nil => exact nomatch h
    | cons f' filters' =>
      obtain ⟨name, args⟩ := f
      obtain ⟨name', args'⟩ := f'
      simp only [List.flatMap_cons, Filter.tokens, List.cons_append, List.cons.injEq,
        MarkupToken.id.injEq, true_and] at h
      -- The names agree; what is left is the arguments, up to the next pipe.
      obtain ⟨rfl, hargs⟩ := h
      obtain ⟨rfl, hbehind⟩ := eq_of_argTokens_append args args' (endsFilter_tokens filters)
        (endsFilter_tokens filters') hargs
      rw [ih filters' hbehind]

/-- An output can be derived in one way only. -/
theorem Output.eq_of_tokens (d d' : Output) (h : d.tokens = d'.tokens) : d = d' := by
  obtain ⟨source, filters⟩ := d
  obtain ⟨source', filters'⟩ := d'
  have hsegment (filters : List Filter) :
      startsSegment (filters.flatMap Filter.tokens) = false := by
    cases filters <;> rfl
  obtain ⟨rfl, hfilters⟩ :=
    Expr.eq_of_tokens_append source source' (hsegment filters) (hsegment filters') h
  rw [eq_of_filterTokens filters filters' hfilters]

end Stencil.Grammar
