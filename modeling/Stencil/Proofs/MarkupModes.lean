import Stencil.Document.Header
import Stencil.Proofs.Outcome

/-!
# Markup that a strict reading accepts

A lax reading reads it in the same way. For most kinds of markup both run the same
reader, and the strict one only looks whether anything is left. Loops pass over unknown
attributes in a lax reading, and outputs have readers of their own for it, which skip
what they cannot make sense of: where the strict reader succeeds there is nothing to
skip.

## Key results

- `Expression.agree_read`, `Pipeline.agree_read`, `LoopHeader.agree_read`: expressions,
  outputs and loops
- `Reader.agree_toEnd`: everything that both read with the same reader
-/

namespace Stencil

/-! ## Attempts that accept more -/

namespace Attempt

variable {σ α β : Type}

/-- Where `x` succeeds, `y` does so too, with the same result and the same state. -/
def AcceptedBy (x y : Attempt σ α) : Prop :=
  ∀ s a t, x s = (.ok a, t) → y s = (.ok a, t)

namespace AcceptedBy

variable {x y : Attempt σ α} {f g : α → Attempt σ β}

/-- Whatever is read is read in the same way by the same reader. -/
theorem refl (x : Attempt σ α) : x.AcceptedBy x :=
  fun _ _ _ h => h

/-- One reader after the other. -/
theorem bind (hx : x.AcceptedBy y) (hf : ∀ a, (f a).AcceptedBy (g a)) :
    (x >>= f).AcceptedBy (y >>= g) := by
  intro s b u h
  obtain ⟨a, t, ha, hb⟩ := ok_of_bind h
  rw [bind_of_ok (hx s a t ha)]
  exact hf a t b u hb

/-- What fails accepts nothing. -/
theorem fail (e : Error) (y : Attempt σ α) : (Attempt.fail e).AcceptedBy y :=
  fun _ _ _ h => nomatch (Prod.mk.inj h).1

/-- What is noted of errors makes no difference to what is accepted. -/
theorem mapError (hx : x.AcceptedBy y) (f : Error → Error) :
    (Attempt.mapError f x).AcceptedBy (Attempt.mapError f y) := by
  intro s a t h
  unfold Attempt.mapError at h ⊢
  cases hs : x s with
  | mk r u =>
    rw [hs] at h
    cases r with
    | error e => exact nomatch (Prod.mk.inj h).1
    | ok b =>
      rw [hx s b u hs]
      exact h

end AcceptedBy

end Attempt

namespace Reader

open Attempt

variable {α β : Type}

/-! ## How many tokens are read -/

/-- At least `n` tokens are gone when the reader succeeds. -/
def Consumes (n : Nat) (x : Reader α) : Prop :=
  ∀ tokens a rest, x tokens = (.ok a, rest) → rest.length + n ≤ tokens.length

/-- One reader after the other takes what both take. -/
private theorem Consumes.bind {m n : Nat} {x : Reader α} {f : α → Reader β} (hx : Consumes m x)
    (hf : ∀ a, Consumes n (f a)) : Consumes (m + n) (x >>= f) := by
  intro tokens b rest h
  obtain ⟨a, rest', ha, hb⟩ := ok_of_bind h
  have hfirst := hx _ _ _ ha
  have hsecond := hf a _ _ _ hb
  omega

/-- Giving a value takes nothing. -/
private theorem Consumes.pure (a : α) : Consumes 0 (Pure.pure a : Reader α) := by
  intro tokens b rest h
  obtain ⟨-, rfl⟩ := Prod.mk.inj h
  exact Nat.le_refl _

/-- What takes some tokens takes fewer at least. -/
private theorem Consumes.mono {m n : Nat} {x : Reader α} (hx : Consumes m x) (h : n ≤ m) :
    Consumes n x := by
  intro tokens a rest ha
  have := hx _ _ _ ha
  omega

/-- An expected token is not left over. -/
private theorem expect_consumes (kind : MarkupToken.Kind) : Consumes 0 (expect kind) := by
  intro tokens a rest h
  unfold expect at h
  split at h
  · obtain ⟨-, rfl⟩ := Prod.mk.inj h
    simp
  · exact nomatch (Prod.mk.inj h).1

/-- A name is one token. -/
private theorem name_consumes : Consumes 1 name := by
  intro tokens a rest h
  unfold name at h
  split at h
  · obtain ⟨-, rfl⟩ := Prod.mk.inj h
    simp
  · exact nomatch (Prod.mk.inj h).1

/-- A path may be empty. -/
private theorem segmentsUpTo_consumes {inner : Reader Expression} (hinner : Consumes 0 inner)
    (bound : Nat) : Consumes 0 (segmentsUpTo inner bound) := by
  induction bound with
  | zero => exact .pure _
  | succ bound ih =>
    intro tokens a rest h
    rw [segmentsUpTo] at h
    dsimp only at h
    split at h
    · -- A key in brackets.
      rename_i tokens
      have hkey := hinner.bind fun key =>
        (expect_consumes .closeSquare).bind fun _ => ih.bind fun more =>
          .pure (Segment.mk key false :: more)
      have := hkey _ _ _ h
      simp only [List.length_cons]
      omega
    · -- A name behind a dot.
      rename_i tokens
      have hmember := name_consumes.bind fun member =>
        ih.bind fun more => .pure (Segment.mk (.literal (.str member)) true :: more)
      have := hmember _ _ _ h
      simp only [List.length_cons]
      omega
    · obtain ⟨-, rfl⟩ := Prod.mk.inj h
      exact Nat.le_refl _

/-- The path of an expression. -/
private theorem segments_consumes {inner : Reader Expression} (hinner : Consumes 0 inner) :
    Consumes 0 (segments inner) :=
  fun tokens => segmentsUpTo_consumes hinner tokens.length tokens

/-- None of the tokens that may follow a value comes next. -/
structure StartsValue (tokens : List MarkupToken) : Prop where
  ne_end : kindOf tokens ≠ .endOfMarkup
  ne_pipe : kindOf tokens ≠ .pipe
  ne_comma : kindOf tokens ≠ .comma

/-- An expression takes the token that it starts with. -/
private theorem primary_consumes {inner : Reader Expression} (hinner : Consumes 0 inner) :
    Consumes 1 (primary inner) := by
  have hpath := segments_consumes hinner
  intro tokens a rest h
  unfold primary at h
  split at h
  · obtain ⟨-, rfl⟩ := Prod.mk.inj h
    simp
  · obtain ⟨-, rfl⟩ := Prod.mk.inj h
    simp
  · obtain ⟨-, rfl⟩ := Prod.mk.inj h
    simp
  · have := (hpath.bind fun path => .pure _) _ _ _ h
    simp only [List.length_cons]
    omega
  · have := (hinner.bind fun key => (expect_consumes .closeSquare).bind fun _ =>
      hpath.bind fun path => .pure _) _ _ _ h
    simp only [List.length_cons]
    omega
  · have := (hinner.bind fun first => (expect_consumes .dotDot).bind fun _ =>
      hinner.bind fun last => (expect_consumes .closeRound).bind fun _ =>
      hpath.bind fun path => .pure _) _ _ _ h
    simp only [List.length_cons]
    omega
  · exact nomatch (Prod.mk.inj h).1

/-- By cases on whether brackets may be nested at all. -/
theorem expressionWithin_consumes (levels : Nat) :
    Consumes 1 (expressionWithin levels) := by
  induction levels with
  | zero => exact fun _ _ _ h => nomatch (Prod.mk.inj h).1
  | succ levels ih => exact primary_consumes (ih.mono (Nat.zero_le 1))

/-- What is read as an expression starts with a token that a value can start with. -/
private theorem startsValue_of_primary {inner : Reader Expression} {tokens rest : List MarkupToken}
    {e : Expression} (h : primary inner tokens = (.ok e, rest)) : StartsValue tokens := by
  -- A path begins with one of six kinds of token; each of them is none of the three.
  unfold primary at h
  split at h
  · exact ⟨nofun, nofun, nofun⟩
  · exact ⟨nofun, nofun, nofun⟩
  · exact ⟨nofun, nofun, nofun⟩
  · exact ⟨nofun, nofun, nofun⟩
  · exact ⟨nofun, nofun, nofun⟩
  · exact ⟨nofun, nofun, nofun⟩
  · exact nomatch (Prod.mk.inj h).1

/-- So does an expression in whatever brackets. -/
private theorem startsValue_of_expression {tokens rest : List MarkupToken} {e : Expression}
    (h : expression tokens = (.ok e, rest)) : StartsValue tokens :=
  startsValue_of_primary h

/-! ## Outputs -/

/-- An argument takes a token at least. -/
theorem argument_consumes : Consumes 1 argument := by
  intro tokens a rest h
  unfold argument at h
  split at h
  · have := ((expressionWithin_consumes _).bind fun value => .pure _) _ _ _ h
    simp only [List.length_cons]
    omega
  · exact ((expressionWithin_consumes _).bind fun value => .pure _) _ _ _ h

/-- An argument starts as a value does, or with its keyword. -/
private theorem startsValue_of_argument {tokens rest : List MarkupToken} {arg : Argument}
    (h : argument tokens = (.ok arg, rest)) : StartsValue tokens := by
  unfold argument at h
  split at h
  · exact ⟨nofun, nofun, nofun⟩
  · obtain ⟨e, rest', he, -⟩ := ok_of_bind h
    exact startsValue_of_expression he

/-- What may follow a filter: another one, or nothing. -/
def EndsFilter (tokens : List MarkupToken) : Prop :=
  kindOf tokens = .pipe ∨ kindOf tokens = .endOfMarkup

/-- What can be read is read when it is attempted. -/
private theorem attempted_of_ok {x : Reader α} {tokens rest : List MarkupToken} {a : α}
    (h : x tokens = (.ok a, rest)) : attempted x tokens = (.ok (some a), rest) := by
  unfold attempted
  rw [h]

/-- Where an argument starts, a lax reading takes it, and goes on behind it. -/
theorem argumentsLaxUpTo_of_argument {bound : Nat} {call : FilterCall}
    {tokens rest : List MarkupToken} {arg : Argument} (h : argument tokens = (.ok arg, rest)) :
    argumentsLaxUpTo (bound + 1) call tokens
      = argumentsLaxUpTo bound (addArgument call arg) rest := by
  -- The lax loop looks for the three separators first, and a value starts with none of them.
  have hstart := startsValue_of_argument h
  rw [argumentsLaxUpTo]
  dsimp only
  split
  · exact absurd ‹_› hstart.ne_pipe
  · exact absurd ‹_› hstart.ne_end
  · exact absurd ‹_› hstart.ne_comma
  · rw [attempted_of_ok h]

/-- At the end of a filter a lax reading finds no more arguments. -/
theorem argumentsLaxUpTo_of_endsFilter {tokens : List MarkupToken}
    (h : EndsFilter tokens) (bound : Nat) (call : FilterCall) :
    argumentsLaxUpTo bound call tokens = (.ok call, tokens) := by
  cases bound with
  | zero => rfl
  | succ bound =>
    rw [argumentsLaxUpTo]
    dsimp only
    rcases h with h | h <;> rw [h]

/-- The arguments that a strict reading finds are found by a lax one, which counts commas as
attempts. -/
private theorem argumentsLaxUpTo_of_argumentsUpTo {n : Nat} {call call' : FilterCall}
    {tokens rest : List MarkupToken} (h : argumentsUpTo n call tokens = (.ok call', rest))
    (hn : tokens.length < n) (hrest : EndsFilter rest) :
    ∀ bound, tokens.length ≤ bound → argumentsLaxUpTo bound call tokens = (.ok call', rest) := by
  induction n generalizing call tokens with
  | zero => omega
  | succ n ih =>
    intro bound hbound
    rw [argumentsUpTo] at h
    -- An argument, and the comma behind it if there is one.
    obtain ⟨arg, rest', harg, h⟩ := ok_of_bind h
    obtain ⟨comma, rest'', hcomma, h⟩ := ok_of_bind h
    have hlength := argument_consumes _ _ _ harg
    obtain ⟨bound, rfl⟩ : ∃ bound', bound = bound' + 1 := ⟨bound - 1, by omega⟩
    rw [argumentsLaxUpTo_of_argument harg]
    unfold takes at hcomma
    split at hcomma
    · -- The comma is an attempt of its own in a lax reading.
      rename_i hkind
      obtain ⟨hcomma, rfl⟩ := Prod.mk.inj hcomma
      cases hcomma
      cases rest' with
      | nil => exact nomatch hkind
      | cons token rest' =>
        simp only [List.length_cons] at hlength
        obtain ⟨bound, rfl⟩ : ∃ bound', bound = bound' + 1 := ⟨bound - 1, by omega⟩
        rw [argumentsLaxUpTo]
        dsimp only
        rw [hkind]
        exact ih h (by simp only [List.tail_cons]; omega) bound
          (by simp only [List.tail_cons]; omega)
    · -- Without a comma this argument is the last one.
      obtain ⟨hcomma, rfl⟩ := Prod.mk.inj hcomma
      cases hcomma
      obtain ⟨hcall, rfl⟩ := Prod.mk.inj h
      cases hcall
      exact argumentsLaxUpTo_of_endsFilter hrest _ _

/-- Arguments that a strict reading finds are found by a lax one. -/
private theorem argumentsLax_of_arguments {call call' : FilterCall}
    {tokens rest : List MarkupToken} (h : arguments call tokens = (.ok call', rest))
    (hrest : EndsFilter rest) : argumentsLax call tokens = (.ok call', rest) :=
  argumentsLaxUpTo_of_argumentsUpTo h (Nat.lt_succ_self _) hrest _ (Nat.le_refl _)

/-- Only the end of the markup is of its kind. -/
theorem eq_nil_of_kindOf {tokens : List MarkupToken}
    (h : kindOf tokens = .endOfMarkup) : tokens = [] := by
  cases tokens with
  | nil => rfl
  | cons token tokens => cases token <;> exact nomatch h

/-- Where a strict reading finds filters up to the end, one of them starts or nothing is left. -/
private theorem endsFilter_of_filtersUpTo {bound : Nat} {calls : List FilterCall}
    {tokens : List MarkupToken} (h : filtersUpTo bound tokens = (.ok calls, [])) :
    EndsFilter tokens := by
  cases bound with
  | zero =>
    obtain ⟨-, rfl⟩ := Prod.mk.inj h
    exact .inr rfl
  | succ bound =>
    rw [filtersUpTo] at h
    obtain ⟨more, rest, hpipe, h⟩ := ok_of_bind h
    -- Everything was read, so behind the filter there is either a pipe or nothing.
    unfold takes at hpipe
    split at hpipe
    · exact .inl ‹_›
    · obtain ⟨hmore, rfl⟩ := Prod.mk.inj hpipe
      cases hmore
      obtain ⟨-, rfl⟩ := Prod.mk.inj h
      exact .inr rfl

/-- Nothing is skipped in front of a pipe, nor where nothing is left. -/
theorem skipToPipe_of_endsFilter {tokens : List MarkupToken} (h : EndsFilter tokens) :
    skipToPipe tokens = (.ok (), tokens) := by
  have hdrop : tokens.dropWhile (fun token => token.kind ≠ .pipe) = tokens := by
    cases tokens with
    | nil => rfl
    | cons token tokens =>
      rcases h with h | h
      · rw [List.dropWhile_cons_of_neg]
        simpa [kindOf] using h
      · exact nomatch eq_nil_of_kindOf h
  unfold skipToPipe Attempt.modify
  dsimp only
  rw [hdrop]

/-- One filter and those behind it, if a lax reading finds the same of the first. -/
private theorem filterLax_of_filter {bound : Nat} {x y : Reader FilterCall}
    {calls : List FilterCall} {tokens : List MarkupToken}
    (hxy : ∀ call rest, EndsFilter rest → x tokens = (.ok call, rest) →
      y tokens = (.ok call, rest))
    (ih : ∀ {calls tokens}, filtersUpTo bound tokens = (.ok calls, []) →
      filtersLaxUpTo bound tokens = (.ok calls, []))
    (h : (do let call ← x; let more ← filtersUpTo bound; return call :: more : Reader _) tokens
      = (.ok calls, [])) :
    (do let call ← y; let more ← filtersLaxUpTo bound; return call :: more : Reader _) tokens
      = (.ok calls, []) := by
  obtain ⟨call, rest, hcall, h⟩ := ok_of_bind h
  obtain ⟨more, rest', hmore, h⟩ := ok_of_bind h
  obtain ⟨hcalls, rfl⟩ := Prod.mk.inj h
  -- Another filter or the end comes next, so no argument is left over.
  rw [bind_of_ok (hxy call rest (endsFilter_of_filtersUpTo hmore) hcall), bind_of_ok (ih hmore)]
  exact h

/-- The filters that a strict reading finds up to the end are found by a lax one. -/
private theorem filtersLaxUpTo_of_filtersUpTo {bound : Nat} {calls : List FilterCall}
    {tokens : List MarkupToken} (h : filtersUpTo bound tokens = (.ok calls, [])) :
    filtersLaxUpTo bound tokens = (.ok calls, []) := by
  induction bound generalizing tokens calls with
  | zero => exact h
  | succ bound ih =>
    rw [filtersLaxUpTo, bind_of_ok (skipToPipe_of_endsFilter (endsFilter_of_filtersUpTo h))]
    rw [filtersUpTo] at h
    obtain ⟨pipe, rest, hpipe, h⟩ := ok_of_bind h
    rw [bind_of_ok hpipe]
    cases pipe with
    | false => exact h
    | true =>
      simp only [if_true] at h ⊢
      -- A name comes behind the pipe, so the lax reading does not have to look for the next pipe.
      obtain ⟨filter, rest', hname, h⟩ := ok_of_bind h
      rw [bind_of_ok (attempted_of_ok hname)]
      dsimp only
      obtain ⟨colon, rest'', hcolon, h⟩ := ok_of_bind h
      rw [bind_of_ok hcolon]
      cases colon with
      | true =>
        exact filterLax_of_filter (fun _ _ hends => (argumentsLax_of_arguments · hends)) ih h
      | false => exact filterLax_of_filter (fun _ _ _ => id) ih h

/-- A lax reading takes an expression as its source. -/
private theorem sourceLax_of_expression {tokens rest : List MarkupToken} {e : Expression}
    (h : expression tokens = (.ok e, rest)) : sourceLax tokens = (.ok e, rest) := by
  have hstart := startsValue_of_expression h
  unfold sourceLax
  split
  · exact absurd ‹_› hstart.ne_pipe
  · exact absurd ‹_› hstart.ne_end
  · rw [bind_of_ok (attempted_of_ok h)]
    rfl

/-- The end of the markup is expected where nothing is left. -/
private theorem rest_of_expectEnd {tokens rest : List MarkupToken}
    (h : expectEnd tokens = (.ok (), rest)) : tokens = [] ∧ rest = [] := by
  unfold expectEnd expect at h
  split at h
  · obtain rfl := eq_nil_of_kindOf ‹_›
    exact ⟨rfl, (Prod.mk.inj h).2.symm⟩
  · exact nomatch (Prod.mk.inj h).1

/-- A reading that leaves nothing over takes nothing else from the front. -/
theorem ok_of_toEnd {x : Reader α} {tokens rest : List MarkupToken} {a : α}
    (h : toEnd x tokens = (.ok a, rest)) : x tokens = (.ok a, []) := by
  obtain ⟨a', rest', ha, h⟩ := ok_of_bind h
  obtain ⟨⟨⟩, rest'', hend, h⟩ := ok_of_bind h
  obtain ⟨rfl, rfl⟩ := rest_of_expectEnd hend
  obtain ⟨haa, -⟩ := Prod.mk.inj h
  cases haa
  exact ha

/-- A lax reading finds the same source and the same filters, and skips nothing. -/
private theorem pipelineLax_of_pipelineStrict {tokens rest : List MarkupToken} {p : Pipeline}
    (h : pipelineStrict tokens = (.ok p, rest)) : pipelineLax tokens = (.ok p, []) := by
  obtain ⟨source, rest', hsource, h⟩ := ok_of_bind h
  obtain ⟨calls, rest'', hcalls, h⟩ := ok_of_bind h
  obtain ⟨⟨⟩, rest₃, hend, h⟩ := ok_of_bind h
  obtain ⟨rfl, rfl⟩ := rest_of_expectEnd hend
  obtain ⟨hp, -⟩ := Prod.mk.inj h
  cases hp
  have hlax : filtersLax rest' = (.ok calls, []) := filtersLaxUpTo_of_filtersUpTo hcalls
  unfold pipelineLax
  rw [bind_of_ok (sourceLax_of_expression hsource), bind_of_ok hlax]
  rfl

/-! ## Markup -/

/-- What a strict reader accepts, a lax one accepts in the same way. -/
def Agree (strict lax : String → Except Error α) : Prop :=
  ∀ markup a, strict markup = .ok a → lax markup = .ok a

/-- What is noted of the errors of a lax reading makes no difference. -/
theorem Agree.mapError {strict lax : String → Except Error α} (h : Agree strict lax)
    (f : Error → Error) : Agree strict fun markup => (lax markup).mapError f := by
  intro markup a ha
  dsimp only
  rw [h markup a ha]
  rfl

/-- Readers agree on markup if they do on tokens. -/
theorem agree_of_ok {x y : Reader α}
    (h : ∀ tokens a rest, x tokens = (.ok a, rest) → (y tokens).1 = .ok a) :
    Agree (onStrict x) (onLax y) := by
  intro markup a ha
  unfold onStrict at ha
  split at ha
  · rename_i tokens htokens
    unfold onLax
    -- What the strict lexer accepts, the lax one cuts into the same tokens.
    rw [lexLax_of_lexStrict_eq_ok htokens]
    exact h tokens a (x tokens).2 (Prod.ext ha rfl)
  · exact nomatch ha

/-- A lax reading takes what it can get, which is everything where a strict one succeeds. -/
theorem agree_toEnd (x : Reader α) : Agree (onStrict (toEnd x)) (onLax x) :=
  agree_of_ok fun _ _ _ h => by rw [ok_of_toEnd h]

end Reader

open Attempt Reader

/-- The two readings of an expression agree. -/
theorem Expression.agree_read : Agree Expression.readStrict Expression.readLax := by
  refine agree_of_ok fun tokens e rest h => ?_
  rw [bind_of_ok (attempted_of_ok (ok_of_toEnd h))]
  rfl

/-- The two readings of an output agree. -/
theorem Pipeline.agree_read : Agree Pipeline.readStrict Pipeline.readLax := by
  intro markup p hp
  unfold readStrict at hp
  split at hp
  · -- Markup without tokens is nil either way.
    rename_i htokens
    cases hp
    exact readLax_of_lexLax_eq_nil (lexLax_of_lexStrict_eq_ok htokens)
  · rename_i tokens hne htokens
    unfold readLax onLax
    rw [lexLax_of_lexStrict_eq_ok htokens,
      pipelineLax_of_pipelineStrict (Prod.ext hp rfl : pipelineStrict tokens = (_, _))]
  · exact nomatch hp

/-! ## Loops -/

namespace LoopHeader

/-- One attribute of a loop. -/
private theorem clause_acceptedBy (messages : Catalogue) (key : String) (header : LoopHeader) :
    (attributesUpTo.clause messages true key header).AcceptedBy
      (attributesUpTo.clause messages false key header) := by
  unfold attributesUpTo.clause
  split
  · exact .refl _
  · exact .refl _
  · -- Only a lax reading passes over an attribute that loops do not have.
    exact .fail _ _

/-- The attributes of a loop, by induction on how many may still follow. -/
private theorem attributesUpTo_acceptedBy (messages : Catalogue) (bound : Nat)
    (header : LoopHeader) :
    (attributesUpTo messages true bound header).AcceptedBy
      (attributesUpTo messages false bound header) := by
  induction bound generalizing header with
  | zero => exact .refl _
  | succ bound ih =>
    refine .bind (.refl _) fun tokens => ?_
    -- The modes part within a clause only, over a key that they do not know.
    split
    · refine .bind (.refl _) fun key => .bind (.refl _) fun _ => ?_
      refine .bind (clause_acceptedBy messages key header) fun header => ?_
      exact .bind (.refl _) fun _ => ih header
    · exact .refl _

/-- A strict reading looks in the end whether anything is left over. -/
private theorem read_of_strict {messages : Catalogue} {tokens rest : List MarkupToken}
    {header : LoopHeader} (h : read messages true tokens = (.ok header, rest)) :
    read messages false tokens = (.ok header, []) := by
  obtain ⟨item, rest₁, hitem, h⟩ := ok_of_bind h
  obtain ⟨isIn, rest₂, hin, h⟩ := ok_of_bind h
  unfold read
  rw [bind_of_ok hitem, bind_of_ok hin]
  cases isIn with
  | false => exact nomatch (Prod.mk.inj h).1
  | true =>
    obtain ⟨collection, rest₃, hcollection, h⟩ := ok_of_bind h
    obtain ⟨reversed, rest₄, hreversed, h⟩ := ok_of_bind h
    -- Both readings look at what is left to know how many attributes there can be.
    obtain ⟨left, rest₅, hget, h⟩ := ok_of_bind h
    cases hget
    obtain ⟨header', rest₅, hattributes, h⟩ := ok_of_bind h
    obtain ⟨⟨⟩, rest₆, hend, h⟩ := ok_of_bind h
    obtain ⟨rfl, rfl⟩ := rest_of_expectEnd hend
    obtain ⟨hheader, -⟩ := Prod.mk.inj h
    cases hheader
    rw [if_pos rfl, bind_of_ok hcollection, bind_of_ok hreversed]
    exact bind_of_ok (attributesUpTo_acceptedBy messages _ _ _ _ _ hattributes) _

/-- The clauses of a loop that a strict reading accepts are read in the same way by a lax one. -/
theorem agree_read (messages : Catalogue) :
    Agree (onStrict (read messages true)) (onLax (read messages false)) :=
  agree_of_ok fun _ _ _ h => by rw [read_of_strict h]

end LoopHeader

end Stencil
