import Stencil.Proofs.MarkupModes

/-!
# Lax readings come to an end

A lax reading of an output or an expression passes over whatever it cannot make sense of, so the
only thing that can stop it is markup that is nested too deep. That takes a hundred brackets: each
level of the nesting is entered behind a bracket of its own, and no bracket is read twice, because
what a reader leaves over is always the end of what it was given, also where it fails.

The loops of a reading have bounds for the number of their turns. Each turn takes a token at least,
so the bounds cut nothing short: with any higher bound the loops do the same.

## Key definitions

- `Reader.Nests`: how many brackets it takes until something is nested too deep
- `Reader.EndsInTime`: a loop that the number of tokens bounds

## Key results

- `Reader.expressionWithin_nests`: a level of nesting for each bracket
- `Reader.filtersLaxUpTo_endsInTime`: the loop over the filters of an output
- `Reader.readLax_or_tooDeep`: lax readings of outputs and expressions
-/

namespace Stencil

open Attempt

namespace Reader

variable {α β : Type} {levels : Nat}

/-! ## What is left over -/

/-- How many brackets the tokens open. -/
def openBrackets (tokens : List MarkupToken) : Nat :=
  tokens.countP fun token => token.kind = .openSquare ∨ token.kind = .openRound

/-- The reader leaves the end of its tokens over, whether it fails or not. If something is nested
too deep for it, it has opened `levels` brackets. -/
def Nests (levels : Nat) (x : Reader α) : Prop :=
  ∀ tokens r rest, x tokens = (r, rest) → rest <:+ tokens
    ∧ ∀ e, r = .error e → e.kind = .stackLevel → levels + openBrackets rest ≤ openBrackets tokens

/-- The end of a list has at most as many opening brackets. -/
theorem openBrackets_le_of_suffix {rest tokens : List MarkupToken} (h : rest <:+ tokens) :
    openBrackets rest ≤ openBrackets tokens :=
  h.sublist.countP_le

namespace Nests

/-- What is left is the end of what there was. -/
theorem leaves {x : Reader α} (h : x.Nests levels) (tokens : List MarkupToken) :
    (x tokens).2 <:+ tokens :=
  (h tokens _ _ rfl).1

/-- A reader for which nothing is nested too deep. -/
theorem of_ne {x : Reader α} (hleaves : ∀ tokens, (x tokens).2 <:+ tokens)
    (hne : ∀ tokens e, (x tokens).1 = .error e → e.kind ≠ .stackLevel) : x.Nests levels := by
  intro tokens r rest h
  have hr : (x tokens).1 = r := congrArg Prod.fst h
  have hrest : (x tokens).2 = rest := congrArg Prod.snd h
  exact ⟨hrest ▸ hleaves tokens, fun e he hk => absurd hk (hne tokens e (hr.trans he))⟩

/-- Giving a value takes no tokens. -/
theorem pure (a : α) : (Pure.pure a : Reader α).Nests levels :=
  of_ne (fun tokens => List.suffix_refl tokens) fun _ _ h => nomatch h

/-- One reader after the other: what the second one refuses is in what the first one left. -/
theorem bind {x : Reader α} {f : α → Reader β} (hx : x.Nests levels)
    (hf : ∀ a, (f a).Nests levels) : (x >>= f).Nests levels := by
  intro tokens r rest h
  rw [bind_apply] at h
  -- The brackets that are too deep are among those that were read by then.
  cases hread : x tokens with
  | mk r' mid =>
    rw [hread] at h
    obtain ⟨hmid, hdeep⟩ := hx tokens r' mid hread
    cases r' with
    | error e =>
      obtain ⟨rfl, rfl⟩ := Prod.mk.inj h
      exact ⟨hmid, fun e' he hk => hdeep e (Except.error.inj he ▸ rfl) (Except.error.inj he ▸ hk)⟩
    | ok a =>
      obtain ⟨hrest, hdeep'⟩ := hf a mid r rest h
      refine ⟨hrest.trans hmid, fun e he hk => ?_⟩
      exact Nat.le_trans (hdeep' e he hk) (openBrackets_le_of_suffix hmid)

/-- A reader that may nest deeper reads more. -/
theorem mono {more : Nat} {x : Reader α} (hx : x.Nests more) (h : levels ≤ more) :
    x.Nests levels := by
  intro tokens r rest hread
  obtain ⟨hrest, hdeep⟩ := hx tokens r rest hread
  refine ⟨hrest, fun e he hk => ?_⟩
  have := hdeep e he hk
  omega

/-- What is read later on. -/
theorem later {x : Reader α} (hx : x.Nests levels) {tokens before rest : List MarkupToken}
    (hmore : tokens <:+ before) {r : Except Error α} (h : x tokens = (r, rest)) :
    rest <:+ before ∧ ∀ e, r = .error e → e.kind = .stackLevel →
      levels + openBrackets rest ≤ openBrackets before := by
  obtain ⟨hrest, hdeep⟩ := hx tokens r rest h
  exact ⟨hrest.trans hmore, fun e he hk =>
    Nat.le_trans (hdeep e he hk) (openBrackets_le_of_suffix hmore)⟩

/-- What is read behind a bracket may be nested one level less deep. -/
theorem inside {x : Reader α} (hx : x.Nests levels) {token : MarkupToken}
    (htoken : token.kind = .openSquare ∨ token.kind = .openRound) {tokens rest : List MarkupToken}
    {r : Except Error α} (h : x tokens = (r, rest)) :
    rest <:+ token :: tokens ∧ ∀ e, r = .error e → e.kind = .stackLevel →
      levels + 1 + openBrackets rest ≤ openBrackets (token :: tokens) := by
  obtain ⟨hrest, hdeep⟩ := hx tokens r rest h
  have hcount : openBrackets (token :: tokens) = openBrackets tokens + 1 :=
    List.countP_cons_of_pos (decide_eq_true htoken)
  refine ⟨hrest.trans (List.suffix_cons token tokens), fun e he hk => ?_⟩
  have := hdeep e he hk
  omega

end Nests

/-! ### Single tokens -/

/-- A token is taken, or left. -/
theorem takes_nests (kind : MarkupToken.Kind) : (takes kind).Nests levels := by
  refine .of_ne (fun tokens => ?_) fun tokens e h => ?_
  · unfold takes
    split
    · exact List.tail_suffix tokens
    · exact List.suffix_refl tokens
  · unfold takes at h
    split at h <;> exact nomatch h

/-- A token is taken, or refused with a grammar error. -/
theorem expect_nests (kind : MarkupToken.Kind) : (expect kind).Nests levels := by
  refine .of_ne (fun tokens => ?_) fun tokens e h => ?_
  · unfold expect
    split
    · exact List.tail_suffix tokens
    · exact List.suffix_refl tokens
  · unfold expect at h
    split at h
    · exact nomatch h
    · cases h
      exact nofun

/-- So is a name. -/
theorem name_nests : name.Nests levels := by
  refine .of_ne (fun tokens => ?_) fun tokens e h => ?_
  · unfold name
    split
    · exact List.suffix_cons _ _
    · exact List.suffix_refl tokens
  · unfold name at h
    split at h
    · exact nomatch h
    · cases h
      exact nofun

/-! ### Expressions -/

/-- The segments of a path open a bracket before each key. -/
theorem segmentsUpTo_nests {inner : Reader Expression} (hinner : inner.Nests levels)
    (bound : Nat) : (segmentsUpTo inner bound).Nests (levels + 1) := by
  -- By induction on how many segments may still follow.
  induction bound with
  | zero => exact .pure _
  | succ bound ih =>
    intro tokens r rest h
    rw [segmentsUpTo] at h
    dsimp only at h
    split at h
    · -- A key in brackets.
      have hkey : (do
          let key ← inner
          expect .closeSquare
          let more ← segmentsUpTo inner bound
          return .mk key false :: more : Reader (List Segment)).Nests levels :=
        .bind hinner fun _ => .bind (expect_nests _) fun _ =>
          .bind (ih.mono (Nat.le_succ levels)) fun _ => .pure _
      exact hkey.inside (.inl rfl) h
    · -- A name behind a dot.
      have hmember : (do
          let member ← name
          let more ← segmentsUpTo inner bound
          return .mk (.literal (.str member)) true :: more : Reader (List Segment)).Nests
            (levels + 1) :=
        .bind name_nests fun _ => .bind ih fun _ => .pure _
      exact hmember.later (List.suffix_cons _ _) h
    · exact Nests.pure _ _ _ _ h

/-- A path. -/
theorem segments_nests {inner : Reader Expression} (hinner : inner.Nests levels) :
    (segments inner).Nests (levels + 1) :=
  fun tokens => segmentsUpTo_nests hinner tokens.length tokens

/-- Each bracket that is opened takes a level away, and so does a range. -/
theorem primary_nests {inner : Reader Expression} (hinner : inner.Nests levels) :
    (primary inner).Nests (levels + 1) := by
  have hpath := segments_nests hinner
  have hpath' := hpath.mono (Nat.le_succ levels)
  intro tokens r rest h
  unfold primary at h
  split at h
  · exact (Nests.pure _).later (List.suffix_cons _ _) h
  · exact (Nests.pure _).later (List.suffix_cons _ _) h
  · exact (Nests.pure _).later (List.suffix_cons _ _) h
  · -- A name with a path.
    exact (hpath.bind fun _ => .pure _).later (List.suffix_cons _ _) h
  · -- A name in brackets with a path.
    exact (hinner.bind fun _ => (expect_nests _).bind fun _ =>
      hpath'.bind fun _ => .pure _).inside (.inl rfl) h
  · -- A range with a path.
    exact (hinner.bind fun _ => (expect_nests _).bind fun _ => hinner.bind fun _ =>
      (expect_nests _).bind fun _ => hpath'.bind fun _ => .pure _).inside (.inr rfl) h
  · obtain ⟨rfl, rfl⟩ := Prod.mk.inj h
    exact ⟨List.suffix_refl _, fun e he hk => by cases he; exact nomatch hk⟩

/-- An expression opens a bracket for every level of its nesting. -/
theorem expressionWithin_nests (levels : Nat) : (expressionWithin levels).Nests levels := by
  induction levels with
  | zero =>
    intro tokens r rest h
    obtain ⟨rfl, rfl⟩ := Prod.mk.inj h
    exact ⟨List.suffix_refl _, fun _ _ _ => by omega⟩
  | succ levels ih => exact primary_nests ih

/-- An argument. -/
theorem argument_nests : argument.Nests maxNesting := by
  intro tokens r rest h
  unfold argument at h
  split at h
  · -- The value behind a name and a colon.
    exact (Nests.bind (expressionWithin_nests _) fun _ => .pure _).later
      ((List.suffix_cons _ _).trans (List.suffix_cons _ _)) h
  · exact (Nests.bind (expressionWithin_nests _) fun _ => .pure _) tokens r rest h

/-! ### Recovery -/

/-- What is attempted leaves the tokens as they were where it fails with a grammar error. -/
theorem attempted_nests {x : Reader α} (hx : x.Nests levels) : (attempted x).Nests levels := by
  intro tokens r rest h
  unfold attempted at h
  -- An attempt drops an error or passes it on as it is.
  cases hread : x tokens with
  | mk r' mid =>
    rw [hread] at h
    obtain ⟨hmid, hdeep⟩ := hx tokens r' mid hread
    cases r' with
    | ok a =>
      obtain ⟨rfl, rfl⟩ := Prod.mk.inj h
      exact ⟨hmid, nofun⟩
    | error e =>
      dsimp only at h
      split at h
      · obtain ⟨rfl, rfl⟩ := Prod.mk.inj h
        exact ⟨hmid, nofun⟩
      · obtain ⟨rfl, rfl⟩ := Prod.mk.inj h
        exact ⟨hmid, fun e' he hk => hdeep e' (Except.error.inj he ▸ rfl) hk⟩

/-- Tokens are dropped up to the next pipe. -/
theorem skipToPipe_nests : skipToPipe.Nests levels :=
  .of_ne (fun _ => List.dropWhile_suffix _) fun _ _ h => nomatch h

/-- By induction on the turns; a token that cannot be read is dropped. -/
theorem argumentsLaxUpTo_nests (bound : Nat) (call : FilterCall) :
    (argumentsLaxUpTo bound call).Nests maxNesting := by
  induction bound generalizing call with
  | zero => exact .pure _
  | succ bound ih =>
    intro tokens r rest h
    rw [argumentsLaxUpTo] at h
    dsimp only at h
    split at h
    · exact Nests.pure _ _ _ _ h
    · exact Nests.pure _ _ _ _ h
    · exact (ih call).later (List.tail_suffix tokens) h
    · have hread := attempted_nests argument_nests tokens
      split at h
      · exact (ih _).later (hread _ _ ‹_›).1 h
      · -- The token that stopped the reading goes too.
        exact (ih call).later ((List.tail_suffix _).trans (hread _ _ ‹_›).1) h
      · obtain ⟨hrest, hdeep⟩ := hread _ _ ‹_›
        obtain ⟨rfl, rfl⟩ := Prod.mk.inj h
        exact ⟨hrest, fun e he hk => hdeep e (congrArg _ (Except.error.inj he)) hk⟩

/-- The arguments of a lax reading. -/
theorem argumentsLax_nests (call : FilterCall) : (argumentsLax call).Nests maxNesting :=
  fun tokens => argumentsLaxUpTo_nests tokens.length call tokens

/-- The filter of that name with its arguments, as far as they can be read. -/
def callLax (name : String) : Reader FilterCall := do
  if ← takes .colon then argumentsLax { name } else return { name }

/-- The filters behind a pipe. -/
def behindPipe (more : Reader (List FilterCall)) : Reader (List FilterCall) := do
  match ← attempted name with
  | none => more
  | some name =>
    let call ← callLax name
    let more ← more
    return call :: more

/-- One turn of the loop over filters, taken apart. -/
theorem filtersLaxUpTo_succ (bound : Nat) :
    filtersLaxUpTo (bound + 1) = (do
      skipToPipe
      if ← takes .pipe then behindPipe (filtersLaxUpTo bound) else return []) := by
  rw [filtersLaxUpTo]
  refine congrArg _ (funext fun _ => congrArg _ (funext fun pipe => ?_))
  -- Both sides skip to the pipe and differ only in how the rest is put together.
  cases pipe with
  | false => rfl
  | true =>
    refine congrArg (attempted name >>= ·) (funext fun found => ?_)
    cases found with
    | none => rfl
    | some name =>
      simp only [callLax, bind_assoc]
      exact congrArg _ (funext fun colon => by cases colon <;> rfl)

/-- A filter with its arguments, if there is a colon. -/
theorem callLax_nests (name : String) : (callLax name).Nests maxNesting := by
  refine (takes_nests _).bind fun colon => ?_
  split
  · exact argumentsLax_nests _
  · exact .pure _

/-- What follows a pipe: a filter, or nothing that could be read. -/
theorem behindPipe_nests {more : Reader (List FilterCall)} (hmore : more.Nests maxNesting) :
    (behindPipe more).Nests maxNesting := by
  refine (attempted_nests name_nests).bind fun found => ?_
  split
  · exact hmore
  · exact (callLax_nests _).bind fun _ => hmore.bind fun _ => .pure _

/-- By induction on the turns. -/
theorem filtersLaxUpTo_nests (bound : Nat) : (filtersLaxUpTo bound).Nests maxNesting := by
  induction bound with
  | zero => exact .pure _
  | succ bound ih =>
    rw [filtersLaxUpTo_succ]
    refine skipToPipe_nests.bind fun _ => (takes_nests _).bind fun pipe => ?_
    split
    · exact behindPipe_nests ih
    · exact .pure _

/-- The filters of a lax reading. -/
theorem filtersLax_nests : filtersLax.Nests maxNesting :=
  fun tokens => filtersLaxUpTo_nests tokens.length tokens

/-- The lax reading of an expression. -/
theorem expressionLax_nests :
    (do return (← attempted expression).getD .nil : Reader Expression).Nests maxNesting :=
  (attempted_nests (expressionWithin_nests _)).bind fun _ => .pure _

/-- The source of a lax reading. -/
theorem sourceLax_nests : sourceLax.Nests maxNesting := by
  intro tokens r rest h
  unfold sourceLax at h
  split at h
  · exact Nests.pure _ _ _ _ h
  · exact Nests.pure _ _ _ _ h
  · exact expressionLax_nests tokens r rest h

/-- The lax reading of an output. -/
theorem pipelineLax_nests : pipelineLax.Nests maxNesting :=
  sourceLax_nests.bind fun _ => filtersLax_nests.bind fun _ => .pure _

/-! ## What stops a lax reading -/

/-- Only a nesting that is too deep stops the reader. -/
def Unstoppable (x : Reader α) : Prop :=
  x.Ensures (fun _ => True) fun e => e.kind = .stackLevel

namespace Unstoppable

/-- Giving a value cannot fail. -/
theorem pure (a : α) : (Pure.pure a : Reader α).Unstoppable :=
  fun _ => trivial

/-- Nor can one reader after the other. -/
theorem bind {x : Reader α} {f : α → Reader β} (hx : x.Unstoppable)
    (hf : ∀ a, (f a).Unstoppable) : (x >>= f).Unstoppable :=
  Attempt.Ensures.bind hx fun a _ => hf a

end Unstoppable

/-- Nor can taking a token if it is there. -/
theorem takes_unstoppable (kind : MarkupToken.Kind) : (takes kind).Unstoppable := by
  intro tokens
  unfold takes
  split <;> trivial

/-- Whatever else stops a reader, an attempt passes over it. -/
theorem attempted_unstoppable (x : Reader α) : (attempted x).Unstoppable := by
  intro tokens
  unfold attempted
  split
  · trivial
  · split
    · trivial
    · rename_i e _ _ hstop
      exact (show e.kind = .stackLevel by simpa [isRecoverable] using hstop)

/-- A lax reading of arguments fails only where brackets are nested too deep. -/
theorem argumentsLaxUpTo_unstoppable (bound : Nat) (call : FilterCall) :
    (argumentsLaxUpTo bound call).Unstoppable := by
  -- By induction on the bound: only an argument may fail, and only as an attempt does.
  induction bound generalizing call with
  | zero => exact .pure _
  | succ bound ih =>
    intro tokens
    rw [argumentsLaxUpTo]
    dsimp only
    split
    · trivial
    · trivial
    · exact ih call tokens.tail
    · have hread := attempted_unstoppable argument tokens
      split
      · exact ih _ _
      · exact ih call _
      · rename_i hfail
        rw [hfail] at hread
        exact hread

/-- So does a filter. -/
theorem callLax_unstoppable (name : String) : (callLax name).Unstoppable := by
  refine (takes_unstoppable _).bind fun colon => ?_
  split
  · exact fun tokens => argumentsLaxUpTo_unstoppable tokens.length _ tokens
  · exact .pure _

/-- And all filters, by induction on the turns. -/
theorem filtersLaxUpTo_unstoppable (bound : Nat) : (filtersLaxUpTo bound).Unstoppable := by
  -- By induction on the bound: nothing but a name and the arguments may fail.
  induction bound with
  | zero => exact .pure _
  | succ bound ih =>
    rw [filtersLaxUpTo_succ]
    refine .bind (fun _ => trivial) fun _ => (takes_unstoppable _).bind fun pipe => ?_
    split
    · refine (attempted_unstoppable name).bind fun found => ?_
      split
      · exact ih
      · exact (callLax_unstoppable _).bind fun _ => ih.bind fun _ => .pure _
    · exact .pure _

/-- And an expression. -/
theorem expressionLax_unstoppable :
    (do return (← attempted expression).getD .nil : Reader Expression).Unstoppable :=
  (attempted_unstoppable _).bind fun _ => .pure _

/-- And the source. -/
theorem sourceLax_unstoppable : sourceLax.Unstoppable := by
  intro tokens
  unfold sourceLax
  split
  · trivial
  · trivial
  · exact expressionLax_unstoppable tokens

/-- So an output is read, or brackets are nested too deep. -/
theorem pipelineLax_unstoppable : pipelineLax.Unstoppable :=
  sourceLax_unstoppable.bind fun _ =>
    .bind (fun tokens => filtersLaxUpTo_unstoppable tokens.length tokens) fun _ => .pure _

/-! ## Loops that end in time -/

/-- A bound of as many turns as there are tokens does not cut the loop short: with any higher bound
it does the same. -/
def EndsInTime (loop : Nat → Reader α) : Prop :=
  ∀ tokens bound, tokens.length ≤ bound → loop bound tokens = loop tokens.length tokens

/-- The readers do the same where at most `n` tokens are left. -/
def SameWithin (n : Nat) (x y : Reader α) : Prop :=
  ∀ tokens, tokens.length ≤ n → x tokens = y tokens

namespace SameWithin

variable {n : Nat}

/-- What comes after the same first step has no more tokens than that. -/
theorem after {x : Reader α} (hx : ∀ tokens, (x tokens).2 <:+ tokens) {f g : α → Reader β}
    (h : ∀ a, SameWithin n (f a) (g a)) : SameWithin n (x >>= f) (x >>= g) := by
  intro tokens hn
  rw [bind_apply, bind_apply]
  have hrest := (hx tokens).length_le
  cases hread : x tokens with
  | mk r rest =>
    rw [hread] at hrest
    cases r with
    | error e => rfl
    | ok a => exact h a rest (Nat.le_trans hrest hn)

/-- What follows two readers that are the same is the same. -/
theorem first {x y : Reader α} (h : SameWithin n x y) (f : α → Reader β) :
    SameWithin n (x >>= f) (y >>= f) := by
  intro tokens hn
  rw [bind_apply, bind_apply, h tokens hn]

end SameWithin

/-- Loops that do nothing without tokens, and of which each turn takes a token before the next. -/
theorem endsInTime_of_turn {ι : Type} (loop : ι → Nat → Reader α)
    (hnil : ∀ i bound, loop i bound [] = loop i 0 [])
    (hturn : ∀ b b' token tokens, (∀ i, SameWithin (List.length tokens) (loop i b) (loop i b')) →
      ∀ i, loop i (b + 1) (token :: tokens) = loop i (b' + 1) (token :: tokens)) (i : ι) :
    EndsInTime (loop i) := by
  -- More turns than there are tokens make no difference, by induction on the tokens.
  have hsame : ∀ n b b', n ≤ b → n ≤ b' → ∀ i, SameWithin n (loop i b) (loop i b') := by
    intro n
    induction n with
    | zero =>
      intro b b' _ _ i tokens hn
      rw [List.length_eq_zero_iff.mp (Nat.le_zero.mp hn), hnil, hnil i b']
    | succ n ih =>
      intro b b' hb hb' i tokens hn
      cases tokens with
      | nil => rw [hnil, hnil i b']
      | cons token tokens =>
        obtain ⟨b, rfl⟩ := Nat.exists_eq_add_one_of_ne_zero (Nat.ne_zero_of_lt hb)
        obtain ⟨b', rfl⟩ := Nat.exists_eq_add_one_of_ne_zero (Nat.ne_zero_of_lt hb')
        have hn := Nat.le_of_succ_le_succ hn
        exact hturn b b' token tokens (fun i later hlater =>
          ih b b' (Nat.le_of_succ_le_succ hb) (Nat.le_of_succ_le_succ hb') i later
            (Nat.le_trans hlater hn)) i
  exact fun tokens bound h => hsame _ _ _ h (Nat.le_refl _) i tokens (Nat.le_refl _)

/-- The loop over the segments of a path. -/
theorem segmentsUpTo_endsInTime (levels : Nat) :
    EndsInTime (segmentsUpTo (expressionWithin levels)) := by
  refine endsInTime_of_turn (fun _ : Unit => segmentsUpTo (expressionWithin levels))
    (fun _ bound => ?_) (fun b b' token tokens hsame _ => ?_) ()
  · cases bound <;> rfl
  · rw [segmentsUpTo, segmentsUpTo]
    dsimp only
    split
    · -- A key in brackets.
      rename_i heq
      obtain ⟨-, rfl⟩ := List.cons.inj heq
      exact SameWithin.after (expressionWithin_nests levels).leaves
        (fun _ => .after (expect_nests _ : (expect _).Nests levels).leaves
          fun _ => .first (hsame ()) _) _ (Nat.le_refl _)
    · -- A name behind a dot.
      rename_i heq
      obtain ⟨-, rfl⟩ := List.cons.inj heq
      exact SameWithin.after (name_nests : name.Nests levels).leaves
        (fun _ => .first (hsame ()) _) _ (Nat.le_refl _)
    · rfl

/-- What was attempted and gave something was read. -/
theorem ok_of_attempted {x : Reader α} {tokens rest : List MarkupToken} {a : α}
    (h : attempted x tokens = (.ok (some a), rest)) : x tokens = (.ok a, rest) := by
  unfold attempted at h
  split at h
  · rename_i hread
    obtain ⟨ha, rfl⟩ := Prod.mk.inj h
    rw [hread, Option.some.inj (Except.ok.inj ha)]
  · split at h <;> exact nomatch (Prod.mk.inj h).1

/-- The loop over the arguments of a filter. -/
theorem argumentsLaxUpTo_endsInTime (call : FilterCall) :
    EndsInTime fun bound => argumentsLaxUpTo bound call := by
  refine endsInTime_of_turn (fun call bound => argumentsLaxUpTo bound call)
    (fun call bound => ?_) (fun b b' token tokens hsame call => ?_) call
  · cases bound <;> rfl
  · show argumentsLaxUpTo (b + 1) call (token :: tokens)
      = argumentsLaxUpTo (b' + 1) call (token :: tokens)
    rw [argumentsLaxUpTo, argumentsLaxUpTo]
    dsimp only
    split
    · rfl
    · rfl
    · -- A comma is taken.
      exact hsame call tokens (Nat.le_refl _)
    · have hleaves := (attempted_nests argument_nests).leaves (token :: tokens)
      cases hread : attempted argument (token :: tokens) with
      | mk r rest =>
        rw [hread] at hleaves
        rcases r with e | _ | arg
        · rfl
        · -- A token that is no argument is dropped.
          have hlength : rest.length ≤ tokens.length + 1 := hleaves.length_le
          exact hsame call rest.tail (by rw [List.length_tail]; omega)
        · -- An argument that was read has taken a token.
          have htaken := argument_consumes _ _ _ (ok_of_attempted hread)
          exact hsame _ rest (Nat.le_of_succ_le_succ htaken)

/-- A pipe and what is read behind it. -/
theorem sameWithin_ofPipe {n : Nat} {x y : Reader (List FilterCall)} (h : SameWithin n x y) :
    SameWithin (n + 1) (do if ← takes .pipe then x else return [])
      (do if ← takes .pipe then y else return []) := by
  intro tokens hn
  cases tokens with
  | nil => rfl
  | cons token tokens =>
    -- Behind the pipe there is one token less.
    by_cases hpipe : token.kind = .pipe
    · have htakes : takes .pipe (token :: tokens) = (.ok true, tokens) := if_pos hpipe
      rw [bind_of_ok htakes, bind_of_ok htakes]
      exact h tokens (Nat.le_of_succ_le_succ hn)
    · have htakes : takes .pipe (token :: tokens) = (.ok false, token :: tokens) := if_neg hpipe
      rw [bind_of_ok htakes, bind_of_ok htakes]
      rfl

/-- The loop over the filters of an output. -/
theorem filtersLaxUpTo_endsInTime : EndsInTime filtersLaxUpTo := by
  refine endsInTime_of_turn (fun _ : Unit => filtersLaxUpTo)
    (fun _ bound => ?_) (fun b b' token tokens hsame _ => ?_) ()
  · cases bound <;> rfl
  · have hbehind : SameWithin tokens.length (behindPipe (filtersLaxUpTo b))
        (behindPipe (filtersLaxUpTo b')) := by
      have hname : (attempted name).Nests maxNesting := attempted_nests name_nests
      refine .after hname.leaves fun found => ?_
      cases found with
      | none => exact hsame ()
      | some name => exact .after (callLax_nests name).leaves fun call => .first (hsame ()) _
    rw [filtersLaxUpTo_succ, filtersLaxUpTo_succ]
    -- The pipe that is skipped to is gone before the next turn.
    exact SameWithin.after (skipToPipe_nests : skipToPipe.Nests maxNesting).leaves
      (fun _ => sameWithin_ofPipe hbehind) _ (Nat.le_refl _)

/-! ## Lax readings -/

/-- A lexeme takes a character at least. -/
theorem length_lexemes_le (cs : List Char) : (lexemes cs).length ≤ cs.length := by
  fun_induction lexemes cs with
  | case1 => exact Nat.le_refl _
  | case2 c cs ih => exact Nat.succ_le_succ (Nat.le_trans ih (length_lexeme_le c cs))

/-- Lexing takes a character at least for each token. -/
theorem length_lexLax_le (markup : String) : (lexLax markup).length ≤ markup.length :=
  Nat.le_trans (List.length_filterMap_le _ _) (length_lexemes_le _)

/-- The markup is read, or nested too deep, which takes as many brackets as there are levels. -/
def ReadOrTooDeep (markup : String) : Except Error α → Prop :=
  Meets (fun _ => True) fun e =>
    e.kind = .stackLevel ∧ maxNesting ≤ openBrackets (lexLax markup)

/-- What nests and cannot be stopped gives something, or finds too many brackets. -/
theorem onLax_readOrTooDeep {x : Reader α} (hx : x.Nests maxNesting) (hstop : x.Unstoppable)
    (markup : String) : ReadOrTooDeep markup (onLax x markup) := by
  have hkind := hstop (lexLax markup)
  unfold onLax
  -- An error that is left says that brackets are too deep, so there are as many of them.
  cases hread : x (lexLax markup) with
  | mk r rest =>
    rw [hread] at hkind
    cases r with
    | ok a => trivial
    | error e =>
      have := (hx _ _ _ hread).2 e rfl hkind
      exact ⟨hkind, by omega⟩

/-- A lax reading of an output or an expression fails only where a hundred brackets are open. Its
tokens are at most as many as the characters of the markup, and no loop of it needs more turns than
there are tokens. -/
theorem readLax_or_tooDeep (markup : String) :
    (lexLax markup).length ≤ markup.length
      ∧ ReadOrTooDeep markup (Pipeline.readLax markup)
      ∧ ReadOrTooDeep markup (Expression.readLax markup)
      ∧ (∀ levels, EndsInTime (segmentsUpTo (expressionWithin levels)))
      ∧ (∀ call, EndsInTime fun bound => argumentsLaxUpTo bound call)
      ∧ EndsInTime filtersLaxUpTo :=
  ⟨length_lexLax_le markup, onLax_readOrTooDeep pipelineLax_nests pipelineLax_unstoppable markup,
    onLax_readOrTooDeep expressionLax_nests expressionLax_unstoppable markup,
    segmentsUpTo_endsInTime, argumentsLaxUpTo_endsInTime, filtersLaxUpTo_endsInTime⟩

end Reader

end Stencil
