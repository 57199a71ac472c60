import Stencil.Proofs.GrammarReading
import Stencil.Proofs.LaxReadings

/-!
# The filters that a lax reading finds

A lax reading of an output takes the name behind each pipe for a filter, whatever stands between
the pipes. There is one exception. An argument that breaks off in front of a pipe is dropped
together with the token that stopped it, which is that pipe: a filter behind it is lost, its name is
read as one more argument. No filter is ever made up.

## Key definitions

- `Reader.pipeNames`: the names behind the pipes
- `Reader.BreaksOff`: the arguments of a filter end inside one that cannot be read
- `Reader.LosesFilter`: somewhere a filter follows such arguments

## Key results

- `Reader.argument_stopsAtPipe`: what stands behind a pipe makes no difference in front of it
- `Reader.argumentsLaxUpTo_rest`: which pipes are passed over together with arguments
- `Pipeline.names_readLax`: the filters of an output
-/

namespace Stencil

open Attempt

namespace Reader

variable {α β : Type}

/-! ## Readers that stop at pipes -/

/-- What a reader comes to without a pipe and what it comes to in front of one are the same, but
for the message of an error, which says what was found. -/
inductive BeforePipe (after : List MarkupToken) :
    Except Error α × List MarkupToken → Except Error α × List MarkupToken → Prop where
  | ok (a : α) (rest : List MarkupToken) :
    BeforePipe after (.ok a, rest) (.ok a, rest ++ .pipe :: after)
  | error {e e' : Error} (rest : List MarkupToken) (hkind : e'.kind = e.kind) :
    BeforePipe after (.error e, rest) (.error e', rest ++ .pipe :: after)

/-- A pipe stops the reader as the end does, whatever follows it. -/
def StopsAtPipe (x : Reader α) : Prop :=
  ∀ tokens after, BeforePipe after (x tokens) (x (tokens ++ .pipe :: after))

namespace StopsAtPipe

variable {x : Reader α} {tokens rest : List MarkupToken}

/-- Giving a value takes no tokens. -/
theorem pure (a : α) : (Pure.pure a : Reader α).StopsAtPipe :=
  fun tokens _ => .ok a tokens

/-- One reader after the other. -/
theorem bind {f : α → Reader β} (hx : x.StopsAtPipe) (hf : ∀ a, (f a).StopsAtPipe) :
    (x >>= f).StopsAtPipe := by
  intro tokens after
  have hfirst := hx tokens after
  rw [bind_apply, bind_apply]
  generalize x tokens = outcome, x (tokens ++ .pipe :: after) = outcome' at hfirst
  cases hfirst with
  | ok a rest => exact hf a rest after
  | error rest hkind => exact .error rest hkind

/-- What a reader leaves is followed by the pipe and what comes behind it. -/
theorem rest_append (hx : x.StopsAtPipe) (tokens after : List MarkupToken) :
    (x (tokens ++ .pipe :: after)).2 = (x tokens).2 ++ .pipe :: after := by
  have h := hx tokens after
  generalize x tokens = outcome, x (tokens ++ .pipe :: after) = outcome' at h
  cases h <;> rfl

/-- What is read in front of a pipe is read there whatever comes behind. -/
theorem ok_append {a : α} (hx : x.StopsAtPipe) (h : x tokens = (.ok a, rest))
    (after : List MarkupToken) :
    x (tokens ++ .pipe :: after) = (.ok a, rest ++ .pipe :: after) := by
  have hpipe := hx tokens after
  rw [h] at hpipe
  generalize x (tokens ++ .pipe :: after) = outcome at hpipe
  cases hpipe
  rfl

/-- What is refused in front of a pipe is refused there, with an error of the same kind. -/
theorem error_append {e : Error} (hx : x.StopsAtPipe) (h : x tokens = (.error e, rest))
    (after : List MarkupToken) : ∃ e', e'.kind = e.kind
      ∧ x (tokens ++ .pipe :: after) = (.error e', rest ++ .pipe :: after) := by
  have hpipe := hx tokens after
  rw [h] at hpipe
  generalize x (tokens ++ .pipe :: after) = outcome at hpipe
  cases hpipe with
  | error _ hkind => exact ⟨_, hkind, rfl⟩

/-- What is read in front of a pipe is read without it too. -/
theorem ok_of_append {a : α} {after : List MarkupToken} (hx : x.StopsAtPipe)
    (h : x (tokens ++ .pipe :: after) = (.ok a, rest ++ .pipe :: after)) :
    x tokens = (.ok a, rest) := by
  have hrest := hx.rest_append tokens after
  rw [h] at hrest
  obtain rfl : rest = (x tokens).2 := List.append_cancel_right hrest
  -- What is refused in front of the pipe would be refused here as well.
  cases hread : x tokens with
  | mk r rest =>
    cases r with
    | ok a' =>
      have := hx.ok_append hread after
      rw [h, Prod.mk.injEq, Except.ok.injEq] at this
      rw [this.1]
    | error e =>
      obtain ⟨e', -, he⟩ := hx.error_append hread after
      exact nomatch (Prod.mk.inj (h.symm.trans he)).1

/-- What cannot be read in front of a pipe cannot be read without it either. -/
theorem error_of_append {e : Error} {after : List MarkupToken} (hx : x.StopsAtPipe)
    (h : x (tokens ++ .pipe :: after) = (.error e, rest ++ .pipe :: after)) :
    ∃ e', e'.kind = e.kind ∧ x tokens = (.error e', rest) := by
  have hrest := hx.rest_append tokens after
  rw [h] at hrest
  obtain rfl : rest = (x tokens).2 := List.append_cancel_right hrest
  cases hread : x tokens with
  | mk r rest =>
    cases r with
    | ok a => exact nomatch (Prod.mk.inj (h.symm.trans (hx.ok_append hread after))).1
    | error e' =>
      obtain ⟨e'', hkind, he⟩ := hx.error_append hread after
      rw [h, Prod.mk.injEq, Except.error.injEq] at he
      exact ⟨e', by rw [he.1, hkind], rfl⟩

/-- What the reader takes holds no pipe. -/
theorem exists_taken (hx : x.StopsAtPipe) (hleaves : ∀ tokens, (x tokens).2 <:+ tokens)
    (tokens : List MarkupToken) : ∃ taken, taken ++ (x tokens).2 = tokens ∧ .pipe ∉ taken := by
  obtain ⟨taken, htaken⟩ := hleaves tokens
  refine ⟨taken, htaken, fun hpipe => ?_⟩
  obtain ⟨before, behind, rfl⟩ := List.append_of_mem hpipe
  -- The reader would have stopped at that pipe and left more over than it did.
  have hrest := hx.rest_append before (behind ++ (x tokens).2)
  rw [← List.cons_append, ← List.append_assoc, htaken] at hrest
  have hlength := congrArg List.length hrest
  simp only [List.length_append, List.length_cons] at hlength
  omega

end StopsAtPipe

/-- A token that is no pipe is expected without a look behind the pipe. -/
theorem expect_stopsAtPipe (kind : MarkupToken.Kind) (hpipe : kind ≠ .pipe)
    (hend : kind ≠ .endOfMarkup) : (expect kind).StopsAtPipe := by
  intro tokens after
  unfold expect
  cases tokens with
  | nil =>
    -- Where the tokens end, the pipe comes next, which is not expected either.
    rw [if_neg (show ¬ kindOf [] = kind from hend.symm),
      if_neg (show ¬ kindOf ([] ++ .pipe :: after) = kind from hpipe.symm)]
    exact .error [] rfl
  | cons token tokens =>
    -- The token that is looked at is the same in both.
    by_cases hkind : token.kind = kind
    · rw [if_pos (show kindOf (token :: tokens) = kind from hkind),
        if_pos (show kindOf (token :: tokens ++ .pipe :: after) = kind from hkind)]
      exact .ok () tokens
    · rw [if_neg (show ¬ kindOf (token :: tokens) = kind from hkind),
        if_neg (show ¬ kindOf (token :: tokens ++ .pipe :: after) = kind from hkind)]
      exact .error (token :: tokens) rfl

/-- So is a name. -/
theorem name_stopsAtPipe : name.StopsAtPipe := by
  intro tokens after
  cases tokens with
  | nil => exact .error [] rfl
  | cons token tokens =>
    cases token with
    | id name => exact .ok name tokens
    | _ => exact .error (_ :: tokens) rfl

/-- So is a path, by induction on its segments. -/
theorem segmentsUpTo_stopsAtPipe {inner : Reader Expression} (hinner : inner.StopsAtPipe)
    (bound : Nat) : (segmentsUpTo inner bound).StopsAtPipe := by
  induction bound with
  | zero => exact .pure _
  | succ bound ih =>
    intro tokens after
    cases tokens with
    | nil => exact .ok [] []
    | cons token tokens =>
      -- Only a bracket or a dot goes on with the path; at anything else it ends.
      cases token with
      | openSquare =>
        have hkey : (do
            let key ← inner
            expect .closeSquare
            let more ← segmentsUpTo inner bound
            return .mk key false :: more : Reader (List Segment)).StopsAtPipe :=
          .bind hinner fun _ => .bind (expect_stopsAtPipe _ nofun nofun) fun _ =>
            .bind ih fun _ => .pure _
        exact hkey tokens after
      | dot =>
        have hmember : (do
            let member ← name
            let more ← segmentsUpTo inner bound
            return .mk (.literal (.str member)) true :: more : Reader (List Segment)).StopsAtPipe :=
          .bind name_stopsAtPipe fun _ => .bind ih fun _ => .pure _
        exact hmember tokens after
      | _ => exact .ok [] (_ :: tokens)

/-- The number of tokens bounds the loop over the segments with and without the pipe, so both are
the same. -/
theorem segments_stopsAtPipe {levels : Nat} (hinner : (expressionWithin levels).StopsAtPipe) :
    (segments (expressionWithin levels)).StopsAtPipe := by
  intro tokens after
  have hlength : tokens.length ≤ (tokens ++ .pipe :: after).length := by
    rw [List.length_append]
    exact Nat.le_add_right _ _
  rw [segments, segments, ← segmentsUpTo_endsInTime levels tokens _ hlength]
  exact segmentsUpTo_stopsAtPipe hinner _ tokens after

/-- So is an expression, token by token. -/
theorem primary_stopsAtPipe {levels : Nat} (hinner : (expressionWithin levels).StopsAtPipe) :
    (primary (expressionWithin levels)).StopsAtPipe := by
  have hpath := segments_stopsAtPipe hinner
  intro tokens after
  cases tokens with
  | nil => exact .error [] rfl
  | cons token tokens =>
    -- A literal is one token, and the others are put together of parts that stop at the pipe.
    cases token with
    | str s => exact .ok _ tokens
    | int n => exact .ok _ tokens
    | float x => exact .ok _ tokens
    | id name =>
      exact StopsAtPipe.bind hpath (fun path => .pure (named name path)) tokens after
    | openSquare =>
      exact StopsAtPipe.bind hinner (fun name =>
        .bind (expect_stopsAtPipe .closeSquare nofun nofun) fun _ => .bind hpath fun path => .pure
          (Expression.lookup name path)) tokens after
    | openRound =>
      exact StopsAtPipe.bind hinner (fun first =>
        .bind (expect_stopsAtPipe .dotDot nofun nofun) fun _ => .bind hinner fun last =>
        .bind (expect_stopsAtPipe .closeRound nofun nofun) fun _ => .bind hpath fun path => .pure
          (if path.isEmpty then rangeOf first last else .path (rangeOf first last) path))
        tokens after
    | _ => exact .error (_ :: tokens) rfl

/-- By induction on the levels that are left for brackets. -/
theorem expressionWithin_stopsAtPipe (levels : Nat) : (expressionWithin levels).StopsAtPipe := by
  induction levels with
  | zero => exact fun tokens _ => .error tokens rfl
  | succ levels ih => exact primary_stopsAtPipe ih

/-- An argument looks at one more token, which is no pipe either. -/
theorem argument_stopsAtPipe : argument.StopsAtPipe := by
  have hexpression := expressionWithin_stopsAtPipe maxNesting
  have hvalue : (do return .positional (← expression) : Reader Argument).StopsAtPipe :=
    hexpression.bind fun _ => .pure _
  have hkeyword (name : String) :
      (do return .keyword name (← expression) : Reader Argument).StopsAtPipe :=
    hexpression.bind fun _ => .pure _
  intro tokens after
  -- A name with a colon behind it is a keyword, so two tokens are looked at.
  match tokens with
  | [] => exact hvalue [] after
  | [token] => cases token <;> exact hvalue [_] after
  | token :: token' :: tokens =>
    cases token with
    | id name =>
      cases token' with
      | colon => exact hkeyword name tokens after
      | _ => exact hvalue (_ :: _ :: tokens) after
    | _ => exact hvalue (_ :: token' :: tokens) after

/-! ## The names behind the pipes -/

/-- The names that directly follow a pipe. -/
def pipeNames : List MarkupToken → List String
  | .pipe :: .id name :: tokens => name :: pipeNames tokens
  | _ :: tokens => pipeNames tokens
  | [] => []

/-- A name comes first. -/
def StartsName (tokens : List MarkupToken) : Prop :=
  kindOf tokens = .id

/-- Only the pipe is of its kind. -/
theorem kind_ne_pipe {token : MarkupToken} (h : token ≠ .pipe) : token.kind ≠ .pipe := by
  cases token with
  | pipe => exact absurd rfl h
  | _ => exact nofun

/-- A token that is no pipe has no name behind it. -/
theorem pipeNames_cons_of_ne {token : MarkupToken} (h : token.kind ≠ .pipe)
    (tokens : List MarkupToken) : pipeNames (token :: tokens) = pipeNames tokens := by
  cases token with
  | pipe => exact absurd rfl h
  | _ => rfl

/-- A pipe without a name behind it does not count. -/
theorem pipeNames_pipe_of_ne {tokens : List MarkupToken} (h : ¬ StartsName tokens) :
    pipeNames (.pipe :: tokens) = pipeNames tokens := by
  cases tokens with
  | nil => rfl
  | cons token tokens =>
    cases token with
    | id name => exact absurd rfl h
    | _ => rfl

/-- The names behind pipes, where the second part does not start with one. -/
theorem pipeNames_append {tokens : List MarkupToken} (h : ¬ StartsName tokens)
    (taken : List MarkupToken) :
    pipeNames (taken ++ tokens) = pipeNames taken ++ pipeNames tokens := by
  -- By induction on the first part: a pipe at its end sees the start of the second.
  fun_induction pipeNames taken with
  | case1 name taken ih => rw [List.cons_append, List.cons_append, pipeNames, ih, List.cons_append]
  | case2 token taken hne ih =>
    rw [List.cons_append, ← ih]
    by_cases hpipe : token = .pipe
    · subst hpipe
      refine pipeNames_pipe_of_ne fun hstarts => ?_
      -- A name behind the pipe is the first of the tokens that were taken, or of the others.
      cases taken with
      | nil => exact h hstarts
      | cons token' taken =>
        cases token' with
        | id name => exact hne name taken rfl rfl
        | _ => exact nomatch hstarts
    · exact pipeNames_cons_of_ne (kind_ne_pipe hpipe) _
  | case3 => rfl

/-- A filter does not end at a name. -/
theorem not_startsName_of_endsFilter {tokens : List MarkupToken} (h : EndsFilter tokens) :
    ¬ StartsName tokens := by
  intro hname
  rcases h with h | h <;> exact nomatch hname.symm.trans h

/-- Each name has its pipe. -/
theorem exists_pipe_of_pipeNames_ne_nil {tokens : List MarkupToken} (h : pipeNames tokens ≠ []) :
    ∃ before name after, tokens = before ++ .pipe :: .id name :: after := by
  fun_induction pipeNames tokens with
  | case1 name tokens ih => exact ⟨[], name, tokens, rfl⟩
  | case2 token tokens hne ih =>
    obtain ⟨before, name, after, htokens⟩ := ih h
    exact ⟨token :: before, name, after, congrArg (token :: ·) htokens⟩
  | case3 => exact absurd rfl h

/-- One more token in front takes no name away. -/
theorem pipeNames_sublist_cons (token : MarkupToken) (tokens : List MarkupToken) :
    (pipeNames tokens).Sublist (pipeNames (token :: tokens)) := by
  cases token with
  | pipe =>
    cases tokens with
    | nil => exact .refl _
    | cons token tokens =>
      cases token with
      | id name => exact List.sublist_cons_self _ _
      | _ => exact .refl _
  | _ => exact .refl _

/-- Nor do more of them. -/
theorem pipeNames_sublist_append (taken rest : List MarkupToken) :
    (pipeNames rest).Sublist (pipeNames (taken ++ rest)) := by
  induction taken with
  | nil => exact .refl _
  | cons token taken ih => exact ih.trans (pipeNames_sublist_cons token _)

/-! ## Arguments that break off -/

/-- Read as the arguments of a filter, the tokens end inside an argument that cannot be read. -/
inductive BreaksOff : List MarkupToken → Prop where
  /-- The last argument. -/
  | here {args : List MarkupToken} {e : Error} (hne : args ≠ [])
    (hread : argument args = (.error e, [])) (hgo : isRecoverable e) : BreaksOff args
  /-- Behind an argument that can be read. -/
  | read {args next : List MarkupToken} {arg : Argument} (hread : argument args = (.ok arg, next))
    (hbreaks : BreaksOff next) : BreaksOff args
  /-- Behind one that cannot be read and the token that stopped it. -/
  | dropped {args next : List MarkupToken} {token : MarkupToken} {e : Error}
    (hpipe : kindOf args ≠ .pipe) (hread : argument args = (.error e, token :: next))
    (hgo : isRecoverable e) (hbreaks : BreaksOff next) : BreaksOff args

/-- What cannot be read as an argument is passed over, and with it the token that stopped the
reading. -/
theorem argumentsLaxUpTo_of_error {bound : Nat} {call : FilterCall}
    {tokens rest : List MarkupToken} {e : Error} (hpipe : kindOf tokens ≠ .pipe)
    (hne : tokens ≠ []) (h : argument tokens = (.error e, rest)) (hgo : isRecoverable e) :
    argumentsLaxUpTo (bound + 1) call tokens = argumentsLaxUpTo bound call rest.tail := by
  rw [argumentsLaxUpTo]
  dsimp only
  split
  · exact absurd ‹_› hpipe
  · exact absurd (eq_nil_of_kindOf ‹_›) hne
  · -- A comma stops the reading of an argument where it is.
    rename_i hcomma
    rw [eq_cons_of_kindOf .comma rfl hcomma] at h
    obtain ⟨-, rfl⟩ := Prod.mk.inj h
    rfl
  · have hattempt : attempted argument tokens = (.ok none, rest) := by
      unfold attempted
      rw [h]
      exact if_pos hgo
    rw [hattempt]

/-- What a lax reading of arguments does not pass over ends it. -/
theorem isRecoverable_of_argumentsLaxUpTo {bound : Nat} {call call' : FilterCall}
    {tokens rest rest' : List MarkupToken} {e : Error} (hpipe : kindOf tokens ≠ .pipe)
    (hne : tokens ≠ []) (h : argument tokens = (.error e, rest))
    (hread : argumentsLaxUpTo (bound + 1) call tokens = (.ok call', rest')) :
    isRecoverable e := by
  -- An error that is not recoverable would have ended the reading.
  refine Decidable.byContradiction fun hstop => ?_
  rw [argumentsLaxUpTo] at hread
  dsimp only at hread
  split at hread
  · exact hpipe ‹_›
  · exact hne (eq_nil_of_kindOf ‹_›)
  · rename_i hcomma
    rw [eq_cons_of_kindOf .comma rfl hcomma] at h
    obtain ⟨he, -⟩ := Prod.mk.inj h
    exact hstop (Except.error.inj he ▸ rfl)
  · have hattempt : attempted argument tokens = (.error e, rest) := by
      unfold attempted
      rw [h]
      exact if_neg hstop
    rw [hattempt] at hread
    cases (Prod.mk.inj hread).1

/-- A pipe that is not among the first tokens is among the others. -/
theorem exists_of_append_eq {used taken args after : List MarkupToken} (hfree : .pipe ∉ used)
    (h : used ++ taken = args ++ .pipe :: after) :
    ∃ args', args = used ++ args' ∧ taken = args' ++ .pipe :: after := by
  obtain ⟨args', hargs, htaken⟩ | ⟨used', hused, hafter⟩ := List.append_eq_append_iff.mp h
  · exact ⟨args', hargs, htaken⟩
  · cases used' with
    | nil => exact ⟨[], by simpa using hused.symm, by simpa using hafter.symm⟩
    | cons token used' =>
      obtain ⟨rfl, -⟩ := List.cons.inj hafter
      exact absurd (by simp [hused]) hfree

/-- Whether a reading goes on depends on the kind of the error. -/
theorem isRecoverable_congr {e e' : Error} (h : e'.kind = e.kind) (hgo : isRecoverable e) :
    isRecoverable e' := by
  rwa [isRecoverable, h]

/-- Where an argument cannot be read, an argument breaks off in front of each pipe that is passed
over with it or behind it. -/
theorem breaksOff_of_error {used next taken rest args after : List MarkupToken}
    {token : MarkupToken} {e : Error} (hpipe : kindOf (used ++ token :: next) ≠ .pipe)
    (hfree : .pipe ∉ used) (hread : argument (used ++ token :: next) = (.error e, token :: next))
    (hgo : isRecoverable e) (htaken : taken ++ rest = next)
    (hbreaks : ∀ args after, taken = args ++ .pipe :: after → BreaksOff args)
    (hargs : used ++ token :: taken = args ++ .pipe :: after) : BreaksOff args := by
  have hstops := argument_stopsAtPipe
  obtain ⟨args', rfl, htaken'⟩ := exists_of_append_eq hfree hargs
  cases args' with
  | nil =>
    -- The pipe itself stopped the reading.
    obtain ⟨rfl, -⟩ := List.cons.inj htaken'
    rw [← List.nil_append (MarkupToken.pipe :: _)] at hread
    obtain ⟨e', hkind, hread'⟩ := hstops.error_of_append hread
    rw [List.append_nil]
    refine .here ?_ hread' (isRecoverable_congr hkind hgo)
    rintro rfl
    exact hpipe rfl
  | cons token' args' =>
    obtain ⟨rfl, hrest⟩ := List.cons.inj htaken'
    rw [List.append_eq] at hrest
    have hnext : token :: next = (token :: args') ++ .pipe :: (after ++ rest) := by
      rw [← htaken, hrest, List.append_assoc]
      rfl
    rw [hnext, ← List.append_assoc] at hread
    obtain ⟨e', hkind, hread'⟩ := hstops.error_of_append hread
    -- The token at which the reading stopped is dropped, and it goes on behind that.
    refine .dropped ?_ hread' (isRecoverable_congr hkind hgo) (hbreaks args' after hrest)
    cases used with
    | nil => exact hpipe
    | cons token' used => exact hpipe

/-- A lax reading of arguments ends in front of a pipe or with the tokens. The pipes that it has
passed over are those in front of which an argument broke off. -/
theorem argumentsLaxUpTo_rest {bound : Nat} {call call' : FilterCall}
    {tokens rest : List MarkupToken} (hbound : tokens.length ≤ bound)
    (h : argumentsLaxUpTo bound call tokens = (.ok call', rest)) :
    call'.name = call.name ∧ EndsFilter rest ∧ ∃ taken, taken ++ rest = tokens
      ∧ ∀ args after, taken = args ++ .pipe :: after → BreaksOff args := by
  have hstops := argument_stopsAtPipe
  induction bound generalizing call tokens with
  | zero =>
    obtain rfl := List.length_eq_zero_iff.mp (Nat.le_zero.mp hbound)
    obtain ⟨hcall, rfl⟩ := Prod.mk.inj h
    cases hcall
    exact ⟨rfl, .inr rfl, [], rfl, fun args after hargs => by cases args <;> exact nomatch hargs⟩
  | succ bound ih =>
    by_cases hends : EndsFilter tokens
    · rw [argumentsLaxUpTo_of_endsFilter hends] at h
      obtain ⟨hcall, rfl⟩ := Prod.mk.inj h
      cases hcall
      exact ⟨rfl, hends, [], rfl, fun args after hargs => by cases args <;> exact nomatch hargs⟩
    have hpipe : kindOf tokens ≠ .pipe := fun hkind => hends (.inl hkind)
    have hne : tokens ≠ [] := fun hnil => hends (.inr (hnil ▸ rfl))
    obtain ⟨used, hused, hfree⟩ := hstops.exists_taken argument_nests.leaves tokens
    cases hread : argument tokens with
    | mk r left =>
      rw [hread] at hused
      dsimp only at hused
      cases r with
      | ok arg =>
        rw [argumentsLaxUpTo_of_argument hread] at h
        have hlength := argument_consumes _ _ _ hread
        obtain ⟨hname, hrest, taken, htaken, hbreaks⟩ := ih (by omega) h
        refine ⟨by rw [hname]; cases arg <;> rfl, hrest, used ++ taken, ?_, ?_⟩
        · rw [List.append_assoc, htaken, hused]
        · -- The pipe is behind the argument that was read, which holds none.
          intro args after hargs
          obtain ⟨args', rfl, rfl⟩ := exists_of_append_eq hfree hargs
          rw [← hused, ← htaken, List.append_assoc args', List.cons_append,
            ← List.append_assoc used] at hread
          exact .read (hstops.ok_of_append hread) (hbreaks args' after rfl)
      | error e =>
        -- Nothing was read here, so one token is dropped.
        have hgo := isRecoverable_of_argumentsLaxUpTo hpipe hne hread h
        rw [argumentsLaxUpTo_of_error hpipe hne hread hgo] at h
        have hlength := congrArg List.length hused
        rw [List.length_append] at hlength
        obtain ⟨hname, hrest, taken, htaken, hbreaks⟩ :=
          ih (by rw [List.length_tail]; omega) h
        refine ⟨hname, hrest, ?_⟩
        cases left with
        | nil =>
          -- Nothing is left, and the argument took no pipe.
          obtain ⟨rfl, rfl⟩ := List.append_eq_nil_iff.mp htaken
          refine ⟨used, hused, fun args after hargs => absurd ?_ hfree⟩
          rw [hargs]
          exact List.mem_append_right _ (List.mem_cons_self ..)
        | cons token next =>
          rw [List.tail_cons] at htaken
          subst hused
          refine ⟨used ++ token :: taken, by simp [htaken], fun args after => ?_⟩
          exact breaksOff_of_error hpipe hfree hread hgo htaken hbreaks

/-- A lax reading of arguments that break off in front of a pipe goes on behind it. -/
theorem suffix_of_breaksOff {args post : List MarkupToken} (hbreaks : BreaksOff args)
    {bound : Nat} {call call' : FilterCall} {rest : List MarkupToken}
    (hbound : (args ++ .pipe :: post).length ≤ bound)
    (h : argumentsLaxUpTo bound call (args ++ .pipe :: post) = (.ok call', rest)) :
    rest <:+ post := by
  have hstops := argument_stopsAtPipe
  have hkindOf {args : List MarkupToken} (hne : args ≠ []) :
      kindOf (args ++ .pipe :: post) = kindOf args := by
    cases args with
    | nil => exact absurd rfl hne
    | cons token args => rfl
  have hne' (args : List MarkupToken) : args ++ .pipe :: post ≠ [] := by simp
  induction hbreaks generalizing bound call with
  | @here args e hne hread hgo =>
    simp only [List.length_append, List.length_cons] at hbound
    obtain ⟨bound, rfl⟩ : ∃ bound', bound = bound' + 1 := ⟨bound - 1, by omega⟩
    obtain ⟨e', hkind, hread'⟩ := hstops.error_append hread post
    -- The pipe is the token that is dropped, so the rest comes from behind it.
    have hpipe : kindOf args ≠ .pipe := by
      cases args with
      | nil => exact absurd rfl hne
      | cons token args =>
        -- In front of a pipe an argument leaves the pipe over.
        intro hpipe
        cases token with
        | pipe => exact nomatch (Prod.mk.inj hread).2
        | _ => exact nomatch hpipe
    rw [argumentsLaxUpTo_of_error (hkindOf hne ▸ hpipe) (hne' args) hread'
      (isRecoverable_congr hkind hgo)] at h
    exact (argumentsLaxUpTo_nests bound call post _ rest h).1
  | @read args next arg hread _ ih =>
    have hlength := argument_consumes _ _ _ hread
    simp only [List.length_append, List.length_cons] at hbound
    obtain ⟨bound, rfl⟩ : ∃ bound', bound = bound' + 1 := ⟨bound - 1, by omega⟩
    rw [argumentsLaxUpTo_of_argument (hstops.ok_append hread post)] at h
    exact ih (by simp only [List.length_append, List.length_cons]; omega) h
  | @dropped args next token e hpipe hread hgo _ ih =>
    have hne : args ≠ [] := by
      rintro rfl
      exact nomatch (Prod.mk.inj hread).2
    have hlength := (argument_nests.leaves args).length_le
    rw [hread] at hlength
    simp only [List.length_append, List.length_cons] at hbound hlength
    obtain ⟨bound, rfl⟩ : ∃ bound', bound = bound' + 1 := ⟨bound - 1, by omega⟩
    obtain ⟨e', hkind, hread'⟩ := hstops.error_append hread post
    rw [argumentsLaxUpTo_of_error (hkindOf hne ▸ hpipe) (hne' args) hread'
      (isRecoverable_congr hkind hgo)] at h
    exact ih (by simp only [List.length_append, List.length_cons]; omega) h

/-- The arguments hide a name behind a pipe exactly if some of them break off in front of it. -/
theorem pipeNames_argumentsLaxUpTo {bound : Nat} {call call' : FilterCall}
    {tokens rest : List MarkupToken} (hbound : tokens.length ≤ bound)
    (h : argumentsLaxUpTo bound call tokens = (.ok call', rest)) :
    pipeNames rest = pipeNames tokens
      ↔ ∀ args next after, tokens = args ++ .pipe :: .id next :: after → ¬ BreaksOff args := by
  obtain ⟨-, hends, taken, rfl, hbreaks⟩ := argumentsLaxUpTo_rest hbound h
  have hstarts := not_startsName_of_endsFilter hends
  rw [pipeNames_append hstarts, List.self_eq_append_left]
  constructor
  · rintro hnone args next after htokens hoff
    rw [htokens] at hbound h
    -- The arguments go on behind the pipe, so that the name is among what they take.
    obtain hrest | ⟨behind, rfl⟩ := List.suffix_cons_iff.mp (suffix_of_breaksOff hoff hbound h)
    · exact hstarts (hrest ▸ rfl)
    · obtain rfl : taken = args ++ .pipe :: .id next :: behind :=
        List.append_cancel_right (htokens.trans (by simp))
      rw [pipeNames_append (show ¬ StartsName (.pipe :: .id next :: behind) from nofun)] at hnone
      exact nomatch (List.append_eq_nil_iff.mp hnone).2
  · intro hkept
    refine Decidable.byContradiction fun hsome => ?_
    obtain ⟨before, name, after, rfl⟩ := exists_pipe_of_pipeNames_ne_nil hsome
    refine hkept before name (after ++ rest) (by simp) (hbreaks before (.id name :: after) rfl)

/-! ## Lost filters -/

/-- A filter follows arguments that break off. -/
def LosesFilter (tokens : List MarkupToken) : Prop :=
  ∃ name args next after,
    .pipe :: .id name :: .colon :: (args ++ .pipe :: .id next :: after) <:+ tokens ∧ BreaksOff args

/-- Without tokens no filter is lost. -/
theorem not_losesFilter_nil : ¬ LosesFilter [] := by
  rintro ⟨name, args, next, after, hsuffix, -⟩
  exact nomatch List.suffix_nil.mp hsuffix

/-- A filter is lost at the first token or behind it. -/
theorem losesFilter_cons {token : MarkupToken} {tokens : List MarkupToken} :
    LosesFilter (token :: tokens)
      ↔ (∃ name args next after, token :: tokens
            = .pipe :: .id name :: .colon :: (args ++ .pipe :: .id next :: after)
          ∧ BreaksOff args)
        ∨ LosesFilter tokens := by
  constructor
  · rintro ⟨name, args, next, after, hsuffix, hbreaks⟩
    obtain heq | hsuffix := List.suffix_cons_iff.mp hsuffix
    · exact .inl ⟨name, args, next, after, heq.symm, hbreaks⟩
    · exact .inr ⟨name, args, next, after, hsuffix, hbreaks⟩
  · rintro (⟨name, args, next, after, heq, hbreaks⟩ | ⟨name, args, next, after, hsuffix, hbreaks⟩)
    · exact ⟨name, args, next, after, heq ▸ List.suffix_refl _, hbreaks⟩
    · exact ⟨name, args, next, after, List.suffix_cons_iff.mpr (.inr hsuffix), hbreaks⟩

/-- Without a name behind a pipe nothing is lost. -/
theorem losesFilter_append {taken rest : List MarkupToken} (hnone : pipeNames taken = [])
    (hrest : ¬ StartsName rest) : LosesFilter (taken ++ rest) ↔ LosesFilter rest := by
  induction taken with
  | nil => exact Iff.rfl
  | cons token taken ih =>
    have htaken : pipeNames taken = [] :=
      List.sublist_nil.mp (hnone ▸ pipeNames_sublist_cons token taken)
    rw [List.cons_append, losesFilter_cons, ih htaken, or_iff_right]
    -- The pipe of a lost filter has a name behind it, which would be among those that were taken.
    rintro ⟨name, args, next, after, heq, -⟩
    obtain ⟨rfl, htail⟩ := List.cons.inj heq
    cases taken with
    | nil =>
      rw [List.nil_append] at htail
      exact hrest (htail ▸ rfl)
    | cons token taken =>
      obtain ⟨rfl, -⟩ := List.cons.inj htail
      exact nomatch hnone

/-- Behind the colon of a call a filter is lost by its arguments or later. -/
theorem losesFilter_call {name : String} {tokens : List MarkupToken} :
    LosesFilter (.pipe :: .id name :: .colon :: tokens)
      ↔ (∃ args next after, tokens = args ++ .pipe :: .id next :: after ∧ BreaksOff args)
        ∨ LosesFilter tokens := by
  -- Neither the name nor the colon is a pipe, so only the first and the last case are left.
  rw [losesFilter_cons, losesFilter_cons, losesFilter_cons]
  constructor
  · rintro (⟨_, args, next, after, heq, hbreaks⟩ | ⟨_, _, _, _, heq, _⟩ | ⟨_, _, _, _, heq, _⟩ | h)
    · simp only [List.cons.injEq, true_and] at heq
      exact .inl ⟨args, next, after, heq.2, hbreaks⟩
    · exact nomatch (List.cons.inj heq).1
    · exact nomatch (List.cons.inj heq).1
    · exact .inr h
  · rintro (⟨args, next, after, rfl, hbreaks⟩ | h)
    · exact .inl ⟨name, args, next, after, rfl, hbreaks⟩
    · exact .inr (.inr (.inr h))

/-- The names of the filters that were found, compared with those behind the pipes. -/
def Found (calls : List FilterCall) (tokens : List MarkupToken) : Prop :=
  (calls.map (·.name)).Sublist (pipeNames tokens)
    ∧ (calls.map (·.name) = pipeNames tokens ↔ ¬ LosesFilter tokens)

/-- Tokens without names behind pipes make no difference to what is found. -/
theorem found_append {calls : List FilterCall} {taken rest : List MarkupToken}
    (hnone : pipeNames taken = []) (hrest : ¬ StartsName rest) (h : Found calls rest) :
    Found calls (taken ++ rest) := by
  unfold Found
  rwa [pipeNames_append hrest, hnone, List.nil_append, losesFilter_append hnone hrest]

/-- What stands in front of all pipes makes no difference. -/
theorem found_skipped {calls : List FilterCall} {taken rest : List MarkupToken}
    (hfree : .pipe ∉ taken) (h : Found calls rest) : Found calls (taken ++ rest) := by
  induction taken with
  | nil => exact h
  | cons token taken ih =>
    obtain ⟨hhead, htail⟩ := not_or.mp ((not_congr List.mem_cons).mp hfree)
    have hne : token ≠ .pipe := fun heq => hhead heq.symm
    -- A token that is no pipe starts no filter.
    have hlost : LosesFilter (token :: (taken ++ rest)) ↔ LosesFilter (taken ++ rest) := by
      rw [losesFilter_cons, or_iff_right]
      rintro ⟨name, args, next, after, heq, -⟩
      exact hne (List.cons.inj heq).1
    unfold Found
    rw [List.cons_append, pipeNames_cons_of_ne (kind_ne_pipe hne), hlost]
    exact ih htail

/-- A filter with arguments. -/
theorem found_call {name : String} {call : FilterCall} {calls : List FilterCall}
    {tokens rest : List MarkupToken} (hread : argumentsLax { name } tokens = (.ok call, rest))
    (h : Found calls rest) : Found (call :: calls) (.pipe :: .id name :: .colon :: tokens) := by
  obtain ⟨hsub, heq⟩ := h
  obtain ⟨hname, hends, taken, rfl, -⟩ := argumentsLaxUpTo_rest (Nat.le_refl _) hread
  have hkept := pipeNames_argumentsLaxUpTo (Nat.le_refl _) hread
  have hstarts := not_startsName_of_endsFilter hends
  have hmore := pipeNames_sublist_append taken rest
  -- Where the arguments hide no name, what is lost is lost behind them.
  have hlost (hnames : pipeNames rest = pipeNames (taken ++ rest)) :
      LosesFilter (taken ++ rest) ↔ LosesFilter rest := by
    rw [pipeNames_append hstarts, List.self_eq_append_left] at hnames
    exact losesFilter_append hnames hstarts
  unfold Found
  have hcolon : pipeNames (.colon :: (taken ++ rest)) = pipeNames (taken ++ rest) := rfl
  rw [List.map_cons, hname, pipeNames, hcolon, List.cons.injEq, losesFilter_call, not_or]
  refine ⟨(hsub.trans hmore).cons_cons name, fun ⟨_, hall⟩ => ?_, fun ⟨hnone, hnot⟩ => ?_⟩
  · have hnames : pipeNames rest = pipeNames (taken ++ rest) :=
      hmore.eq_of_length_le (hall ▸ hsub.length_le)
    refine ⟨fun ⟨args, next, after, hargs, hbreaks⟩ => ?_, (not_congr (hlost hnames)).mpr ?_⟩
    · exact hkept.mp hnames args next after hargs hbreaks
    · exact heq.mp (hall.trans hnames.symm)
  · have hnames := hkept.mpr fun args next after hargs hbreaks =>
      hnone ⟨args, next, after, hargs, hbreaks⟩
    exact ⟨rfl, (heq.mpr ((not_congr (hlost hnames)).mp hnot)).trans hnames⟩

/-- A filter without arguments. -/
theorem found_bare {name : String} {calls : List FilterCall} {tokens : List MarkupToken}
    (hcolon : kindOf tokens ≠ .colon) (h : Found calls tokens) :
    Found ({ name } :: calls) (.pipe :: .id name :: tokens) := by
  obtain ⟨hsub, heq⟩ := h
  -- A filter that is lost has a colon behind its name.
  have hlost : LosesFilter (.pipe :: .id name :: tokens) ↔ LosesFilter tokens := by
    rw [losesFilter_cons, losesFilter_cons]
    constructor
    · rintro (⟨_, _, _, _, htokens, _⟩ | ⟨_, _, _, _, htokens, _⟩ | h)
      · simp only [List.cons.injEq, true_and] at htokens
        exact absurd (htokens.2 ▸ rfl) hcolon
      · exact nomatch (List.cons.inj htokens).1
      · exact h
    · exact fun h => .inr (.inr h)
  unfold Found
  rw [List.map_cons, pipeNames, hlost, List.cons.injEq, ← heq]
  exact ⟨hsub.cons_cons name, fun h => h.2, fun h => ⟨rfl, h⟩⟩

/-- What is skipped holds no pipe, and a pipe or the end comes next. -/
theorem exists_skipped (tokens : List MarkupToken) :
    ∃ taken rest, skipToPipe tokens = (.ok (), rest) ∧ taken ++ rest = tokens ∧ .pipe ∉ taken
      ∧ EndsFilter rest := by
  induction tokens with
  | nil => exact ⟨[], [], rfl, rfl, nofun, .inr rfl⟩
  | cons token tokens ih =>
    -- The next pipe is here, or it is found behind the token.
    by_cases hpipe : token.kind = .pipe
    · exact ⟨[], token :: tokens, skipToPipe_of_endsFilter (.inl hpipe), rfl, nofun, .inl hpipe⟩
    · obtain ⟨taken, rest, hskip, rfl, hfree, hends⟩ := ih
      have hdrop : skipToPipe (token :: (taken ++ rest)) = skipToPipe (taken ++ rest) :=
        congrArg (Prod.mk _) (List.dropWhile_cons_of_pos (by simpa using hpipe))
      refine ⟨token :: taken, rest, hdrop.trans hskip, rfl, ?_, hends⟩
      rintro (_ | _)
      · exact hpipe rfl
      · exact hfree ‹_›

/-- To start with a name is to have one as the first token. -/
theorem startsName_iff {tokens : List MarkupToken} :
    StartsName tokens ↔ ∃ name rest, tokens = .id name :: rest := by
  constructor
  · intro h
    cases tokens with
    | nil => exact nomatch h
    | cons token rest =>
      cases token with
      | id name => exact ⟨name, rest, rfl⟩
      | _ => exact nomatch h
  · rintro ⟨name, rest, rfl⟩
    rfl

/-- The filters behind a pipe, given what is found further on. -/
theorem found_behindPipe {more : Reader (List FilterCall)} {tokens rest : List MarkupToken}
    {calls : List FilterCall} (hmore : ∀ later calls rest, later <:+ tokens →
      more later = (.ok calls, rest) → Found calls later)
    (h : behindPipe more tokens = (.ok calls, rest)) : Found calls (.pipe :: tokens) := by
  obtain ⟨found, later, hname, h⟩ := ok_of_bind h
  by_cases hstarts : StartsName tokens
  · obtain ⟨name, tokens, rfl⟩ := startsName_iff.mp hstarts
    obtain ⟨hfound, rfl⟩ := Prod.mk.inj hname
    cases hfound
    obtain ⟨call, later', hcall, h⟩ := ok_of_bind h
    obtain ⟨calls', rest', hcalls, h⟩ := ok_of_bind h
    obtain ⟨hall, rfl⟩ := Prod.mk.inj h
    cases hall
    have hlater := (callLax_nests name).leaves tokens
    rw [hcall] at hlater
    have hfound := hmore later' calls' rest' (hlater.trans (List.suffix_cons _ _)) hcalls
    obtain ⟨colon, later'', hcolon, hcall⟩ := ok_of_bind hcall
    unfold takes at hcolon
    split at hcolon
    · -- With a colon there are arguments; without one the filter stands alone.
      rename_i hkind
      obtain ⟨hyes, rfl⟩ := Prod.mk.inj hcolon
      cases hyes
      rw [eq_cons_of_kindOf .colon rfl hkind]
      exact found_call hcall hfound
    · rename_i hkind
      obtain ⟨hno, rfl⟩ := Prod.mk.inj hcolon
      cases hno
      obtain ⟨hbare, rfl⟩ := Prod.mk.inj hcall
      cases hbare
      exact found_bare hkind hfound
  · -- Without a name the token behind the pipe stays.
    have hnone : attempted name tokens = (.ok none, tokens) := by
      cases tokens with
      | nil => rfl
      | cons token tokens =>
        cases token with
        | id name => exact absurd rfl hstarts
        | _ => rfl
    obtain ⟨hfound, rfl⟩ := Prod.mk.inj (hname.symm.trans hnone)
    cases hfound
    rw [← List.singleton_append]
    exact found_append rfl hstarts (hmore _ calls rest (List.suffix_refl _) h)

/-- The filters of a lax reading are found in order, by induction on the turns. -/
theorem found_filtersLaxUpTo {bound : Nat} {calls : List FilterCall}
    {tokens rest : List MarkupToken} (hbound : tokens.length ≤ bound)
    (h : filtersLaxUpTo bound tokens = (.ok calls, rest)) : Found calls tokens := by
  have hnil : Found [] [] := ⟨.refl _, iff_of_true rfl not_losesFilter_nil⟩
  induction bound generalizing tokens calls rest with
  | zero =>
    obtain rfl := List.length_eq_zero_iff.mp (Nat.le_zero.mp hbound)
    obtain ⟨hcalls, -⟩ := Prod.mk.inj h
    cases hcalls
    exact hnil
  | succ bound ih =>
    rw [filtersLaxUpTo_succ] at h
    obtain ⟨taken, later, hskip, rfl, hfree, hends⟩ := exists_skipped tokens
    rw [bind_of_ok hskip] at h
    -- What is skipped up to the next pipe holds none.
    refine found_skipped hfree ?_
    rw [List.length_append] at hbound
    cases later with
    | nil =>
      obtain ⟨hcalls, -⟩ := Prod.mk.inj h
      cases hcalls
      exact hnil
    | cons token later =>
      cases token with
      | pipe =>
        rw [List.length_cons] at hbound
        refine found_behindPipe (fun later' calls rest hlater => ih ?_) h
        have := hlater.length_le
        omega
      | _ => rcases hends with hends | hends <;> exact nomatch hends

/-- A source is read up to the first pipe at most. -/
theorem exists_source (tokens : List MarkupToken) :
    ∃ taken, taken ++ (sourceLax tokens).2 = tokens ∧ .pipe ∉ taken := by
  obtain ⟨taken, htaken, hfree⟩ := (expressionWithin_stopsAtPipe maxNesting).exists_taken
    (expressionWithin_nests _).leaves tokens
  -- An attempt leaves the same tokens, whether it recovers or not.
  have hattempted : (attempted expression tokens).2 = (expression tokens).2 := by
    unfold attempted
    split
    · rw [‹expression tokens = _›]
    · split <;> rw [‹expression tokens = _›]
  have hlax : ((do return (← attempted expression).getD .nil : Reader Expression) tokens).2
      = (expression tokens).2 := by
    rw [← hattempted, bind_apply]
    rcases attempted expression tokens with ⟨_ | _, _⟩ <;> rfl
  unfold sourceLax
  split
  · exact ⟨[], rfl, nofun⟩
  · exact ⟨[], rfl, nofun⟩
  · exact ⟨taken, by rw [hlax]; exact htaken, hfree⟩

end Reader

open Reader

/-- The filters that a lax reading finds have the names behind the pipes, in their order. None is
made up, and none is lost exactly if no filter follows arguments that break off in front of its
pipe. -/
theorem Pipeline.names_readLax {markup : String} {p : Pipeline}
    (h : Pipeline.readLax markup = .ok p) :
    (p.filters.map (·.name)).Sublist (pipeNames (lexLax markup))
      ∧ (p.filters.map (·.name) = pipeNames (lexLax markup) ↔ ¬ LosesFilter (lexLax markup)) := by
  obtain ⟨source, rest, hsource, h⟩ :=
    ok_of_bind (Prod.ext h rfl : pipelineLax (lexLax markup) = (.ok p, _))
  obtain ⟨calls, rest', hcalls, h⟩ := ok_of_bind h
  obtain ⟨hp, -⟩ := Prod.mk.inj h
  cases hp
  -- The source takes no pipe with it, so the filters are all behind it.
  obtain ⟨taken, htaken, hfree⟩ := exists_source (lexLax markup)
  rw [hsource] at htaken
  rw [← htaken]
  exact found_skipped hfree (found_filtersLaxUpTo (Nat.le_refl _) hcalls)

/-- Arguments that cannot be read, but end in front of the pipe all the same, lose nothing. -/
theorem Pipeline.names_readLax_recovered :
    let markup := "x | join: 1. b | upcase"
    ∃ p, Pipeline.readLax markup = .ok p
      ∧ p.filters.map (·.name) = ["join", "upcase"]
      ∧ ¬ LosesFilter (lexLax markup) := by
  intro markup
  have hpipes : pipeNames (lexLax markup) = ["join", "upcase"] := by decide +kernel
  have hread : (pipelineLax (lexLax markup)).1.toOption.map (fun p => p.filters.map (·.name))
      = some ["join", "upcase"] := by decide +kernel
  obtain ⟨p, hp, hnames⟩ := Attempt.ok_of_map_toOption hread
  have hp : Pipeline.readLax markup = .ok p := congrArg Prod.fst hp
  -- The names are complete, so no filter was lost.
  exact ⟨p, hp, hnames, (names_readLax hp).2.mp (hnames.trans hpipes.symm)⟩

/-- An argument that breaks off behind its point takes the next pipe with it. -/
theorem Pipeline.not_names_readLax :
    ¬ ∀ markup p, Pipeline.readLax markup = .ok p →
      p.filters.map (·.name) = pipeNames (lexLax markup) := by
  intro h
  let markup := "xs | join: b. | upcase"
  have hpipes : pipeNames (lexLax markup) = ["join", "upcase"] := by decide +kernel
  have hread : (pipelineLax (lexLax markup)).1.toOption.map (fun p => p.filters.map (·.name))
      = some ["join"] := by decide +kernel
  obtain ⟨p, hp, hnames⟩ := Attempt.ok_of_map_toOption hread
  have hlost := hnames.symm.trans ((h markup p (congrArg Prod.fst hp)).trans hpipes)
  exact absurd hlost (by decide)

end Stencil
