import Stencil.Proofs.Renders

/-!
# Interrupts

A `break` or a `continue` raises an interrupt, every body passes over its rest while one is
pending, and the turn of the nearest loop takes it. Only two things are taken up whatever
is pending: the next arm of a choice whose condition holds, and the next item of a list that a
partial is included for. As long as neither happens, nothing happens at all between an
interrupt and the end of its turn.

## Key results

- `Run.interruptedAt`: the invariant of runs
- `Template.interrupts_disciplined`: what is pending in the course of a render
- `Template.not_interrupts_disciplined`: arms that are taken up while an interrupt is pending
-/

namespace Stencil

open Render

namespace Moment

/-- Whether an interrupt is pending. -/
def isInterrupted (m : Moment) : Bool :=
  !m.pending.isEmpty

/-- The pending interrupts once the event has happened. -/
def pendingAfter (m : Moment) : List Interrupt :=
  match m.event with
  | .interrupt i => i :: m.pending
  | _ => m.pending

/-- A text is written. -/
def isWrite (m : Moment) : Bool :=
  match m.event with
  | .write _ => true
  | _ => false

/-- A loop has had its last turn. -/
def isLeft (m : Moment) : Bool :=
  match m.event with
  | .left => true
  | _ => false

theorem isInterrupted_eq_false {m : Moment} : m.isInterrupted = false ↔ m.pending = [] := by
  unfold isInterrupted
  rw [Bool.not_eq_false', List.isEmpty_iff]

/-- An event raises one interrupt at most. -/
theorem length_pendingAfter_le (m : Moment) : m.pendingAfter.length ≤ m.pending.length + 1 := by
  unfold pendingAfter
  cases m.event with
  | interrupt i => exact Nat.le_refl _
  | _ => exact Nat.le_succ _

end Moment

/-- No interrupt is pending at any of the moments. -/
def Uninterrupted (m : List Moment) : Prop :=
  m.find? Moment.isInterrupted = none

theorem uninterrupted_iff {m : List Moment} :
    Uninterrupted m ↔ ∀ moment ∈ m, moment.pending = [] := by
  unfold Uninterrupted
  rw [List.find?_eq_none]
  exact forall₂_congr fun moment _ => by
    rw [Bool.not_eq_true, Moment.isInterrupted_eq_false]

/-- What is pending in a stretch of a render that starts without interrupts, has the moments `m`
and the outcome `r` and ends in `t`. -/
structure InterruptedAt (place : Place) (m : List Moment) (r : Option Error) (t : RenderState) :
    Prop where
  /-- The first moment with a pending interrupt is one that is taken up regardless. -/
  first : ∀ moment, m.find? Moment.isInterrupted = some moment → moment.event.isTakenUp = true
  failed : Uninterrupted m → r ≠ none → t.frame.interrupts = []
  final : Uninterrupted m → t.frame.interrupts.length ≤ 1
  /-- The turns of a loop use up what they raise. -/
  turns : Uninterrupted m → place = .turns → r = none → t.frame.interrupts = []

namespace InterruptedAt

variable {place : Place} {m m' : List Moment} {r : Option Error} {s t u : RenderState}

/-- A step that raises nothing, at a moment without interrupts or at none. -/
theorem of_eq (hs : s.frame.interrupts = []) (ht : t.frame.interrupts = s.frame.interrupts)
    (hm : ∀ moment ∈ m, moment.state = s) : InterruptedAt place m r t := by
  have hnone : t.frame.interrupts = [] := ht.trans hs
  have hquiet : Uninterrupted m := uninterrupted_iff.mpr fun moment hmem => by
    unfold Moment.pending
    rw [hm moment hmem, hs]
  exact {
    first := fun moment hfind => nomatch hquiet.symm.trans hfind
    failed := fun _ _ => hnone
    final := fun _ => by
      rw [hnone]
      exact Nat.zero_le _
    turns := fun _ _ _ => hnone }

/-- A stretch in which an interrupt is pending when something is taken up. -/
theorem of_find? {moment : Moment} (hfind : m.find? Moment.isInterrupted = some moment)
    (htaken : moment.event.isTakenUp = true) : InterruptedAt place m r t :=
  have hloud : ¬Uninterrupted m := fun hq => nomatch hq.symm.trans hfind
  { first := fun _ hm => Option.some.inj (hfind.symm.trans hm) ▸ htaken
    failed := fun hq => absurd hq hloud
    final := fun hq => absurd hq hloud
    turns := fun hq => absurd hq hloud }

/-- Moments without interrupts may be put before a stretch. -/
theorem congr (hfind : m'.find? Moment.isInterrupted = m.find? Moment.isInterrupted)
    (h : InterruptedAt place m r t) : InterruptedAt place m' r t where
  first moment hm := h.first moment (hfind.symm.trans hm)
  failed hq := h.failed (hfind.symm.trans hq)
  final hq := h.final (hfind.symm.trans hq)
  turns hq := h.turns (hfind.symm.trans hq)

/-- A stretch that ends outside the turns of a loop. -/
theorem congr_right {place' : Place} (h : InterruptedAt place m r t) (hplace : place' ≠ .turns)
    (ht : u.frame.interrupts = t.frame.interrupts) : InterruptedAt place' m r u where
  first := h.first
  failed hq hr := ht.trans (h.failed hq hr)
  final hq := by
    rw [ht]
    exact h.final hq
  turns _ hp := absurd hp hplace

/-- One stretch after the other: the second starts without interrupts, or something is taken up. -/
theorem append
    (hfirst : ∀ moment, m.find? Moment.isInterrupted = some moment → moment.event.isTakenUp = true)
    (hgo : Uninterrupted m → t.frame.interrupts = []
      ∨ ∃ event, event.isTakenUp = true ∧ m'.head? = some ⟨event, t⟩)
    (h : t.frame.interrupts = [] → InterruptedAt place m' r u) :
    InterruptedAt place (m ++ m') r u := by
  cases hm : m.find? Moment.isInterrupted with
  | some moment =>
    -- The first such moment is one of the first stretch.
    have hfind : (m ++ m').find? Moment.isInterrupted = some moment := by
      rw [List.find?_append, hm]
      rfl
    exact .of_find? hfind (hfirst moment hm)
  | none =>
    have hfind : (m ++ m').find? Moment.isInterrupted = m'.find? Moment.isInterrupted := by
      rw [List.find?_append, hm]
      rfl
    refine .congr hfind ?_
    by_cases ht : t.frame.interrupts = []
    · exact h ht
    · -- The first stretch left an interrupt, and yet something follows.
      obtain hnone | ⟨event, htaken, hhead⟩ := hgo hm
      · exact absurd hnone ht
      · obtain ⟨rest, rfl⟩ : ∃ rest, m' = ⟨event, t⟩ :: rest := List.head?_eq_some_iff.mp hhead
        have hpending : Moment.isInterrupted ⟨event, t⟩ = true := by
          rw [← Bool.not_eq_false, Moment.isInterrupted_eq_false]
          exact ht
        exact .of_find? (List.find?_cons_of_pos hpending) htaken

/-- What follows a stretch that did not fail. -/
theorem trans (hs : s.frame.interrupts = []) (h : InterruptedAt place m none t)
    (hgo : GoesOn place s t m') (h' : t.frame.interrupts = [] → InterruptedAt place m' r u) :
    InterruptedAt place (m ++ m') r u := by
  refine .append h.first (fun hq => ?_) h'
  obtain hturns | hnone | hsame | htaken := hgo
  · exact .inl (h.turns hq hturns rfl)
  · exact .inl hnone
  · exact .inl (hsame.trans hs)
  · exact .inr htaken

/-- A turn takes the interrupt that it raised. -/
theorem takeInterrupt (h : InterruptedAt .plain m none t) (loops : List Value) :
    InterruptedAt .turns m none (Render.takeInterrupt (t.withLoops loops)).2 := by
  -- At most one interrupt is pending, and that one is taken.
  have hnone : Uninterrupted m → t.frame.interrupts.tail = [] := fun hq => by
    have hfinal := h.final hq
    cases hi : t.frame.interrupts with
    | nil => rfl
    | cons i rest =>
      rw [hi, List.length_cons] at hfinal
      show rest = []
      exact List.eq_nil_of_length_eq_zero (by omega)
  exact {
    first := h.first
    failed := fun _ hr => absurd rfl hr
    final := fun hq => by
      show t.frame.interrupts.tail.length ≤ 1
      rw [hnone hq]
      exact Nat.zero_le _
    turns := fun hq _ _ => hnone hq }

end InterruptedAt

variable {settings : Settings} {V : Value → Prop} {E : Error → Prop} {names : List String}
  {place : Place} {s t : RenderState} {m : List Moment} {r : Option Error}

/-- In every run that starts without interrupts the first moment with a pending interrupt is one
that is taken up regardless, and without such a moment at most one interrupt is pending in the
end. -/
theorem Run.interruptedAt (h : Run settings V E names place s m r t)
    (hs : s.frame.interrupts = []) : InterruptedAt place m r t := by
  -- By induction on the run: single steps start without interrupts, and only `interrupt` raises
  -- one. Where two stretches meet, `GoesOn` says why the second one was begun at all.
  induction h with
  | done => exact .of_eq hs rfl (List.forall_mem_nil _)
  | fail => exact .of_eq hs rfl (List.forall_mem_nil _)
  | keep hk => exact .of_eq hs (by rw [hk.frame]) (List.forall_mem_nil _)
  | bind => exact .of_eq hs rfl (List.forall_mem_nil _)
  | seq _ _ hgo ih ih' => exact (ih hs).trans hs hgo ih'
  | lift _ ih => exact (ih hs).congr_right scoped_ne_turns rfl
  | body => exact .of_eq hs rfl (List.forall_mem_singleton.mpr rfl)
  | write => exact .of_eq hs rfl (List.forall_mem_singleton.mpr rfl)
  | @assign _ s name value _ _ =>
    have hframe : (Render.assign name value s).2.frame.interrupts = s.frame.interrupts := by
      rcases frame_assign name value s with hf | hf <;> rw [hf]
      rfl
    exact .of_eq hs hframe (List.forall_mem_singleton.mpr rfl)
  | @interrupt _ s i =>
    have hquiet : Uninterrupted [⟨.interrupt i, s⟩] :=
      uninterrupted_iff.mpr (List.forall_mem_singleton.mpr hs)
    refine ⟨fun _ hm => ?_, fun _ hr => absurd rfl hr, fun _ => ?_,
      fun _ hp => absurd hp plain_ne_turns⟩
    · exact nomatch hquiet.symm.trans hm
    · show (i :: s.frame.interrupts).length ≤ 1
      rw [hs]
      exact Nat.le_refl _
  | takeUp => exact .of_eq hs rfl (List.forall_mem_singleton.mpr rfl)
  | recover _ _ _ _ ih ih' =>
    have h := ih hs
    -- Nothing fails while an interrupt is pending, so none is when the error is recorded.
    exact .append h.first (fun hq => .inl (h.failed hq (Option.some_ne_none _))) ih'
  | capture _ _ ih => exact (ih hs).congr_right plain_ne_turns rfl
  | captureFailed _ ih => exact (ih hs).congr_right plain_ne_turns rfl
  | scope henter _ ih =>
    obtain rfl := eq_of_enterScope henter
    exact (ih hs).congr_right plain_ne_turns rfl
  | @loop _ _ _ t _ henter _ ih =>
    obtain rfl := eq_of_enterScope henter
    have h := ih hs
    exact .append (t := t.popScope) h.first (fun hq => .inl (h.turns hq rfl rfl)) fun ht =>
      .of_eq ht rfl (List.forall_mem_singleton.mpr rfl)
  | loopFailed henter _ ih =>
    obtain rfl := eq_of_enterScope henter
    exact (ih hs).congr_right plain_ne_turns rfl
  | turn _ _ ih => exact (ih hs).takeInterrupt _
  | turnFailed _ _ ih =>
    have h := ih hs
    exact ⟨h.first, h.failed, h.final, fun _ _ hr => absurd hr (Option.some_ne_none _)⟩
  | template _ _ ih => exact (ih hs).congr_right plain_ne_turns rfl
  | @isolated _ _ s _ _ _ _ _ ih =>
    have h := ih rfl
    refine ⟨h.first, fun _ _ => hs, fun _ => ?_, fun _ hp => absurd hp plain_ne_turns⟩
    show s.frame.interrupts.length ≤ 1
    rw [hs]
    exact Nat.zero_le _
  | @includes _ s _ _ _ document _ ih =>
    refine .congr (List.find?_cons_of_neg ?_) (ih hs)
    rw [Bool.not_eq_true, Moment.isInterrupted_eq_false]
    exact hs

/-! ## Templates -/

/-- The discipline of interrupts in a render with the moments `m` and the outcome `r` that ends in
`t`. -/
structure Disciplined (m : List Moment) (r : Option Error) (t : RenderState) : Prop where
  /-- Nothing happens while an interrupt is pending: no body is begun, no text is written, no value
  is stored, no other interrupt is raised, and no loop is left. -/
  idle : ∀ moment ∈ m, moment.pending = []
  single : ∀ moment ∈ m, moment.pendingAfter.length ≤ 1
  failed : r ≠ none → t.frame.interrupts = []
  final : t.frame.interrupts.length ≤ 1

namespace Template

variable {t : Template} {options : RenderOptions}

/-- If an interrupt is pending when something happens, then the first time it is an arm of a choice
or an item of a list that is taken up. So interrupts are disciplined if and only if none is
pending whenever an arm or an item is taken up. -/
theorem interrupts_disciplined (ht : t.IsStandard) (values : Object)
    (ho : options.registers.AreStandard) (rethrow : Bool) :
    (∀ moment, (t.moments values options rethrow).find? Moment.isInterrupted = some moment →
        moment.event.isTakenUp = true)
      ∧ (Disciplined (t.moments values options rethrow) (t.ending values options rethrow)
            (t.final values options rethrow) ↔
          ∀ moment ∈ t.moments values options rethrow,
            moment.event.isTakenUp = true → moment.pending = []) := by
  have hs : (t.start values options).Admits fun _ => True := .trivial ho
  have hc : Closed (options.settings t.registry t.parsing rethrow) _ _ := .trivial ht.tags
  obtain ⟨names, hrun⟩ := run_moments ht hc hs
  have h := hrun.interruptedAt rfl
  refine ⟨h.first, fun hd moment hm _ => hd.idle moment hm, fun htaken => ?_⟩
  -- The first moment that is interrupted would be one that is taken up, and none of those is.
  have hquiet : Uninterrupted (t.moments values options rethrow) := by
    cases hfirst : (t.moments values options rethrow).find? Moment.isInterrupted with
    | none => exact hfirst
    | some moment =>
      have hnone := htaken moment (List.mem_of_find?_eq_some hfirst) (h.first moment hfirst)
      have hsome := List.find?_some hfirst
      rw [Moment.isInterrupted_eq_false.mpr hnone] at hsome
      exact nomatch hsome
  have hidle := uninterrupted_iff.mp hquiet
  refine ⟨hidle, fun moment hm => ?_, h.failed hquiet, h.final hquiet⟩
  -- A single moment adds at most one, to none that was pending.
  have hle := moment.length_pendingAfter_le
  rwa [hidle moment hm] at hle

/-- Reads
`{% for i in (1..3) %}{% case i %}{% when 2 %}{% break %}{% endcase %}{{ i }}{% endfor %}`. -/
private def breakingLoop : Except Error Unit × Template :=
  parse {} ("\x7b% for i in (1..3) %\x7d\x7b% case i %\x7d\x7b% when 2 %\x7d\x7b% break %\x7d"
    ++ "\x7b% endcase %\x7d\x7b\x7b i \x7d\x7d\x7b% endfor %\x7d")

/-- A loop that a single arm breaks off. -/
theorem interrupts_disciplined_break :
    breakingLoop.2.IsStandard ∧ (breakingLoop.2.render []).1.toOption = some "1"
      ∧ Disciplined (breakingLoop.2.moments [] {} false) (breakingLoop.2.ending [] {} false)
          (breakingLoop.2.final [] {} false) := by
  have ho : ({} : RenderOptions).registers.AreStandard := fun _ h => nomatch h
  have hfacts : breakingLoop.1.isOk = true
      ∧ (∀ moment ∈ breakingLoop.2.moments [] {} false,
          moment.event.isTakenUp = true → moment.pending = [])
      ∧ (breakingLoop.2.render []).1.toOption = some "1" := by decide +kernel
  obtain ⟨hok, htaken, houtput⟩ := hfacts
  have ht : breakingLoop.2.IsStandard := isStandard_parse_of_isOk rfl hok
  exact ⟨ht, houtput, (interrupts_disciplined ht [] ho false).2.mpr htaken⟩

/-- Reads
`{% for i in (1..2) %}{% case 1 %}{% when 1 %}a{% break %}{% when 1 %}b{% break %}{% endcase %}`
`{% endfor %}c`. -/
private def brokenChoice : Except Error Unit × Template :=
  parse {} ("\x7b% for i in (1..2) %\x7d\x7b% case 1 %\x7d\x7b% when 1 %\x7da\x7b% break %\x7d"
    ++ "\x7b% when 1 %\x7db\x7b% break %\x7d\x7b% endcase %\x7d\x7b% endfor %\x7dc")

/-- An arm that is taken up after a break writes its text and raises another interrupt; the loop
takes one of the two and leaves the other, which stops what is behind the loop. -/
theorem not_interrupts_disciplined :
    brokenChoice.1.isOk = true
      ∧ (¬∀ moment ∈ brokenChoice.2.moments [] {} false,
          moment.isWrite = true → moment.pending = [])
      ∧ (¬∀ moment ∈ brokenChoice.2.moments [] {} false, moment.pendingAfter.length ≤ 1)
      ∧ (¬∀ moment ∈ brokenChoice.2.moments [] {} false,
          moment.isLeft = true → moment.pending = [])
      ∧ (brokenChoice.2.render []).1.toOption = some "ab" := by
  decide +kernel

end Template

end Stencil
