import Stencil.Proofs.Accounting

/-!
# Work in loops

A ceiling on the score bounds how many turns the loops of a render take, in all partials
and at all depths together, because every turn that has a node to render is charged for it
before it starts. A turn whose body has no nodes is charged nothing, and there may be any
number of those.

## Key results

- `Run.turnsBounded`: the invariant of runs
- `Trace.countP_loop_of_empty`: a loop of a body without nodes takes all its turns for nothing
- `Template.turns_le`: how many turns a render takes at most
- `Template.turns_not_le`: turns of a body without nodes are not bounded
-/

namespace Stencil

open Render

/-- The turn of an item of a loop begins. -/
def Moment.isTurn (m : Moment) : Bool :=
  match m.event with
  | .body _ turn => turn
  | _ => false

/-- The turn of an item of a loop begins, with a body that has no nodes. -/
def Moment.isEmptyTurn (m : Moment) : Bool :=
  match m.event with
  | .body nodes turn => turn && nodes == 0
  | _ => false

/-- The turn of an item of a loop begins, with a body that has nodes. -/
def Moment.isWorkingTurn (m : Moment) : Bool :=
  m.isTurn && !m.isEmptyTurn

/-- With a ceiling of `limit` on the score: how many turns with nodes there are in a stretch of a
render, and that they are charged unless that was refused. -/
structure TurnsBounded (limit : Nat) (b : Budget) (m : List Moment) (r : Option Error)
    (b' : Budget) : Prop where
  ceiling : b'.scoreCeiling = some limit
  turns : b.score + m.countP Moment.isWorkingTurn ≤ limit + 1
  charged : ¬Exhausted r → b.score + m.countP Moment.isWorkingTurn ≤ b'.score
  score : ¬Exhausted r → b'.score ≤ limit

namespace TurnsBounded

variable {limit : Nat} {b b' b'' : Budget} {m m' : List Moment} {r r' : Option Error}

/-- A step that begins no turn. -/
theorem of_eq (hceiling : b.scoreCeiling = some limit) (hscore : b.score ≤ limit)
    (hc : b'.scoreCeiling = b.scoreCeiling) (hs : b'.score = b.score)
    (hm : m.countP Moment.isWorkingTurn = 0) : TurnsBounded limit b m r b' where
  ceiling := hc.trans hceiling
  turns := by omega
  charged _ := by omega
  score _ := by omega

/-- What follows a stretch that did not exhaust the budget. -/
theorem trans (h : TurnsBounded limit b m r b') (hr : ¬Exhausted r)
    (h' : TurnsBounded limit b' m' r' b'') : TurnsBounded limit b (m ++ m') r' b'' where
  ceiling := h'.ceiling
  turns := by
    -- What the first part charged counts against the limit of the second.
    have hcharged := h.charged hr
    have hturns := h'.turns
    rw [List.countP_append]
    omega
  charged hr' := by
    have hcharged := h.charged hr
    have hcharged' := h'.charged hr'
    rw [List.countP_append]
    omega
  score := h'.score

/-- A body that is begun: if it has nodes they are charged. -/
theorem body {s : RenderState} (hceiling : s.progress.budget.scoreCeiling = some limit)
    (hscore : s.progress.budget.score ≤ limit) (nodes : Nat) (turn : Bool) :
    TurnsBounded limit s.progress.budget [⟨.body nodes turn, s⟩]
      (failure (charge (·.chargeScore nodes) s).1)
      (charge (·.chargeScore nodes) s).2.progress.budget := by
  -- At most one turn begins, and none that counts if there are no nodes.
  have hturn : [(⟨.body nodes turn, s⟩ : Moment)].countP Moment.isWorkingTurn ≤ min 1 nodes := by
    rw [List.countP_singleton]
    cases turn with
    | false => exact Nat.zero_le _
    | true =>
      cases nodes with
      | zero => exact Nat.zero_le _
      | succ n =>
        show 1 ≤ min 1 (n + 1)
        omega
  have hcharged : (charge (·.chargeScore nodes) s).2.progress.budget.score
      = s.progress.budget.score + nodes := by rw [charge_eq, Budget.chargeScore_eq]
  refine ⟨?_, by omega, fun _ => by omega, fun hr => ?_⟩
  · rw [charge_eq, Budget.chargeScore_eq]
    exact hceiling
  · rw [hcharged]
    rw [charge_eq, Budget.chargeScore_eq, hceiling] at hr
    by_cases hx : limit < s.progress.budget.score + nodes
    · -- Above the ceiling the charge is refused.
      have hexceeds : exceeds (s.progress.budget.score + nodes) (some limit) = true :=
        decide_eq_true hx
      rw [hexceeds] at hr
      exact absurd ⟨.overBudget, rfl, rfl⟩ hr
    · omega

/-- Scopes cost nothing. -/
theorem popScope {s s' t : RenderState} (henter : charge Budget.enterScope s = (.ok (), s'))
    (hceiling : s.progress.budget.scoreCeiling = some limit)
    (hscore : s.progress.budget.score ≤ limit)
    (ih : s'.progress.budget.scoreCeiling = some limit → s'.progress.budget.score ≤ limit →
      TurnsBounded limit s'.progress.budget m r t.progress.budget) :
    TurnsBounded limit s.progress.budget m r t.popScope.progress.budget := by
  obtain rfl := eq_of_enterScope henter
  have h := ih hceiling hscore
  exact ⟨h.ceiling, h.turns, h.charged, h.score⟩

end TurnsBounded

variable {settings : Settings} {V : Value → Prop} {E : Error → Prop} {names : List String}
  {place : Place} {s t : RenderState} {m : List Moment} {r : Option Error}

/-- In every run the turns with nodes are charged. -/
theorem Run.turnsBounded {limit : Nat} (h : Run settings V E names place s m r t)
    (hceiling : s.progress.budget.scoreCeiling = some limit)
    (hscore : s.progress.budget.score ≤ limit) :
    TurnsBounded limit s.progress.budget m r t.progress.budget := by
  -- By induction on the run: only bodies are charged to the score, and only an exhausted budget
  -- leaves the score above its ceiling, after which nothing follows.
  induction h with
  | done => exact .of_eq hceiling hscore rfl rfl rfl
  | fail => exact .of_eq hceiling hscore rfl rfl rfl
  | keep hk => exact .of_eq hceiling hscore (by rw [hk.budget]) (by rw [hk.budget]) rfl
  | bind => exact .of_eq hceiling hscore rfl rfl rfl
  | seq _ _ _ ih ih' =>
    have h := ih hceiling hscore
    exact h.trans not_exhausted_none (ih' h.ceiling (h.score not_exhausted_none))
  | lift _ ih => exact ih hceiling hscore
  | body nodes turn => exact .body hceiling hscore nodes turn
  | @write _ s text =>
    have h := Accounts.write s text
    exact .of_eq hceiling hscore h.scoreCeiling h.score rfl
  | @assign _ s name value _ _ =>
    have h := Accounts.assign s name value
    exact .of_eq hceiling hscore h.scoreCeiling h.score rfl
  | interrupt => exact .of_eq hceiling hscore rfl rfl rfl
  | takeUp event _ htaken =>
    cases event with
    | arm => exact .of_eq hceiling hscore rfl rfl rfl
    | item => exact .of_eq hceiling hscore rfl rfl rfl
    | _ => exact nomatch htaken
  | @recover _ _ _ _ _ _ _ e _ _ hp _ _ ih ih' =>
    have h := ih hceiling hscore
    have hr : ¬Exhausted (some e) := fun ⟨_, he, hk⟩ =>
      settings.kind_of_not_propagates hp (Option.some.inj he ▸ hk)
    exact h.trans hr (ih' h.ceiling (h.score hr))
  | capture _ _ ih =>
    have h := ih hceiling hscore
    exact ⟨h.ceiling, h.turns, h.charged, h.score⟩
  | captureFailed _ ih =>
    have h := ih hceiling hscore
    exact ⟨h.ceiling, h.turns, h.charged, h.score⟩
  | scope henter _ ih => exact .popScope henter hceiling hscore ih
  | loop henter _ ih =>
    have h := TurnsBounded.popScope henter hceiling hscore ih
    exact h.trans not_exhausted_none (.of_eq h.ceiling (h.score not_exhausted_none) rfl rfl rfl)
  | loopFailed henter _ ih => exact .popScope henter hceiling hscore ih
  | turn _ _ ih => exact ih hceiling hscore
  | turnFailed _ _ ih => exact ih hceiling hscore
  | template _ _ ih => exact ih hceiling hscore
  | isolated _ _ ih => exact ih hceiling hscore
  | @includes _ s _ _ _ document _ ih =>
    have hfree : TurnsBounded limit s.progress.budget [⟨.includes document, s⟩] none
        s.progress.budget := .of_eq hceiling hscore rfl rfl rfl
    exact hfree.trans not_exhausted_none (ih hceiling hscore)

/-! ## Bodies without nodes -/

/-- Rendering a body without nodes does nothing while the score is within its ceiling. -/
theorem Body.render_of_empty (partials : PartialRenderer) (blank : Bool)
    (h : exceeds s.progress.budget.score s.progress.budget.scoreCeiling = false) :
    (Body.mk [] blank).render settings partials s = (.ok (), s) := by
  have hfree : charge (·.chargeScore 0) s = (.ok (), s) := by
    rw [charge_eq, Budget.chargeScore_eq, Nat.add_zero, h]
    rfl
  rw [Body.render]
  exact Attempt.bind_of_ok hfree _

/-- Nothing happens in a body without nodes. -/
theorem Body.trace_of_empty (partials : PartialRenderer) (inner : Trace.OfPartials) (turn : Bool)
    (blank : Bool) (s : RenderState) :
    Body.trace settings partials inner turn (.mk [] blank) s = [⟨.body 0 turn, s⟩] := by
  unfold Body.trace Node.traceAll Trace.after
  dsimp only
  cases charge (·.chargeScore ([] : List Node).length) s with
  | mk r s => cases r <;> rfl

/-- What the turns of a body without nodes keep: no interrupt comes up, and the score stays as it
was and within its ceiling. -/
private structure Unworked (score : Nat) (s : RenderState) : Prop where
  interrupts : s.frame.interrupts = []
  score_eq : s.progress.budget.score = score
  within : exceeds s.progress.budget.score s.progress.budget.scoreCeiling = false

/-- One turn of a body without nodes is followed by the next. -/
private theorem iteration_of_empty (settings : Settings) (partials : PartialRenderer)
    (inner : Trace.OfPartials) (name : String) (header : LoopHeader) (slice : Slice)
    (parent : Value) (blank : Bool) {score : Nat} (index : Nat) {s : RenderState}
    (hs : Unworked score s) :
    (Trace.iteration name header slice parent
        (Body.trace settings partials inner true (.mk [] blank)) index s).countP
          Moment.isTurn = 1
      ∧ ∃ s', iteration name header slice parent ((Body.mk [] blank).render settings partials)
          index s = (.ok true, s') ∧ Unworked score s' := by
  obtain ⟨loop, s', hbegin, hi, hp⟩ : ∃ loop s',
      beginTurn name header slice parent index s = (.ok loop, s')
        ∧ s'.frame.interrupts = s.frame.interrupts
        ∧ s'.progress.budget = s.progress.budget := ⟨_, _, rfl, rfl, rfl⟩
  have hwithin : exceeds s'.progress.budget.score s'.progress.budget.scoreCeiling = false := by
    rw [hp]
    exact hs.within
  constructor
  · unfold Trace.iteration Trace.after
    rw [hbegin]
    unfold Trace.inLoop
    dsimp only
    rw [Body.trace_of_empty]
    rfl
  · -- Nothing was raised in the turn, so the loop goes on.
    have hbody : inLoop loop ((Body.mk [] blank).render settings partials) s' = (.ok (), s') := by
      let inside := s'.withLoops (loop :: s'.frame.loops)
      have h : (Body.mk [] blank).render settings partials inside = (.ok (), inside) :=
        Body.render_of_empty partials blank hwithin
      unfold inLoop
      rw [h]
      rfl
    have hnone : s'.frame.interrupts = [] := hi.trans hs.interrupts
    refine ⟨(takeInterrupt s').2, ?_, ?_, ?_, hwithin⟩
    · unfold iteration
      rw [Attempt.bind_of_ok hbegin, Attempt.bind_of_ok hbody, Attempt.bind_apply]
      unfold takeInterrupt
      rw [hnone]
      rfl
    · show s'.frame.interrupts.tail = []
      rw [hnone]
      rfl
    · show s'.progress.budget.score = score
      rw [hp]
      exact hs.score_eq

/-- Numbered steps that each take one turn take as many as there are. -/
private theorem countP_steps {I : RenderState → Prop} {step : Nat → Render Bool} {τ : Nat → Trace}
    (h : ∀ index s, I s → (τ index s).countP Moment.isTurn = 1
      ∧ ∃ s', step index s = (.ok true, s') ∧ I s')
    (length remaining : Nat) {s : RenderState} (hs : I s) :
    (Trace.steps step τ length remaining s).countP Moment.isTurn = remaining
      ∧ ∃ s', steps step length remaining s = (.ok (), s') ∧ I s' := by
  induction remaining generalizing s with
  | zero => exact ⟨rfl, s, rfl, hs⟩
  | succ remaining ih =>
    obtain ⟨hone, s', hstep, hs'⟩ := h (length - (remaining + 1)) s hs
    obtain ⟨hrest, s'', hsteps, hs''⟩ := ih hs'
    refine ⟨?_, s'', ?_, hs''⟩
    · unfold Trace.steps Trace.bind Trace.after
      rw [hstep]
      dsimp only
      rw [List.countP_append, hone, if_pos rfl, hrest, Nat.add_comm]
    · unfold steps
      rw [hstep]
      exact hsteps

/-- The loop of a body without nodes takes a turn for each item, and none of them is charged: no
ceiling on the score bounds them. -/
theorem Trace.countP_loop_of_empty (partials : PartialRenderer) (inner : OfPartials)
    (name : String) (header : LoopHeader) (slice : Slice) (blank : Bool)
    {s' : RenderState} (henter : charge Budget.enterScope s = (.ok (), s'))
    (hs : s.frame.interrupts = [])
    (hscore : exceeds s.progress.budget.score s.progress.budget.scoreCeiling = false) :
    let body : Body := .mk [] blank
    (Trace.loop name header slice (body.render settings partials)
        (body.trace settings partials inner true) s).countP Moment.isTurn = slice.length
      ∧ ∃ t, Render.loop name header slice (body.render settings partials) s = (.ok (), t)
          ∧ t.progress.budget.score = s.progress.budget.score := by
  intro body
  -- Entering the scope charges depth only, so the score is still the one before.
  have hstart : Unworked s.progress.budget.score s'.pushScope := by
    obtain rfl := eq_of_enterScope henter
    exact ⟨hs, rfl, hscore⟩
  obtain ⟨hturns, t, hsteps, ht⟩ := countP_steps
    (fun index _ hu => iteration_of_empty settings partials inner name header slice
      (s.frame.loops.head?.getD .nil) blank index hu)
    slice.length slice.length hstart
  have hloop : Render.loop name header slice (body.render settings partials) s
      = (.ok (), t.popScope) := by
    unfold Render.loop Render.inScope
    rw [henter]
    dsimp only
    rw [hsteps]
  refine ⟨?_, t.popScope, hloop, ht.score_eq⟩
  unfold Trace.loop Trace.bind Trace.after
  rw [hloop]
  dsimp only
  rw [List.countP_append]
  -- Leaving the scope is a moment too, but no turn.
  have hleft : (Trace.note .left t.popScope).countP Moment.isTurn = 0 := rfl
  rw [hleft, Nat.add_zero]
  unfold Trace.inScope Trace.after
  rw [henter]
  exact hturns

/-! ## Templates -/

theorem countP_isTurn (m : List Moment) :
    m.countP Moment.isTurn = m.countP Moment.isWorkingTurn + m.countP Moment.isEmptyTurn := by
  induction m with
  | nil => rfl
  | cons moment m ih =>
    have hone : (if moment.isTurn then 1 else 0)
        = (if moment.isWorkingTurn then 1 else 0) + (if moment.isEmptyTurn then 1 else 0) := by
      unfold Moment.isWorkingTurn Moment.isTurn Moment.isEmptyTurn
      -- A turn works if its body has nodes and is empty otherwise.
      cases moment.event with
      | body nodes turn => cases turn <;> cases nodes <;> rfl
      | _ => rfl
    rw [List.countP_cons, List.countP_cons, List.countP_cons]
    omega

namespace Template

variable {t : Template} {options : RenderOptions} {limit : Nat}

/-- A ceiling on the score bounds how many turns the loops of a render begin, at all depths and in
all partials together: those of bodies that have nodes by one more than the ceiling, and so all of
them if every body has nodes. -/
theorem turns_le (ht : t.IsStandard) (values : Object) (ho : options.registers.AreStandard)
    (rethrow : Bool) (hlimit : t.budget.scoreCeiling = some limit) :
    (t.moments values options rethrow).countP Moment.isTurn
        ≤ limit + 1 + (t.moments values options rethrow).countP Moment.isEmptyTurn
      ∧ ((∀ moment ∈ t.moments values options rethrow, moment.isEmptyTurn = false) →
          (t.moments values options rethrow).countP Moment.isTurn ≤ limit + 1) := by
  have hs : (t.start values options).Admits fun _ => True := .trivial ho
  have hc : Closed (options.settings t.registry t.parsing rethrow) _ _ := .trivial ht.tags
  obtain ⟨names, hrun⟩ := run_moments ht hc hs
  have hturns := (hrun.turnsBounded hlimit (Nat.zero_le _)).turns
  -- A render starts with nothing charged.
  have hstart : (t.start values options).progress.budget.score = 0 := rfl
  have hsplit := countP_isTurn (t.moments values options rethrow)
  refine ⟨by omega, fun hnodes => ?_⟩
  have hempty : (t.moments values options rethrow).countP Moment.isEmptyTurn = 0 :=
    List.countP_eq_zero.mpr fun moment hm he =>
      Bool.false_ne_true ((hnodes moment hm).symm.trans he)
  omega

/-- Reads `{% for i in (1..3) %}{% for j in (1..3) %}{{ j }}{% endfor %}{% endfor %}`, with a
ceiling of six. -/
private def nestedLoops : Except Error Unit × Template :=
  parse { budget.scoreCeiling := some 6 } ("\x7b% for i in (1..3) %\x7d"
    ++ "\x7b% for j in (1..3) %\x7d\x7b\x7b j \x7d\x7d\x7b% endfor %\x7d\x7b% endfor %\x7d")

/-- Nested loops share one ceiling. -/
theorem turns_le_nested :
    nestedLoops.2.IsStandard ∧ nestedLoops.2.budget.scoreCeiling = some 6
      ∧ (∀ moment ∈ nestedLoops.2.moments [] {} false, moment.isEmptyTurn = false)
      ∧ (nestedLoops.2.moments [] {} false).countP Moment.isTurn ≤ 6 + 1 := by
  have ho : ({} : RenderOptions).registers.AreStandard := fun _ h => nomatch h
  have hfacts : nestedLoops.1.isOk = true ∧ nestedLoops.2.budget.scoreCeiling = some 6
      ∧ ∀ moment ∈ nestedLoops.2.moments [] {} false, moment.isEmptyTurn = false := by
    decide +kernel
  obtain ⟨hok, hceiling, hnodes⟩ := hfacts
  have ht : nestedLoops.2.IsStandard := isStandard_parse_of_isOk rfl hok
  exact ⟨ht, hceiling, hnodes, (turns_le ht [] ho false hceiling).2 hnodes⟩

/-- Reads `{% for i in (1..10) %}{% endfor %}`, with a ceiling of two. -/
private def idleLoop : Except Error Unit × Template :=
  parse { budget.scoreCeiling := some 2 } "\x7b% for i in (1..10) %\x7d\x7b% endfor %\x7d"

/-- The turns of a body without nodes are not bounded by the ceiling, and do not reach it. -/
theorem turns_not_le :
    idleLoop.1.isOk = true ∧ idleLoop.2.budget.scoreCeiling = some 2
      ∧ ¬(idleLoop.2.moments [] {} false).countP Moment.isTurn ≤ 2 + 1
      ∧ (idleLoop.2.render []).2.budget.reached = false := by
  decide +kernel

end Template

end Stencil
