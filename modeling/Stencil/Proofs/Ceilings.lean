import Stencil.Proofs.Lockstep
import Stencil.Proofs.Script

/-!
# Renders under higher ceilings

A ceiling is asked about only where something is charged, and where a filter is to write out a
range. The answer is either a refusal, which ends the whole render, or makes no difference.
So a render that breached no ceiling does the same under ceilings that are no lower.

Only the objects of the host can be shown the ceilings themselves, and what one of them answers with
is a difference like any other. That a render asks about nothing else is an induction over its
script.

## Key definitions

- `Ceilings.AtMost`: ceilings that are no lower, where none at all is above any other
- `Registry.FollowsCeilings`: objects and filters of the host that ask about nothing else

## Key results

- `Registry.FollowsCeilings.of_standard`: the standard filters
- `Script.followsCeilings`: the steps of a render
- `Template.render_withCeilings`: whole renders
-/

namespace Stencil

open Render

/-! ## Ceilings -/

/-- Whether a ceiling is at most another one. A ceiling that is not there is above all others. -/
def IsAtMost : Option Nat → Option Nat → Prop
  | _, none => True
  | none, some _ => False
  | some limit, some limit' => limit ≤ limit'

/-- What is not above a ceiling is not above a higher one. -/
theorem exceeds_eq_false_of_isAtMost {ceiling ceiling' : Option Nat}
    (h : IsAtMost ceiling ceiling') {amount : Nat} (hfits : exceeds amount ceiling = false) :
    exceeds amount ceiling' = false := by
  -- Without the higher ceiling nothing exceeds it; without the lower one there is no higher one
  -- either.
  cases ceiling' with
  | none => rfl
  | some limit' =>
    cases ceiling with
    | none => exact False.elim h
    | some limit =>
      have hle : limit ≤ limit' := h
      simp only [exceeds, decide_eq_false_iff_not] at hfits ⊢
      omega

/-- The ceilings of a budget, but for that of the depth. -/
structure Ceilings where
  length : Option Nat := none
  score : Option Nat := none
  assign : Option Nat := none

/-- Every ceiling is at most the other one of its kind. -/
structure Ceilings.AtMost (c c' : Ceilings) : Prop where
  length : IsAtMost c.length c'.length
  score : IsAtMost c.score c'.score
  assign : IsAtMost c.assign c'.assign

namespace Budget

/-- The ceilings, but for that of the depth. -/
def ceilings (b : Budget) : Ceilings :=
  ⟨b.lengthCeiling, b.scoreCeiling, b.assignCeiling⟩

/-- The budget with other ceilings. -/
def withCeilings (b : Budget) (c : Ceilings) : Budget :=
  { b with lengthCeiling := c.length, scoreCeiling := c.score, assignCeiling := c.assign }

end Budget

/-- The surroundings with other ceilings. -/
def Surroundings.withCeilings (s : Surroundings) (c : Ceilings) : Surroundings :=
  { s with budget := s.budget.withCeilings c }

/-- The view with other ceilings. -/
def View.withCeilings (view : View) (c : Ceilings) : View :=
  { view with budget := view.budget.withCeilings c }

/-- The state with other ceilings. -/
def RenderState.withCeilings (s : RenderState) (c : Ceilings) : RenderState :=
  { s with progress.budget := s.progress.budget.withCeilings c }

/-- The template with other ceilings for its renders. -/
def Template.withCeilings (t : Template) (c : Ceilings) : Template :=
  { t with budget := t.budget.withCeilings c }

/-! ## Evaluation -/

/-- Under higher ceilings a host object answers the same, unless it exhausts the budget. -/
def Answers.FollowCeilings (answers : Answers) : Prop :=
  ∀ (s : Surroundings) (c : Ceilings), s.budget.ceilings.AtMost c → ∀ id name,
    Follows (ErrorKind.covers .memory) (answers id name s) (answers id name (s.withCeilings c))

/-- Under higher ceilings the filter does the same, unless it exhausts the budget. -/
def Filter.FollowsCeilings (f : Filter) : Prop :=
  ∀ (view : View) (c : Ceilings) (input : Value) (args : Arguments),
    view.answers.FollowCeilings → view.budget.ceilings.AtMost c →
      Stencil.Follows (ErrorKind.covers .memory) (f.run view input args)
        (f.run (view.withCeilings c) input args)

/-- The code of the host asks about no ceiling but to exhaust the budget. -/
structure Registry.FollowsCeilings (r : Registry) : Prop where
  answers : r.answers.FollowCeilings
  filters : ∀ e ∈ r.filters, Filter.FollowsCeilings e.2

/-- A range that there is room for is written out under higher ceilings as well. -/
private theorem Budget.checkScore_follows {b : Budget} {c : Ceilings} (hc : b.ceilings.AtMost c)
    (amount : Nat) : Follows (ErrorKind.covers .memory) (b.checkScore amount)
      ((b.withCeilings c).checkScore amount) := by
  intro hfits
  show (if exceeds (b.score + amount) c.score then _ else _) = _
  unfold Budget.checkScore at hfits ⊢
  cases hx : exceeds (b.score + amount) b.scoreCeiling with
  | true =>
    rw [hx] at hfits
    exact nomatch hfits
  | false => rw [exceeds_eq_false_of_isAtMost hc.score hx]

/-- Higher ceilings make no difference to an evaluation but where it exhausts the budget. -/
theorem View.followedBy_withCeilings {view : View} (hanswers : view.answers.FollowCeilings)
    {c : Ceilings} (hc : view.budget.ceilings.AtMost c) :
    view.FollowedBy (ErrorKind.covers .memory) (view.withCeilings c) where
  find _ := rfl
  answers id name := hanswers view.toSurroundings c hc id name
  strictVariables := .inl rfl
  strictFilters := .inl rfl
  room amount := Budget.checkScore_follows hc amount

/-- Every standard filter does the same under higher ceilings, unless it exhausts the budget. -/
theorem Registry.FollowsCeilings.of_standard {r : Registry} (hfilters : r.filters = Filter.standard)
    (hanswers : r.answers.FollowCeilings) : r.FollowsCeilings where
  answers := hanswers
  filters e he view c input args ha hc := by
    rw [hfilters] at he
    exact Filter.standard_follows e he view (view.withCeilings c) input args
      (View.followedBy_withCeilings ha hc)

/-- What the host's data lists asks about no ceiling. -/
theorem Answers.none_followCeilings : Answers.none.FollowCeilings :=
  fun _ _ _ _ _ => .of_eq rfl

/-- A result that does not exhaust the budget is followed. -/
private theorem Follows.of_not_exhausted {α : Type} {r r' : Except Error α}
    (h : Follows (ErrorKind.covers .memory) r r') (hr : ¬Exhausted (failure r)) : r' = r := by
  refine h ?_
  cases r with
  | ok a => trivial
  | error e => exact beq_eq_false_iff_ne.mpr fun hk => hr ⟨e, rfl, hk⟩

/-! ## Charges -/

namespace Budget

variable {b : Budget} {c : Ceilings}

/-- A charge that is accepted is accepted under higher ceilings. -/
theorem settle_withCeilings {ceiling ceiling' : Option Nat} (h : IsAtMost ceiling ceiling')
    (amount : Nat) (hx : ¬Exhausted (failure (b.settle (exceeds amount ceiling)).1)) :
    (b.withCeilings c).settle (exceeds amount ceiling')
      = ((b.settle (exceeds amount ceiling)).1,
          (b.settle (exceeds amount ceiling)).2.withCeilings c) := by
  -- A refusal would exhaust the budget.
  cases hfits : exceeds amount ceiling with
  | true =>
    rw [hfits] at hx
    exact absurd ⟨.overBudget, rfl, rfl⟩ hx
  | false =>
    rw [exceeds_eq_false_of_isAtMost h hfits]
    rfl

/-- A charge that does not exhaust the budget is the same under higher ceilings. -/
theorem Charge.withCeilings {cost : Budget → Except Error Unit × Budget} (h : Charge cost)
    (hc : b.ceilings.AtMost c) (hx : ¬Exhausted (failure (cost b).1)) :
    cost (b.withCeilings c) = ((cost b).1, (cost b).2.withCeilings c) := by
  cases h with
  | score amount => exact settle_withCeilings hc.score _ hx
  | assign amount => exact settle_withCeilings hc.assign _ hx

/-- What is written is accepted under higher ceilings if it is at all. -/
theorem chargeWrite_withCeilings (hc : b.ceilings.AtMost c) {bytes : Nat}
    (hx : ¬Exhausted (failure (b.chargeWrite bytes).1)) :
    (b.withCeilings c).chargeWrite bytes
      = ((b.chargeWrite bytes).1, (b.chargeWrite bytes).2.withCeilings c) := by
  by_cases hcaptures : 0 < b.captures
  · rw [chargeWrite_of_captured hcaptures] at hx ⊢
    rw [chargeWrite_of_captured (by exact hcaptures)]
    exact (Charge.assign bytes).withCeilings hc hx
  · have hwrite : b.chargeWrite bytes = _ := if_neg hcaptures
    rw [hwrite] at hx ⊢
    exact (if_neg hcaptures).trans (settle_withCeilings hc.length _ hx)

/-- Scopes are opened whatever these ceilings are. -/
theorem enterScope_withCeilings (b : Budget) (c : Ceilings) :
    (b.withCeilings c).enterScope = (b.enterScope.1, b.enterScope.2.withCeilings c) := by
  unfold enterScope
  have hdepth : (b.withCeilings c).depth = b.depth := rfl
  have hceiling : (b.withCeilings c).depthCeiling = b.depthCeiling := rfl
  rw [hdepth, hceiling]
  split <;> rfl

/-- Settling a charge leaves the ceilings as they are. -/
theorem ceilings_settle (b : Budget) (tooMuch : Bool) :
    (b.settle tooMuch).2.ceilings = b.ceilings := by
  cases tooMuch <;> rfl

theorem Charge.ceilings_eq {cost : Budget → Except Error Unit × Budget} (h : Charge cost)
    (b : Budget) : (cost b).2.ceilings = b.ceilings := by
  cases h with
  | score amount => exact ceilings_settle _ _
  | assign amount => exact ceilings_settle _ _

theorem ceilings_chargeWrite (b : Budget) (bytes : Nat) :
    (b.chargeWrite bytes).2.ceilings = b.ceilings := by
  unfold chargeWrite
  split
  · exact (Charge.assign bytes).ceilings_eq b
  · exact ceilings_settle _ _

theorem ceilings_enterScope (b : Budget) : b.enterScope.2.ceilings = b.ceilings := by
  unfold enterScope
  split <;> rfl

end Budget

/-! ## Steps -/

/-- The step leaves the ceilings alone, and under higher ones it does the same, unless it exhausts
the budget. -/
structure FollowsCeilings {α : Type} (x : Render α) : Prop where
  ceilings (s : RenderState) : (x s).2.progress.budget.ceilings = s.progress.budget.ceilings
  same (s : RenderState) (c : Ceilings) : s.progress.budget.ceilings.AtMost c →
    ¬Exhausted (failure (x s).1) → x (s.withCeilings c) = ((x s).1, (x s).2.withCeilings c)

namespace FollowsCeilings

variable {α β : Type}

/-- A step that evaluates something. -/
theorem read {f : RenderState → Except Error α}
    (h : ∀ s c, s.progress.budget.ceilings.AtMost c →
      Follows (ErrorKind.covers .memory) (f s) (f (s.withCeilings c))) :
    FollowsCeilings fun s => (f s, s) where
  ceilings _ := rfl
  same s c hc he := congrArg (·, s.withCeilings c) ((h s c hc).of_not_exhausted he)

/-- What has nothing to do with the budget follows. -/
theorem aside {x : Render α} (h : Aside x) : FollowsCeilings x where
  ceilings s := by rw [h.budget_eq]
  same s c _ _ := by
    have hstate : (x s).2.besides s.progress.output (s.progress.budget.withCeilings c)
        s.progress.errors = (x s).2.withCeilings c := by
      rw [← h.output_eq s, ← h.budget_eq s, ← h.errors_eq s]
      rfl
    rw [← hstate]
    exact h.besides s _ _ _

/-- So do one step after the other. -/
theorem bind {x : Render α} {f : α → Render β} (h : FollowsCeilings x)
    (hf : ∀ a, FollowsCeilings (f a)) : FollowsCeilings (x >>= f) where
  ceilings s := by
    have hx := h.ceilings s
    rw [Attempt.bind_apply]
    -- The second step starts from the state of the first, in both runs.
    cases hr : x s with
    | mk r t =>
      rw [hr] at hx
      cases r with
      | ok a => exact ((hf a).ceilings t).trans hx
      | error e => exact hx
  same s c hc he := by
    have hx := h.ceilings s
    have hy := h.same s c hc
    cases hr : x s with
    | mk r t =>
      rw [hr] at hx hy
      cases r with
      | ok a =>
        rw [Attempt.bind_of_ok hr] at he ⊢
        rw [Attempt.bind_of_ok (hy not_exhausted_none)]
        exact (hf a).same t c (hx ▸ hc) he
      | error e =>
        rw [Attempt.bind_of_error hr] at he ⊢
        exact Attempt.bind_of_error (hy he) f

/-- A charge follows unless it exhausts the budget. -/
theorem charge {cost : Budget → Except Error Unit × Budget} (hcost : Budget.Charge cost) :
    FollowsCeilings (charge cost) where
  ceilings s := hcost.ceilings_eq _
  same s c hc he := by
    have hcharge := hcost.withCeilings hc he
    rw [charge_eq, charge_eq]
    unfold RenderState.withCeilings
    dsimp only
    rw [hcharge]

theorem emit (text : String) : FollowsCeilings (emit text) where
  ceilings s := Budget.ceilings_chargeWrite _ _
  same s c hc he := by
    have hcharge := Budget.chargeWrite_withCeilings hc he
    rw [emit_eq, emit_eq]
    unfold RenderState.withCeilings
    dsimp only
    rw [hcharge]

/-- A value is stored without a charge. -/
theorem store (name : String) (value : Value) : FollowsCeilings (store name value) :=
  ⟨fun _ => rfl, fun _ _ _ _ => rfl⟩

/-- What is diverted is put back under the same ceilings. -/
theorem diverted {x : Render Unit} (h : FollowsCeilings x) : FollowsCeilings (diverted x) where
  ceilings s := h.ceilings (s.withOutput "")
  same s c hc he := by
    rw [diverted_eq, failure_map] at he
    have hsame : x ((s.withCeilings c).withOutput "") = _ := h.same (s.withOutput "") c hc he
    rw [diverted_eq, diverted_eq, hsame]
    rfl

/-- So is what is captured. -/
theorem captured {x : Render Unit} (h : FollowsCeilings x) : FollowsCeilings (captured x) where
  ceilings s := h.diverted.ceilings s.beginCapture
  same s c hc he := by
    have hsame : Render.diverted x (s.withCeilings c).beginCapture = _ :=
      h.diverted.same s.beginCapture c hc he
    rw [captured_eq, captured_eq, hsame]
    rfl

/-- The depth has a ceiling of its own, which stays as it is. -/
theorem inScope {x : Render α} (h : FollowsCeilings x) : FollowsCeilings (inScope x) where
  ceilings s := by
    rw [inScope_eq]
    split
    · rfl
    · exact (h.ceilings s.entered).trans (Budget.ceilings_enterScope _)
  same s c hc he := by
    have hentered : (s.withCeilings c).entered = s.entered.withCeilings c := by
      unfold RenderState.entered
      rw [charge_eq, charge_eq]
      unfold RenderState.withCeilings
      dsimp only
      rw [Budget.enterScope_withCeilings]
      rfl
    have hx := inScope_eq x s
    have hy := inScope_eq x (s.withCeilings c)
    rw [hentered] at hy
    -- Whether the scope is too deep does not depend on the other ceilings.
    by_cases hdeep : exceeds (s.progress.budget.depth + 1) s.progress.budget.depthCeiling = true
    · rw [if_pos hdeep] at hx
      rw [hx]
      exact hy.trans (if_pos hdeep)
    · rw [if_neg hdeep] at hx
      rw [hx] at he ⊢
      have hc' : s.entered.progress.budget.ceilings.AtMost c := by
        rw [show s.entered.progress.budget.ceilings = s.progress.budget.ceilings from
          Budget.ceilings_enterScope _]
        exact hc
      rw [hy, h.same s.entered c hc' he]
      exact if_neg hdeep

/-- Dealing with an error writes its text, which is charged for. -/
theorem rescue {σ : Settings} (line : Option Nat) (blank : Bool) (e : Error) :
    FollowsCeilings (rescue σ line blank e) := by
  cases hp : σ.propagates e with
  | true =>
    have heq : Render.rescue σ line blank e = Attempt.fail e := if_pos hp
    rw [heq]
    exact .aside (.fail e)
  | false =>
    -- It is recorded with its place and perhaps shown, whatever the ceilings are.
    have hrecorded (s : RenderState) : FollowsCeilings
        (if (placed line e s).isUndefined || blank then Pure.pure ()
          else Render.emit (σ.showError (placed line e s))) := by
      split
      · exact .aside (.pure ())
      · exact .emit _
    constructor
    · intro s
      rw [rescue_of_not_propagates hp]
      exact (hrecorded s).ceilings _
    · intro s c hc he
      rw [rescue_of_not_propagates hp] at he ⊢
      rw [rescue_of_not_propagates hp]
      exact (hrecorded s).same (record (placed line e s) s).2 c hc he

/-- An error that is dealt with does not exhaust the budget. -/
theorem rescuing {σ : Settings} {x : Render Unit} (h : FollowsCeilings x) (line : Option Nat)
    (blank : Bool) : FollowsCeilings (rescuing σ line blank x) where
  ceilings s := by
    have hx := h.ceilings s
    cases hr : x s with
    | mk r t =>
      rw [hr] at hx
      cases r with
      | ok a =>
        rw [rescuing_of_ok hr]
        exact hx
      | error e =>
        rw [rescuing_of_error hr]
        exact ((rescue line blank e).ceilings t).trans hx
  same s c hc he := by
    have hx := h.ceilings s
    have hy := h.same s c hc
    cases hr : x s with
    | mk r t =>
      rw [hr] at hx hy
      cases r with
      | ok a => rw [rescuing_of_ok hr, rescuing_of_ok (hy not_exhausted_none)]
      | error e =>
        rw [rescuing_of_error hr] at he ⊢
        -- An error that exhausts the budget is passed on, and then the whole step does.
        have hinner : ¬Exhausted (failure (.error e : Except Error Unit)) := by
          cases hp : σ.propagates e with
          | true =>
            rw [rescue_of_propagates hp] at he
            exact he
          | false => exact not_exhausted_error hp
        rw [rescuing_of_error (hy hinner)]
        exact (rescue line blank e).same t c (hx ▸ hc) he

end FollowsCeilings

/-- A render under higher ceilings does what it does under lower ones, unless it exhausts its
budget. -/
theorem Script.followsCeilings {σ : Settings} (h : σ.registry.FollowsCeilings) {b : Bool}
    {α : Type} (x : Script b α) : FollowsCeilings (x.run σ) := by
  have hview {s : RenderState} {c : Ceilings} (hc : s.progress.budget.ceilings.AtMost c) :
      (σ.view s).FollowedBy (ErrorKind.covers .memory) (σ.view (s.withCeilings c)) :=
    have hanswers : (σ.view s).answers.FollowCeilings := h.answers
    View.followedBy_withCeilings hanswers hc
  induction x with
  | aside x h => exact .aside h
  -- What is evaluated sees the ceilings only in the answers of drops.
  | evaluate e => exact .read fun s c hc => e.evaluate_follows (hview hc)
  | pipeline p =>
    exact .read fun s c hc => p.evaluate_follows (hview hc) fun e he input args =>
      h.filters e he (σ.view s) c input args h.answers hc
  | condition condition => exact .read fun s c hc => condition.evaluate_follows (hview hc)
  | score nodes => exact .charge (.score nodes)
  | emit text => exact .emit text
  | bindAll entries => exact ⟨fun _ => rfl, fun _ _ _ _ => rfl⟩
  | assign name value =>
    exact (FollowsCeilings.charge (.assign _)).bind fun _ => .store name value
  | bind x f ih ihf => exact ih.bind ihf
  | diverted x ih => exact ih.diverted
  | capture name x ih => exact ih.captured.bind fun text => .store name (.str text)
  | inScope x ih => exact ih.inScope
  | inTemplate name x ih =>
    refine ⟨fun s => ih.ceilings (s.withTemplate (some name)), fun s c hc he => ?_⟩
    have hsame : x.run σ ((s.withCeilings c).withTemplate (some name)) = _ :=
      ih.same (s.withTemplate (some name)) c hc he
    rw [run, inTemplate_eq, inTemplate_eq, hsame]
    rfl
  | isolated template x ih =>
    refine ⟨fun s => ih.ceilings (s.withFrame (s.frame.isolated template)), fun s c hc he => ?_⟩
    have hsame :
        x.run σ ((s.withCeilings c).withFrame ((s.withCeilings c).frame.isolated template)) = _ :=
      ih.same (s.withFrame (s.frame.isolated template)) c hc he
    rw [run, isolated_eq, isolated_eq, hsame]
    rfl
  | inLoop loop x ih =>
    refine ⟨fun s => ih.ceilings (s.withLoops (loop :: s.frame.loops)), fun s c hc he => ?_⟩
    have hsame :
        x.run σ ((s.withCeilings c).withLoops (loop :: (s.withCeilings c).frame.loops)) = _ :=
      ih.same (s.withLoops (loop :: s.frame.loops)) c hc he
    rw [run, inLoop_eq, inLoop_eq, hsame]
    rfl
  | rescuing line blank x ih => exact ih.rescuing line blank

/-! ## Templates -/

/-- A document under higher ceilings is rendered as it is under lower ones, unless that exhausts the
budget. -/
theorem Document.followsCeilings {σ : Settings} (h : σ.registry.FollowsCeilings)
    (document : Document) :
    FollowsCeilings (document.render σ) := by
  have hwithin (levels : Nat) : FollowsCeilings (renderWithin σ levels document) := by
    rw [← run_scriptWithin (b := false) ⟨rfl, rfl⟩ levels document]
    exact (scriptWithin σ levels document).followsCeilings h
  -- How deep partials may be called does not change.
  exact ⟨fun s => (hwithin _).ceilings s, fun s c hc he => (hwithin _).same s c hc he⟩

namespace Template

variable {t : Template} {c : Ceilings}

/-- A budget that is not marked was not exhausted. -/
theorem not_exhausted_of_keep {r : Except Error Unit} {s : RenderState}
    (h : (t.keep r s).budget.reached = false) : ¬Exhausted (failure r) := by
  rintro ⟨e, he, hk⟩
  cases r with
  | ok a => exact nomatch he
  | error e =>
    cases he
    unfold keep at h
    simp only [hk, if_true] at h
    exact nomatch h

/-- What a template keeps of a render does not depend on ceilings. -/
theorem keep_withCeilings (r : Except Error Unit) (s : RenderState) :
    (t.withCeilings c).keep r (s.withCeilings c) = (t.keep r s).withCeilings c := by
  cases r with
  | ok a => rfl
  | error e =>
    unfold keep withCeilings
    dsimp only
    split <;> rfl

variable (hregistry : t.registry.FollowsCeilings) (hc : t.budget.ceilings.AtMost c)
  {values : Object} {options : RenderOptions}
include hregistry hc

/-- A render that reaches no ceiling is the same under higher ones. -/
private theorem run_withCeilings (rethrow : Bool)
    (h : (t.run values options rethrow).2.budget.reached = false) :
    (t.withCeilings c).run values options rethrow
      = ((t.run values options rethrow).1, (t.run values options rethrow).2.withCeilings c) := by
  unfold run at h ⊢
  have hdocument : (t.withCeilings c).document = t.document := rfl
  rw [hdocument]
  cases hd : t.document with
  | none => rfl
  | some document =>
    rw [hd] at h
    dsimp only at h ⊢
    have hfollows := document.followsCeilings
      (σ := options.settings t.registry t.parsing rethrow) hregistry
    -- The render does not exhaust the budget, as it leaves the flag alone.
    have hrender := hfollows.same (t.start values options) c hc (not_exhausted_of_keep h)
    have hstart : (t.withCeilings c).start values options
        = (t.start values options).withCeilings c := rfl
    have hsettings : options.settings (t.withCeilings c).registry (t.withCeilings c).parsing rethrow
        = options.settings t.registry t.parsing rethrow := rfl
    rw [hstart, hsettings, hrender]
    exact Prod.ext rfl (keep_withCeilings _ _)

/-- So it is with a render that counts as the template's own. -/
private theorem render_follows (h : (t.render values options).2.budget.reached = false) :
    (t.withCeilings c).render values options
      = ((t.render values options).1, (t.render values options).2.withCeilings c) := by
  -- The flag of the render is that of the run.
  have hreached : (t.run values options false).2.budget.reached = false := by
    unfold render at h
    split at h
    · rename_i e t' hrun
      rw [hrun]
      split at h <;> exact h
    · rename_i output t' hrun
      rw [hrun]
      exact h
  have hrun := run_withCeilings hregistry hc false hreached
  unfold render
  rw [hrun]
  cases t.run values options false with
  | mk r t' =>
    cases r with
    | ok output => rfl
    | error e =>
      dsimp only
      split <;> rfl

omit hregistry hc in
/-- With the standard filters, and objects that do not look at ceilings, a render that breaches no
ceiling does the same under ceilings none of which is lower: it has the same result, records the
same errors, counts and stores the same and breaches nothing either, and only the ceilings are other
ones. -/
theorem render_withCeilings {t : Template} (hstandard : t.registry.filters = Filter.standard)
    (hanswers : t.registry.answers.FollowCeilings) {c c' : Ceilings} (hc : c.AtMost c')
    (values : Object) (options : RenderOptions) :
    (((t.withCeilings c).render values options).2.budget.reached = false →
      (t.withCeilings c').render values options
        = (((t.withCeilings c).render values options).1,
            ((t.withCeilings c).render values options).2.withCeilings c'))
    ∧ (((t.withCeilings c).renderStrict values options).2.budget.reached = false →
      (t.withCeilings c').renderStrict values options
        = (((t.withCeilings c).renderStrict values options).1,
            ((t.withCeilings c).renderStrict values options).2.withCeilings c')) := by
  have hregistry : (t.withCeilings c).registry.FollowsCeilings := .of_standard hstandard hanswers
  -- The ceilings that were there before do not matter.
  exact ⟨render_follows (t := t.withCeilings c) hregistry hc,
    run_withCeilings (t := t.withCeilings c) hregistry hc true⟩

end Template

/-- A range is written out if what is left of the score is as much as its length, and under no
ceiling as well. -/
theorem Template.render_withCeilings_range :
    let p : Pipeline :=
      { source := .range (.literal (.int 1)) (.literal (.int 3)), filters := [{ name := "join" }] }
    let t : Template := { document := some (.mk [.output p] false) }
    let low : Ceilings := ⟨some 5, some 4, some 0⟩
    let high : Ceilings := ⟨some 6, none, some 0⟩
    t.registry.filters = Filter.standard ∧ low.AtMost high
      ∧ ((t.withCeilings low).render []).2.budget.reached = false
      ∧ ((t.withCeilings low).renderStrict []).2.budget.reached = false
      ∧ (t.withCeilings high).render []
          = (((t.withCeilings low).render []).1,
              ((t.withCeilings low).render []).2.withCeilings high)
      ∧ ((t.withCeilings low).render []).1.toOption = some "1 2 3" := by
  intro p t low high
  have hc : low.AtMost high := ⟨Nat.le_succ 5, trivial, Nat.le_refl 0⟩
  -- Neither render reaches the lower ceilings.
  have hreached : ((t.withCeilings low).render []).2.budget.reached = false := by decide +kernel
  have hstrict : ((t.withCeilings low).renderStrict []).2.budget.reached = false := by
    decide +kernel
  have houtput : ((t.withCeilings low).render []).1.toOption = some "1 2 3" := by decide +kernel
  exact ⟨rfl, hc, hreached, hstrict,
    (render_withCeilings rfl Answers.none_followCeilings hc [] {}).1 hreached, houtput⟩

/-- An object of the host that looks at a ceiling gives it away. Nor does a render need an object
for that which is not one of a template: there nothing marks a budget that has no room for a range.
-/
theorem Template.not_render_withCeilings :
    let answers : Answers := fun _ _ s => .ok (s.budget.lengthCeiling.map fun n => .int (.ofNat n))
    let registry := { Registry.standard with answers := answers }
    let object : Value := .drop (.host 0 [] [] none none none "")
    let asked : Expression := .lookup (.literal (.str "d")) [.mk (.literal (.str "n")) true]
    let t : Template := { registry, document := some (.mk [.output ⟨asked, [], none⟩] false) }
    let joined : Pipeline :=
      { source := .range (.literal (.int 1)) (.literal (.int 10)), filters := [{ name := "join" }] }
    let document : Document := .mk [.output joined] false
    let low : Ceilings := ⟨some 50, some 3, none⟩
    let high : Ceilings := ⟨some 60, none, none⟩
    let rendered (c : Ceilings) :=
      document.render { registry := .standard } (RenderState.withCeilings {} c)
    registry.filters = Filter.standard ∧ low.AtMost high
      ∧ ((t.withCeilings low).render [("d", object)]).2.budget.reached = false
      ∧ ((t.withCeilings low).render [("d", object)]).1.toOption = some "50"
      ∧ ((t.withCeilings high).render [("d", object)]).1.toOption = some "60"
      ∧ (rendered low).2.progress.budget.reached = false
      ∧ failure (rendered low).1 = some .overBudget ∧ failure (rendered high).1 = none := by
  intro answers registry object asked t joined document low high rendered
  exact ⟨rfl, ⟨Nat.le_add_right 50 10, trivial, trivial⟩, by decide +kernel, by decide +kernel,
    by decide +kernel, by decide +kernel, by decide +kernel, by decide +kernel⟩

end Stencil
