import Mathlib.Algebra.GroupWithZero.Nat
import Stencil.Proofs.FilterErrors

/-!
# Accounting

The counters of a budget say exactly what a render did: the length is the bytes of the
texts written outside captures, the score the nodes of the bodies begun, and the stored
size the cost of the values assigned and the bytes written inside captures. A charge that
is refused sets the flag of the budget and ends the render, since nothing on the way out
holds its error back; so the flag and the outcome of a render tell the same.

## Key results

- `Run.accounts`: the invariant of runs
- `Template.accounts_render`: the counters, the flag and the result of a whole render
-/

namespace Stencil

open Render

/-- Every counter is at most its ceiling. -/
structure Budget.Within (b : Budget) : Prop where
  length : ∀ limit, b.lengthCeiling = some limit → b.length ≤ limit
  score : ∀ limit, b.scoreCeiling = some limit → b.score ≤ limit
  assigned : ∀ limit, b.assignCeiling = some limit → b.assigned ≤ limit

/-- What does not exceed a ceiling is at most that. -/
theorem le_of_exceeds_eq_false {amount : Nat} {ceiling : Option Nat}
    (h : exceeds amount ceiling = false) : ∀ limit, ceiling = some limit → amount ≤ limit := by
  intro limit hl
  rw [hl] at h
  unfold exceeds at h
  exact Nat.not_lt.mp (of_decide_eq_false h)

/-- The error of an outcome is that of an exhausted budget. -/
def Exhausted (r : Option Error) : Prop :=
  ∃ e, r = some e ∧ e.kind = .memory

/-- What a stretch of a render with the moments `m` and the outcome `r` did to the counters, the
output and the recorded errors. -/
structure Accounts (p : Progress) (m : List Moment) (r : Option Error) (q : Progress) : Prop where
  lengthCeiling : q.budget.lengthCeiling = p.budget.lengthCeiling
  scoreCeiling : q.budget.scoreCeiling = p.budget.scoreCeiling
  assignCeiling : q.budget.assignCeiling = p.budget.assignCeiling
  captures : q.budget.captures = p.budget.captures
  length : q.budget.length = p.budget.length + (m.map Moment.lengthCost).sum
  score : q.budget.score = p.budget.score + (m.map Moment.scoreCost).sum
  assigned : q.budget.assigned = p.budget.assigned + (m.map Moment.assignCost).sum
  /-- Inside a capture nothing counts as output. -/
  captured : 0 < p.budget.captures → q.budget.length = p.budget.length
  /-- Outside of captures all that counts is output. -/
  output : p.budget.captures = 0 →
    q.output.utf8ByteSize + p.budget.length = p.output.utf8ByteSize + q.budget.length
  reached : q.budget.reached = true → p.budget.reached = true ∨ Exhausted r
  within : p.budget.Within → ¬Exhausted r → q.budget.Within
  /-- An exhausted budget is never recorded on the way. -/
  errors : (∀ e ∈ p.errors, e.kind ≠ .memory) → ∀ e ∈ q.errors, e.kind ≠ .memory

/-- A stretch without an error exhausts nothing. -/
theorem not_exhausted_none : ¬Exhausted none :=
  fun ⟨_, h, _⟩ => nomatch h

namespace Accounts

variable {p q q' : Progress} {m m' : List Moment} {r r' : Option Error}

/-- A step that spends and writes nothing. -/
theorem of_eq (hb : q.budget = p.budget) (ho : q.output = p.output) (he : q.errors = p.errors) :
    Accounts p [] r q where
  lengthCeiling := by rw [hb]
  scoreCeiling := by rw [hb]
  assignCeiling := by rw [hb]
  captures := by rw [hb]
  length := by rw [hb]; rfl
  score := by rw [hb]; rfl
  assigned := by rw [hb]; rfl
  captured _ := by rw [hb]
  output _ := by rw [hb, ho]
  reached h := .inl (hb ▸ h)
  within h _ := hb ▸ h
  errors h := he ▸ h

/-- Nothing happens in no moments. -/
theorem refl : Accounts p [] r p :=
  of_eq rfl rfl rfl

/-- A step with a moment that costs nothing. -/
theorem free {event : Event} {s : RenderState} (hb : q.budget = p.budget)
    (ho : q.output = p.output) (he : q.errors = p.errors)
    (hl : (Moment.mk event s).lengthCost = 0) (hs : (Moment.mk event s).scoreCost = 0)
    (ha : (Moment.mk event s).assignCost = 0) : Accounts p [⟨event, s⟩] r q :=
  let h : Accounts p [] r q := of_eq hb ho he
  { h with
    length := by simp only [List.map_cons, List.map_nil, hl, hb]; rfl
    score := by simp only [List.map_cons, List.map_nil, hs, hb]; rfl
    assigned := by simp only [List.map_cons, List.map_nil, ha, hb]; rfl }

/-- What follows a stretch that did not exhaust the budget. -/
theorem trans (h : Accounts p m r q) (hr : ¬Exhausted r) (h' : Accounts q m' r' q') :
    Accounts p (m ++ m') r' q' where
  lengthCeiling := h'.lengthCeiling.trans h.lengthCeiling
  scoreCeiling := h'.scoreCeiling.trans h.scoreCeiling
  assignCeiling := h'.assignCeiling.trans h.assignCeiling
  captures := h'.captures.trans h.captures
  length := by
    rw [h'.length, h.length, List.map_append, List.sum_append]
    omega
  score := by
    rw [h'.score, h.score, List.map_append, List.sum_append]
    omega
  assigned := by
    rw [h'.assigned, h.assigned, List.map_append, List.sum_append]
    omega
  captured hc := (h'.captured (h.captures ▸ hc)).trans (h.captured hc)
  -- What the budget has counted and what was written grow together.
  output hc := by
    have h₁ := h.output hc
    have h₂ := h'.output (h.captures.trans hc)
    omega
  reached hq := (h'.reached hq).elim
    (fun hq => (h.reached hq).imp id fun hx => absurd hx hr) .inr
  within hp hr' := h'.within (h.within hp hr) hr'
  errors hp := h'.errors (h.errors hp)

/-- An error that ends nothing was not that of an exhausted budget. -/
theorem recovered {e : Error} (h : Accounts p m (some e) q) (he : e.kind ≠ .memory) :
    Accounts p m none q where
  lengthCeiling := h.lengthCeiling
  scoreCeiling := h.scoreCeiling
  assignCeiling := h.assignCeiling
  captures := h.captures
  length := h.length
  score := h.score
  assigned := h.assigned
  captured := h.captured
  output := h.output
  -- An error of another kind exhausts nothing, so dropping it changes nothing here.
  reached hq := (h.reached hq).imp id fun ⟨_, hx, hk⟩ => absurd (Option.some.inj hx ▸ hk) he
  within hp _ := h.within hp fun ⟨_, hx, hk⟩ => he (Option.some.inj hx ▸ hk)
  errors := h.errors

/-! ## Charges -/

variable {s : RenderState} {tooMuch : Bool}

/-- An error of the budget exhausts it. -/
private theorem exhausted_overBudget :
    Exhausted (failure (.error .overBudget : Except Error Unit)) :=
  ⟨_, rfl, rfl⟩

/-- The flag of a budget after a charge, and the outcome of the charge. -/
private theorem exhausted_of_reached {reached : Bool} (h : (tooMuch || reached) = true) :
    reached = true ∨ Exhausted (failure
      (if tooMuch then .error .overBudget else .ok () : Except Error Unit)) := by
  cases tooMuch with
  | true => exact .inr exhausted_overBudget
  | false => exact .inl h

/-- A charge that exhausts nothing was not too much. -/
private theorem not_tooMuch
    (h : ¬Exhausted (failure
      (if tooMuch then .error .overBudget else .ok () : Except Error Unit))) : tooMuch = false := by
  cases tooMuch with
  | true => exact absurd exhausted_overBudget h
  | false => rfl

/-- The nodes of a body that is begun count as score. -/
theorem body (s : RenderState) (nodes : Nat) (turn : Bool) :
    Accounts s.progress [⟨.body nodes turn, s⟩] (failure (charge (·.chargeScore nodes) s).1)
      (charge (·.chargeScore nodes) s).2.progress := by
  rw [charge_eq, Budget.chargeScore_eq]
  exact {
    lengthCeiling := rfl
    scoreCeiling := rfl
    assignCeiling := rfl
    captures := rfl
    length := rfl
    score := rfl
    assigned := rfl
    captured := fun _ => rfl
    output := fun _ => rfl
    reached := exhausted_of_reached
    -- Only the score has changed, and it was accepted.
    within := fun hp hx => ⟨hp.length, le_of_exceeds_eq_false (not_tooMuch hx), hp.assigned⟩
    errors := id }

/-- A value that is assigned counts with its cost. -/
theorem assign (s : RenderState) (name : String) (value : Value) :
    Accounts s.progress [⟨.assign name value, s⟩] (failure (Render.assign name value s).1)
      (Render.assign name value s).2.progress := by
  rw [failure_assign, progress_assign, charge_eq, Budget.chargeAssign_eq]
  exact {
    lengthCeiling := rfl
    scoreCeiling := rfl
    assignCeiling := rfl
    captures := rfl
    length := rfl
    score := rfl
    assigned := rfl
    captured := fun _ => rfl
    output := fun _ => rfl
    reached := exhausted_of_reached
    -- Only what is assigned has changed, and it was accepted.
    within := fun hp hx => ⟨hp.length, hp.score, le_of_exceeds_eq_false (not_tooMuch hx)⟩
    errors := id }

/-- A text that is written counts with its bytes: as output, or as stored inside a capture. -/
theorem write (s : RenderState) (text : String) :
    Accounts s.progress [⟨.write text, s⟩] (failure (emit text s).1) (emit text s).2.progress := by
  have hemit : emit text s
      = charge (·.chargeWrite text.utf8ByteSize)
          { s with progress.output := s.progress.output ++ text } := rfl
  have hbytes : (s.progress.output ++ text).utf8ByteSize
      = s.progress.output.utf8ByteSize + text.utf8ByteSize := String.utf8ByteSize_append
  rw [hemit, charge_eq]
  cases hc : s.progress.budget.captures with
  | zero =>
    -- No capture is open: the bytes are output.
    have hopen : (Moment.mk (.write text) s).isCaptured = false := by
      unfold Moment.isCaptured
      rw [hc]
      rfl
    rw [Budget.chargeWrite_of_not_captured hc]
    exact {
      lengthCeiling := rfl
      scoreCeiling := rfl
      assignCeiling := rfl
      captures := rfl
      length := by
        simp only [List.map_cons, List.map_nil, Moment.lengthCost, hopen]
        rfl
      score := rfl
      assigned := by
        simp only [List.map_cons, List.map_nil, Moment.assignCost, hopen]
        rfl
      captured := fun h => absurd hc (Nat.ne_of_gt h)
      output := fun _ => by
        show (s.progress.output ++ text).utf8ByteSize + _ = _ + (_ + text.utf8ByteSize)
        omega
      reached := exhausted_of_reached
      within := fun hp hx => ⟨le_of_exceeds_eq_false (not_tooMuch hx), hp.score, hp.assigned⟩
      errors := id }
  | succ n =>
    -- A capture is open: the bytes are stored.
    have hcaptured : (Moment.mk (.write text) s).isCaptured = true := by
      unfold Moment.isCaptured
      rw [hc]
      exact decide_eq_true (Nat.succ_pos n)
    have hpos : 0 < s.progress.budget.captures := by omega
    rw [Budget.chargeWrite_of_captured hpos, Budget.chargeAssign_eq]
    exact {
      lengthCeiling := rfl
      scoreCeiling := rfl
      assignCeiling := rfl
      captures := rfl
      length := by
        simp only [List.map_cons, List.map_nil, Moment.lengthCost, hcaptured]
        rfl
      score := rfl
      assigned := by
        simp only [List.map_cons, List.map_nil, Moment.assignCost, hcaptured]
        rfl
      captured := fun _ => rfl
      output := fun h => absurd h (Nat.ne_of_gt hpos)
      reached := exhausted_of_reached
      within := fun hp hx => ⟨hp.length, hp.score, le_of_exceeds_eq_false (not_tooMuch hx)⟩
      errors := id }

/-! ## Inside something -/

/-- What a captured stretch writes is not output. -/
theorem endCapture {s t : RenderState}
    (h : Accounts (s.beginCapture.withOutput "").progress m r t.progress) :
    Accounts s.progress m r (t.withOutput s.progress.output).endCapture.progress where
  lengthCeiling := h.lengthCeiling
  scoreCeiling := h.scoreCeiling
  assignCeiling := h.assignCeiling
  -- The capture is counted off again,
  captures := by
    show t.progress.budget.captures - 1 = s.progress.budget.captures
    rw [h.captures]
    rfl
  length := h.length
  score := h.score
  assigned := h.assigned
  captured _ := h.captured (Nat.succ_pos _)
  -- and nothing that was written inside counts for the output.
  output _ := by
    have hl : t.progress.budget.length = s.progress.budget.length := h.captured (Nat.succ_pos _)
    show s.progress.output.utf8ByteSize + s.progress.budget.length
      = s.progress.output.utf8ByteSize + t.progress.budget.length
    rw [hl]
  reached := h.reached
  within hp hx :=
    have hq := h.within ⟨hp.length, hp.score, hp.assigned⟩ hx
    ⟨hq.length, hq.score, hq.assigned⟩
  errors := h.errors

/-- Scopes cost nothing. -/
theorem popScope {s s' t : RenderState} (henter : charge Budget.enterScope s = (.ok (), s'))
    (h : Accounts s'.pushScope.progress m r t.progress) :
    Accounts s.progress m r t.popScope.progress := by
  obtain rfl := eq_of_enterScope henter
  exact {
    lengthCeiling := h.lengthCeiling
    scoreCeiling := h.scoreCeiling
    assignCeiling := h.assignCeiling
    captures := h.captures
    length := h.length
    score := h.score
    assigned := h.assigned
    captured := h.captured
    output := h.output
    reached := h.reached
    -- A scope changes the depth only, which no account is kept of.
    within := fun hp hx =>
      have hq := h.within ⟨hp.length, hp.score, hp.assigned⟩ hx
      ⟨hq.length, hq.score, hq.assigned⟩
    errors := h.errors }

/-- Recording an error that is not that of an exhausted budget costs nothing. -/
theorem record {e : Error} (he : e.kind ≠ .memory) (s : RenderState) :
    Accounts s.progress [] none (record e s).2.progress where
  lengthCeiling := rfl
  scoreCeiling := rfl
  assignCeiling := rfl
  captures := rfl
  length := rfl
  score := rfl
  assigned := rfl
  captured _ := rfl
  output _ := rfl
  reached := .inl
  within hp _ := hp
  -- Only the errors grow, by one that is not of memory.
  errors hp e' hmem := (Array.mem_push.mp hmem).elim (hp e') fun heq => heq ▸ he

end Accounts

/-! ## Runs -/

/-- An error that is dealt with is none of memory. -/
theorem Settings.kind_of_not_propagates {settings : Settings} {e : Error}
    (h : settings.propagates e = false) : e.kind ≠ .memory := by
  intro hk
  rw [propagates, hk] at h
  simp at h

variable {settings : Settings} {V : Value → Prop} {E : Error → Prop} {names : List String}
  {place : Place} {s t : RenderState} {m : List Moment} {r : Option Error}

/-- Runs are accounted for by their moments. -/
theorem Run.accounts (h : Run settings V E names place s m r t) :
    Accounts s.progress m r t.progress := by
  -- By induction on the run. Each single step has its account, and two stretches are put together
  -- where the first did not exhaust the budget: an error of that kind is never recovered from.
  induction h with
  | done => exact .refl
  | fail => exact .refl
  | keep hk => exact .of_eq hk.budget hk.output hk.errors
  | bind => exact .of_eq rfl rfl rfl
  | seq _ _ _ ih ih' => exact ih.trans not_exhausted_none ih'
  | lift _ ih => exact ih
  | @body _ s nodes turn => exact .body s nodes turn
  | @write _ s text => exact .write s text
  | @assign _ s name value _ _ => exact .assign s name value
  | interrupt => exact .free rfl rfl rfl rfl rfl rfl
  | takeUp event _ htaken =>
    cases event with
    | arm => exact .free rfl rfl rfl rfl rfl rfl
    | item => exact .free rfl rfl rfl rfl rfl rfl
    | _ => exact nomatch htaken
  | @recover _ _ t _ _ _ _ e e' _ hp hkind _ ih ih' =>
    have he : e.kind ≠ .memory := settings.kind_of_not_propagates hp
    have hrecord := Accounts.record (hkind ▸ he : e'.kind ≠ .memory) t
    exact (ih.recovered he).trans not_exhausted_none (hrecord.trans not_exhausted_none ih')
  | capture _ _ ih => exact ih.endCapture
  | captureFailed _ ih => exact ih.endCapture
  | scope henter _ ih => exact ih.popScope henter
  | loop henter _ ih =>
    exact (ih.popScope henter).trans not_exhausted_none (.free rfl rfl rfl rfl rfl rfl)
  | loopFailed henter _ ih => exact ih.popScope henter
  | turn _ _ ih => exact ih
  | turnFailed _ _ ih => exact ih
  | template _ _ ih => exact ih
  | isolated _ _ ih => exact ih
  | @includes _ s _ _ _ document _ ih =>
    have hfree : Accounts s.progress [⟨.includes document, s⟩] none s.progress :=
      .free rfl rfl rfl rfl rfl rfl
    exact hfree.trans not_exhausted_none ih

/-! ## Templates -/

/-- What the budget and the errors of a template say after a render with the moments `m` that
ended in `ending` and gave `result`. -/
structure RenderAccounts (t : Template) (m : List Moment) (ending : Option Error)
    (result : Except Error String) (t' : Template) : Prop where
  /-- The flag is set if and only if rendering ended with an exhausted budget. -/
  reached_iff : t'.budget.reached = true ↔ Exhausted ending
  /-- Then, and only then, that is the last of the errors. -/
  reached_iff_errors : t'.budget.reached = true ↔ Exhausted t'.errors.back?
  lengthCeiling : t'.budget.lengthCeiling = t.budget.lengthCeiling
  scoreCeiling : t'.budget.scoreCeiling = t.budget.scoreCeiling
  assignCeiling : t'.budget.assignCeiling = t.budget.assignCeiling
  length : t'.budget.length = (m.map Moment.lengthCost).sum
  score : t'.budget.score = (m.map Moment.scoreCost).sum
  assigned : t'.budget.assigned = (m.map Moment.assignCost).sum
  within : t'.budget.reached = false → t'.budget.Within
  /-- No such error was dealt with on the way. -/
  errors : t'.budget.reached = false → ∀ e ∈ t'.errors, e.kind ≠ .memory
  /-- What was written is what counts as length, to the byte. -/
  output : t'.budget.reached = false → ∀ text, result = .ok text →
    t'.budget.length = text.utf8ByteSize

/-- A budget that is reset is within its ceilings. -/
theorem Budget.within_reset (b : Budget) : b.reset.Within :=
  ⟨fun _ _ => Nat.zero_le _, fun _ _ => Nat.zero_le _, fun _ _ => Nat.zero_le _⟩

/-- If no error is one of memory the last one is not. -/
private theorem not_exhausted_back? {errors : Array Error} (h : ∀ e ∈ errors, e.kind ≠ .memory) :
    ¬Exhausted errors.back? := by
  rintro ⟨e, he, hk⟩
  exact h e (Array.mem_of_back? he) hk

namespace Template

variable {t : Template} {values : Object} {options : RenderOptions}

/-- How a render is shown: as written, as the message that the budget is exhausted, or as an
error of the host. -/
private theorem render_eq {document : Document} (hd : t.document = some document) :
    t.render values options =
      match document.render (options.settings t.registry t.parsing false)
          (t.start values options) with
      | (.ok (), s) => (.ok s.progress.output, t.keep (.ok ()) s)
      | (.error e, s) =>
        if e.kind = .memory then
          (.ok e.text, { t.keep (.error e) s with errors := s.progress.errors.push e })
        else (.error e, t.keep (.error e) s) := by
  unfold Template.render Template.run
  rw [hd]
  dsimp only
  cases document.render (options.settings t.registry t.parsing false)
      (t.start values options) with
  | mk r s => cases r <;> rfl

/-- The counters of a template that keeps the budget of a state, up to the flag. -/
private theorem renderAccounts_of_accounts {t' : Template} {p : Progress} {m : List Moment}
    {r : Option Error} {result : Except Error String}
    (h : Accounts (t.start values options).progress m r p)
    (hbudget : t'.budget = { p.budget with reached := t'.budget.reached })
    (hreached : t'.budget.reached = true ↔ Exhausted r)
    (herrors : Exhausted t'.errors.back? ↔ Exhausted r)
    (hrecorded : ¬Exhausted r → t'.errors = p.errors)
    (houtput : ¬Exhausted r → ∀ text, result = .ok text → text = p.output) :
    RenderAccounts t m r result t' := by
  -- Without the flag the render did not end with an exhausted budget, so all amounts were accepted.
  have hr (hf : t'.budget.reached = false) : ¬Exhausted r := fun hx =>
    Bool.false_ne_true (hf.symm.trans (hreached.mpr hx))
  exact {
    reached_iff := hreached
    reached_iff_errors := hreached.trans herrors.symm
    lengthCeiling := by
      rw [hbudget]
      exact h.lengthCeiling
    scoreCeiling := by
      rw [hbudget]
      exact h.scoreCeiling
    assignCeiling := by
      rw [hbudget]
      exact h.assignCeiling
    length := by
      rw [hbudget]
      exact h.length.trans (Nat.zero_add _)
    score := by
      rw [hbudget]
      exact h.score.trans (Nat.zero_add _)
    assigned := by
      rw [hbudget]
      exact h.assigned.trans (Nat.zero_add _)
    within := fun hf => by
      have hw := h.within t.budget.within_reset (hr hf)
      rw [hbudget]
      exact ⟨hw.length, hw.score, hw.assigned⟩
    errors := fun hf => by
      rw [hrecorded (hr hf)]
      exact h.errors fun e he => nomatch he
    output := fun hf text htext => by
      have ho : p.output.utf8ByteSize + 0 = 0 + p.budget.length := h.output rfl
      rw [hbudget, houtput (hr hf) text htext]
      show p.budget.length = p.output.utf8ByteSize
      omega }

/-- The flag of the state in which a render ends is set only if that was the end. -/
private theorem not_reached {p : Progress} {m : List Moment} {r : Option Error}
    (h : Accounts (t.start values options).progress m r p) (hr : ¬Exhausted r) :
    ¬p.budget.reached = true :=
  fun hp => (h.reached hp).elim Bool.false_ne_true hr

/-- The run of a render, whatever its values are. -/
private theorem accounts_moments (ht : t.IsStandard) (values : Object)
    (ho : options.registers.AreStandard) :
    Accounts (t.start values options).progress (t.moments values options false)
      (t.ending values options false) (t.final values options false).progress := by
  have hs : (t.start values options).Admits fun _ => True := .trivial ho
  obtain ⟨names, hrun⟩ := run_moments ht (.trivial ht.tags) hs
  exact hrun.accounts

/-- A render accounts for what it did, however it ends. -/
private theorem renderAccounts (ht : t.IsStandard) (values : Object)
    (ho : options.registers.AreStandard) :
    RenderAccounts t (t.moments values options false) (t.ending values options false)
      (t.render values options).1 (t.render values options).2 := by
  have hacc := accounts_moments ht values ho
  have herrors := hacc.errors fun e he => nomatch he
  obtain ⟨document, hd, -⟩ := ht.document
  unfold ending final at *
  rw [hd] at hacc herrors ⊢
  rw [render_eq hd]
  dsimp only at hacc herrors ⊢
  cases hrender : document.render (options.settings t.registry t.parsing false)
      (t.start values options) with
  | mk r s =>
    rw [hrender] at hacc herrors
    cases r with
    | ok a =>
      refine renderAccounts_of_accounts hacc rfl ?_ ?_ (fun _ => rfl) fun _ text htext => ?_
      · exact iff_of_false (not_reached hacc not_exhausted_none) not_exhausted_none
      · exact iff_of_false (not_exhausted_back? herrors) not_exhausted_none
      · exact (Except.ok.inj htext).symm
    | error e =>
      dsimp only
      by_cases hk : e.kind = .memory
      · -- The error becomes the output and the last of the errors.
        have hx : Exhausted (failure (.error e : Except Error Unit)) := ⟨e, rfl, hk⟩
        have hbudget : (t.keep (.error e) s).budget = s.progress.budget.markReached := if_pos hk
        rw [if_pos hk]
        refine renderAccounts_of_accounts hacc ?_ ?_ ?_ (fun hr => absurd hx hr)
          fun hr => absurd hx hr
        · show (t.keep (.error e) s).budget = _
          rw [hbudget]
          rfl
        · refine iff_of_true ?_ hx
          show (t.keep (.error e) s).budget.reached = true
          rw [hbudget]
          rfl
        · refine iff_of_true ⟨e, ?_, hk⟩ hx
          exact Array.back?_push ..
      · -- A failure of the host is handed on.
        have hr : ¬Exhausted (failure (.error e : Except Error Unit)) := by
          rintro ⟨e', he, hk'⟩
          exact hk (Option.some.inj he ▸ hk')
        have hbudget : (t.keep (.error e) s).budget = s.progress.budget := if_neg hk
        rw [if_neg hk]
        refine renderAccounts_of_accounts hacc ?_ ?_ ?_ (fun _ => rfl)
          fun _ text htext => nomatch htext
        · rw [hbudget]
        · rw [hbudget]
          exact iff_of_false (not_reached hacc hr) hr
        · exact iff_of_false (not_exhausted_back? herrors) hr

/-- Where the host raises no such error itself, the error of an exhausted budget is the one of
the budget. -/
private theorem ending_eq_overBudget (ht : t.IsStandard)
    (hfilters : t.registry.filters = Filter.standard)
    (hhost : t.HostAvoids (ErrorKind.covers .memory) values) (ho : options.registers.AreStandard)
    {e : Error}
    (he : t.ending values options false = some e) (hk : e.kind = .memory) : e = .overBudget := by
  have hc : Closed (options.settings t.registry t.parsing false) _ _ :=
    .avoids_memory ht.tags hfilters hhost.answers hhost.files
  obtain ⟨names, hrun⟩ := run_moments ht hc (hhost.admits ho)
  exact hrun.error_of_failed Error.avoids_overBudget e he (beq_iff_eq.mpr hk)

/-- The output of an exhausted budget is the text of its error. -/
private theorem render_of_ending (ht : t.IsStandard) {e : Error}
    (he : t.ending values options false = some e) (hk : e.kind = .memory) :
    (t.render values options).1 = .ok e.text := by
  obtain ⟨document, hd, -⟩ := ht.document
  unfold ending at he
  rw [hd] at he
  rw [render_eq hd]
  cases hrender : document.render (options.settings t.registry t.parsing false)
      (t.start values options) with
  | mk r s =>
    dsimp only at he
    rw [hrender] at he
    -- An ending with an error is one of the run.
    cases r with
    | ok a => exact nomatch he
    | error e' =>
      obtain rfl : e' = e := Option.some.inj he
      dsimp only
      rw [if_pos hk]

/-- After a render the budget says exactly what was done. The flag is set if and only if the
render ended with an exhausted budget, which is then the last of the errors. Otherwise every
counter is within its ceiling and the length is that of the output. If the host itself raises
no such error, the output of an exhausted budget is the message that says so. -/
theorem accounts_render (ht : t.IsStandard) (values : Object)
    (ho : options.registers.AreStandard) :
    RenderAccounts t (t.moments values options false) (t.ending values options false)
        (t.render values options).1 (t.render values options).2
      ∧ (t.registry.filters = Filter.standard →
          t.HostAvoids (ErrorKind.covers .memory) values →
          ((t.render values options).2.budget.reached = true ↔
            Exhausted (t.render values options).2.errors.back?
              ∧ (t.render values options).1 = .ok "Liquid error: Memory limits exceeded")) := by
  have haccounts := renderAccounts ht values ho
  refine ⟨haccounts, fun hfilters hhost => ⟨fun hreached => ?_, fun h => ?_⟩⟩
  · -- Such an error began in the render, so it is the one of the budget and its text is fixed.
    obtain ⟨e, he, hk⟩ := haccounts.reached_iff.mp hreached
    refine ⟨haccounts.reached_iff_errors.mp hreached, ?_⟩
    obtain rfl := ending_eq_overBudget ht hfilters hhost ho he hk
    rw [render_of_ending ht he hk]
    rfl
  · exact haccounts.reached_iff_errors.mpr h.1

/-- Text that is captured costs no length until it is written, and then too much. -/
theorem accounts_render_capture :
    let body : Body := .mk [.text "ab"] false
    let output : Pipeline := { source := .variable "x", filters := [] }
    let document : Document := .mk [.tag (.capture "x" body none), .output output] false
    let t : Template := { document := some document, budget.lengthCeiling := some 1 }
    t.IsStandard ∧ t.registry.filters = Filter.standard
      ∧ t.HostAvoids (ErrorKind.covers .memory) []
      ∧ RenderAccounts t (t.moments [] {} false) (t.ending [] {} false) (t.render []).1
          (t.render []).2
      ∧ (t.render []).1 = .ok "Liquid error: Memory limits exceeded" := by
  intro body output document t
  have ht : t.IsStandard := ⟨rfl, document, rfl, rfl⟩
  -- No filter, drop or file raises an error of memory.
  have hhost : t.HostAvoids (ErrorKind.covers .memory) [] :=
    ⟨rfl, rfl, rfl, Answers.none_avoid, fun _ e he => by cases he; rfl⟩
  have ho : ({} : RenderOptions).registers.AreStandard := fun _ h => nomatch h
  have h := accounts_render ht [] ho
  have hreached : (t.render []).2.budget.reached = true := rfl
  exact ⟨ht, rfl, hhost, h.1, ((h.2 rfl hhost).mp hreached).2⟩

end Template

end Stencil
