import Stencil.Proofs.Accounting
import Stencil.Proofs.Alike

/-!
# Renders in lockstep

What holds of steps that are built alike, each fact by one induction over the relation.

## Key results

- `Versions.Alike.sound`: in admitted frames every step results in what it should
- `Versions.Alike.keeps`: an invariant of the budget holds until the budget is exhausted
- `Versions.Alike.lockstep`: no step depends on what was written or recorded before, so
  two versions that differ in that do the same
-/

namespace Stencil

open Render

/-! ## Single steps -/

/-- Writing charges the budget and appends the text. -/
theorem emit_eq (text : String) (s : RenderState) :
    emit text s
      = ((s.progress.budget.chargeWrite text.utf8ByteSize).1,
          { s with
            progress.output := s.progress.output ++ text
            progress.budget := (s.progress.budget.chargeWrite text.utf8ByteSize).2 }) := rfl

/-- What is diverted is written to an empty output, and the old one is put back. -/
theorem diverted_eq (x : Render Unit) (s : RenderState) :
    diverted x s
      = ((x (s.withOutput "")).1.map fun _ => (x (s.withOutput "")).2.progress.output,
          (x (s.withOutput "")).2.withOutput s.progress.output) := rfl

/-- What is captured is diverted, with the capture noted in the budget. -/
theorem captured_eq (x : Render Unit) (s : RenderState) :
    captured x s = ((diverted x s.beginCapture).1, (diverted x s.beginCapture).2.endCapture) := rfl

/-- The name of the template is replaced and put back. -/
theorem inTemplate_eq {α : Type} (name : String) (x : Render α) (s : RenderState) :
    inTemplate name x s
      = ((x (s.withTemplate (some name))).1,
          (x (s.withTemplate (some name))).2.withTemplate s.frame.template) := rfl

/-- The frame is replaced and put back. -/
theorem isolated_eq {α : Type} (template : Option String) (x : Render α) (s : RenderState) :
    isolated template x s
      = ((x (s.withFrame (s.frame.isolated template))).1,
          (x (s.withFrame (s.frame.isolated template))).2.withFrame s.frame) := rfl

/-- The loop is put in front of the others and taken away. -/
theorem inLoop_eq {α : Type} (loop : Value) (x : Render α) (s : RenderState) :
    inLoop loop x s
      = ((x (s.withLoops (loop :: s.frame.loops))).1,
          (x (s.withLoops (loop :: s.frame.loops))).2.withLoops s.frame.loops) := rfl

/-- The state inside a scope that could be opened. -/
def RenderState.entered (s : RenderState) : RenderState :=
  ((charge Budget.enterScope s).2).pushScope

/-- A scope is refused where it would nest too deep. -/
theorem inScope_eq {α : Type} (x : Render α) (s : RenderState) :
    inScope x s
      = if exceeds (s.progress.budget.depth + 1) s.progress.budget.depthCeiling then
          (.error .tooDeep, s)
        else ((x s.entered).1, (x s.entered).2.popScope) := by
  unfold inScope RenderState.entered
  rw [charge_eq]
  by_cases h : exceeds (s.progress.budget.depth + 1) s.progress.budget.depthCeiling = true
  · have henter : s.progress.budget.enterScope = (.error .tooDeep, s.progress.budget) := if_pos h
    rw [if_pos h, henter]
  · have henter : ∃ b, s.progress.budget.enterScope = (.ok (), b) := ⟨_, if_neg h⟩
    obtain ⟨b, henter⟩ := henter
    rw [if_neg h, henter]

namespace Budget

/-- A charge fails with an error of the budget only. -/
theorem meets_settle (b : Budget) (tooMuch : Bool) :
    Meets (fun _ => True) (· = .overBudget) (b.settle tooMuch).1 := by
  rw [settle_eq]
  split <;> trivial

/-- A charge is refused with the error of the budget. -/
theorem Charge.meets {cost : Budget → Except Error Unit × Budget} (h : Charge cost) (b : Budget) :
    Meets (fun _ => True) (· = .overBudget) (cost b).1 := by
  cases h with
  | score amount => exact meets_settle _ _
  | assign amount => exact meets_settle _ _

/-- So does a charge for text. -/
theorem meets_chargeWrite (b : Budget) (bytes : Nat) :
    Meets (fun _ => True) (· = .overBudget) (b.chargeWrite bytes).1 := by
  unfold chargeWrite
  split <;> exact meets_settle _ _

end Budget

variable {v : Versions} {α : Type} {x y : Render α} {Q : α → Prop}

/-! ## Results -/

/-- A step that charges is refused with the error of the budget. -/
theorem meets_charge {cost : Budget → Except Error Unit × Budget} (h : Budget.Charge cost)
    (s : RenderState) : Meets (fun _ => True) (· = .overBudget) (charge cost s).1 :=
  h.meets s.progress.budget

/-- A text can be written unless it does not fit the budget. -/
theorem meets_emit (text : String) (s : RenderState) :
    Meets (fun _ => True) (· = .overBudget) (emit text s).1 :=
  Budget.meets_chargeWrite _ _

/-- Dealing with an error raises it again, or one of the budget. -/
theorem meets_rescue {settings : Settings} {E : Error → Prop} (hbudget : E .overBudget)
    {e : Error} (he : settings.propagates e = true → E e) (line : Option Nat) (blank : Bool)
    (s : RenderState) : Meets (fun _ => True) E (rescue settings line blank e s).1 := by
  cases hp : settings.propagates e with
  | true =>
    rw [rescue_of_propagates hp]
    exact he hp
  | false =>
    rw [rescue_of_not_propagates hp]
    split
    · trivial
    · exact (meets_emit _ _).mono (fun _ h => h) fun _ h => h ▸ hbudget

/-- In admitted frames a step results in what it should, and leaves an admitted frame. -/
theorem Versions.Alike.sound (h : v.Alike x y Q) (hbudget : v.E .overBudget)
    (hdeep : v.E .tooDeep) :
    ∀ s, s.frame.Admits v.V → Meets Q v.E (x s).1 ∧ (x s).2.frame.Admits v.V := by
  have hcharge {r : Except Error Unit} (hr : Meets (fun _ => True) (· = .overBudget) r) :
      Meets (fun _ => True) v.E r := hr.mono (fun _ h => h) fun _ h => h ▸ hbudget
  -- By induction on how the step is put together: the frame stays admitted all the way.
  induction h with
  | quiet hq => exact fun s hs => ⟨(hq s hs).meets, (hq s hs).admits⟩
  -- The result of the first step satisfies what the second one needs.
  | @bind α β x y f g P R hx hf ihx ihf =>
    intro s hs
    obtain ⟨hm, ht⟩ := ihx s hs
    cases h : x s with
    | mk r t =>
      rw [h] at hm ht
      cases r with
      | ok a =>
        rw [Attempt.bind_of_ok h]
        exact ihf a hm t ht
      | error e =>
        rw [Attempt.bind_of_error h]
        exact ⟨hm, ht⟩
  | charge hcost => exact fun s hs => ⟨hcharge (meets_charge hcost s), hs⟩
  | emit text => exact fun s hs => ⟨hcharge (meets_emit text s), hs⟩
  | @diverted x y hx ih =>
    intro s hs
    rw [diverted_eq]
    obtain ⟨hm, ht⟩ := ih (s.withOutput "") hs
    exact ⟨hm.map fun _ _ => trivial, ht⟩
  | @captured x y hx ih =>
    intro s hs
    rw [captured_eq, diverted_eq]
    obtain ⟨hm, ht⟩ := ih (s.beginCapture.withOutput "") hs
    exact ⟨hm.map fun _ _ => trivial, ht⟩
  -- A scope that would be too deep is an error; otherwise it is opened and closed.
  | inScope _ ih =>
    intro s hs
    rw [inScope_eq]
    split
    · exact ⟨hdeep, hs⟩
    · obtain ⟨hm, ht⟩ := ih s.entered hs.push
      exact ⟨hm, ht.pop⟩
  | inTemplate name _ ih =>
    intro s hs
    obtain ⟨hm, ht⟩ := ih (s.withTemplate (some name))
      ⟨hs.inner, hs.outer, hs.environments, hs.loops⟩
    exact ⟨hm, ht.inner, ht.outer, ht.environments, ht.loops⟩
  | isolated template _ ih =>
    intro s hs
    obtain ⟨hm, -⟩ := ih (s.withFrame (s.frame.isolated template)) (.isolated template)
    exact ⟨hm, hs⟩
  | @inLoop α x y Q loop hloop _ ih =>
    intro s hs
    obtain ⟨hm, ht⟩ := ih (s.withLoops (loop :: s.frame.loops))
      (hs.withLoops (List.forall_mem_cons.mpr ⟨hloop, hs.loops⟩))
    exact ⟨hm, ht.withLoops hs.loops⟩
  | @rescuing x y line blank hx ih =>
    intro s hs
    obtain ⟨hm, ht⟩ := ih s hs
    cases h : x s with
    | mk r t =>
      rw [h] at hm ht
      cases r with
      | ok a =>
        rw [rescuing_of_ok h]
        exact ⟨trivial, ht⟩
      | error e =>
        rw [rescuing_of_error h, frame_rescue]
        exact ⟨meets_rescue hbudget (fun _ => hm) line blank t, ht⟩
  | differs _ hsound => exact hsound

/-! ## Budgets -/

/-- What is kept of a budget as long as no charge is refused. -/
structure Budget.Invariant (I : Budget → Prop) : Prop where
  charge {cost : Budget → Except Error Unit × Budget} (h : Charge cost) {b : Budget} :
    I b → (cost b).1 = .ok () → I (cost b).2
  chargeWrite {b : Budget} (bytes : Nat) :
    I b → (b.chargeWrite bytes).1 = .ok () → I (b.chargeWrite bytes).2
  enterScope {b : Budget} : I b → I b.enterScope.2
  exitScope {b : Budget} : I b → I b.exitScope
  beginCapture {b : Budget} : I b → I b.beginCapture
  endCapture {b : Budget} : I b → I b.endCapture

/-- Nothing is known of the budget. -/
theorem Budget.Invariant.trivial : Budget.Invariant fun _ => True :=
  ⟨fun _ _ _ _ => ⟨⟩, fun _ _ _ => ⟨⟩, fun _ => ⟨⟩, fun _ => ⟨⟩, fun _ => ⟨⟩, fun _ => ⟨⟩⟩

/-- A charge that does not exhaust the budget is accepted. -/
private theorem ok_of_not_exhausted {r : Except Error Unit}
    (hr : Meets (fun _ => True) (· = .overBudget) r) (h : ¬Exhausted (failure r)) :
    r = .ok () := by
  cases r with
  | ok a => rfl
  | error e =>
    have he : e = .overBudget := hr
    exact absurd ⟨e, rfl, he ▸ rfl⟩ h

/-- A result may be mapped without a change to its failure. -/
theorem failure_map {β : Type} (r : Except Error α) (f : α → β) :
    failure (r.map f) = failure r := by
  cases r <;> rfl

/-- An error that does not propagate is not that of an exhausted budget. -/
theorem not_exhausted_error {settings : Settings} {e : Error}
    (h : settings.propagates e = false) : ¬Exhausted (some e) := by
  rintro ⟨e', he, hk⟩
  cases he
  exact Settings.kind_of_not_propagates h hk

section

variable {I : Budget → Prop} (hI : Budget.Invariant I)
include hI

/-- Writing keeps an invariant of the budget unless it exhausts it. -/
private theorem keeps_emit {text : String} {s : RenderState} (h : I s.progress.budget)
    (he : ¬Exhausted (failure (emit text s).1)) : I (emit text s).2.progress.budget :=
  hI.chargeWrite _ h (ok_of_not_exhausted (meets_emit text s) he)

/-- So does dealing with an error. -/
private theorem keeps_rescue {settings : Settings} {line : Option Nat} {blank : Bool} {e : Error}
    {s : RenderState} (h : settings.propagates e = false → I s.progress.budget)
    (hp : settings.propagates e = true → ¬Exhausted (some e) → I s.progress.budget)
    (he : ¬Exhausted (failure (rescue settings line blank e s).1)) :
    I (rescue settings line blank e s).2.progress.budget := by
  cases hprop : settings.propagates e with
  | true =>
    rw [rescue_of_propagates hprop] at he ⊢
    exact hp hprop he
  | false =>
    rw [rescue_of_not_propagates hprop] at he ⊢
    by_cases hshown : ((placed line e s).isUndefined || blank) = true
    · rw [if_pos hshown]
      exact h hprop
    · rw [if_neg hshown] at he ⊢
      exact keeps_emit hI (h hprop) he

/-- An invariant of the budget holds until the budget is exhausted. -/
theorem Versions.Alike.keeps (h : v.Alike x y Q) (hbudget : v.E .overBudget)
    (hdeep : v.E .tooDeep)
    (hdiffers : ∀ x y, v.Differs x y → ∀ s, I s.progress.budget →
      ¬Exhausted (failure (x s).1) → I (x s).2.progress.budget) :
    ∀ s, s.frame.Admits v.V → I s.progress.budget → ¬Exhausted (failure (x s).1) →
      I (x s).2.progress.budget := by
  -- By induction on how the step is put together: only the budget is looked at.
  induction h with
  | quiet hq =>
    intro s hs h _
    rw [(hq s hs).budget]
    exact h
  | @bind α β x y f g P R hx hf ihx ihf =>
    intro s hs h he
    obtain ⟨hm, ht⟩ := hx.sound hbudget hdeep s hs
    have hfirst := ihx s hs h
    cases hr : x s with
    | mk r t =>
      rw [hr] at hm ht hfirst
      cases r with
      | ok a =>
        rw [Attempt.bind_of_ok hr] at he ⊢
        exact ihf a hm t ht (hfirst not_exhausted_none) he
      | error e =>
        rw [Attempt.bind_of_error hr] at he ⊢
        exact hfirst he
  | charge hcost =>
    -- A refused charge would exhaust the budget.
    exact fun s _ h he => hI.charge hcost h (ok_of_not_exhausted (meets_charge hcost s) he)
  | emit text => exact fun s _ h he => keeps_emit hI h he
  | @diverted x y hx ih =>
    intro s hs h he
    rw [diverted_eq] at he ⊢
    rw [failure_map] at he
    exact ih (s.withOutput "") hs h he
  -- A capture begins and ends at the budget as well.
  | @captured x y hx ih =>
    intro s hs h he
    rw [captured_eq, diverted_eq] at he ⊢
    rw [failure_map] at he
    exact hI.endCapture (ih (s.beginCapture.withOutput "") hs (hI.beginCapture h) he)
  | @inScope α x y Q hx ih =>
    intro s hs h he
    rw [inScope_eq] at he ⊢
    -- A scope that would be too deep is refused before anything is charged.
    by_cases hdeep : exceeds (s.progress.budget.depth + 1) s.progress.budget.depthCeiling = true
    · rw [if_pos hdeep]
      exact h
    · rw [if_neg hdeep] at he ⊢
      exact hI.exitScope (ih s.entered hs.push (hI.enterScope h) he)
  | @inTemplate α x y Q name _ ih =>
    exact fun s hs h he => ih (s.withTemplate (some name))
      ⟨hs.inner, hs.outer, hs.environments, hs.loops⟩ h he
  | isolated template _ ih =>
    exact fun s _ h he => ih (s.withFrame (s.frame.isolated template)) (.isolated template) h he
  | @inLoop α x y Q loop hloop _ ih =>
    exact fun s hs h he => ih (s.withLoops (loop :: s.frame.loops))
      (hs.withLoops (List.forall_mem_cons.mpr ⟨hloop, hs.loops⟩)) h he
  | @rescuing x y line blank hx ih =>
    intro s hs h he
    have hinner := ih s hs h
    cases hr : x s with
    | mk r t =>
      rw [hr] at hinner
      cases r with
      | ok a =>
        rw [rescuing_of_ok hr]
        exact hinner not_exhausted_none
      | error e =>
        -- An error that is dealt with is not that of the budget, so the invariant held until then.
        rw [rescuing_of_error hr] at he ⊢
        exact keeps_rescue hI (fun hp => hinner (not_exhausted_error hp)) (fun _ => hinner) he
  | differs hd _ => exact fun s _ h he => hdiffers _ _ hd s h he

end

/-! ## Two versions -/

/-- In a state that differs in what was written and recorded before, `y` does what `x` does. -/
def Lockstep (D : Array Error → Array Error → Prop) (x y : Render α) (s : RenderState) : Prop :=
  ∀ text errors, D s.progress.errors errors →
    ∃ errors', y (s.behind text errors) = ((x s).1, (x s).2.behind text errors')
      ∧ D (x s).2.progress.errors errors'

/-- The relation lasts when an error is recorded on both sides. -/
def LastsUnderPush (D : Array Error → Array Error → Prop) : Prop :=
  ∀ errors errors' e, D errors errors' → D (errors.push e) (errors'.push e)

/-- What is written behind a text is appended to it. -/
theorem emit_behind (text before : String) (errors : Array Error) (s : RenderState) :
    emit text (s.behind before errors)
      = ((emit text s).1, (emit text s).2.behind before errors) := by
  rw [emit_eq, emit_eq]
  unfold RenderState.behind
  simp only [String.append_assoc]

/-- An empty output has nothing in front of it. -/
private theorem behind_withOutput (s : RenderState) (text : String) (errors : Array Error) :
    (s.behind text errors).withOutput "" = (s.withOutput "").behind "" errors := by
  simp [RenderState.behind, RenderState.withOutput]

namespace Lockstep

variable {D : Array Error → Array Error → Prop} {x y : Render α} {s : RenderState}

/-- What follows a step is in lockstep where the first run got to. -/
private theorem bind {β : Type} {f g : α → Render β} (hx : Lockstep D x y s)
    (hf : ∀ a t, x s = (.ok a, t) → Lockstep D (f a) (g a) t) :
    Lockstep D (x >>= f) (y >>= g) s := by
  intro text errors hd
  obtain ⟨errors', heq, hd'⟩ := hx text errors hd
  cases hr : x s with
  | mk r t =>
    rw [hr] at heq hd'
    cases r with
    | ok a =>
      rw [Attempt.bind_of_ok hr, Attempt.bind_of_ok heq]
      exact hf a t hr text errors' hd'
    | error e =>
      rw [Attempt.bind_of_error hr, Attempt.bind_of_error heq]
      exact ⟨errors', rfl, hd'⟩

/-- What is diverted starts from an empty output in both. -/
private theorem diverted {x y : Render Unit} (h : Lockstep D x y (s.withOutput "")) :
    Lockstep D (diverted x) (diverted y) s := by
  intro text errors hd
  obtain ⟨errors', heq, hd'⟩ := h "" errors hd
  refine ⟨errors', ?_, hd'⟩
  rw [diverted_eq, diverted_eq, behind_withOutput, heq]
  simp [RenderState.behind, RenderState.withOutput]

private theorem captured {x y : Render Unit}
    (h : Lockstep D x y (s.beginCapture.withOutput "")) :
    Lockstep D (captured x) (captured y) s := by
  intro text errors hd
  obtain ⟨errors', heq, hd'⟩ := h.diverted text errors hd
  have heq : Render.diverted y (s.behind text errors).beginCapture = _ := heq
  rw [captured_eq, captured_eq, heq]
  exact ⟨errors', rfl, hd'⟩

/-- The budget is the same in both runs, so both may open the scope or neither may. -/
private theorem inScope (h : Lockstep D x y s.entered) :
    Lockstep D (inScope x) (inScope y) s := by
  intro text errors hd
  have hy := inScope_eq y (s.behind text errors)
  -- The depth is the same in both, so both open the scope or neither does.
  by_cases hlimit : exceeds (s.progress.budget.depth + 1) s.progress.budget.depthCeiling = true
  · rw [inScope_eq x s, if_pos hlimit]
    exact ⟨errors, hy.trans (if_pos hlimit), hd⟩
  · rw [inScope_eq x s, if_neg hlimit]
    obtain ⟨errors', heq, hd'⟩ := h text errors hd
    have heq : y (s.behind text errors).entered = _ := heq
    have hy := hy.trans (if_neg hlimit)
    rw [heq] at hy
    exact ⟨errors', hy, hd'⟩

/-- Both are in the template of the same name. -/
private theorem inTemplate {name : String} (h : Lockstep D x y (s.withTemplate (some name))) :
    Lockstep D (inTemplate name x) (inTemplate name y) s := by
  intro text errors hd
  obtain ⟨errors', heq, hd'⟩ := h text errors hd
  have heq : y ((s.behind text errors).withTemplate (some name)) = _ := heq
  rw [inTemplate_eq, inTemplate_eq, heq]
  exact ⟨errors', rfl, hd'⟩

private theorem isolated {template : Option String}
    (h : Lockstep D x y (s.withFrame (s.frame.isolated template))) :
    Lockstep D (isolated template x) (isolated template y) s := by
  intro text errors hd
  obtain ⟨errors', heq, hd'⟩ := h text errors hd
  -- The frame that is put in place is the same in both.
  have heq : y ((s.behind text errors).withFrame (s.frame.isolated template)) = _ := heq
  rw [isolated_eq, isolated_eq]
  show ∃ errors', ((y ((s.behind text errors).withFrame (s.frame.isolated template))).1,
    (y ((s.behind text errors).withFrame (s.frame.isolated template))).2.withFrame s.frame) = _
      ∧ _
  rw [heq]
  exact ⟨errors', rfl, hd'⟩

private theorem inLoop {loop : Value}
    (h : Lockstep D x y (s.withLoops (loop :: s.frame.loops))) :
    Lockstep D (inLoop loop x) (inLoop loop y) s := by
  intro text errors hd
  obtain ⟨errors', heq, hd'⟩ := h text errors hd
  -- The loops are the same in both.
  have heq : y ((s.behind text errors).withLoops (loop :: s.frame.loops)) = _ := heq
  rw [inLoop_eq, inLoop_eq]
  show ∃ errors', ((y ((s.behind text errors).withLoops (loop :: s.frame.loops))).1,
    (y ((s.behind text errors).withLoops (loop :: s.frame.loops))).2.withLoops s.frame.loops) = _
      ∧ _
  rw [heq]
  exact ⟨errors', rfl, hd'⟩

/-- Both record the same error, and write the same text for it. -/
private theorem rescue (hD : LastsUnderPush D) {settings : Settings} (line : Option Nat)
    (blank : Bool) (e : Error) :
    Lockstep D (rescue settings line blank e) (rescue settings line blank e) s := by
  intro text errors hd
  cases hp : settings.propagates e with
  | true =>
    rw [rescue_of_propagates hp, rescue_of_propagates hp]
    exact ⟨errors, rfl, hd⟩
  | false =>
    -- The same error is recorded in both, behind others.
    have hd' := hD _ _ (placed line e s) hd
    rw [rescue_of_not_propagates hp, rescue_of_not_propagates hp]
    show ∃ errors', (if (placed line e s).isUndefined || blank then pure ()
        else emit (settings.showError (placed line e s)))
        ((record (placed line e s) s).2.behind text (errors.push (placed line e s))) = _ ∧ _
    refine ⟨errors.push (placed line e s), ?_⟩
    split
    · exact ⟨rfl, hd'⟩
    · exact ⟨emit_behind _ _ _ _, hd'⟩

/-- Under the same settings an error is dealt with in the same way in both runs. -/
private theorem rescuing (hD : LastsUnderPush D) {settings : Settings} {line : Option Nat}
    {blank : Bool} {x y : Render Unit} (h : Lockstep D x y s) :
    Lockstep D (rescuing settings line blank x) (rescuing settings line blank y) s := by
  intro text errors hd
  obtain ⟨errors', heq, hd'⟩ := h text errors hd
  -- Both go well or both fail with the same error.
  cases hr : x s with
  | mk r t =>
    rw [hr] at hd' heq
    cases r with
    | ok a =>
      rw [rescuing_of_ok hr, rescuing_of_ok heq]
      exact ⟨errors', rfl, hd'⟩
    | error e =>
      rw [rescuing_of_error hr, rescuing_of_error heq]
      exact rescue hD line blank e text errors' hd'

end Lockstep

section

variable {I : Budget → Prop} {D : Array Error → Array Error → Prop}

/-- Two versions that differ in what was written and recorded before do the same, if they do at the
steps that are different ones. -/
theorem Versions.Alike.lockstep (h : v.Alike x y Q) (hsame : v.rethrow = v.settings.rethrow)
    (hbudget : v.E .overBudget) (hdeep : v.E .tooDeep) (hI : Budget.Invariant I)
    (hD : LastsUnderPush D) (hunseen : ∀ errors errors', D errors errors' → v.Unseen errors errors')
    (hdiffers : ∀ x y, v.Differs x y → ∀ s, I s.progress.budget → Lockstep D x y s)
    (hkeeps : ∀ x y, v.Differs x y → ∀ s, I s.progress.budget →
      ¬Exhausted (failure (x s).1) → I (x s).2.progress.budget) :
    ∀ s, s.frame.Admits v.V → I s.progress.budget → Lockstep D x y s := by
  have hother : v.other = v.settings := by
    unfold other
    rw [hsame]
  induction h with
  -- What looks at no errors does the same whatever they are.
  | quiet hq =>
    intro s hs h text errors hd
    refine ⟨errors, (hq s hs).behind text errors (hunseen _ _ hd), ?_⟩
    rw [(hq s hs).errors]
    exact hd
  | @bind α β x y f g P R hx hf ihx ihf =>
    intro s hs h
    refine (ihx s hs h).bind fun a t hr => ?_
    -- The rest is in lockstep only where the frame is admitted and the invariant still holds.
    obtain ⟨hm, ht⟩ := hx.sound hbudget hdeep s hs
    have hI' := hx.keeps hI hbudget hdeep hkeeps s hs h
    rw [hr] at hm ht hI'
    exact ihf a hm t ht (hI' not_exhausted_none)
  | charge hcost => exact fun s _ _ text errors hd => ⟨errors, rfl, hd⟩
  | emit text => exact fun s _ _ before errors hd => ⟨errors, emit_behind _ _ _ _, hd⟩
  | diverted _ ih => exact fun s hs h => (ih (s.withOutput "") hs h).diverted
  | captured _ ih =>
    exact fun s hs h => (ih (s.beginCapture.withOutput "") hs (hI.beginCapture h)).captured
  | inScope _ ih => exact fun s hs h => (ih s.entered hs.push (hI.enterScope h)).inScope
  | inTemplate name _ ih =>
    exact fun s hs h => (ih (s.withTemplate (some name))
      ⟨hs.inner, hs.outer, hs.environments, hs.loops⟩ h).inTemplate
  | isolated template _ ih =>
    exact fun s _ h =>
      (ih (s.withFrame (s.frame.isolated template)) (.isolated template) h).isolated
  | @inLoop α x y Q loop hloop _ ih =>
    exact fun s hs h => (ih (s.withLoops (loop :: s.frame.loops))
      (hs.withLoops (List.forall_mem_cons.mpr ⟨hloop, hs.loops⟩)) h).inLoop
  | rescuing line blank _ ih =>
    -- Both versions rethrow or neither does.
    rw [hother]
    exact fun s hs h => (ih s hs h).rescuing hD
  | differs hd _ => exact fun s _ h => hdiffers _ _ hd s h

end

/-! ## A render and itself -/

section

variable {settings : Settings} {U : Array Error → Array Error → Prop}
  (h : (Versions.itself settings U).Alike x x Q)
include h

/-- Whatever the render, an invariant of the budget holds until the budget is exhausted. -/
theorem Versions.Alike.keeps_self {I : Budget → Prop} (hI : Budget.Invariant I) (s : RenderState)
    (hs : I s.progress.budget) (he : ¬Exhausted (failure (x s).1)) :
    I (x s).2.progress.budget := by
  have hE (e : Error) : (Versions.itself settings U).E e := ⟨⟩
  exact h.keeps hI (hE .overBudget) (hE .tooDeep) (fun _ _ hd => False.elim hd) s
    (.trivial s.frame) hs he

/-- What is the same in two renders does the same, however the recorded errors are related, if the
code of the host does not tell them apart. -/
theorem Versions.Alike.lockstep_self {D : Array Error → Array Error → Prop}
    (hD : LastsUnderPush D) (hunseen : ∀ errors errors', D errors errors' → U errors errors')
    (s : RenderState) : Lockstep D x x s := by
  have hE (e : Error) : (Versions.itself settings U).E e := ⟨⟩
  exact h.lockstep rfl (hE .overBudget) (hE .tooDeep) .trivial hD hunseen
    (fun _ _ hd => False.elim hd) (fun _ _ hd => False.elim hd) s (.trivial s.frame) ⟨⟩

end

end Stencil
