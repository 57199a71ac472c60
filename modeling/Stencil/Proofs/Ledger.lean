import Stencil.Proofs.Points

/-!
# The ledger of a render

What the outermost scope of a template holds at some point of a render is what it held before, with
all values stored until then. These are paid for: a value that is assigned is charged at once, and
a text that is captured piece by piece as it is written, however captures, loops and partials stand
inside one another. So of each stretch of a render: what the stored values cost after it, with the
text in the open capture, is at most what they did before it and what it charged.

## Key definitions

- `Object.cost`: what the values of an object cost
- `Booked`: what a stretch of a render does to variables and budget

## Key results

- `Script.booked`: the stretch of any script
- `Template.stored_le_assigned`: at every point of a render what it stored is paid for
-/

namespace Stencil

open Render

/-! ## Costs -/

/-- What the values of an object cost. -/
def Object.cost (m : Object) : Nat :=
  (m.map fun e => e.2.storageCost).sum

/-- A value that is put in the place of another costs no more than both. -/
theorem Object.cost_put_le (m : Object) (name : String) (value : Value) :
    Object.cost (m.put name value) ≤ Object.cost m + value.storageCost := by
  induction m with
  | nil => simp [Assoc.put, cost]
  | cons e m ih =>
    obtain ⟨k, v⟩ := e
    simp only [cost] at ih
    -- The value under the name is replaced, or stored behind the others.
    by_cases h : k = name
    · simp only [Assoc.put, h, if_true, cost, List.map_cons, List.sum_cons]
      omega
    · simp only [Assoc.put, h, if_false, cost, List.map_cons, List.sum_cons]
      omega

namespace RenderState

/-- The outermost scope. -/
abbrev outer (s : RenderState) : Object :=
  s.frame.scopes.outer

/-- What was charged for stored values so far. -/
abbrev assigned (s : RenderState) : Nat :=
  s.progress.budget.assigned

/-- The ceiling of what is charged for stored values. -/
abbrev assignCeiling (s : RenderState) : Option Nat :=
  s.progress.budget.assignCeiling

/-- What the open capture holds. -/
def held (s : RenderState) : Nat :=
  if s.progress.budget.captures = 0 then 0 else s.progress.output.utf8ByteSize

/-- No more was charged for stored values than their ceiling. -/
def Affords (s : RenderState) : Prop :=
  exceeds s.assigned s.assignCeiling = false

end RenderState

/-! ## Stretches -/

/-- What is known at a point of a stretch from the state `s`, if `m` cost what was stored before and
`stored` was since. -/
structure PointBooked (s : RenderState) (m : Object) (stored : List (String × Value)) (p : Point) :
    Prop where
  outer : p.outer = s.outer.putAll stored
  paid : Object.cost (m.putAll stored) + s.assigned ≤ Object.cost m + s.held + p.state.assigned
  /-- If all of it is paid for, it does not cost more than the ceiling. -/
  fits : s.Affords → Object.cost m + s.held ≤ s.assigned →
    exceeds (Object.cost (m.putAll stored)) s.assignCeiling = false

/-- What a stretch of a render that ended with `r` did to the variables and the budget. -/
structure Booked (s : RenderState) (r : Option Error) (points : List Point) (t : RenderState) :
    Prop where
  inner : t.frame.scopes.inner.length = s.frame.scopes.inner.length
  captures : t.progress.budget.captures = s.progress.budget.captures
  ceiling : t.assignCeiling = s.assignCeiling
  affords : s.Affords → ¬Exhausted r → t.Affords
  outer : t.outer = s.outer.putAll (bindings points)
  paid (m : Object) : Object.cost (m.putAll (bindings points)) + t.held + s.assigned
    ≤ Object.cost m + s.held + t.assigned
  fits (m : Object) : s.Affords → Object.cost m + s.held ≤ s.assigned →
    exceeds (Object.cost (m.putAll (bindings points))) s.assignCeiling = false
  along (m : Object) : Along (PointBooked s m) [] points

/-- Less than what fits, fits. -/
theorem exceeds_eq_false_of_le {amount amount' : Nat} {ceiling : Option Nat}
    (h : exceeds amount' ceiling = false) (hle : amount ≤ amount') :
    exceeds amount ceiling = false := by
  cases ceiling with
  | none => rfl
  | some limit =>
    simp only [exceeds, decide_eq_false_iff_not] at h ⊢
    omega

/-- Nothing fits under any ceiling. -/
@[simp] theorem exceeds_zero (ceiling : Option Nat) : exceeds 0 ceiling = false := by
  cases ceiling with
  | none => rfl
  | some limit => exact decide_eq_false (Nat.not_lt_zero limit)

namespace Booked

variable {s s' t t' u : RenderState} {r r' : Option Error} {points points' : List Point}

/-- A stretch without points that stores nothing. -/
theorem quiet (hinner : t.frame.scopes.inner.length = s.frame.scopes.inner.length)
    (hcaptures : t.progress.budget.captures = s.progress.budget.captures)
    (hceiling : t.assignCeiling = s.assignCeiling) (haffords : s.Affords → ¬Exhausted r → t.Affords)
    (houter : t.outer = s.outer) (hpaid : t.held + s.assigned ≤ s.held + t.assigned) :
    Booked s r [] t where
  inner := hinner
  captures := hcaptures
  ceiling := hceiling
  affords := haffords
  outer := houter
  -- Nothing is stored, so only what is held or charged has changed.
  paid m := by
    show Object.cost m + t.held + s.assigned ≤ _
    omega
  fits m hs hm := exceeds_eq_false_of_le hs (by show Object.cost m ≤ s.assigned; omega)
  along m := trivial

/-- The end of a stretch is one more point. -/
theorem closed (h : Booked s r points t) : Booked s r (points ++ [.of t]) t := by
  -- The last point stores nothing.
  have hsame : bindings (points ++ [.of t]) = bindings points := by
    rw [bindings_append]
    exact List.append_nil _
  refine ⟨h.inner, h.captures, h.ceiling, h.affords, ?_, ?_, ?_, fun m => (h.along m).append ?_⟩
  · rw [hsame]
    exact h.outer
  · rw [hsame]
    exact h.paid
  · rw [hsame]
    exact h.fits
  · have hend : PointBooked s m (bindings points) (.of t) := by
      refine ⟨h.outer, ?_, h.fits m⟩
      have := h.paid m
      show _ ≤ Object.cost m + s.held + t.assigned
      omega
    rw [List.nil_append]
    refine ⟨?_, trivial⟩
    rw [show (Point.of t).stored.toList = [] from rfl, List.append_nil]
    exact hend

/-- What follows a stretch that did not exhaust the budget. -/
theorem trans (h : Booked s r points t) (hr : ¬Exhausted r) (h' : Booked t r' points' u) :
    Booked s r' (points ++ points') u where
  inner := h'.inner.trans h.inner
  captures := h'.captures.trans h.captures
  ceiling := h'.ceiling.trans h.ceiling
  affords hs hr' := h'.affords (h.affords hs hr) hr'
  outer := by rw [h'.outer, h.outer, bindings_append, Assoc.putAll_append]
  paid m := by
    have h₁ := h.paid m
    have h₂ := h'.paid (m.putAll (bindings points))
    rw [bindings_append, Assoc.putAll_append]
    omega
  fits m hs hm := by
    -- With all paid for at the start, all is paid for in between.
    have hpaid := h.paid m
    rw [bindings_append, Assoc.putAll_append, ← h.ceiling]
    exact h'.fits _ (h.affords hs hr) (by omega)
  along m := by
    have hpaid := h.paid m
    have hshifted := (h'.along (m.putAll (bindings points))).shift
      (Q := PointBooked s m) (bindings points) fun stored p hp => by
        refine ⟨?_, ?_, fun hs hm => ?_⟩
        · rw [hp.outer, h.outer, Assoc.putAll_append]
        · have := hp.paid
          rw [Assoc.putAll_append]
          omega
        · rw [Assoc.putAll_append, ← h.ceiling]
          exact hp.fits (h.affords hs hr) (by omega)
    rw [List.append_nil] at hshifted
    exact (h.along m).append hshifted

/-- A stretch inside something that is opened before and closed after it. What an open capture
holds is put aside and put back. -/
theorem inside (h : Booked s' r points t') (houter : s'.outer = s.outer)
    (hassigned : s'.assigned = s.assigned) (hceiling : s'.assignCeiling = s.assignCeiling)
    (hheld : s'.held ≤ s.held)
    (hinner : t.frame.scopes.inner.length = s.frame.scopes.inner.length)
    (hcaptures : t.progress.budget.captures = s.progress.budget.captures)
    (houter' : t.outer = t'.outer) (hassigned' : t.assigned = t'.assigned)
    (hceiling' : t.assignCeiling = t'.assignCeiling)
    (hheld' : t.held + s'.held ≤ t'.held + s.held) : Booked s r (points ++ [.of t]) t := by
  -- The scope or the template around it changes neither the variables nor what they cost.
  have haffords (hs : s.Affords) : s'.Affords := by
    unfold RenderState.Affords at hs ⊢
    rw [hassigned, hceiling]
    exact hs
  refine closed ⟨hinner, hcaptures, ?_, fun hs hr => ?_, ?_, fun m => ?_, fun m hs hm => ?_,
    fun m => (h.along m).mono fun stored p hp => ?_⟩
  · rw [hceiling', h.ceiling, hceiling]
  · have ht := h.affords (haffords hs) hr
    unfold RenderState.Affords at ht ⊢
    rw [hassigned', hceiling']
    exact ht
  · rw [houter', h.outer, houter]
  · have := h.paid m
    omega
  · rw [← hceiling]
    exact h.fits m (haffords hs) (by omega)
  · refine ⟨?_, ?_, fun hs hm => ?_⟩
    · rw [hp.outer, houter]
    · have := hp.paid
      omega
    · rw [← hceiling]
      exact hp.fits (haffords hs) (by omega)

/-- A step to one more point, where all that was stored is paid for. -/
theorem snoc {p : Point} (h : Booked s none points t)
    (hinner : p.state.frame.scopes.inner.length = t.frame.scopes.inner.length)
    (hbudget : p.state.progress.budget = t.progress.budget)
    (hstate : p.state.outer = p.outer)
    (houter : p.outer = s.outer.putAll (bindings (points ++ [p])))
    (hpaid : ∀ m : Object, Object.cost (m.putAll (bindings (points ++ [p]))) + p.state.held
      + s.assigned ≤ Object.cost m + s.held + p.state.assigned) :
    Booked s none (points ++ [p]) p.state := by
  have hceiling : p.state.assignCeiling = s.assignCeiling :=
    (congrArg Budget.assignCeiling hbudget).trans h.ceiling
  have haffords (hs : s.Affords) : p.state.Affords := by
    have ht := h.affords hs not_exhausted_none
    unfold RenderState.Affords RenderState.assigned RenderState.assignCeiling at ht ⊢
    rw [hbudget]
    exact ht
  -- What is stored costs no more than what was charged for, which was within the ceiling.
  have hfits (m : Object) (hs : s.Affords) (hm : Object.cost m + s.held ≤ s.assigned) :
      exceeds (Object.cost (m.putAll (bindings (points ++ [p])))) s.assignCeiling = false := by
    have hwithin : exceeds p.state.assigned p.state.assignCeiling = false := haffords hs
    rw [hceiling] at hwithin
    have := hpaid m
    exact exceeds_eq_false_of_le hwithin (by omega)
  have hpoint (m : Object) : PointBooked s m (bindings (points ++ [p])) p := by
    have := hpaid m
    exact ⟨houter, by omega, hfits m⟩
  refine ⟨hinner.trans h.inner, (congrArg Budget.captures hbudget).trans h.captures, hceiling,
    fun hs _ => haffords hs, hstate.trans houter, hpaid, hfits, fun m => (h.along m).append ?_⟩
  have hlast := hpoint m
  rw [bindings_append, bindings_cons, show bindings [] = [] from rfl, List.append_nil] at hlast
  rw [List.nil_append]
  exact ⟨hlast, trivial⟩

/-- A value is stored that was paid for. -/
theorem storing (h : Booked s none points t) (name : String) (value : Value)
    (hpaid : ∀ m : Object, Object.cost (m.putAll (bindings points)) + value.storageCost + t.held
      + s.assigned ≤ Object.cost m + s.held + t.assigned) :
    Booked s none (points ++ [.storing name value (store name value t).2])
      (store name value t).2 := by
  -- The new point stores one more variable.
  have hput (m : Object) :
      m.putAll (bindings (points ++ [.storing name value (store name value t).2]))
        = (m.putAll (bindings points)).put name value := by
    rw [bindings_append, Assoc.putAll_append]
    rfl
  refine h.snoc rfl rfl rfl ?_ fun m => ?_
  · rw [hput, ← h.outer]
    rfl
  · have hcost := Object.cost_put_le (m.putAll (bindings points)) name value
    have := hpaid m
    rw [hput]
    show _ + t.held + _ ≤ _ + t.assigned
    omega

end Booked

/-! ## Single steps -/

/-- A step that leaves variables, budget and output alone. -/
theorem Booked.of_same {s t : RenderState} {r : Option Error}
    (hscopes : t.frame.scopes = s.frame.scopes) (hbudget : t.progress.budget = s.progress.budget)
    (houtput : t.progress.output = s.progress.output) : Booked s r [] t := by
  -- What is held depends on the budget and the output alone.
  have hheld : t.held = s.held := by
    unfold RenderState.held
    rw [hbudget, houtput]
  have hassigned : t.assigned = s.assigned := congrArg Budget.assigned hbudget
  have hceiling : t.assignCeiling = s.assignCeiling := congrArg Budget.assignCeiling hbudget
  refine .quiet (by rw [hscopes]) (by rw [hbudget]) hceiling (fun hs _ => ?_)
    (congrArg Scopes.outer hscopes) (by omega)
  unfold RenderState.Affords at hs ⊢
  rw [hassigned, hceiling]
  exact hs

/-- What has nothing to do with variables or the budget books nothing. -/
theorem booked_aside {α : Type} {x : Render α} (h : Aside x) (s : RenderState) :
    Booked s (failure (x s).1) [.of (x s).2] (x s).2 :=
  (Booked.of_same (h.scopes s) (h.budget_eq s) (h.output_eq s)).closed

/-- A step that spends and writes. -/
private theorem booked_spending (s : RenderState) (output : String) (budget : Budget)
    {r : Option Error} (hcaptures : budget.captures = s.progress.budget.captures)
    (hceiling : budget.assignCeiling = s.assignCeiling)
    (haffords : s.Affords → ¬Exhausted r → exceeds budget.assigned s.assignCeiling = false)
    (hpaid : (s.withOutput output).held + s.assigned ≤ s.held + budget.assigned) :
    Booked s r [.of { s with progress.output := output, progress.budget := budget }]
      { s with progress.output := output, progress.budget := budget } := by
  -- Money is spent, but nothing is stored for it yet.
  have hquiet : Booked s r [] { s with progress.output := output, progress.budget := budget } := by
    refine .quiet rfl hcaptures hceiling (fun hs hr => ?_) rfl ?_
    · show exceeds budget.assigned budget.assignCeiling = false
      rw [hceiling]
      exact haffords hs hr
    · simp only [RenderState.held, RenderState.withOutput] at hpaid ⊢
      rw [hcaptures]
      exact hpaid
  exact hquiet.closed

/-- A score is not for storing. -/
private theorem booked_score (nodes : Nat) (s : RenderState) :
    Booked s (failure (charge (·.chargeScore nodes) s).1)
      [.of (charge (·.chargeScore nodes) s).2] (charge (·.chargeScore nodes) s).2 := by
  rw [charge_eq, Budget.chargeScore_eq]
  exact booked_spending s s.progress.output _ rfl rfl (fun hs _ => hs) (Nat.le_refl _)

/-- A charge for stored values that is accepted does not exceed their ceiling. -/
private theorem affords_of_chargeAssign (s : RenderState) (amount : Nat)
    (h : ¬Exhausted (failure (s.progress.budget.chargeAssign amount).1)) :
    exceeds (s.assigned + amount) s.assignCeiling = false := by
  rw [Budget.chargeAssign_eq] at h
  cases hx : exceeds (s.assigned + amount) s.assignCeiling with
  | false => rfl
  | true =>
    rw [hx] at h
    exact absurd ⟨.overBudget, rfl, rfl⟩ h

/-- An assignment is paid for before the value is stored. -/
private theorem booked_chargeAssign (amount : Nat) (s : RenderState) :
    Booked s (failure (charge (·.chargeAssign amount) s).1)
      [.of (charge (·.chargeAssign amount) s).2] (charge (·.chargeAssign amount) s).2 := by
  have haffords := affords_of_chargeAssign s amount
  rw [charge_eq]
  rw [Budget.chargeAssign_eq] at haffords ⊢
  refine booked_spending s s.progress.output _ rfl rfl (fun _ hr => haffords hr) ?_
  show s.held + s.assigned ≤ s.held + (s.assigned + amount)
  omega

/-- Text is charged for by its own ceiling, or held by the innermost capture. -/
private theorem booked_emit (text : String) (s : RenderState) :
    Booked s (failure (emit text s).1) [.of (emit text s).2] (emit text s).2 := by
  rw [emit_eq]
  cases hc : s.progress.budget.captures with
  | zero =>
    rw [Budget.chargeWrite_of_not_captured hc]
    refine booked_spending s _ _ rfl rfl (fun hs _ => hs) ?_
    simp [RenderState.held, RenderState.withOutput, hc]
  | succ n =>
    -- What is captured is charged with its bytes, which are held until they are stored.
    have haffords := affords_of_chargeAssign s text.utf8ByteSize
    have hcaptured : s.progress.budget.captures ≠ 0 := by omega
    rw [Budget.chargeWrite_of_captured (by omega)]
    rw [Budget.chargeAssign_eq] at haffords ⊢
    refine booked_spending s _ _ rfl rfl (fun _ hr => haffords hr) ?_
    simp only [RenderState.held, RenderState.withOutput, RenderState.assigned, if_neg hcaptured,
      String.utf8ByteSize_append]
    omega

/-- Binding in an inner scope stores nothing outside. -/
private theorem inner_bind {scopes : Scopes} (h : scopes.inner ≠ []) (name : String)
    (value : Value) : (scopes.bind name value).inner.length = scopes.inner.length
      ∧ (scopes.bind name value).outer = scopes.outer := by
  unfold Scopes.bind
  cases hi : scopes.inner with
  | nil => exact absurd hi h
  | cons scope rest => exact ⟨rfl, rfl⟩

/-- Names that are bound in a scope of its own are not bound in the outermost one. -/
private theorem booked_bindAll (entries : List (String × Value)) {s : RenderState}
    (h : s.frame.scopes.inner ≠ []) :
    Booked s (failure (bindAll entries s).1) [.of (bindAll entries s).2] (bindAll entries s).2 := by
  -- By induction on the names: the innermost scope is the one that is bound in.
  have hscopes : ∀ (entries : List (String × Value)) (scopes : Scopes), scopes.inner ≠ [] →
      (entries.foldl (fun scopes e => scopes.bind e.1 e.2) scopes).inner.length
          = scopes.inner.length
        ∧ (entries.foldl (fun scopes e => scopes.bind e.1 e.2) scopes).outer = scopes.outer := by
    intro entries
    induction entries with
    | nil => exact fun _ _ => ⟨rfl, rfl⟩
    | cons e entries ih =>
      intro scopes hne
      obtain ⟨hlength, houter⟩ := inner_bind hne e.1 e.2
      have hne' : (scopes.bind e.1 e.2).inner ≠ [] := by
        rw [← List.length_pos_iff, hlength, List.length_pos_iff]
        exact hne
      obtain ⟨hlength', houter'⟩ := ih _ hne'
      exact ⟨hlength'.trans hlength, houter'.trans houter⟩
  obtain ⟨hlength, houter⟩ := hscopes entries s.frame.scopes h
  have hquiet : Booked s (failure (bindAll entries s).1) [] (bindAll entries s).2 :=
    .quiet hlength rfl rfl (fun hs _ => hs) houter (Nat.le_refl _)
  exact hquiet.closed

/-- An error that is dealt with is recorded, and its text is written. -/
private theorem booked_rescue (σ : Settings) (line : Option Nat) (blank : Bool) (e : Error)
    (s : RenderState) :
    Booked s (failure (rescue σ line blank e s).1) [.of (rescue σ line blank e s).2]
      (rescue σ line blank e s).2 := by
  cases hp : σ.propagates e with
  | true =>
    rw [rescue_of_propagates hp]
    exact (Booked.of_same rfl rfl rfl).closed
  | false =>
    rw [rescue_of_not_propagates hp]
    have hrecorded : Booked s none [] (record (placed line e s) s).2 := .of_same rfl rfl rfl
    refine hrecorded.trans not_exhausted_none ?_
    split
    · exact (Booked.of_same rfl rfl rfl).closed
    · exact booked_emit _ _

/-! ## Scripts -/

section

variable {σ : Settings} {b : Bool}

/-- A value is charged for and then stored. -/
private theorem booked_assign (name : String) (value : Value) (s : RenderState) :
    Booked s (failure (Render.assign name value s).1)
      ((Script.assign name value : Script b Unit).points σ s) (Render.assign name value s).2 := by
  have hcharge := booked_chargeAssign value.storageCost s
  rw [assign_eq, Script.points]
  -- The value is stored only if the charge is accepted.
  cases hc : charge (·.chargeAssign value.storageCost) s with
  | mk r t =>
    rw [hc] at hcharge
    cases r with
    | error e => exact hcharge
    | ok a =>
      have ht : t = (charge (·.chargeAssign value.storageCost) s).2 := by rw [hc]
      rw [charge_eq, Budget.chargeAssign_eq] at ht
      refine hcharge.storing name value fun m => ?_
      subst ht
      show Object.cost m + value.storageCost + s.held + s.assigned
        ≤ Object.cost m + s.held + (s.assigned + value.storageCost)
      omega

/-- What an isolated partial stores is paid for by the render, and seen by nobody else. -/
private theorem booked_isolated {s t : RenderState} {r : Option Error} {points : List Point}
    (template : Option String)
    (h : Booked (s.withFrame (s.frame.isolated template)) r points t) :
    Booked s r (points.map (·.behind s.outer) ++ [.of (t.withFrame s.frame)])
      (t.withFrame s.frame) := by
  -- Whatever is stored inside is gone at the end, though it stays paid for.
  have hbindings : bindings (points.map (·.behind s.outer)) = [] := bindings_map_behind _ _
  have hheld : (s.withFrame (s.frame.isolated template)).held = s.held := rfl
  have hassigned : (s.withFrame (s.frame.isolated template)).assigned = s.assigned := rfl
  refine Booked.closed ⟨rfl, h.captures, h.ceiling, h.affords, ?_, ?_, ?_, ?_⟩
  · rw [hbindings]
    rfl
  · -- An isolated frame begins without variables, so inside it counts against an empty map.
    intro m
    have hpaid := h.paid []
    rw [hbindings]
    show Object.cost m + t.held + s.assigned ≤ Object.cost m + s.held + t.assigned
    rw [show Object.cost [] = 0 from rfl] at hpaid
    omega
  · intro m hs hm
    rw [hbindings]
    exact exceeds_eq_false_of_le hs (by show Object.cost m ≤ s.assigned; omega)
  · intro m
    refine (h.along []).behind fun stored p hp => ⟨rfl, ?_, fun hs hm => ?_⟩
    · have hpaid := hp.paid
      show Object.cost m + s.assigned ≤ Object.cost m + s.held + p.state.assigned
      rw [show Object.cost [] = 0 from rfl] at hpaid
      omega
    · exact exceeds_eq_false_of_le hs (by show Object.cost m ≤ s.assigned; omega)

/-- What was booked before an error stays. -/
private theorem booked_rescuing (line : Option Nat) (blank : Bool) {x : Render Unit}
    {s : RenderState} {points : List Point} (h : Booked s (failure (x s).1) points (x s).2) :
    Booked s (failure (rescuing σ line blank x s).1)
      (points ++ [.of (rescuing σ line blank x s).2]) (rescuing σ line blank x s).2 := by
  cases hr : x s with
  | mk r t =>
    rw [hr] at h
    cases r with
    | ok a =>
      rw [rescuing_of_ok hr]
      exact h.closed
    | error e =>
      rw [rescuing_of_error hr]
      -- The error is raised again, or its text is written.
      cases hp : σ.propagates e with
      | true =>
        rw [rescue_of_propagates hp]
        exact h.closed
      | false => exact h.trans (not_exhausted_error hp) (booked_rescue σ line blank e t)

/-- To open a scope is not charged as a stored value. -/
private theorem budget_entered (s : RenderState) :
    s.entered.progress.budget.captures = s.progress.budget.captures
      ∧ s.entered.assigned = s.assigned ∧ s.entered.assignCeiling = s.assignCeiling := by
  unfold RenderState.entered RenderState.assigned RenderState.assignCeiling
  rw [charge_eq]
  unfold Budget.enterScope
  split <;> exact ⟨rfl, rfl, rfl⟩

/-- Inside a scope more names may be bound, and they are gone at its end. -/
private theorem booked_inScope {α : Type} {x : Script true α} {s : RenderState}
    (h : ∀ s, s.frame.scopes.inner ≠ [] →
      Booked s (failure (x.run σ s).1) (x.points σ s) (x.run σ s).2) :
    Booked s (failure (Render.inScope (x.run σ) s).1)
      ((Script.inScope x : Script b α).points σ s) (Render.inScope (x.run σ) s).2 := by
  rw [Script.points, inScope_eq]
  split
  · exact (Booked.of_same rfl rfl rfl).closed
  · have hinside := h s.entered (List.cons_ne_nil _ _)
    obtain ⟨hcaptures, hassigned, hceiling⟩ := budget_entered s
    have hheld : s.entered.held = s.held := by
      unfold RenderState.held
      rw [hcaptures]
      rfl
    -- The scope that was opened is the one that is closed.
    have hclosed : (x.run σ s.entered).2.popScope.frame.scopes.inner.length
        = s.frame.scopes.inner.length := by
      show (x.run σ s.entered).2.frame.scopes.inner.tail.length = _
      rw [List.length_tail, hinside.inner]
      rfl
    exact hinside.inside rfl hassigned hceiling (Nat.le_of_eq hheld) hclosed
      (hinside.captures.trans hcaptures) rfl rfl rfl (by rw [hheld]; exact Nat.le_refl _)

/-- The output of a state is put back where as many captures are open. -/
private theorem held_withOutput {s t : RenderState}
    (h : t.progress.budget.captures = s.progress.budget.captures) :
    (t.withOutput s.progress.output).held = s.held := by
  unfold RenderState.held
  rw [show (t.withOutput s.progress.output).progress.budget.captures
    = s.progress.budget.captures from h]
  rfl

/-- The end of a capture leaves the captures around it. -/
private theorem captures_endCapture {s t : RenderState}
    (h : t.progress.budget.captures = s.beginCapture.progress.budget.captures) :
    t.endCapture.progress.budget.captures = s.progress.budget.captures := by
  show t.progress.budget.captures - 1 = _
  rw [h]
  rfl

/-- A stretch whose output is put aside. -/
private theorem booked_withOutput {s t : RenderState} {r : Option Error} {points : List Point}
    (h : Booked (s.withOutput "") r points t) :
    Booked s r (points ++ [.of (t.withOutput s.progress.output)])
      (t.withOutput s.progress.output) := by
  have hempty : (s.withOutput "").held = 0 := ite_self 0
  have hback : (t.withOutput s.progress.output).held = s.held := held_withOutput h.captures
  exact h.inside rfl rfl rfl (by omega) h.inner h.captures rfl rfl rfl (by omega)

/-- A stretch that is captured. -/
private theorem booked_captured {s t : RenderState} {r : Option Error} {points : List Point}
    (h : Booked (s.beginCapture.withOutput "") r points t) :
    Booked s r (points ++ [.of (t.withOutput s.progress.output).endCapture])
      (t.withOutput s.progress.output).endCapture := by
  have hempty : (s.beginCapture.withOutput "").held = 0 := rfl
  have hback : (t.withOutput s.progress.output).endCapture.held = s.held :=
    held_withOutput (captures_endCapture h.captures)
  exact h.inside rfl rfl rfl (by omega) h.inner (captures_endCapture h.captures) rfl rfl rfl
    (by omega)

/-- A text is stored that was captured piece by piece. -/
private theorem booked_captured_storing {s t : RenderState} {points : List Point}
    (h : Booked (s.beginCapture.withOutput "") none points t) (name : String) :
    let t' := (t.withOutput s.progress.output).endCapture
    let stored := (store name (.str t.progress.output) t').2
    Booked s none (points ++ [.of t', .storing name (.str t.progress.output) stored]) stored := by
  have hclosed := (booked_captured h).storing name (.str t.progress.output) fun m => by
    -- The text is what the capture held at its end.
    have hheld : t.held = (Value.str t.progress.output).storageCost := by
      have hopen : t.progress.budget.captures = s.progress.budget.captures + 1 := h.captures
      unfold RenderState.held
      rw [hopen, if_neg (Nat.succ_ne_zero _)]
      rfl
    have hempty : (s.beginCapture.withOutput "").held = 0 := rfl
    have hback : (t.withOutput s.progress.output).endCapture.held = s.held :=
      held_withOutput (captures_endCapture h.captures)
    have hpaid := h.paid m
    have hstart : (s.beginCapture.withOutput "").assigned = s.assigned := rfl
    have hend : (t.withOutput s.progress.output).endCapture.assigned = t.assigned := rfl
    rw [bindings_append, show bindings [_] = [] from rfl, List.append_nil]
    omega
  rw [List.append_assoc] at hclosed
  exact hclosed

/-- What a capture held is paid for, and then it is stored as a text. -/
private theorem booked_capture (name : String) {x : Script b Unit} {s : RenderState}
    (h : Booked (s.beginCapture.withOutput "")
      (failure (x.run σ (s.beginCapture.withOutput "")).1)
      (x.points σ (s.beginCapture.withOutput "")) (x.run σ (s.beginCapture.withOutput "")).2) :
    Booked s (failure ((Script.capture name x).run σ s).1) ((Script.capture name x).points σ s)
      ((Script.capture name x).run σ s).2 := by
  rw [Script.points, Script.run]
  cases hr : x.run σ (s.beginCapture.withOutput "") with
  | mk r t =>
    rw [hr] at h
    -- What was captured comes from an empty output.
    have hcaptured : captured (x.run σ) s = (r.map fun _ => t.progress.output,
        (t.withOutput s.progress.output).endCapture) := by
      rw [captured_eq, diverted_eq]
      show (((x.run σ (s.beginCapture.withOutput "")).1.map fun _ =>
        (x.run σ (s.beginCapture.withOutput "")).2.progress.output), _) = _
      rw [hr]
      rfl
    cases r with
    | error e =>
      have hfailed : captured (x.run σ) s = (.error e, _) := hcaptured
      rw [Attempt.bind_of_error hfailed, hfailed]
      exact booked_captured h
    -- The text that was held by the capture becomes the value that is stored.
    | ok a =>
      have hstored : captured (x.run σ) s = (.ok t.progress.output, _) := hcaptured
      rw [Attempt.bind_of_ok hstored, hstored]
      exact booked_captured_storing h name

end

/-- What any stretch of a render does to the variables and the budget, by its points. Names may be
bound only where a scope was opened. -/
theorem Script.booked {σ : Settings} {b : Bool} {α : Type} (x : Script b α) (s : RenderState)
    (hscope : b = true → s.frame.scopes.inner ≠ []) :
    Booked s (failure (x.run σ s).1) (x.points σ s) (x.run σ s).2 := by
  induction x generalizing s with
  | aside x h => exact booked_aside h s
  | evaluate e => exact (Booked.of_same rfl rfl rfl).closed
  | pipeline p => exact (Booked.of_same rfl rfl rfl).closed
  | condition c => exact (Booked.of_same rfl rfl rfl).closed
  | score nodes => exact booked_score nodes s
  | emit text => exact booked_emit text s
  | bindAll entries => exact booked_bindAll entries (hscope rfl)
  | assign name value => exact booked_assign name value s
  | @bind b α β x f ih ihf =>
    -- A script that failed is followed by nothing, so the budget is not exhausted before the next.
    have hx := ih s hscope
    rw [points, run]
    cases hr : x.run σ s with
    | mk r t =>
      rw [hr] at hx
      cases r with
      | error e =>
        rw [Attempt.bind_of_error hr, List.append_nil]
        exact hx
      | ok a =>
        rw [Attempt.bind_of_ok hr]
        have hscope' : b = true → t.frame.scopes.inner ≠ [] := fun hb => by
          rw [← List.length_pos_iff, hx.inner, List.length_pos_iff]
          exact hscope hb
        exact hx.trans not_exhausted_none (ihf a t hscope')
  | diverted x ih =>
    have hx := ih (s.withOutput "") hscope
    rw [run, diverted_eq, failure_map]
    exact booked_withOutput hx
  | capture name x ih => exact booked_capture name (ih _ hscope)
  | inScope x ih => exact booked_inScope fun s hs => ih s fun _ => hs
  | inTemplate name x ih =>
    have hx := ih (s.withTemplate (some name)) hscope
    exact hx.inside rfl rfl rfl (Nat.le_refl _) hx.inner hx.captures rfl rfl rfl (Nat.le_refl _)
  | isolated template x ih =>
    -- The partial has an outermost scope and no other.
    exact booked_isolated template (ih _ fun h => absurd h Bool.false_ne_true)
  | inLoop loop x ih =>
    have hx := ih (s.withLoops (loop :: s.frame.loops)) hscope
    exact hx.inside rfl rfl rfl (Nat.le_refl _) hx.inner hx.captures rfl rfl rfl (Nat.le_refl _)
  | rescuing line blank x ih => exact booked_rescuing line blank (ih s hscope)

/-! ## Templates -/

/-- A whole render. -/
theorem Document.booked {σ : Settings} (document : Document) (s : RenderState) :
    Booked s (failure (document.render σ s).1) (document.points σ s) (document.render σ s).2 := by
  have hstart : Booked s none [.of s] s := (Booked.of_same rfl rfl rfl).closed
  rw [render_eq_run]
  exact hstart.trans not_exhausted_none (Script.booked _ s nofun)

namespace Template

variable (t : Template) (values : Object) (options : RenderOptions) (rethrow : Bool)

/-- Every point of a render is booked. -/
theorem along_points (m : Object) :
    Along (PointBooked (t.start values options) m) [] (t.points values options rethrow) := by
  unfold points
  cases t.document with
  | none => trivial
  | some document => exact (document.booked _).along m

/-- What is stored in a render until one of its points is in the outermost scope there, and it is
paid for. -/
private theorem paid_at_point {before after : List Point} {p : Point}
    (h : t.points values options rethrow = before ++ p :: after) :
    PointBooked (t.start values options) [] (bindings (before ++ [p])) p := by
  have halong := t.along_points values options rethrow []
  rw [h] at halong
  exact halong.at_point

/-- The points of a render lead to its end. At every one of them the values that the render stored
in the outermost scope of the template, one for each name, are paid for: they cost at most what was
charged for stored values so far, and never more than the ceiling of that charge. -/
theorem stored_le_assigned :
    (∀ document, t.document = some document →
      EndAt (t.points values options rethrow)
        (document.render (options.settings t.registry t.parsing rethrow)
          (t.start values options)).2)
    ∧ ∀ before p after, t.points values options rethrow = before ++ p :: after →
      let stored : Object := .ofList (bindings (before ++ [p]))
      (∀ name, p.outer.get? name
          = (stored.get? name).or ((t.start values options).frame.scopes.outer.get? name))
        ∧ stored.keys.Nodup
        ∧ Object.cost stored ≤ p.state.progress.budget.assigned
        ∧ ∀ ceiling, t.budget.assignCeiling = some ceiling → Object.cost stored ≤ ceiling := by
  refine ⟨fun document hd => ?_, fun before p after h => ?_⟩
  · unfold points
    rw [hd]
    exact document.endAt_points _
  · intro stored
    obtain ⟨houter, hpaid, hfits⟩ := paid_at_point t values options rethrow h
    -- A render starts with nothing charged and no capture open.
    have hassigned : (t.start values options).assigned = 0 := rfl
    have hheld : (t.start values options).held = 0 := rfl
    have hnothing : Object.cost [] = 0 := rfl
    have haffords : (t.start values options).Affords := exceeds_zero _
    refine ⟨fun name => ?_, Assoc.nodup_keys_ofList _, ?_, fun ceiling hc => ?_⟩
    · rw [houter, Assoc.get?_putAll, Assoc.get?_ofList]
    · show Object.cost (Assoc.putAll [] _) ≤ p.state.assigned
      omega
    · have hceiling : (t.start values options).assignCeiling = some ceiling := hc
      have hwithin := hfits haffords (Nat.le_refl 0)
      rw [hceiling] at hwithin
      exact Nat.le_of_not_lt (of_decide_eq_false hwithin)

/-- A text that is captured within another one, of which then only one is left. -/
theorem stored_le_assigned_captures :
    let inner : Body := .mk [.text "bc"] false
    let outer : Body := .mk [.text "a", .tag (.capture "inner" inner none)] false
    let pipeline : Pipeline := { source := .literal (.str "x"), filters := [] }
    let document : Document :=
      .mk [.tag (.capture "outer" outer none), .tag (.assign "outer" pipeline none)] true
    let t : Template := { document := some document, budget := { assignCeiling := some 4 } }
    ∃ before p, t.points [] {} false = before ++ [p]
      ∧ (bindings (before ++ [p])).map Prod.fst = ["inner", "outer", "outer"]
      ∧ Object.cost (.ofList (bindings (before ++ [p]))) = 3
      ∧ p.state.progress.budget.assigned = 4
      ∧ Object.cost (.ofList (bindings (before ++ [p]))) ≤ 4 := by
  intro inner outer pipeline document t
  obtain ⟨hend, hpaid⟩ := stored_le_assigned t [] {} false
  obtain ⟨before, p, hpoints, hstate, -⟩ := hend document rfl
  have hnames : (bindings (t.points [] {} false)).map Prod.fst = ["inner", "outer", "outer"] := by
    decide +kernel
  have hcost : Object.cost (.ofList (bindings (t.points [] {} false))) = 3 := by decide +kernel
  have hcharged : (document.render (RenderOptions.settings {} t.registry t.parsing false)
      (t.start [] {})).2.progress.budget.assigned = 4 := by decide +kernel
  rw [hpoints] at hnames hcost
  rw [← hstate] at hcharged
  exact ⟨before, p, hpoints, hnames, hcost, hcharged, (hpaid before p [] hpoints).2.2.2 4 rfl⟩

end Template

end Stencil
