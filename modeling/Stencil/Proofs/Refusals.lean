import Stencil.Proofs.Ceilings
import Stencil.Proofs.Sessions
import Stencil.Proofs.Strictness

/-!
# What was refused

A budget has a flag that is to say whether something was refused since it was reset. A charge that
is refused sets it at once. Work that is only asked about cannot set it, and a scope that would nest
too deep does not; but a template sets it after a render that ended with the error of an exhausted
budget. So the flag says exactly whether a charge was refused, or a render of a template was ended.
A scope that is refused to a template leaves it alone, and then it says less than it should.

## Key definitions

- `Refusal`: what can be refused
- `Script.refusals`, `Document.refusals`: what is refused to a render, in order
- `Operation`, `Standing.after`: what can be done with a budget, and what was refused meanwhile

## Key results

- `Script.logged_refusals`: a render sets the flag where a charge is refused, and is ended by all
  refusals but those of scopes
- `Standing.reached_after`: what the flag says after any operations
-/

namespace Stencil

open Render

/-! ## Refusals -/

/-- What was refused, or failed as if it had been. -/
inductive Refusal where
  /-- Bytes were written beyond the ceiling of the length. -/
  | length
  /-- Nodes were rendered beyond the ceiling of the score. -/
  | score
  /-- A value was stored, or text was captured, beyond the ceiling of that. -/
  | assigned
  /-- A scope would have been too deep. -/
  | depth
  /-- Work would have cost more score than was left; `ended` if a render of a template ended with
  that. -/
  | check (ended : Bool)
  /-- The host raised an error of the same kind, whatever was spent. -/
  | raised (ended : Bool)
deriving DecidableEq, Repr

namespace Refusal

/-- Whether a ceiling was exceeded. -/
def isBreach : Refusal → Bool
  | raised _ => false
  | _ => true

/-- Whether the flag was set. -/
def isNoted : Refusal → Bool
  | length | score | assigned => true
  | depth => false
  | check ended | raised ended => ended

/-- Whether the render that it was refused to was ended. -/
def isFatal : Refusal → Bool
  | depth => false
  | _ => true

/-- The refusal to a render of a template. -/
def toTemplate : Refusal → Refusal
  | check _ => check true
  | raised _ => raised true
  | r => r

/-- A template notes whatever ends its render. -/
theorem isNoted_toTemplate (r : Refusal) : r.toTemplate.isNoted = r.isFatal := by
  cases r <;> rfl

/-- A template notes the refusals that end a render. -/
theorem any_isNoted_map_toTemplate (log : List Refusal) :
    (log.map toTemplate).any isNoted = log.any isFatal := by
  simp only [List.any_map, Function.comp_def, isNoted_toTemplate]

/-- A refusal that is noted ends the render. -/
theorem isFatal_of_isNoted {r : Refusal} (h : r.isNoted = true) : r.isFatal = true := by
  cases r with
  | depth => exact nomatch h
  | _ => rfl

end Refusal

/-- The refusal, if the step failed. -/
def refusedTo {α : Type} (r : Except Error α) (refusal : Refusal) : List Refusal :=
  match r with
  | .ok _ => []
  | .error _ => [refusal]

/-- What the host raised in place of a refusal. -/
def raisedBy {α : Type} (r : Except Error α) : List Refusal :=
  match r with
  | .ok _ => []
  | .error e => if e.kind = .memory then [.raised false] else []

/-- What is refused when bytes are written. -/
def Budget.writeRefusals (b : Budget) (bytes : Nat) : List Refusal :=
  refusedTo (b.chargeWrite bytes).1 (if 0 < b.captures then .assigned else .length)

/-- Whether a filter, once its arguments are known, is to write out a range that there is no room
for. -/
def FilterCall.overruns (view : View) (call : FilterCall) (input : Value) : Bool :=
  (call.arguments view).isOk && !(Filter.itemsOf view input).isOk

/-- Whether the filters end where one is to write out a range that there is no room for. -/
def FilterCall.anyOverruns (filters : Assoc Filter) (view : View) : List FilterCall → Value → Bool
  | [], _ => false
  | call :: calls, input =>
    match call.evaluate filters view input with
    | .ok v => anyOverruns filters view calls v
    | .error _ => call.overruns view input

/-- What is refused when a pipeline is evaluated. -/
def Pipeline.refusals (filters : Assoc Filter) (view : View) (p : Pipeline) : List Refusal :=
  match p.evaluate filters view with
  | .ok _ => []
  | .error e =>
    if e.kind = .memory then
      match p.source.evaluate view with
      | .ok v =>
        if FilterCall.anyOverruns filters view p.filters v then [.check false] else [.raised false]
      | .error _ => [.raised false]
    else []

/-- What is refused when an error is dealt with: the text that is shown in its place. -/
def rescueRefusals (settings : Settings) (line : Option Nat) (blank : Bool) (e : Error)
    (s : RenderState) : List Refusal :=
  if settings.propagates e || (placed line e s).isUndefined || blank then []
  else
    let text := settings.showError (placed line e s)
    s.progress.budget.writeRefusals text.utf8ByteSize

/-- What is refused to a script that is run from a state, in order. -/
def Script.refusals (settings : Settings) :
    {b : Bool} → {α : Type} → Script b α → RenderState → List Refusal
  | _, _, .aside x _, s => raisedBy (x s).1
  | _, _, .evaluate e, s => raisedBy (e.evaluate (settings.view s))
  | _, _, .condition c, s => raisedBy (c.evaluate (settings.view s))
  | _, _, .pipeline p, s => p.refusals settings.registry.filters (settings.view s)
  | _, _, .score nodes, s => refusedTo (s.progress.budget.chargeScore nodes).1 .score
  | _, _, .emit text, s => s.progress.budget.writeRefusals text.utf8ByteSize
  | _, _, .bindAll _, _ => []
  | _, _, .assign _ value, s =>
    refusedTo (s.progress.budget.chargeAssign value.storageCost).1 .assigned
  | _, _, .bind x f, s =>
    x.refusals settings s ++
      match x.run settings s with
      | (.ok a, t) => (f a).refusals settings t
      | (.error _, _) => []
  | _, _, .diverted x, s => x.refusals settings (s.withOutput "")
  | _, _, .capture _ x, s => x.refusals settings (s.beginCapture.withOutput "")
  | _, _, .inScope x, s =>
    if exceeds (s.progress.budget.depth + 1) s.progress.budget.depthCeiling then [.depth]
    else x.refusals settings s.entered
  | _, _, .inTemplate name x, s => x.refusals settings (s.withTemplate (some name))
  | _, _, .isolated template x, s =>
    x.refusals settings (s.withFrame (s.frame.isolated template))
  | _, _, .inLoop loop x, s => x.refusals settings (s.withLoops (loop :: s.frame.loops))
  | _, _, .rescuing line blank x, s =>
    x.refusals settings s ++
      match x.run settings s with
      | (.ok _, _) => []
      | (.error e, t) => rescueRefusals settings line blank e t

/-- What is refused to the render of a document. -/
def Document.refusals (settings : Settings) (document : Document) (s : RenderState) :
    List Refusal :=
  let script : Script false Unit := scriptWithin settings s.progress.budget.scopesLeft document
  script.refusals settings s

/-! ## Logs -/

/-- What was refused between two states: the flag is set by what notes itself, and the outcome is
that of an exhausted budget if something fatal was refused. -/
structure Logged {α : Type} (s : RenderState) (r : Except Error α) (log : List Refusal)
    (t : RenderState) : Prop where
  reached : t.progress.budget.reached = (s.progress.budget.reached || log.any Refusal.isNoted)
  exhausted : Exhausted (failure r) ↔ log.any Refusal.isFatal = true

namespace Logged

variable {α β : Type} {s s' t t' u : RenderState} {r : Except Error α} {r' : Except Error β}
  {log log' : List Refusal}

/-- A step that is not refused anything has nothing to log. -/
theorem of_ok {a : α} (h : t.progress.budget.reached = s.progress.budget.reached) :
    Logged s (.ok a) [] t where
  reached := by rw [h, List.any_nil, Bool.or_false]
  exhausted := iff_of_false not_exhausted_none Bool.false_ne_true

/-- Only the flag of the states matters, and only the error of the outcome. -/
theorem within (h : Logged s r log t)
    (hs : s'.progress.budget.reached = s.progress.budget.reached)
    (ht : t'.progress.budget.reached = t.progress.budget.reached)
    (hr : failure r' = failure r) : Logged s' r' log t' where
  reached := by rw [ht, hs, h.reached]
  exhausted := by rw [hr, h.exhausted]

/-- One step after the other logs what each of them is refused. -/
theorem append {a : α} (h : Logged s (.ok a) log t) (h' : Logged t r' log' u) :
    Logged s r' (log ++ log') u where
  reached := by rw [h'.reached, h.reached, List.any_append, Bool.or_assoc]
  exhausted := by
    -- The first stretch went on, so nothing fatal was refused to it.
    have hfirst : log.any Refusal.isFatal = false :=
      Bool.eq_false_iff.mpr fun hfatal => not_exhausted_none (h.exhausted.mpr hfatal)
    rw [h'.exhausted, List.any_append, hfirst, Bool.false_or]

/-- A step that charges nothing, and may fail as the host says. -/
theorem quiet (h : t.progress.budget.reached = s.progress.budget.reached) :
    Logged s r (raisedBy r) t := by
  cases r with
  | ok a => exact .of_ok h
  | error e =>
    unfold raisedBy
    -- The error is one of memory, which ends the render without being noted, or of another kind.
    by_cases hk : e.kind = .memory
    · simp only [hk, if_true]
      exact ⟨by rw [h]; exact (Bool.or_false _).symm, iff_of_true ⟨e, rfl, hk⟩ rfl⟩
    · simp only [hk, if_false]
      refine ⟨by rw [h]; exact (Bool.or_false _).symm, iff_of_false ?_ Bool.false_ne_true⟩
      rintro ⟨e', he, hk'⟩
      exact hk (Option.some.inj he ▸ hk')

end Logged

/-- An amount that is settled sets the flag if it is refused. -/
theorem logged_settle (s : RenderState) (b : Budget) (tooMuch : Bool) {refusal : Refusal}
    (hb : b.reached = s.progress.budget.reached) (hnoted : refusal.isNoted = true) :
    Logged s (b.settle tooMuch).1 (refusedTo (b.settle tooMuch).1 refusal)
      { s with progress.budget := (b.settle tooMuch).2 } := by
  -- A refusal sets the flag and raises the error.
  cases tooMuch with
  | false => exact .of_ok hb
  | true =>
    have hfatal := Refusal.isFatal_of_isNoted hnoted
    constructor
    · show true = (s.progress.budget.reached || (refusal.isNoted || false))
      rw [hnoted, Bool.true_or, Bool.or_true]
    · refine iff_of_true ⟨.overBudget, rfl, rfl⟩ ?_
      show (refusal.isFatal || false) = true
      rw [hfatal, Bool.true_or]

/-- A charge for an assignment is refused or not. -/
theorem logged_chargeAssign (s : RenderState) (amount : Nat) :
    Logged s (s.progress.budget.chargeAssign amount).1
      (refusedTo (s.progress.budget.chargeAssign amount).1 .assigned)
      { s with progress.budget := (s.progress.budget.chargeAssign amount).2 } :=
  logged_settle s _ _ rfl rfl

theorem logged_chargeScore (s : RenderState) (amount : Nat) :
    Logged s (s.progress.budget.chargeScore amount).1
      (refusedTo (s.progress.budget.chargeScore amount).1 .score)
      { s with progress.budget := (s.progress.budget.chargeScore amount).2 } :=
  logged_settle s _ _ rfl rfl

theorem logged_chargeWrite (s : RenderState) (bytes : Nat) :
    Logged s (s.progress.budget.chargeWrite bytes).1 (s.progress.budget.writeRefusals bytes)
      { s with progress.budget := (s.progress.budget.chargeWrite bytes).2 } := by
  unfold Budget.writeRefusals
  by_cases hcaptures : 0 < s.progress.budget.captures
  · rw [Budget.chargeWrite_of_captured hcaptures, if_pos hcaptures]
    exact logged_chargeAssign s bytes
  · have hwrite : s.progress.budget.chargeWrite bytes = _ := if_neg hcaptures
    rw [hwrite, if_neg hcaptures]
    exact logged_settle s _ _ rfl rfl

/-- Writing is charged for. -/
theorem logged_emit (text : String) (s : RenderState) :
    Logged s (emit text s).1 (s.progress.budget.writeRefusals text.utf8ByteSize)
      (emit text s).2 :=
  (logged_chargeWrite s _).within rfl rfl rfl

/-- A filter may be refused memory. -/
theorem logged_pipeline {filters : Assoc Filter} {view : View} (p : Pipeline) (s : RenderState) :
    Logged s (p.evaluate filters view) (p.refusals filters view) s := by
  unfold Pipeline.refusals
  cases hr : p.evaluate filters view with
  | ok v => exact .of_ok rfl
  | error e =>
    have hquiet : Logged s (.error e : Except Error Value) (raisedBy (.error e)) s := .quiet rfl
    unfold raisedBy at hquiet
    by_cases hk : e.kind = .memory
    · -- A check and what the host raises end the render alike, and neither is noted at once.
      simp only [hk, if_true] at hquiet ⊢
      split
      · split
        · exact ⟨hquiet.reached, hquiet.exhausted⟩
        · exact hquiet
      · exact hquiet
    · simp only [hk, if_false] at hquiet ⊢
      exact hquiet

/-- What is refused after an error that does not end the render is the text that is shown. -/
theorem logged_rescue {settings : Settings} {line : Option Nat} {blank : Bool} {e : Error}
    {s t : RenderState} {log : List Refusal} (h : Logged s (.error e : Except Error Unit) log t) :
    Logged s (rescue settings line blank e t).1 (log ++ rescueRefusals settings line blank e t)
      (rescue settings line blank e t).2 := by
  unfold rescueRefusals
  cases hp : settings.propagates e with
  | true =>
    rw [rescue_of_propagates hp, Bool.true_or, Bool.true_or, if_pos rfl, List.append_nil]
    exact h
  | false =>
    rw [rescue_of_not_propagates hp, Bool.false_or]
    -- An error that is dealt with was not fatal, so nothing that was logged is.
    have hfatal : log.any Refusal.isFatal = false :=
      Bool.eq_false_iff.mpr fun hfatal => not_exhausted_error hp (h.exhausted.mpr hfatal)
    have hrecorded : Logged s (.ok () : Except Error Unit) log (record (placed line e t) t).2 :=
      ⟨h.reached, iff_of_false not_exhausted_none (Bool.eq_false_iff.mp hfatal)⟩
    split
    · exact hrecorded.append (.of_ok rfl)
    · exact hrecorded.append (logged_emit _ _)

/-- A value is stored only if the charge for it is not refused. -/
private theorem logged_assign (name : String) (value : Value) (s : RenderState) :
    Logged s (Render.assign name value s).1
      (refusedTo (s.progress.budget.chargeAssign value.storageCost).1 .assigned)
      (Render.assign name value s).2 := by
  refine (logged_chargeAssign s value.storageCost).within rfl ?_ (failure_assign name value s)
  rw [progress_assign]
  rfl

/-- A step, and what follows it if it succeeds. -/
private theorem logged_bind {α β : Type} {x : Render α} {f : α → Render β} {s : RenderState}
    {log : List Refusal} {rest : α → RenderState → List Refusal} (hx : Logged s (x s).1 log (x s).2)
    (hf : ∀ a t, Logged t (f a t).1 (rest a t) (f a t).2) :
    Logged s ((x >>= f) s).1
      (log ++ match x s with
        | (.ok a, t) => rest a t
        | (.error _, _) => [])
      ((x >>= f) s).2 := by
  -- What follows is logged only if the first step goes well.
  cases hr : x s with
  | mk r t =>
    rw [hr] at hx
    cases r with
    | ok a =>
      rw [Attempt.bind_of_ok hr]
      exact hx.append (hf a t)
    | error e =>
      rw [Attempt.bind_of_error hr, List.append_nil]
      exact hx.within rfl rfl rfl

/-- What was captured is stored without a charge. -/
private theorem logged_capture {name : String} {x : Render Unit} {s : RenderState}
    {log : List Refusal}
    (hx : Logged (s.beginCapture.withOutput "") (x (s.beginCapture.withOutput "")).1 log
      (x (s.beginCapture.withOutput "")).2) :
    Logged s ((captured x >>= fun text => store name (.str text)) s).1 log
      ((captured x >>= fun text => store name (.str text)) s).2 := by
  have hcaptured : Logged s (captured x s).1 log (captured x s).2 :=
    hx.within rfl rfl (failure_map _ _)
  -- The text is stored without a charge of its own.
  cases hr : captured x s with
  | mk r t =>
    rw [hr] at hcaptured
    cases r with
    | ok text =>
      rw [Attempt.bind_of_ok hr]
      exact hcaptured.within rfl rfl rfl
    | error e =>
      rw [Attempt.bind_of_error hr]
      exact hcaptured.within rfl rfl rfl

/-- A scope that is refused is not fatal, and the flag does not tell. -/
private theorem logged_inScope {α : Type} {x : Render α} {s : RenderState} {log : List Refusal}
    (hx : Logged s.entered (x s.entered).1 log (x s.entered).2) :
    Logged s (inScope x s).1
      (if exceeds (s.progress.budget.depth + 1) s.progress.budget.depthCeiling then [.depth]
        else log)
      (inScope x s).2 := by
  rw [inScope_eq]
  -- A scope that is too deep is refused without the flag.
  by_cases hdeep : exceeds (s.progress.budget.depth + 1) s.progress.budget.depthCeiling = true
  · rw [if_pos hdeep, if_pos hdeep]
    refine ⟨(Bool.or_false _).symm, iff_of_false ?_ Bool.false_ne_true⟩
    rintro ⟨e, he, hk⟩
    cases he
    exact nomatch hk
  · rw [if_neg hdeep, if_neg hdeep]
    refine hx.within ?_ rfl rfl
    have henter : s.progress.budget.enterScope.2.reached = s.progress.budget.reached := by
      unfold Budget.enterScope
      rw [if_neg hdeep]
    exact henter.symm

/-- A refusal that is dealt with is logged; those of the budget are passed on. -/
private theorem logged_rescuing {settings : Settings} {line : Option Nat} {blank : Bool}
    {x : Render Unit} {s : RenderState} {log : List Refusal}
    (hx : Logged s (x s).1 log (x s).2) :
    Logged s (rescuing settings line blank x s).1
      (log ++ match x s with
        | (.ok _, _) => []
        | (.error e, t) => rescueRefusals settings line blank e t)
      (rescuing settings line blank x s).2 := by
  -- Without an error nothing more is logged.
  cases hr : x s with
  | mk r t =>
    rw [hr] at hx
    cases r with
    | ok a =>
      rw [rescuing_of_ok hr, List.append_nil]
      exact hx
    | error e =>
      rw [rescuing_of_error hr]
      exact logged_rescue hx

/-- A render sets the flag where a charge is refused, and it ends with the error of an exhausted
budget if anything but a scope is refused to it. -/
theorem Script.logged_refusals {σ : Settings} {b : Bool} {α : Type} (x : Script b α)
    (s : RenderState) : Logged s (x.run σ s).1 (x.refusals σ s) (x.run σ s).2 := by
  -- By induction on the script: only charges and filters are refused anything.
  induction x generalizing s with
  | aside x h =>
    have hbudget : (x s).2.progress.budget.reached = s.progress.budget.reached := by
      rw [h.budget_eq]
    exact .quiet hbudget
  | evaluate e => exact .quiet rfl
  | condition c => exact .quiet rfl
  | pipeline p => exact logged_pipeline p s
  | score nodes => exact (logged_chargeScore s nodes).within rfl rfl rfl
  | emit text => exact logged_emit text s
  | bindAll entries => exact .of_ok rfl
  | assign name value => exact logged_assign name value s
  | bind x f ih ihf =>
    rw [refusals, run]
    exact logged_bind (ih s) ihf
  | diverted x ih => exact (ih (s.withOutput "")).within rfl rfl (failure_map _ _)
  | capture name x ih => exact logged_capture (ih (s.beginCapture.withOutput ""))
  | inScope x ih => exact logged_inScope (ih s.entered)
  | inTemplate name x ih => exact (ih (s.withTemplate (some name))).within rfl rfl rfl
  | isolated template x ih =>
    exact (ih (s.withFrame (s.frame.isolated template))).within rfl rfl rfl
  | inLoop loop x ih => exact (ih (s.withLoops (loop :: s.frame.loops))).within rfl rfl rfl
  | rescuing line blank x ih => exact logged_rescuing (ih s)

/-- A document is one script. -/
theorem Document.logged_refusals {σ : Settings} (document : Document) (s : RenderState) :
    Logged s (document.render σ s).1 (document.refusals σ s) (document.render σ s).2 := by
  rw [render_eq_run]
  exact Script.logged_refusals _ s

/-! ## Operations -/

/-- What can be done with a budget. -/
inductive Operation where
  | score (amount : Nat)
  /-- Asks whether there is room, without charging anything. -/
  | check (amount : Nat)
  | assign (amount : Nat)
  | write (bytes : Nat)
  | beginCapture
  | endCapture
  | enterScope
  | exitScope
  | setCeilings (ceilings : Ceilings) (depthCeiling : Option Nat)
  | reset
  /-- A document is rendered in a context that the budget is put into. -/
  | document (settings : Settings) (called : Document) (context : RenderState)
  /-- A template is rendered whose budget it is, and fails with the first error if that is to be
  strict. -/
  | template (t : Template) (strict : Bool) (values : Object) (options : RenderOptions)

namespace Operation

/-- The context with the budget in it. -/
def place (context : RenderState) (b : Budget) : RenderState :=
  { context with progress.budget := b }

/-- The budget after an operation. -/
def budget (b : Budget) : Operation → Budget
  | .score amount => (b.chargeScore amount).2
  | .check _ => b
  | .assign amount => (b.chargeAssign amount).2
  | .write bytes => (b.chargeWrite bytes).2
  | .beginCapture => b.beginCapture
  | .endCapture => b.endCapture
  | .enterScope => b.enterScope.2
  | .exitScope => b.exitScope
  | .setCeilings ceilings depthCeiling => { b.withCeilings ceilings with depthCeiling }
  | .reset => b.reset
  | .document settings called context =>
    (called.render settings (place context b)).2.progress.budget
  | .template t strict values options =>
    ({ t with budget := b }.renderAs strict values options).2.budget

/-- What is refused to an operation. -/
def refusals (b : Budget) : Operation → List Refusal
  | .score amount => refusedTo (b.chargeScore amount).1 .score
  | .check amount => refusedTo (b.checkScore amount) (.check false)
  | .assign amount => refusedTo (b.chargeAssign amount).1 .assigned
  | .write bytes => b.writeRefusals bytes
  | .enterScope => refusedTo b.enterScope.1 .depth
  | .document settings called context => called.refusals settings (place context b)
  | .template t strict values options =>
    match t.document with
    | none => []
    | some called =>
      let settings := options.settings t.registry t.parsing strict
      let start := { t with budget := b }.start values options
      (called.refusals settings start).map .toTemplate
  | .beginCapture | .endCapture | .exitScope | .setCeilings .. | .reset => []

/-- Whether the counters are cleared first. A template that was never read renders nothing. -/
def resets : Operation → Bool
  | .reset => true
  | .template t .. => t.document.isSome
  | _ => false

end Operation

/-- A budget, and what was refused since it was reset. -/
structure Standing where
  budget : Budget
  refusals : List Refusal := []

namespace Standing

/-- The standing after one operation. -/
def step (s : Standing) (operation : Operation) : Standing where
  budget := operation.budget s.budget
  refusals := (if operation.resets then [] else s.refusals) ++ operation.refusals s.budget

/-- The standing after some operations. -/
def after (s : Standing) (operations : List Operation) : Standing :=
  operations.foldl step s

/-- The flag says whether something was refused that is noted. -/
def IsNoted (s : Standing) : Prop :=
  s.budget.reached = s.refusals.any Refusal.isNoted

/-- An operation that does not reset the budget and notes what is refused to it. -/
private theorem IsNoted.step_of_not_resets {s : Standing} (h : s.IsNoted) {operation : Operation}
    (hresets : operation.resets = false)
    (hreached : (operation.budget s.budget).reached
      = (s.budget.reached || (operation.refusals s.budget).any Refusal.isNoted)) :
    (s.step operation).IsNoted := by
  unfold IsNoted step
  rw [hresets]
  dsimp only
  rw [hreached, h, if_neg Bool.false_ne_true, List.any_append]

/-- A charge, seen as a step of a render that does nothing else. -/
private theorem reached_of_logged {b b' : Budget} {r : Except Error Unit} {log : List Refusal}
    (h : Logged (Operation.place {} b) r log (Operation.place {} b')) :
    b'.reached = (b.reached || log.any Refusal.isNoted) :=
  h.reached

/-- How errors are dealt with does not matter to the budget. -/
private theorem budget_renderAs (t : Template) (strict : Bool) (values : Object)
    (options : RenderOptions) :
    (t.renderAs strict values options).2.budget = (t.run values options strict).2.budget := by
  obtain ⟨r, errors, hrender⟩ := t.renderAs_eq strict values options
  rw [hrender]

/-- A template that is rendered notes what ends the render. -/
private theorem reached_template {t : Template} {document : Document}
    (hd : t.document = some document) (strict : Bool) (values : Object) (options : RenderOptions) :
    (t.renderAs strict values options).2.budget.reached
      = (document.refusals (options.settings t.registry t.parsing strict)
          (t.start values options)).any Refusal.isFatal := by
  rw [budget_renderAs]
  have hlogged := document.logged_refusals (σ := options.settings t.registry t.parsing strict)
    (t.start values options)
  cases hr : document.render (options.settings t.registry t.parsing strict)
      (t.start values options) with
  | mk r s =>
    rw [hr] at hlogged
    rw [Template.run_of_some hd hr]
    generalize document.refusals _ _ = log at hlogged ⊢
    -- The counters were cleared at the start.
    have hreached : s.progress.budget.reached = log.any Refusal.isNoted := hlogged.reached
    cases hfatal : log.any Refusal.isFatal with
    | true =>
      obtain ⟨e, he, hk⟩ := hlogged.exhausted.mpr hfatal
      cases r with
      | ok a => exact nomatch he
      | error e' =>
        obtain rfl : e' = e := Option.some.inj he
        show (if e'.kind = .memory then s.progress.budget.markReached
          else s.progress.budget).reached = true
        rw [if_pos hk]
        rfl
    | false =>
      have hquiet : s.progress.budget.reached = false := by
        rw [hreached, Bool.eq_false_iff]
        intro hnoted
        obtain ⟨r, hr, hrn⟩ := List.any_eq_true.mp hnoted
        have hany : log.any Refusal.isFatal = true :=
          List.any_eq_true.mpr ⟨r, hr, Refusal.isFatal_of_isNoted hrn⟩
        rw [hfatal] at hany
        exact nomatch hany
      have hfine : ¬Exhausted (failure r) := fun hx => by
        have hany := hlogged.exhausted.mp hx
        rw [hfatal] at hany
        exact nomatch hany
      cases r with
      | ok a => exact hquiet
      | error e =>
        show (if e.kind = .memory then s.progress.budget.markReached
          else s.progress.budget).reached = false
        rw [if_neg fun hk => hfine ⟨e, rfl, hk⟩]
        exact hquiet

/-- Every operation keeps to it that the flag says what was noted. -/
theorem IsNoted.step {s : Standing} (h : s.IsNoted) (operation : Operation) :
    (s.step operation).IsNoted := by
  let place := Operation.place {} s.budget
  cases operation with
  | score amount =>
    exact h.step_of_not_resets rfl (reached_of_logged (logged_chargeScore place amount))
  | assign amount =>
    exact h.step_of_not_resets rfl (reached_of_logged (logged_chargeAssign place amount))
  | write bytes =>
    exact h.step_of_not_resets rfl (reached_of_logged (logged_chargeWrite place bytes))
  | check amount =>
    -- What is only asked about changes nothing, and is not noted.
    refine h.step_of_not_resets rfl ?_
    unfold Operation.budget Operation.refusals
    dsimp only
    cases s.budget.checkScore amount <;> exact (Bool.or_false _).symm
  | enterScope =>
    refine h.step_of_not_resets rfl ?_
    unfold Operation.budget Operation.refusals Budget.enterScope
    dsimp only
    split <;> exact (Bool.or_false _).symm
  | beginCapture => exact h.step_of_not_resets rfl (Bool.or_false _).symm
  | endCapture => exact h.step_of_not_resets rfl (Bool.or_false _).symm
  | exitScope => exact h.step_of_not_resets rfl (Bool.or_false _).symm
  | setCeilings => exact h.step_of_not_resets rfl (Bool.or_false _).symm
  | reset =>
    show false = List.any [] Refusal.isNoted
    rfl
  | document settings called context =>
    have hlogged := called.logged_refusals (σ := settings) (Operation.place context s.budget)
    exact h.step_of_not_resets rfl hlogged.reached
  | template t strict values options =>
    let called : Template := { t with budget := s.budget }
    cases hd : called.document with
    | none =>
      -- Nothing is rendered, and the budget is not even reset.
      have hrefusals : (Operation.template t strict values options).refusals s.budget = [] := by
        unfold Operation.refusals
        dsimp only
        rw [show t.document = none from hd]
      refine h.step_of_not_resets (congrArg Option.isSome hd) ?_
      rw [hrefusals]
      show (called.renderAs strict values options).2.budget.reached = (s.budget.reached || false)
      rw [budget_renderAs, Template.run_of_none hd, Bool.or_false]
    | some document =>
      have hresets : (Operation.template t strict values options).resets = true :=
        congrArg Option.isSome hd
      have hrefusals : (Operation.template t strict values options).refusals s.budget
          = (document.refusals (options.settings t.registry t.parsing strict)
              (called.start values options)).map .toTemplate := by
        unfold Operation.refusals
        dsimp only
        rw [show t.document = some document from hd]
        rfl
      unfold IsNoted Standing.step
      rw [hresets, hrefusals, if_pos rfl, List.nil_append]
      dsimp only
      rw [Refusal.any_isNoted_map_toTemplate]
      exact reached_template hd strict values options

/-- By induction on the operations. -/
theorem IsNoted.after {s : Standing} (h : s.IsNoted) (operations : List Operation) :
    (s.after operations).IsNoted := by
  induction operations generalizing s with
  | nil => exact h
  | cons operation operations ih => exact ih (h.step operation)

/-- What was refused stays on record until a reset. -/
theorem refusals_after {s : Standing} {operations : List Operation}
    (h : ∀ operation ∈ operations, operation.resets = false) :
    ∃ later, (s.after operations).refusals = s.refusals ++ later := by
  -- By induction on the operations: none of them takes a refusal off.
  induction operations generalizing s with
  | nil => exact ⟨[], (List.append_nil _).symm⟩
  | cons operation operations ih =>
    obtain ⟨hfirst, hrest⟩ := List.forall_mem_cons.mp h
    obtain ⟨later, hlater⟩ := ih (s := s.step operation) hrest
    refine ⟨operation.refusals s.budget ++ later, ?_⟩
    have hstep : (s.step operation).refusals = s.refusals ++ operation.refusals s.budget := by
      unfold step
      rw [hfirst]
      rfl
    show ((s.step operation).after operations).refusals = _
    rw [hlater, hstep, List.append_assoc]

/-- From a reset on, the flag says after any operations whether a charge was refused or a render of
a template was ended, since the last reset; and once it is set it stays so until the next one. It
says whether any ceiling was exceeded as long as every refusal is noted: none is that of a scope, or
of work that was only asked about outside a template, and no template is ended by the host. -/
theorem reached_after (b : Budget) (operations : List Operation) :
    let s := after ⟨b.reset, []⟩ operations
    (s.budget.reached = true ↔ ∃ r ∈ s.refusals, r.isNoted = true)
      ∧ (s.budget.reached = true → ∀ operations' : List Operation,
          (∀ operation ∈ operations', operation.resets = false) →
            (s.after operations').budget.reached = true)
      ∧ ((∀ r ∈ s.refusals, r.isNoted = r.isBreach) →
          (s.budget.reached = true ↔ ∃ r ∈ s.refusals, r.isBreach = true)) := by
  intro s
  have hstart : IsNoted ⟨b.reset, []⟩ := rfl
  have hs : s.IsNoted := hstart.after operations
  have hiff : s.budget.reached = true ↔ ∃ r ∈ s.refusals, r.isNoted = true := by
    rw [hs, List.any_eq_true]
  refine ⟨hiff, fun hreached operations' hresets => ?_, fun hnoted => ?_⟩
  · -- What is on record stays there until the budget is reset.
    obtain ⟨later, hlater⟩ := refusals_after (s := s) hresets
    rw [hs] at hreached
    rw [hs.after operations', hlater, List.any_append, hreached, Bool.true_or]
  · -- Where noted refusals are the breaches, the two are one condition.
    rw [hiff]
    constructor
    · rintro ⟨r, hr, h⟩
      exact ⟨r, hr, hnoted r hr ▸ h⟩
    · rintro ⟨r, hr, h⟩
      exact ⟨r, hr, (hnoted r hr).trans h⟩

/-- Reads `{{ (1..9) | join }}`. -/
private def joinedRange : Except Error Unit × Template :=
  Template.parse {} "\x7b\x7b (1..9) | join \x7d\x7d"

/-- A template that ends because a range is too long to be written out, after a charge that was
refused before the budget was reset. -/
theorem reached_after_check :
    let b : Budget := { scoreCeiling := some 5 }
    let s := after ⟨b.reset, []⟩ [.score 6, .template joinedRange.2 false [] {}]
    joinedRange.1.isOk = true ∧ s.refusals = [.check true]
      ∧ (s.budget.reached = true ↔ ∃ r ∈ s.refusals, r.isBreach = true)
      ∧ s.budget.reached = true := by
  intro b s
  have hfacts : joinedRange.1.isOk = true ∧ s.refusals = [.check true] := by decide +kernel
  obtain ⟨hok, hrefusals⟩ := hfacts
  -- The one refusal is noted and a breach.
  have hnoted : ∀ r ∈ s.refusals, r.isNoted = r.isBreach := by
    rw [hrefusals]
    exact List.forall_mem_singleton.mpr rfl
  have hiff := (reached_after b [.score 6, .template joinedRange.2 false [] {}]).2.2 hnoted
  refine ⟨hok, hrefusals, hiff, hiff.mpr ⟨.check true, ?_, rfl⟩⟩
  rw [hrefusals]
  exact List.mem_singleton_self _

/-- Reads `{% for i in (1..2) %}{% for j in (1..2) %}x{% endfor %}{% endfor %}`. -/
private def loopInLoop : Except Error Unit × Template :=
  Template.parse {} ("\x7b% for i in (1..2) %\x7d\x7b% for j in (1..2) %\x7dx\x7b% endfor %\x7d"
    ++ "\x7b% endfor %\x7d")

/-- Where one scope is all that may be open, a loop within a loop is refused each time, and the flag
says nothing of it. -/
theorem not_reached_after_depth :
    let b : Budget := { depthCeiling := some 1 }
    let s := after ⟨b.reset, []⟩ [.template loopInLoop.2 false [] {}]
    loopInLoop.1.isOk = true ∧ s.refusals = [.depth, .depth] ∧ s.budget.reached = false
      ∧ ¬(s.budget.reached = true ↔ ∃ r ∈ s.refusals, r.isBreach = true) := by
  intro b s
  have hfacts : loopInLoop.1.isOk = true ∧ s.refusals = [.depth, .depth]
      ∧ s.budget.reached = false := by decide +kernel
  obtain ⟨hok, hrefusals, hreached⟩ := hfacts
  refine ⟨hok, hrefusals, hreached, fun hiff => ?_⟩
  -- The depth is a breach that sets no flag.
  have hbreach : ∃ r ∈ s.refusals, r.isBreach = true := by
    rw [hrefusals]
    exact ⟨.depth, List.mem_cons_self, rfl⟩
  rw [hiff.mpr hbreach] at hreached
  exact nomatch hreached

end Standing

end Stencil
