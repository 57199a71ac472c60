import Stencil.Proofs.Moment
import Stencil.Proofs.StandardTags

/-!
# Runs

Everything that a stretch of a render with the standard tags can do, said once. A run
goes from a state to a state, passes through moments and may end with an error. Its
constructors are the single steps (a body is begun, a text is written, a value is
stored), the ways to put stretches one after the other, and the ways to do something
inside something (a scope, a capture, a loop, another frame).

What holds of all renders is then an induction over runs: nothing about the syntax of
documents, the order of evaluation or the texts of errors is left in them.

## Key definitions

- `Run`: the relation
- `RenderState.Admits`: the states that runs are about
- `Run.admits`: runs stay within them
-/

namespace Stencil

open Render

/-! ## States -/

/-- All values of an object satisfy `V`. -/
def Object.All (V : Value → Prop) (m : Object) : Prop :=
  ∀ e ∈ m, V e.2

/-- All values that a frame can give satisfy `V`. -/
structure Frame.Admits (V : Value → Prop) (frame : Frame) : Prop where
  inner : ∀ scope ∈ frame.scopes.inner, Object.All V scope
  outer : Object.All V frame.scopes.outer
  environments : ∀ environment ∈ frame.environments, Object.All V environment
  loops : ∀ loop ∈ frame.loops, V loop

/-- The partials that were read hold standard tags only. -/
def Registers.AreStandard (registers : Registers) : Prop :=
  ∀ e ∈ registers.partials, e.2.isStandard = true

/-- All values in reach satisfy `V`, and all partials that were read are standard. -/
structure RenderState.Admits (V : Value → Prop) (s : RenderState) : Prop where
  frame : s.frame.Admits V
  registers : s.progress.registers.AreStandard

/-! ## Runs -/

/-- Where a stretch of a render takes place. -/
inductive Place where
  /-- Where names are bound in the outermost scope only. -/
  | plain
  /-- In a scope of its own, where names may be bound. -/
  | scoped
  /-- In the scope of a loop, between its turns. -/
  | turns
deriving DecidableEq

/-- The places are different ones. -/
theorem scoped_ne_plain : Place.scoped ≠ .plain := nofun

theorem turns_ne_plain : Place.turns ≠ .plain := nofun

theorem plain_ne_turns : Place.plain ≠ .turns := nofun

theorem scoped_ne_turns : Place.scoped ≠ .turns := nofun

/-- The error of an outcome, if it failed. -/
def failure {α : Type} : Except Error α → Option Error
  | .ok _ => none
  | .error e => some e

/-- Whether something goes on at the event that the render did not stop before. -/
def Event.isTakenUp : Event → Bool
  | .arm | .item => true
  | _ => false

/-- Why a render goes on from `t` with the moments `m` after it came from `s`: no interrupt
is pending, or the pending ones are those from before, or an arm or an item is taken up
regardless. The turns of a loop use up theirs. -/
def GoesOn (place : Place) (s t : RenderState) (m : List Moment) : Prop :=
  place = .turns ∨ t.frame.interrupts = [] ∨ t.frame.interrupts = s.frame.interrupts
    ∨ ∃ event, event.isTakenUp = true ∧ m.head? = some ⟨event, t⟩

namespace GoesOn

variable {place : Place} {s t : RenderState} {m : List Moment}

/-- Without a pending interrupt everything goes on. -/
theorem of_eq_nil (h : t.frame.interrupts = []) : GoesOn place s t m :=
  .inr (.inl h)

/-- What leaves the interrupts as they are goes on as before. -/
theorem of_eq (h : t.frame.interrupts = s.frame.interrupts) : GoesOn place s t m :=
  .inr (.inr (.inl h))

/-- An event that takes up an interrupt has taken it up. -/
theorem of_isTakenUp {event : Event} (h : event.isTakenUp = true)
    (hm : m.head? = some ⟨event, t⟩) : GoesOn place s t m :=
  .inr (.inr (.inr ⟨event, h, hm⟩))

end GoesOn

/-- Keeps a partial that was read. -/
def RenderState.withPartial (s : RenderState) (name : String) (document : Document) :
    RenderState :=
  { s with progress.registers.partials := s.progress.registers.partials.put name document }

/-- What a render keeps for later that nothing it shows or spends depends on at once. -/
inductive Kept (settings : Settings) : RenderState → RenderState → Prop where
  | position (name : String) (index : Nat) (s : RenderState) :
      Kept settings s (setPosition name index s).2
  | document {name : String} {document : Document} (s : RenderState) :
      settings.readPartial name = .ok document → Kept settings s (s.withPartial name document)
  | iteration (s : RenderState) (iterations : Nat) :
      Kept settings s { s with progress.iterations := iterations }

/-- A stretch of a render with the standard tags. Values that get bound satisfy `V`, errors
that begin satisfy `E`, and `names` are the variables that may be stored. -/
inductive Run (settings : Settings) (V : Value → Prop) (E : Error → Prop) :
    (names : List String) → Place → RenderState → List Moment → Option Error → RenderState → Prop
    where
  | done {names place s} : Run settings V E names place s [] none s
  | fail {names place s e} : E e → Run settings V E names place s [] (some e) s
  | keep {names place s t} : Kept settings s t → Run settings V E names place s [] none t
  | bind {names place s} (name : String) {value : Value} : place ≠ .plain → V value →
      Run settings V E names place s [] none (bindName name value s).2
  /-- One stretch after the other. -/
  | seq {names place s t u m m' r} : Run settings V E names place s m none t →
      Run settings V E names place t m' r u → GoesOn place s t m' →
      Run settings V E names place s (m ++ m') r u
  | lift {names s t m r} : Run settings V E names .plain s m r t →
      Run settings V E names .scoped s m r t
  | body {names s} (nodes : Nat) (turn : Bool) :
      Run settings V E names .plain s [⟨.body nodes turn, s⟩]
        (failure (charge (·.chargeScore nodes) s).1) (charge (·.chargeScore nodes) s).2
  | write {names s} (text : String) :
      Run settings V E names .plain s [⟨.write text, s⟩] (failure (emit text s).1) (emit text s).2
  | assign {names s} {name : String} {value : Value} : name ∈ names → V value →
      Run settings V E names .plain s [⟨.assign name value, s⟩]
        (failure (Render.assign name value s).1) (Render.assign name value s).2
  | interrupt {names s} (i : Interrupt) :
      Run settings V E names .plain s [⟨.interrupt i, s⟩] none (Render.interrupt i s).2
  | takeUp {names place s} (event : Event) : place ≠ .turns → event.isTakenUp = true →
      Run settings V E names place s [⟨event, s⟩] none s
  /-- The error `e` of a stretch is recorded as `e'`, and the render goes on. -/
  | recover {names s t u m m' r e e'} : Run settings V E names .plain s m (some e) t →
      settings.propagates e = false → e'.kind = e.kind →
      Run settings V E names .plain (record e' t).2 m' r u →
      Run settings V E names .plain s (m ++ m') r u
  | capture {names s t m} {name : String} : name ∈ names →
      Run settings V E names .plain (s.beginCapture.withOutput "") m none t →
      Run settings V E names .plain s m none
        (store name (.str t.progress.output) (t.withOutput s.progress.output).endCapture).2
  | captureFailed {names s t m e} :
      Run settings V E names .plain (s.beginCapture.withOutput "") m (some e) t →
      Run settings V E names .plain s m (some e) (t.withOutput s.progress.output).endCapture
  | scope {names s s' t m r} : charge Budget.enterScope s = (.ok (), s') →
      Run settings V E names .scoped s'.pushScope m r t →
      Run settings V E names .plain s m r t.popScope
  | loop {names s s' t m} : charge Budget.enterScope s = (.ok (), s') →
      Run settings V E names .turns s'.pushScope m none t →
      Run settings V E names .plain s (m ++ [⟨.left, t.popScope⟩]) none t.popScope
  | loopFailed {names s s' t m e} : charge Budget.enterScope s = (.ok (), s') →
      Run settings V E names .turns s'.pushScope m (some e) t →
      Run settings V E names .plain s m (some e) t.popScope
  | turn {names s t m} {value : Value} : V value →
      Run settings V E names .plain (s.withLoops (value :: s.frame.loops)) m none t →
      Run settings V E names .turns s m none (takeInterrupt (t.withLoops s.frame.loops)).2
  | turnFailed {names s t m e} {value : Value} : V value →
      Run settings V E names .plain (s.withLoops (value :: s.frame.loops)) m (some e) t →
      Run settings V E names .turns s m (some e) (t.withLoops s.frame.loops)
  | template {names s t m r} (name : String) :
      Run settings V E names .plain (s.withTemplate (some name)) m r t →
      Run settings V E names .plain s m r (t.withTemplate s.frame.template)
  | isolated {names names' s t m r} (template : Option String) :
      Run settings V E names' .plain (s.withFrame (s.frame.isolated template)) m r t →
      Run settings V E names .plain s m r (t.withFrame s.frame)
  | includes {names s t m r} (document : Document) :
      Run settings V E (document.targets ++ names) .scoped s m r t →
      Run settings V E names .scoped s (⟨.includes document, s⟩ :: m) r t

/-! ## What single steps change -/

/-- A charge is one of the budget, which is the only thing that changes. -/
theorem charge_eq (cost : Budget → Except Error Unit × Budget) (s : RenderState) :
    charge cost s
      = ((cost s.progress.budget).1,
          { s with progress.budget := (cost s.progress.budget).2 }) := rfl

/-- A scope that could be opened counts as one more. -/
theorem eq_of_enterScope {s s' : RenderState} (h : charge Budget.enterScope s = (.ok (), s')) :
    s' = { s with
      progress.budget := { s.progress.budget with
        depth := s.progress.budget.depth + 1
        maxDepth := max s.progress.budget.maxDepth (s.progress.budget.depth + 1) } } := by
  rw [charge_eq] at h
  unfold Budget.enterScope at h
  split at h
  · exact nomatch (Prod.mk.inj h).1
  · exact (Prod.mk.inj h).2.symm

/-- An assignment charges first and binds only if that is accepted. -/
theorem assign_eq (name : String) (value : Value) (s : RenderState) :
    Render.assign name value s
      = match charge (·.chargeAssign value.storageCost) s with
        | (.ok _, s) => store name value s
        | (.error e, s) => (.error e, s) := by
  unfold Render.assign
  rw [Attempt.bind_apply]
  cases charge (·.chargeAssign value.storageCost) s with
  | mk r t => cases r <;> rfl

/-- Beyond the charge an assignment changes the frame only. -/
theorem progress_assign (name : String) (value : Value) (s : RenderState) :
    (Render.assign name value s).2.progress
      = (charge (·.chargeAssign value.storageCost) s).2.progress := by
  rw [assign_eq]
  cases charge (·.chargeAssign value.storageCost) s with
  | mk r t => cases r <;> rfl

/-- An assignment fails if and only if its charge does. -/
theorem failure_assign (name : String) (value : Value) (s : RenderState) :
    failure (Render.assign name value s).1
      = failure (charge (·.chargeAssign value.storageCost) s).1 := by
  rw [assign_eq]
  cases charge (·.chargeAssign value.storageCost) s with
  | mk r t => cases r <;> rfl

/-- The frame after an assignment: as it was, or with the value stored. -/
theorem frame_assign (name : String) (value : Value) (s : RenderState) :
    (Render.assign name value s).2.frame = s.frame
      ∨ (Render.assign name value s).2.frame = (store name value s).2.frame := by
  rw [assign_eq, charge_eq]
  cases (s.progress.budget.chargeAssign value.storageCost).1 with
  | ok a => exact .inr rfl
  | error e => exact .inl rfl

namespace Kept

variable {settings : Settings} {s t : RenderState}

/-- What is kept leaves the frame. -/
theorem frame (h : Kept settings s t) : t.frame = s.frame := by
  cases h <;> rfl

theorem output (h : Kept settings s t) : t.progress.output = s.progress.output := by
  cases h <;> rfl

theorem budget (h : Kept settings s t) : t.progress.budget = s.progress.budget := by
  cases h <;> rfl

theorem errors (h : Kept settings s t) : t.progress.errors = s.progress.errors := by
  cases h <;> rfl

end Kept

/-! ## Runs stay within the admitted states -/

/-- One more value that satisfies `V`. -/
theorem Object.All.put {V : Value → Prop} {m : Object} (h : Object.All V m) (name : String)
    {value : Value} (hv : V value) : Object.All V (m.put name value) :=
  Assoc.forall_mem_put h name hv

/-- One more partial that is standard. -/
theorem Registers.AreStandard.put {registers : Registers} (h : registers.AreStandard)
    (name : String) {document : Document} (hd : document.isStandard = true) :
    ∀ e ∈ registers.partials.put name document, e.2.isStandard = true :=
  Assoc.forall_mem_put (P := fun document : Document => document.isStandard = true) h name hd

namespace Frame.Admits

variable {V : Value → Prop} {frame : Frame}

/-- A value that satisfies `V` may be bound in the innermost scope. -/
theorem bind (h : frame.Admits V) (name : String) {value : Value} (hv : V value) :
    { frame with scopes := frame.scopes.bind name value }.Admits V := by
  cases hi : frame.scopes.inner with
  | nil =>
    have hb : frame.scopes.bind name value
        = { frame.scopes with outer := frame.scopes.outer.put name value } := by
      simp only [Scopes.bind, hi]
    rw [hb]
    exact ⟨h.inner, h.outer.put name hv, h.environments, h.loops⟩
  | cons scope scopes =>
    have hb : frame.scopes.bind name value
        = { frame.scopes with inner := scope.put name value :: scopes } := by
      rw [Scopes.bind, hi]
    have hall := h.inner
    rw [hi] at hall
    obtain ⟨hscope, hscopes⟩ := List.forall_mem_cons.mp hall
    rw [hb]
    refine ⟨?_, h.outer, h.environments, h.loops⟩
    exact List.forall_mem_cons.mpr ⟨hscope.put name hv, hscopes⟩

/-- It may be assigned. -/
theorem store (h : frame.Admits V) (name : String) {value : Value} (hv : V value) :
    { frame with scopes := frame.scopes.assign name value }.Admits V :=
  ⟨h.inner, h.outer.put name hv, h.environments, h.loops⟩

theorem push (h : frame.Admits V) : { frame with scopes := frame.scopes.push }.Admits V :=
  ⟨List.forall_mem_cons.mpr ⟨List.forall_mem_nil _, h.inner⟩, h.outer, h.environments, h.loops⟩

theorem pop (h : frame.Admits V) : { frame with scopes := frame.scopes.pop }.Admits V :=
  ⟨fun scope hs => h.inner scope (List.mem_of_mem_tail hs), h.outer, h.environments, h.loops⟩

theorem withLoops (h : frame.Admits V) {loops : List Value} (hl : ∀ loop ∈ loops, V loop) :
    { frame with loops }.Admits V :=
  ⟨h.inner, h.outer, h.environments, hl⟩

/-- An isolated frame holds no values but those of the environments. -/
theorem isolated (template : Option String) : (frame.isolated template).Admits V :=
  ⟨List.forall_mem_nil _, List.forall_mem_nil _, List.forall_mem_nil _, List.forall_mem_nil _⟩

end Frame.Admits

/-- A run that starts within the admitted states ends within them. -/
theorem Run.admits {settings : Settings} {V : Value → Prop} {E : Error → Prop}
    {names : List String} {place : Place} {s t : RenderState} {m : List Moment}
    {r : Option Error} (htags : settings.registry.tags = TagKind.standard)
    (hstr : ∀ text, V (.str text)) (h : Run settings V E names place s m r t)
    (hs : s.Admits V) : t.Admits V := by
  -- By induction on the run: what is bound or stored satisfies `V` by its constructor, and the
  -- registers change where a partial is read, and nowhere else.
  induction h with
  | done => exact hs
  | fail => exact hs
  | keep hk =>
    cases hk with
    | position => exact ⟨hs.frame, hs.registers⟩
    | document s hread =>
      exact ⟨hs.frame, hs.registers.put _ (settings.readPartial_isStandard htags hread)⟩
    | iteration => exact ⟨hs.frame, hs.registers⟩
  | bind name _ hv => exact ⟨hs.frame.bind name hv, hs.registers⟩
  | seq _ _ _ ih ih' => exact ih' (ih hs)
  | lift _ ih => exact ih hs
  | body => exact ⟨hs.frame, hs.registers⟩
  | write => exact ⟨hs.frame, hs.registers⟩
  | @assign _ s name value _ hv =>
    constructor
    · -- The value is assigned, or the charge for it is refused.
      rcases frame_assign name value s with hf | hf <;> rw [hf]
      · exact hs.frame
      · exact hs.frame.store name hv
    · rw [progress_assign]
      exact hs.registers
  | interrupt => exact ⟨⟨hs.frame.inner, hs.frame.outer, hs.frame.environments, hs.frame.loops⟩,
      hs.registers⟩
  | takeUp => exact hs
  | recover _ _ _ _ ih ih' => exact ih' ⟨(ih hs).frame, (ih hs).registers⟩
  | capture _ _ ih =>
    have ht := ih ⟨hs.frame, hs.registers⟩
    -- What is stored is a text.
    exact ⟨ht.frame.store _ (hstr _), ht.registers⟩
  | captureFailed _ ih =>
    have ht := ih ⟨hs.frame, hs.registers⟩
    exact ⟨ht.frame, ht.registers⟩
  | @scope _ s s' _ _ _ hc _ ih | @loop _ s s' _ _ hc _ ih | @loopFailed _ s s' _ _ _ hc _ ih =>
    have hs' : s'.Admits V := by
      rw [show s' = (charge Budget.enterScope s).2 by rw [hc]]
      exact ⟨hs.frame, hs.registers⟩
    have ht := ih ⟨hs'.frame.push, hs'.registers⟩
    exact ⟨ht.frame.pop, ht.registers⟩
  -- The loop of the turn is put on the loops, and taken off at its end.
  | turn hv _ ih | turnFailed hv _ ih =>
    have ht := ih ⟨hs.frame.withLoops (List.forall_mem_cons.mpr ⟨hv, hs.frame.loops⟩),
      hs.registers⟩
    exact ⟨⟨ht.frame.inner, ht.frame.outer, ht.frame.environments, hs.frame.loops⟩, ht.registers⟩
  -- Only the name of the template is put back.
  | template _ _ ih =>
    have ht := ih ⟨⟨hs.frame.inner, hs.frame.outer, hs.frame.environments, hs.frame.loops⟩,
      hs.registers⟩
    exact ⟨⟨ht.frame.inner, ht.frame.outer, ht.frame.environments, ht.frame.loops⟩, ht.registers⟩
  | isolated template _ ih =>
    -- The frame of the caller is put back, but the partials that were read stay.
    have ht := ih ⟨.isolated template, hs.registers⟩
    exact ⟨hs.frame, ht.registers⟩
  | includes _ _ ih => exact ih hs

/-! ## How runs fail -/

/-- A refused charge is an error of the budget. -/
private theorem eq_overBudget_of_failure {tooMuch : Bool} {e : Error}
    (h : failure (if tooMuch then .error .overBudget else .ok () : Except Error Unit) = some e) :
    e = .overBudget := by
  cases tooMuch with
  | true => exact (Option.some.inj h).symm
  | false => exact nomatch h

/-- A charge for a text is refused with the error of the budget. -/
private theorem failure_chargeWrite {b : Budget} {bytes : Nat} {e : Error}
    (h : failure (b.chargeWrite bytes).1 = some e) : e = .overBudget := by
  cases hc : b.captures with
  | zero =>
    rw [Budget.chargeWrite_of_not_captured hc] at h
    exact eq_overBudget_of_failure h
  | succ n =>
    rw [Budget.chargeWrite_of_captured (by omega), Budget.chargeAssign_eq] at h
    exact eq_overBudget_of_failure h

/-- A run fails with an error that began in it, or with that of the budget. -/
theorem Run.error_of_failed {settings : Settings} {V : Value → Prop} {E : Error → Prop}
    {names : List String} {place : Place} {s t : RenderState} {m : List Moment}
    {r : Option Error} (hbudget : E .overBudget) (h : Run settings V E names place s m r t) :
    ∀ e, r = some e → E e := by
  induction h with
  | done | keep | bind | interrupt | takeUp | capture | loop | turn => exact nofun
  | fail he => exact fun _ h => Option.some.inj h ▸ he
  | seq _ _ _ _ ih' => exact ih'
  | lift _ ih => exact ih
  | body nodes turn =>
    intro e h
    rw [charge_eq, Budget.chargeScore_eq] at h
    exact eq_overBudget_of_failure h ▸ hbudget
  | write text => exact fun _ h => failure_chargeWrite h ▸ hbudget
  | assign =>
    intro e h
    rw [failure_assign, charge_eq, Budget.chargeAssign_eq] at h
    exact eq_overBudget_of_failure h ▸ hbudget
  | recover _ _ _ _ _ ih' => exact ih'
  | captureFailed _ ih => exact ih
  | scope _ _ ih => exact ih
  | loopFailed _ _ ih => exact ih
  | turnFailed _ _ ih => exact ih
  | template _ _ ih => exact ih
  | isolated _ _ ih => exact ih
  | includes _ _ ih => exact ih

end Stencil
