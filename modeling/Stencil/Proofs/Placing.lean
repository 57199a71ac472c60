import Stencil.Proofs.Faults
import Stencil.Proofs.OwnSteps

/-!
# Where errors are recorded

A node is rescued under the name that the render has at that moment, and with the line that the
node keeps. On whatever way a render comes to a node and whatever failed before, that name is the
name of the document that the node is part of. So the errors that a render records are its faults,
each with the place of the node whose own step failed, and a strict render ends with the first of
them as it was raised.

## Key definitions

- `Leaves`: which faults a step dealt with, and which one it fails with
- `Tracked`: a step of a render, the same step of a strict render, and its faults

## Key results

- `Tracked.rescuing`: an error is recorded with the place of the node whose own it is
- `Body.tracked_render`: bodies
- `Document.tracked_renderWithin`: documents, with the partials that they call
-/

namespace Stencil

open Render

/-! ## Steps and their faults -/

/-- The same settings, where the first error ends the render. -/
abbrev Settings.strict (settings : Settings) : Settings :=
  { settings with rethrow := true }

/-- The node is part of its document, which is known by its name, and may fail. -/
structure Location.IsKnown (known : Option String → Document → Prop) (location : Location) :
    Prop where
  document : known location.owner location.document
  node : location.document.Within location.node
  active : location.node.isIdle = false

/-- A fault that a render can come across: its node is known, and the error is one that a render
raises. -/
structure Fault.IsKnown (known : Known) (f : Fault) : Prop where
  location : f.location.IsKnown known.document
  error : known.error f.error

/-- Of the faults in a log, those in `dealt` were dealt with before the step ended, with an error or
without one. An error that is left is that of the last fault, unless the budget is exhausted; one
that a render goes on after can only be left by a step of the node `caller`. -/
inductive Leaves (settings : Settings) (caller : Option Location) (dealt : List Fault) :
    List Fault → Option Error → Prop where
  | nothing : Leaves settings caller dealt dealt none
  | exhausted {e : Error} : e.kind = .memory → Leaves settings caller dealt dealt (some e)
  | fault {f : Fault} : (settings.propagates f.error = false → caller = some f.location) →
      Leaves settings caller dealt (dealt ++ [f]) (some f.error)

/-- What the step of a strict render does where another one has the faults of the log: the same if
there are none, and otherwise it fails with the first of them. -/
def EndsAtFault {α : Type} : (log : List Fault) → (lenient strict : Except Error α × RenderState) →
    Prop
  | [], lenient, strict => strict = lenient
  | f :: _, _, strict => strict.1 = .error f.error

/-- What a step of a render in a document named `owner` comes to, where the errors `before` were
recorded before, with its faults and with what the same step of a strict render comes to. -/
structure TrackedAt (settings : Settings) (known : Known)
    (owner : Option String) (caller : Option Location) (before : Array Error) {α : Type}
    (log : List Fault) (lenient strict : Except Error α × RenderState) : Prop where
  under : lenient.2.IsUnder known owner
  faults : ∀ f ∈ log, f.IsKnown known
  recorded : ∃ dealt : List Fault,
    lenient.2.progress.errors.toList = before.toList ++ dealt.map Fault.recorded
      ∧ (∀ f ∈ dealt, settings.propagates f.error = false)
      ∧ Leaves settings caller dealt log (failure lenient.1)
  strict : EndsAtFault log lenient strict

/-- In a document named `owner`, the step `x` has the faults `l`, and `y` does the same in a strict
render. An error that a render goes on after is left by own steps of the node `caller` only. -/
def Tracked (settings : Settings) (known : Known)
    (owner : Option String) (caller : Option Location) {α : Type} (l : FaultLog)
    (x y : Render α) : Prop :=
  ∀ s, s.IsUnder known owner →
    TrackedAt settings known owner caller s.progress.errors (l s) (x s) (y s)

variable {settings : Settings} {known : Known} {owner : Option String}
  {caller : Option Location} {α β : Type} {Q : α → Prop}

namespace Leaves

variable {dealt dealt' log : List Fault} {e? : Option Error}

/-- What was dealt with before counts as well. -/
theorem prepend (h : Leaves settings caller dealt' log e?) (dealt : List Fault) :
    Leaves settings caller (dealt ++ dealt') (dealt ++ log) e? := by
  cases h with
  | nothing => exact .nothing
  | exhausted hkind => exact .exhausted hkind
  | fault hcaller =>
    rw [← List.append_assoc]
    exact .fault hcaller

/-- Without an error all faults were dealt with. -/
theorem eq_of_ok (h : Leaves settings caller dealt log none) : log = dealt := by
  cases h
  rfl

/-- If no node is to blame, none of the errors that a render goes on after is left. -/
theorem of_none (h : Leaves settings none dealt log e?) : Leaves settings caller dealt log e? := by
  cases h with
  | nothing => exact .nothing
  | exhausted hkind => exact .exhausted hkind
  | fault hcaller => exact .fault fun hp => nomatch hcaller hp

/-- An error that ends the render is left by all nodes around. -/
theorem of_propagates {e : Error} (h : Leaves settings caller dealt log (some e))
    (hp : settings.propagates e = true) {caller' : Option Location} :
    Leaves settings caller' dealt log (some e) := by
  cases h with
  | exhausted hkind => exact .exhausted hkind
  | fault _ => exact .fault fun hrecovers => nomatch hp.symm.trans hrecovers

/-- An error that a render goes on after is that of the last fault, a step of the caller. -/
theorem exists_fault {location : Location} {e : Error}
    (h : Leaves settings (some location) dealt log (some e)) (hp : settings.propagates e = false) :
    ∃ f, f.error = e ∧ f.location = location ∧ log = dealt ++ [f] := by
  cases h with
  | exhausted hkind => exact absurd hkind (Settings.kind_of_not_propagates hp)
  | @fault f hcaller => exact ⟨f, rfl, (Option.some.inj (hcaller hp)).symm, rfl⟩

end Leaves

/-- A step inside something that is opened before it and closed behind it. -/
theorem TrackedAt.inside {owner' : Option String} {before : Array Error} {log : List Fault}
    {x y : Except Error α × RenderState} {x' y' : Except Error β × RenderState}
    (h : TrackedAt settings known owner' caller before log x y)
    (herrors : x'.2.progress.errors = x.2.progress.errors)
    (hunder : x.2.IsUnder known owner' → x'.2.IsUnder known owner)
    (hresult : failure x'.1 = failure x.1) (hsame : y = x → y' = x')
    (hfails : ∀ e, y.1 = .error e → y'.1 = .error e) :
    TrackedAt settings known owner caller before log x' y' := by
  obtain ⟨hinner, hfaults, ⟨dealt, hrecorded, hdealt, hleaves⟩, hstrict⟩ := h
  refine ⟨hunder hinner, hfaults, ⟨dealt, herrors ▸ hrecorded, hdealt, hresult ▸ hleaves⟩, ?_⟩
  -- Without faults both runs did the same; after one the strict run has failed.
  cases log with
  | nil => exact hsame hstrict
  | cons f log => exact hfails _ hstrict

namespace Tracked

/-- What no node is to blame for may be part of any step. -/
theorem of_none {x y : Render α} {l : FaultLog} (h : Tracked settings known owner none l x y) :
    Tracked settings known owner caller l x y := by
  intro s hs
  obtain ⟨hunder, hfaults, ⟨dealt, herrors, hdealt, hleaves⟩, hstrict⟩ := h s hs
  exact ⟨hunder, hfaults, ⟨dealt, herrors, hdealt, hleaves.of_none⟩, hstrict⟩

/-- A step that a node takes itself. -/
theorem own {x : Render α} (hx : OwnStep known x Q) {location : Location}
    (hlocation : location.IsKnown known.document) :
    Tracked settings known owner (some location) (.own location x) x x := by
  intro s hs
  have hunder := hx.under hs
  have herrors := hx.errors hs
  have hmeets := hx.meets hs
  unfold FaultLog.own
  -- The step fails, which is its only fault, or it has none.
  rcases h : x s with ⟨e | a, t⟩
  · rw [h] at hunder herrors hmeets
    refine ⟨hunder, List.forall_mem_singleton.mpr ⟨hlocation, hmeets⟩,
      ⟨[], ?_, List.forall_mem_nil _, ?_⟩, rfl⟩
    · rw [herrors, List.map_nil, List.append_nil]
    · exact @Leaves.fault _ _ [] ⟨location, e⟩ fun _ => rfl
  · rw [h] at hunder herrors
    refine ⟨hunder, List.forall_mem_nil _, ⟨[], ?_, List.forall_mem_nil _, .nothing⟩, rfl⟩
    rw [herrors, List.map_nil, List.append_nil]

/-- A step that fails with the error of the budget only. -/
theorem silent {x : Render α} (hx : OwnStep known x Q)
    (hbudget : x.Ensures (fun _ => True) (· = .overBudget)) :
    Tracked settings known owner caller .silent x x := by
  intro s hs
  refine ⟨hx.under hs, List.forall_mem_nil _, ⟨[], ?_, List.forall_mem_nil _, ?_⟩, rfl⟩
  · rw [hx.errors hs, List.map_nil, List.append_nil]
  · -- Only the budget can fail it, which is no fault.
    have hmeets := hbudget s
    cases h : (x s).1 with
    | ok a => exact .nothing
    | error e =>
      rw [h] at hmeets
      obtain rfl : e = .overBudget := hmeets
      exact .exhausted rfl

/-- Giving a value has no faults. -/
theorem pure (a : α) : Tracked settings known owner caller .silent (Pure.pure a) (Pure.pure a) :=
  silent (Q := fun _ => True) (.pure trivial) fun _ => trivial

/-- A sequence of two steps. -/
theorem bind {x y : Render α} {f g : α → Render β} {l : FaultLog} {next : α → FaultLog}
    (hx : Tracked settings known owner caller l x y)
    (hf : ∀ s a t, s.IsUnder known owner → x s = (.ok a, t) →
      Tracked settings known owner caller (next a) (f a) (g a)) :
    Tracked settings known owner caller (l.bind x next) (x >>= f) (y >>= g) := by
  intro s hs
  obtain ⟨hunder, hfaults, ⟨dealt, herrors, hdealt, hleaves⟩, hstrict⟩ := hx s hs
  -- Whatever follows, a strict step that has failed fails with the same error.
  have hends {lenient : Except Error β × RenderState} {log : List Fault}
      (hnil : l s = [] → EndsAtFault log lenient ((y >>= g) s)) :
      EndsAtFault (l s ++ log) lenient ((y >>= g) s) := by
    cases hlog : l s with
    | nil => exact hnil hlog
    | cons f log =>
      rw [hlog] at hstrict
      exact congrArg Prod.fst (Attempt.bind_of_error (Prod.ext hstrict rfl) g)
  unfold FaultLog.bind FaultLog.follow
  rcases h : x s with ⟨e | a, t⟩
  · -- The first step fails itself, so nothing more is noted.
    rw [h] at hunder herrors hleaves hstrict
    rw [Attempt.bind_of_error h]
    refine ⟨hunder, ?_, ⟨dealt, herrors, hdealt, ?_⟩, hends fun hlog => ?_⟩
    · rw [List.append_nil]
      exact hfaults
    · rw [List.append_nil]
      exact hleaves
    · rw [hlog] at hstrict
      exact Attempt.bind_of_error hstrict g
  · rw [h] at hunder herrors hleaves hstrict
    obtain ⟨hunder', hfaults', ⟨dealt', herrors', hdealt', hleaves'⟩, hstrict'⟩ :=
      hf s a t hs h t hunder
    rw [Attempt.bind_of_ok h]
    refine ⟨hunder', List.forall_mem_append.mpr ⟨hfaults, hfaults'⟩,
      ⟨dealt ++ dealt', ?_, List.forall_mem_append.mpr ⟨hdealt, hdealt'⟩, ?_⟩, hends fun hlog => ?_⟩
    · rw [herrors', herrors, List.map_append, List.append_assoc]
    · rw [Leaves.eq_of_ok hleaves]
      exact hleaves'.prepend dealt
    · rw [hlog] at hstrict
      rw [Attempt.bind_of_ok hstrict]
      exact hstrict'

/-- A step that a node takes itself, and what follows. -/
theorem after {x : Render α} (hx : OwnStep known x Q) {location : Location}
    (hlocation : location.IsKnown known.document) {f g : α → Render β}
    {next : α → FaultLog}
    (hf : ∀ a, Q a → Tracked settings known owner (some location) (next a) (f a) (g a)) :
    Tracked settings known owner (some location) (.after location x next) (x >>= f) (x >>= g) :=
  (own hx hlocation).bind fun _ a _ hs h => hf a (hx.of_ok hs h)

/-- A step that fails with the error of the budget only, and what follows. -/
theorem follow {x : Render α} (hx : OwnStep known x Q)
    (hbudget : x.Ensures (fun _ => True) (· = .overBudget)) {f g : α → Render β}
    {next : α → FaultLog}
    (hf : ∀ a, Q a → Tracked settings known owner caller (next a) (f a) (g a)) :
    Tracked settings known owner caller (.follow x next) (x >>= f) (x >>= g) :=
  (silent hx hbudget).bind fun _ a _ hs h => hf a (hx.of_ok hs h)

/-- Nothing is added where what follows is not noted. -/
private theorem log_bind_silent (l : FaultLog) (x : Render α) :
    l.bind x (fun _ => .silent) = l := by
  funext s
  unfold FaultLog.bind FaultLog.follow
  split <;> exact List.append_nil _

/-- A step, and something that is not noted. -/
theorem last {x y : Render α} {f g : α → Render β} {l : FaultLog}
    (hx : Tracked settings known owner caller l x y)
    (hf : ∀ a, Tracked settings known owner caller .silent (f a) (g a)) :
    Tracked settings known owner caller l (x >>= f) (y >>= g) := by
  rw [← log_bind_silent l x]
  exact hx.bind fun _ a _ _ _ => hf a

/-- A step that a node takes itself, and something that is not noted. -/
theorem ownLast {x : Render α} (hx : OwnStep known x Q) {location : Location}
    (hlocation : location.IsKnown known.document) {f g : α → Render β}
    (hf : ∀ a, Q a → Tracked settings known owner (some location) .silent (f a) (g a)) :
    Tracked settings known owner (some location) (.own location x) (x >>= f) (x >>= g) := by
  rw [← log_bind_silent (.own location x) x]
  exact after hx hlocation hf

/-- Numbered steps. -/
theorem steps {step step' : Nat → Render Bool} {l : Nat → FaultLog}
    (h : ∀ index, Tracked settings known owner caller (l index) (step index) (step' index))
    (length remaining : Nat) :
    Tracked settings known owner caller (.steps step l length remaining)
      (Render.steps step length remaining) (Render.steps step' length remaining) := by
  -- Turn after turn, until one says that no more follow.
  induction remaining with
  | zero => exact pure ()
  | succ remaining ih =>
    rw [steps_succ, steps_succ]
    refine (h _).bind fun _ more _ _ _ => ?_
    cases more with
    | true => exact ih
    | false => exact pure ()

/-! ### Steps inside something -/

/-- A diversion has the faults of what is diverted. -/
theorem diverted {x y : Render Unit} {l : FaultLog}
    (h : Tracked settings known owner caller l x y) :
    Tracked settings known owner caller (.diverted l) (Render.diverted x) (Render.diverted y) := by
  intro s hs
  rw [diverted_eq, diverted_eq]
  refine (h (s.withOutput "") (hs.of_eq rfl rfl)).inside rfl
    (fun h => h.of_eq rfl rfl) (failure_map _ _) (fun h => ?_) fun e he => ?_
  · rw [h]
  · rw [he]
    rfl

theorem captured {x y : Render Unit} {l : FaultLog}
    (h : Tracked settings known owner caller l x y) :
    Tracked settings known owner caller (.captured l) (Render.captured x) (Render.captured y) := by
  intro s hs
  rw [captured_eq, captured_eq]
  refine (h.diverted s.beginCapture (hs.of_eq rfl rfl)).inside rfl
    (fun h => h.of_eq rfl rfl) rfl (fun h => ?_) fun e he => he
  rw [h]

/-- A turn of a loop has the faults of its body. -/
theorem inLoop {loop : Value} (hloop : known.value loop) {x y : Render α} {l : FaultLog}
    (h : Tracked settings known owner caller l x y) :
    Tracked settings known owner caller (.inLoop loop l) (Render.inLoop loop x)
      (Render.inLoop loop y) := by
  intro s hs
  rw [inLoop_eq, inLoop_eq]
  -- The loop is one of the values that are known.
  have hinner : (s.withLoops (loop :: s.frame.loops)).IsUnder known owner :=
    ⟨hs.template, hs.partials,
      hs.admits.withLoops (List.forall_mem_cons.mpr ⟨hloop, hs.admits.loops⟩)⟩
  refine (h _ hinner).inside rfl
    (fun h => ⟨h.template, h.partials, h.admits.withLoops hs.admits.loops⟩) rfl (fun h => ?_)
    fun e he => he
  rw [h]

/-- Under another name a step is one in another document; the name is given back in any case. -/
theorem inTemplate {name : String} {x y : Render α} {l : FaultLog}
    (h : Tracked settings known (some name) caller l x y) :
    Tracked settings known owner caller (.inTemplate name l) (Render.inTemplate name x)
      (Render.inTemplate name y) := by
  intro s hs
  rw [inTemplate_eq, inTemplate_eq]
  -- Inside, the template is the owner of the faults.
  have hinner : (s.withTemplate (some name)).IsUnder known (some name) :=
    ⟨rfl, hs.partials,
      hs.admits.inner, hs.admits.outer, hs.admits.environments, hs.admits.loops⟩
  refine (h _ hinner).inside rfl (fun h => ⟨hs.template, h.partials,
    h.admits.inner, h.admits.outer, h.admits.environments, h.admits.loops⟩) rfl (fun h => ?_)
    fun e he => he
  rw [h]

/-- So is a step in a frame of another name. -/
theorem isolated {template : Option String} {x y : Render α} {l : FaultLog}
    (h : Tracked settings known template caller l x y) :
    Tracked settings known owner caller (.isolated template l) (Render.isolated template x)
      (Render.isolated template y) := by
  intro s hs
  rw [isolated_eq, isolated_eq]
  have hinner : (s.withFrame (s.frame.isolated template)).IsUnder known template :=
    ⟨rfl, hs.partials, .isolated template⟩
  refine (h _ hinner).inside rfl (fun h => ⟨hs.template, h.partials, hs.admits⟩) rfl
    (fun h => ?_) fun e he => he
  rw [h]

/-- A step in a scope that was opened for it. -/
private def enclosed (x : Render α) : Render α := fun s =>
  ((x s.pushScope).1, (x s.pushScope).2.popScope)

/-- A scope is charged for and then opened. -/
private theorem inScope_eq_bind (x : Render α) :
    Render.inScope x = charge Budget.enterScope >>= fun _ => enclosed x := by
  funext s
  unfold Render.inScope
  rw [Attempt.bind_apply]
  rcases charge Budget.enterScope s with ⟨r | r, t⟩ <;> rfl

/-- A scope that cannot be opened is the fault of the node that opens it. -/
theorem inScope (hdeep : known.error .tooDeep) {location : Location}
    (hlocation : location.IsKnown known.document) {x y : Render α} {l : FaultLog}
    (h : Tracked settings known owner (some location) l x y) :
    Tracked settings known owner (some location) (.inScope location l) (Render.inScope x)
      (Render.inScope y) := by
  -- Opening the scope is a step of the tag,
  have hopen : OwnStep known (charge Budget.enterScope) fun _ => True := by
    refine .charge fun b => ?_
    unfold Budget.enterScope
    split
    · exact hdeep
    · trivial
  -- and what happens inside stays at its place.
  have hinner : Tracked settings known owner (some location) (fun s => l s.pushScope)
      (enclosed x) (enclosed y) := by
    intro s hs
    unfold enclosed
    refine (h s.pushScope ⟨hs.template, hs.partials, hs.admits.push⟩).inside rfl
      (fun h => ⟨h.template, h.partials, h.admits.pop⟩) rfl (fun h => ?_) fun e he => he
    rw [h]
  rw [inScope_eq_bind, inScope_eq_bind]
  exact after hopen hlocation fun _ _ => hinner

/-! ### Errors that are dealt with -/

/-- An error that does not end the render is recorded, and nothing else changes that matters. -/
private theorem rescue_recovers {e : Error} (hp : settings.propagates e = false)
    (line : Option Nat) (blank : Bool) {t : RenderState} (ht : t.IsUnder known owner) :
    (rescue settings line blank e t).2.progress.errors = t.progress.errors.push (placed line e t)
      ∧ (rescue settings line blank e t).2.IsUnder known owner
      ∧ Meets (fun _ => True) (· = .overBudget) (rescue settings line blank e t).1 := by
  rw [rescue_of_not_propagates hp]
  split
  · exact ⟨rfl, ht.of_eq rfl rfl, trivial⟩
  · exact ⟨rfl, ht.of_eq rfl rfl, meets_emit _ _⟩

/-- A strict step that has failed is not rescued. -/
private theorem endsAtFault_rescuing {log : List Fault} {x : Except Error Unit × RenderState}
    {x' : Except Error Unit × RenderState} {y : Render Unit} {s : RenderState}
    (h : EndsAtFault log x (y s)) (line : Option Nat) (blank : Bool)
    (hnil : log = [] → Render.rescuing settings.strict line blank y s = x') :
    EndsAtFault log x' (Render.rescuing settings.strict line blank y s) := by
  cases log with
  | nil => exact hnil rfl
  | cons f log =>
    show (Render.rescuing settings.strict line blank y s).1 = .error f.error
    rw [rescuing_of_error (Prod.ext h rfl),
      rescue_of_propagates (Settings.propagates_of_rethrow rfl f.error)]

/-- An error that a node is to blame for is recorded with the place of the node, or leaves it for
good. -/
theorem rescuing {location : Location} (howner : location.owner = owner) (blank : Bool)
    {x y : Render Unit} {l : FaultLog}
    (h : Tracked settings known owner (some location) l x y) :
    Tracked settings known owner none l (Render.rescuing settings location.node.line blank x)
      (Render.rescuing settings.strict location.node.line blank y) := by
  intro s hs
  obtain ⟨hunder, hfaults, ⟨dealt, herrors, hdealt, hleaves⟩, hstrict⟩ := h s hs
  rcases hx : x s with ⟨e | a, t⟩
  · rw [hx] at hunder herrors hleaves hstrict
    rw [rescuing_of_error hx]
    cases hp : settings.propagates e with
    | true =>
      rw [rescue_of_propagates hp]
      refine ⟨hunder, hfaults, ⟨dealt, herrors, hdealt, Leaves.of_propagates hleaves hp⟩,
        endsAtFault_rescuing hstrict _ _ fun hlog => ?_⟩
      rw [hlog] at hstrict
      rw [rescuing_of_error hstrict, rescue_of_propagates (Settings.propagates_of_rethrow rfl e)]
    | false =>
      obtain ⟨hrecorded, hunder', hbudget⟩ := rescue_recovers hp location.node.line blank hunder
      -- The error is one of this node, so it gets the place that it is to be recorded with.
      obtain ⟨f, rfl, rfl, hlog⟩ := Leaves.exists_fault hleaves hp
      have hplaced : placed f.location.node.line f.error t = f.recorded := by
        unfold placed Fault.recorded
        rw [hunder.template, howner]
      refine ⟨hunder', hfaults, ⟨dealt ++ [f], ?_, ?_, ?_⟩,
        endsAtFault_rescuing hstrict _ _ fun hnil => ?_⟩
      · rw [hrecorded, hplaced, Array.toList_push, herrors, List.map_append, List.append_assoc]
        rfl
      · exact List.forall_mem_append.mpr ⟨hdealt, List.forall_mem_singleton.mpr hp⟩
      · -- Nothing is left but what writing the message may raise.
        rw [hlog]
        generalize (rescue settings _ blank f.error t).1 = r at hbudget
        cases r with
        | ok a => exact .nothing
        | error e' =>
          obtain rfl : e' = .overBudget := hbudget
          exact .exhausted rfl
      · rw [hlog] at hnil
        exact absurd hnil (List.append_ne_nil_of_right_ne_nil _ (List.cons_ne_nil _ _))
  · rw [hx] at hunder herrors hleaves hstrict
    rw [rescuing_of_ok hx]
    refine ⟨hunder, hfaults, ⟨dealt, herrors, hdealt, Leaves.eq_of_ok hleaves ▸ .nothing⟩,
      endsAtFault_rescuing hstrict _ _ fun hlog => ?_⟩
    rw [hlog] at hstrict
    exact rescuing_of_ok hstrict _ blank

/-! ### Loops -/

/-- All turns of a loop. -/
theorem loop (hk : known.Covers settings) {location : Location}
    (hlocation : location.IsKnown known.document) (name : String) (header : LoopHeader)
    {slice : Slice} (hslice : ∀ index, known.value (slice.get index)) {body body' : Render Unit}
    {l : FaultLog} (h : Tracked settings known owner (some location) l body body') :
    Tracked settings known owner (some location) (.loop location name header slice body l)
      (Render.loop name header slice body) (Render.loop name header slice body') := by
  intro s hs
  let parent := s.frame.loops.head?.getD .nil
  have hparent : known.value parent := by
    dsimp only [parent]
    cases hl : s.frame.loops.head? with
    | none => exact hk.nil
    | some loop => exact hs.admits.loops loop (List.mem_of_head? hl)
  -- The loop around this one is the parent of all turns, so it is taken before the scope opens.
  have hturn (index : Nat) : Tracked settings known owner (some location)
      (.follow (beginTurn name header slice parent index) fun loop => .inLoop loop l)
      (iteration name header slice parent body index)
      (iteration name header slice parent body' index) :=
    follow (.beginTurn hk name header hslice hparent index) (fun _ => trivial) fun loop hloop =>
      (h.inLoop hloop).last fun _ => (silent .takeInterrupt fun _ => trivial).last fun _ => pure _
  exact inScope hk.tooDeep hlocation (steps hturn slice.length slice.length) s hs

/-! ### Calls of partials -/

/-- A partial that is included for each item. -/
theorem eachItem (target : String) {render render' : Render Unit} {l : FaultLog}
    (h : Tracked settings known owner caller l render render') {items : List Value}
    (hitems : ∀ item ∈ items, known.value item) :
    Tracked settings known owner caller (.eachItem target render l items)
      (Render.eachItem target render items) (Render.eachItem target render' items) := by
  induction items with
  | nil => exact pure ()
  | cons item items ih =>
    rw [eachItem_cons, eachItem_cons]
    obtain ⟨hitem, hrest⟩ := List.forall_mem_cons.mp hitems
    -- The item is bound before its turn, and the others follow.
    refine bind (follow (.bindName target hitem) (fun _ => trivial) fun _ _ => h) ?_
    exact fun _ _ _ _ _ => ih hrest

end Tracked

/-- How documents are rendered that a node calls, by a render and by a strict one. -/
structure CallsTracked (settings : Settings) (known : Known)
    (partials partials' : PartialRenderer) (inner : FaultLog.OfPartials) : Prop where
  covers : known.Covers settings
  call {location : Location} {name : String} {document : Document} :
    location.IsKnown known.document → known.document (some name) document →
    Tracked settings known (some name) (some location) (inner location name document)
      (partials document) (partials' document)

namespace CallsTracked

variable {partials partials' : PartialRenderer} {inner : FaultLog.OfPartials}
  (h : CallsTracked settings known partials partials' inner) {location : Location}
  (hlocation : location.IsKnown known.document)
include h hlocation

/-- A partial that is included has the faults of the tag, and those of its document at its own
places. -/
theorem includePartial (call : PartialCall) :
    Tracked settings known owner (some location)
      (.includePartial settings partials inner location call)
      (Render.includePartial settings partials call)
      (Render.includePartial settings.strict partials' call) := by
  have hk := h.covers
  refine .after (.checkEnabled hk "include") hlocation fun _ _ => ?_
  refine .after (.partialName hk call.template) hlocation fun name _ => ?_
  -- Here it matters which document the step has loaded: it is known by the name.
  refine .after (.loadPartial hk name) hlocation fun document hdocument => ?_
  refine .after (.includedObject hk call name) hlocation fun object hobject => ?_
  -- The attributes are evaluated under the partial's name, but by the caller's node.
  refine .inTemplate (.inScope hk.tooDeep hlocation ?_)
  have hattributes : bindAttributes settings.strict call.attributes
      = bindAttributes settings call.attributes :=
    Versions.bindAttributes_other (.rethrowing settings true) call.attributes
  rw [hattributes]
  exact .after (.bindAttributes hk call.attributes) hlocation fun _ _ =>
    .eachItem _ (h.call hlocation hdocument) (hk.items hobject)

/-- So has a partial that is rendered once. -/
theorem renderOnce (name : String) {attributes : List (String × Value)}
    (hattributes : ∀ e ∈ attributes, known.value e.2)
    {bindings : Render (List (String × Value))}
    (hbindings : OwnStep known bindings fun bindings => ∀ e ∈ bindings, known.value e.2) :
    Tracked settings known owner (some location)
      (.renderOnce settings inner location name attributes bindings)
      (Render.renderOnce settings partials name attributes bindings)
      (Render.renderOnce settings.strict partials' name attributes bindings) := by
  have hk := h.covers
  refine .after (.loadPartial hk name) hlocation fun document hdocument => ?_
  refine .after hbindings hlocation fun bindings hb => ?_
  -- The partial starts in an isolated frame, with one scope for what it is passed.
  refine .isolated (.inScope hk.tooDeep hlocation ?_)
  have hall : ∀ e ∈ attributes ++ bindings, known.value e.2 :=
    List.forall_mem_append.mpr ⟨hattributes, hb⟩
  exact .follow (.bindAll hall) (fun _ => trivial) fun _ _ => h.call hlocation hdocument

theorem renderPartial (name : String) (call : PartialCall) :
    Tracked settings known owner (some location)
      (.renderPartial settings partials inner location name call)
      (Render.renderPartial settings partials name call)
      (Render.renderPartial settings.strict partials' name call) := by
  have hk := h.covers
  refine .after (.evaluateAll hk call.attributes) hlocation fun attributes hattributes => ?_
  refine .after (.passedObject hk _ call) hlocation fun passed hpassed => ?_
  -- One object, or each member in turn.
  cases passed with
  | once bindings => exact h.renderOnce hlocation name hattributes (.pure hpassed)
  | each members =>
    refine .steps (fun index => ?_) members.length members.length
    have hmember := OwnStep.memberBindings hk name (call.objectName name) hpassed index
    exact (h.renderOnce hlocation name hattributes hmember).last fun _ => .pure _

end CallsTracked

/-! ## Nodes -/

/-- A charge fails with the error of the budget. -/
private theorem OwnStep.charge_of (hbudget : known.error .overBudget)
    {cost : Budget → Except Error Unit × Budget} (h : Budget.Charge cost) :
    OwnStep known (Render.charge cost) fun _ => True :=
  .charge fun b => (h.meets b).mono (fun _ h => h) fun _ h => h ▸ hbudget

/-- What is within the body is part of the document. -/
def Body.IsPartOf (body : Body) (document : Document) : Prop :=
  ∀ node, body.Within node → document.Within node

/-- The bodies of a tag of the body are part of what the body is part of. -/
theorem Body.IsPartOf.inner {body inner : Body} {document : Document} {tag : Tag}
    (h : body.IsPartOf document) (htag : .tag tag ∈ body.nodes) (hinner : inner ∈ tag.bodies) :
    inner.IsPartOf document :=
  fun node hnode => h node (.inside htag hinner hnode)

section

variable {partials partials' : PartialRenderer} {inner : FaultLog.OfPartials}

mutual

/-- A body of a document records its faults with their places, and leaves no error that a render
goes on after. -/
theorem Body.tracked_render (h : CallsTracked settings known partials partials' inner)
    {owner : Option String} {document : Document} (hdocument : known.document owner document) :
    ∀ {body : Body}, body.IsPartOf document →
    Tracked settings known owner none
      (Body.faults settings partials inner (Location.mk owner document) body)
      (body.render settings partials) (body.render settings.strict partials')
  | .mk nodes _, hbody => by
    rw [Body.render, Body.render, Body.faults]
    -- The score is charged first; a refusal is no fault.
    refine .follow (.charge_of h.covers.overBudget (.score nodes.length))
      (fun s => meets_charge (.score nodes.length) s) fun _ _ => ?_
    refine Node.tracked_renderAll h hdocument fun node hmem => ⟨hbody node (.here hmem), ?_⟩
    rintro tag rfl inside hinside
    exact hbody.inner hmem hinside
termination_by structural body => body

/-- Node after node, until one says that nothing more is rendered. -/
theorem Node.tracked_renderAll (h : CallsTracked settings known partials partials' inner)
    {owner : Option String} {document : Document} (hdocument : known.document owner document) :
    ∀ {nodes : List Node},
    (∀ node ∈ nodes, document.Within node ∧ ∀ tag, node = .tag tag →
      ∀ inside ∈ tag.bodies, inside.IsPartOf document) →
    Tracked settings known owner none
      (Node.faultsAll settings partials inner (Location.mk owner document) nodes)
      (Node.renderAll settings partials nodes) (Node.renderAll settings.strict partials' nodes)
  | [], _ => .pure ()
  | node :: nodes, hnodes => by
    obtain ⟨hnode, hrest⟩ := List.forall_mem_cons.mp hnodes
    rw [Node.renderAll_cons, Node.renderAll_cons, Node.faultsAll]
    refine (Node.tracked_render h hdocument hnode.1 hnode.2).bind fun _ more _ _ _ => ?_
    -- A node may end the body.
    cases more with
    | true => exact Node.tracked_renderAll h hdocument hrest
    | false => exact .pure ()
termination_by structural nodes => nodes

/-- An error of a node is given the node's place, unless it has one. -/
theorem Node.tracked_render (h : CallsTracked settings known partials partials' inner)
    {owner : Option String} {document : Document} (hdocument : known.document owner document) :
    ∀ {node : Node}, document.Within node →
    (∀ tag, node = .tag tag → ∀ inside ∈ tag.bodies, inside.IsPartOf document) →
    Tracked settings known owner none
      (Node.faults settings partials inner (Location.mk owner document) node)
      (node.render settings partials) (node.render settings.strict partials')
  | .text text, _, _ =>
    (Tracked.silent (.emit h.covers.overBudget text) fun s => meets_emit text s).last
      fun _ => .pure _
  | .output p, hnode, _ => by
    have hwrite : write settings.strict p = write settings p := rfl
    refine Tracked.last ?_ fun _ => .pure _
    rw [hwrite]
    -- What is written is rescued at the place of the output.
    exact (Tracked.own (.write h.covers p) (⟨hdocument, hnode, rfl⟩ :
      Location.IsKnown known.document ⟨owner, document, .output p⟩)).rescuing rfl false
  | .tag tag, hnode, hinside => by
    refine Tracked.last ?_ fun _ =>
      (Tracked.silent .interrupted fun _ => trivial).last fun _ => .pure _
    let location : Location := ⟨owner, document, .tag tag⟩
    have hlocation (hidle : tag.isIdle = false) : location.IsKnown known.document :=
      ⟨hdocument, hnode, hidle⟩
    have htag : Tracked settings known owner (some location)
        (Tag.faults settings partials inner (Location.mk owner document) location tag)
        (tag.render settings partials) (tag.render settings.strict partials') :=
      Tag.tracked_render h hdocument hlocation (hinside tag rfl)
    have howner : location.owner = owner := rfl
    exact Tracked.rescuing howner tag.isBlank htag
termination_by structural node => node

/-- A condition is a place of its tag, a body has places of its own. -/
theorem Branch.tracked_renderFirst (h : CallsTracked settings known partials partials' inner)
    {location : Location} (hlocation : location.IsKnown known.document) (negated : Bool) :
    ∀ {branches : List Branch},
    (∀ inside ∈ branches.map Branch.body, inside.IsPartOf location.document) →
    Tracked settings known location.owner (some location)
      (Branch.faultsFirst settings partials inner (Location.mk location.owner location.document)
        location negated branches)
      (Branch.renderFirst settings partials negated branches)
      (Branch.renderFirst settings.strict partials' negated branches)
  | [], _ => .pure ()
  | .mk condition body :: branches, hinside => by
    obtain ⟨hbody, hrest⟩ := List.forall_mem_cons.mp hinside
    rw [Branch.renderFirst, Branch.renderFirst, Branch.faultsFirst]
    refine .after (.evaluateCondition h.covers condition) hlocation fun holds _ => ?_
    -- The branch is rendered, or the next condition is asked.
    split
    · exact (Body.tracked_render h hlocation.document hbody).of_none
    · exact Branch.tracked_renderFirst h hlocation false hrest
termination_by structural branches => branches

/-- So it is with the arms of a choice. -/
theorem Arm.tracked_renderAll (h : CallsTracked settings known partials partials' inner)
    {location : Location} (hlocation : location.IsKnown known.document) (matched : Bool) :
    ∀ {arms : List Arm},
    (∀ inside ∈ arms.map Arm.body, inside.IsPartOf location.document) →
    Tracked settings known location.owner (some location)
      (Arm.faultsAll settings partials inner (Location.mk location.owner location.document)
        location matched arms)
      (Arm.renderAll settings partials matched arms)
      (Arm.renderAll settings.strict partials' matched arms)
  | [], _ => .pure ()
  | .when condition body :: arms, hinside => by
    obtain ⟨hbody, hrest⟩ := List.forall_mem_cons.mp hinside
    rw [Arm.renderAll, Arm.renderAll, Arm.faultsAll]
    refine .after (.evaluateCondition h.covers condition) hlocation fun holds _ => ?_
    -- What follows an arm that was rendered only counts as matched.
    split
    · exact (Body.tracked_render h hlocation.document hbody).of_none.bind fun _ _ _ _ _ =>
        Arm.tracked_renderAll h hlocation true hrest
    · exact Arm.tracked_renderAll h hlocation matched hrest
  | .otherwise body :: arms, hinside => by
    obtain ⟨hbody, hrest⟩ := List.forall_mem_cons.mp hinside
    rw [Arm.renderAll, Arm.renderAll, Arm.faultsAll]
    split
    · exact Arm.tracked_renderAll h hlocation matched hrest
    · exact (Body.tracked_render h hlocation.document hbody).of_none.bind fun _ _ _ _ _ =>
        Arm.tracked_renderAll h hlocation matched hrest
termination_by structural arms => arms

theorem Body.tracked_renderSections (h : CallsTracked settings known partials partials' inner)
    {location : Location} (hlocation : location.IsKnown known.document) (index : Nat) :
    ∀ {bodies : List Body}, (∀ inside ∈ bodies, inside.IsPartOf location.document) →
    Tracked settings known location.owner (some location)
      (Body.faultsSections settings partials inner
        (Location.mk location.owner location.document) location index bodies)
      (Body.renderSections settings partials index bodies)
      (Body.renderSections settings.strict partials' index bodies)
  | [], _ => .pure ()
  | body :: bodies, hinside => by
    obtain ⟨hbody, hrest⟩ := List.forall_mem_cons.mp hinside
    rw [Body.renderSections, Body.renderSections, Body.faultsSections]
    refine .follow (.emit h.covers.overBudget _) (fun s => meets_emit _ s) fun _ _ => ?_
    -- The marker is written, and the section has a scope of its own.
    have hscope := (Body.tracked_render h hlocation.document hbody).of_none.inScope
      h.covers.tooDeep hlocation
    exact hscope.bind fun _ _ _ _ _ => Body.tracked_renderSections h hlocation (index + 1) hrest
termination_by structural bodies => bodies

/-- A missing body has no faults. -/
theorem Body.tracked_renderIfAny (h : CallsTracked settings known partials partials' inner)
    {owner : Option String} {document : Document} (hdocument : known.document owner document) :
    ∀ {body : Option Body},
    (∀ inside ∈ body.toList, inside.IsPartOf document) →
    Tracked settings known owner none
      (Body.faultsIfAny settings partials inner (Location.mk owner document) body)
      (Body.renderIfAny settings partials body) (Body.renderIfAny settings.strict partials' body)
  | none, _ => .pure ()
  | some body, hinside =>
    Body.tracked_render h hdocument (hinside body (List.mem_singleton_self body))
termination_by structural body => body

/-- Each tag has the faults of its own steps, and those of its bodies. -/
theorem Tag.tracked_render (h : CallsTracked settings known partials partials' inner)
    {location : Location} (hdocument : known.document location.owner location.document) :
    ∀ {tag : Tag}, (tag.isIdle = false → location.IsKnown known.document) →
    (∀ inside ∈ tag.bodies, inside.IsPartOf location.document) →
    Tracked settings known location.owner (some location)
      (Tag.faults settings partials inner (Location.mk location.owner location.document) location
        tag)
      (tag.render settings partials) (tag.render settings.strict partials')
  | .conditional _ negated branches _ _, hlocation, hinside =>
    Branch.tracked_renderFirst h (hlocation rfl) negated hinside
  | .choice arms _ _, hlocation, hinside =>
    Arm.tracked_renderAll h (hlocation rfl) false hinside
  | .loop name header body otherwise _ _, hlocation, hinside => by
    obtain ⟨hbody, hotherwise⟩ := List.forall_mem_cons.mp hinside
    refine .after (.loopSlice h.covers name header) (hlocation rfl) fun slice hslice => ?_
    split
    · exact (Body.tracked_renderIfAny h hdocument hotherwise).of_none
    · exact .loop h.covers (hlocation rfl) name header hslice
        (Body.tracked_render h hdocument hbody).of_none
  | .interrupt i _, _, _ => .silent (.interrupt i) fun _ => trivial
  | .assign target source _, hlocation, _ => by
    refine .ownLast (.evaluatePipeline h.covers source) (hlocation rfl) fun v hv => ?_
    -- The charge can only be refused, which ends both runs.
    have hcharge := OwnStep.charge_of h.covers.overBudget (.assign v.storageCost)
    exact (Tracked.silent hcharge fun s => meets_charge (.assign v.storageCost) s).last
      fun _ => .silent (.store target hv) fun _ => trivial
  | .capture target body _, _, hinside =>
    (Body.tracked_render h hdocument
      (hinside body (List.mem_singleton_self body))).of_none.captured.last fun _ =>
        .silent (.store target (h.covers.str _)) fun _ => trivial
  | .comment, _, _ => .pure ()
  | .inlineComment, _, _ => .pure ()
  | .raw text, _, _ => .silent (.emit h.covers.overBudget text) fun s => meets_emit text s
  | .echo source, hlocation, _ => .own (.write h.covers source) (hlocation rfl)
  | .lines body _, _, hinside =>
    (Body.tracked_render h hdocument (hinside body (List.mem_singleton_self body))).of_none
  | .includePartial call _, hlocation, _ => h.includePartial (hlocation rfl) call
  | .renderPartial name call _, hlocation, _ => h.renderPartial (hlocation rfl) name call
  | .transform _ f body, _, hinside =>
    (Body.tracked_render h hdocument
      (hinside body (List.mem_singleton_self body))).of_none.diverted.last fun text =>
        .silent (.emit h.covers.overBudget (f text)) fun s => meets_emit (f text) s
  | .sections _ bodies _, hlocation, hinside =>
    Body.tracked_renderSections h (hlocation rfl) 0 hinside
  | .counter _ register, hlocation, _ => .own (.count h.covers register) (hlocation rfl)
termination_by structural tag => tag

end

end

end Stencil
