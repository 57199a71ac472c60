import Stencil.Proofs.Frameless
import Stencil.Proofs.Outcome
import Stencil.Proofs.Run

/-!
# Steps and their moments

A step of a render is a run through the moments of its trace. Steps that nothing can be
seen of (an evaluation, a partial that is read, a name that is bound) join what follows
them, a stretch joins the next one at a state in which the render may go on, and what
happens inside something is closed by the constructor for it.

## Key definitions

- `Grounds`, `Closed`: what a render relies on
- `Silent`, `Traces`: steps without moments, and steps with them

## Key results

- `Traces.after`, `Traces.bind`: how traces are put together
- `traces_loop`, `traces_includePartial`, `traces_renderPartial`: loops and partials
-/

namespace Stencil

open Render

/-- What a render relies on: evaluation in admitted frames gives values that satisfy `V` or
errors that satisfy `E`, and so does what the render makes of values by itself. -/
structure Grounds (settings : Settings) (V : Value → Prop) (E : Error → Prop) : Prop where
  evaluate (e : Expression) {s : RenderState} :
    s.frame.Admits V → Meets V E (e.evaluate (settings.view s))
  pipeline (p : Pipeline) {s : RenderState} :
    s.frame.Admits V → Meets V E (p.evaluate settings.registry.filters (settings.view s))
  condition (c : Condition) {s : RenderState} :
    s.frame.Admits V → Meets (fun _ => True) E (c.evaluate (settings.view s))
  readPartial (name : String) : Meets (fun _ => True) E (settings.readPartial name)
  raised {e : Error} : e.kind ≠ .memory → e.kind ≠ .foreign → e.kind ≠ .crash →
    e.line = none → e.template = none → E e
  nil : V .nil
  str (text : String) : V (.str text)
  loop (serial : Nat) (name : String) (length index : Nat) {parent : Value} :
    V parent → V (.drop (.loop serial name length index parent))
  liquid {v : Value} : V v → V v.liquid
  slice (start : Nat) (stop : Option Nat) {v : Value} (index : Nat) :
    V v → V ((Slice.of start stop v).get index)
  members {v : Value} {slice : Slice} (index : Nat) :
    V v → Slice.all? v = some slice → V (slice.get index)
  items {v : Value} : V v → ∀ item ∈ includedItems v, V item

/-- What a render with the standard tags relies on. -/
structure Closed (settings : Settings) (V : Value → Prop) (E : Error → Prop) : Prop extends
    Grounds settings V E where
  tags : settings.registry.tags = TagKind.standard

variable {settings : Settings} {V : Value → Prop} {E : Error → Prop} {names : List String}
  {place : Place} {α β : Type} {P Q : α → Prop} {R : β → Prop}

/-- Turning a value into an integer fails with an error of the engine's own. -/
theorem Grounds.toInteger (hg : Grounds settings V E) (v : Value) :
    Meets (fun _ => True) E v.toInteger := by
  have hinvalid : E .invalidInteger := hg.raised nofun nofun nofun rfl rfl
  unfold Value.toInteger
  split
  · trivial
  · trivial
  · split
    · trivial
    · exact hinvalid
  · exact hinvalid

/-- All values that are passed on satisfy `V`. -/
def Render.Passed.All (V : Value → Prop) : Passed → Prop
  | .once bindings => ∀ e ∈ bindings, V e.2
  | .each members => ∀ index, V (members.get index)

/-- A step that nothing can be seen of but its result. -/
def Silent (settings : Settings) (V : Value → Prop) (E : Error → Prop) (names : List String)
    (place : Place) (x : Render α) (Q : α → Prop) : Prop :=
  ∀ s, s.Admits V →
    Run settings V E names place s [] (failure (x s).1) (x s).2
      ∧ (x s).2.frame.interrupts = s.frame.interrupts ∧ Meets Q (fun _ => True) (x s).1

/-- A step that runs through the moments of a trace. -/
def Traces (settings : Settings) (V : Value → Prop) (E : Error → Prop) (names : List String)
    (place : Place) (x : Render α) (τ : Trace) : Prop :=
  ∀ s, s.Admits V → Run settings V E names place s (τ s) (failure (x s).1) (x s).2

/-- A step that does nothing at all in a state. -/
def Idle (x : Render α) (τ : Trace) (s : RenderState) : Prop :=
  τ s = [] ∧ failure (x s).1 = none ∧ (x s).2 = s

/-! ## Steps that nothing can be seen of -/

namespace Silent

/-- A step that reads the state and leaves it alone. -/
theorem read {x : Render α} (hx : ∀ s, (x s).2 = s)
    (h : ∀ s, s.Admits V → Meets Q E (x s).1) : Silent settings V E names place x Q := by
  intro s hs
  have hm := h s hs
  rw [hx s]
  cases hr : (x s).1 with
  | ok a =>
    rw [hr] at hm
    exact ⟨.done, rfl, hm⟩
  | error e =>
    rw [hr] at hm
    exact ⟨.fail hm, rfl, trivial⟩

/-- Giving a value happens at no moment. -/
theorem pure {a : α} (h : Q a) : Silent settings V E names place (Pure.pure a) Q :=
  read (fun _ => rfl) fun _ _ => h

/-- A step that keeps something for later. -/
theorem keep {x : Render α} (hx : ∀ s, Kept settings s (x s).2)
    (h : ∀ s, s.Admits V → ∃ a, (x s).1 = .ok a ∧ Q a) :
    Silent settings V E names place x Q := by
  intro s hs
  obtain ⟨a, ha, hq⟩ := h s hs
  rw [ha]
  refine ⟨.keep (hx s), ?_, hq⟩
  rw [(hx s).frame]

/-- Nor does handing on an outcome that is known. -/
theorem lift {r : Except Error α} (h : Meets Q E r) :
    Silent settings V E names place (Attempt.lift r) Q :=
  read (fun _ => rfl) fun _ _ => h

/-- Nor does failing with a known error. -/
theorem fail {e : Error} (h : E e) : Silent settings V E names place (Attempt.fail e) Q :=
  read (fun _ => rfl) fun _ _ => h

/-- One silent step after the other. -/
theorem bind (hc : Closed settings V E) {x : Render α} {f : α → Render β}
    (hx : Silent settings V E names place x P)
    (hf : ∀ a, P a → Silent settings V E names place (f a) R) :
    Silent settings V E names place (x >>= f) R := by
  intro s hs
  obtain ⟨hrun, hi, hm⟩ := hx s hs
  rw [Attempt.bind_apply]
  cases h : x s with
  | mk r t =>
    rw [h] at hrun hi hm
    cases r with
    | error e => exact ⟨hrun, hi, trivial⟩
    | ok a =>
      -- The first step raised nothing, so the render goes on.
      obtain ⟨hrun', hi', hm'⟩ := hf a hm t (hrun.admits hc.tags hc.str hs)
      exact ⟨.seq hrun hrun' (.of_eq hi), hi'.trans hi, hm'⟩

end Silent

/-! ## Putting traces together -/

namespace Traces

/-- What follows a step that nothing can be seen of. -/
theorem after (hc : Closed settings V E) {x : Render α} {f : α → Render β} {τ : α → Trace}
    (hx : Silent settings V E names place x P)
    (hf : ∀ a, P a → Traces settings V E names place (f a) (τ a)) :
    Traces settings V E names place (x >>= f) (Trace.after x τ) := by
  intro s hs
  obtain ⟨hrun, hi, hm⟩ := hx s hs
  rw [Attempt.bind_apply]
  unfold Trace.after
  cases h : x s with
  | mk r t =>
    rw [h] at hrun hi hm
    cases r with
    | error e => exact hrun
    | ok a =>
      -- The second part starts where the first one ended, with nothing but admitted values.
      have ht : t.Admits V := hrun.admits hc.tags hc.str hs
      exact .seq hrun (hf a hm t ht) (.of_eq hi)

/-- One stretch after another one. The render has to go on where they meet, unless nothing
is left to do. -/
theorem bind (hc : Closed settings V E) {x : Render α} {f : α → Render β} {τ : Trace}
    {τ' : α → Trace} (hx : Traces settings V E names place x τ)
    (hf : ∀ a, Traces settings V E names place (f a) (τ' a))
    (hgo : ∀ s t a, x s = (.ok a, t) → GoesOn place s t (τ' a t) ∨ Idle (f a) (τ' a) t) :
    Traces settings V E names place (x >>= f) (Trace.bind τ x τ') := by
  intro s hs
  have hrun := hx s hs
  rw [Attempt.bind_apply]
  unfold Trace.bind Trace.after
  cases h : x s with
  | mk r t =>
    rw [h] at hrun
    cases r with
    | error e =>
      rw [List.append_nil]
      exact hrun
    | ok a =>
      have ht : t.Admits V := hrun.admits hc.tags hc.str hs
      rcases hgo s t a h with hgo | ⟨hm, hr, hu⟩
      · exact .seq hrun (hf a t ht) hgo
      · -- Nothing is left to do, so it does not matter whether an interrupt is pending.
        show Run settings V E names place s (τ s ++ τ' a t) (failure (f a t).1) (f a t).2
        rw [hm, hr, hu, List.append_nil]
        exact hrun

end Traces

/-! ## Evaluation -/

section

variable (hc : Closed settings V E)
include hc

/-- Evaluation is silent. -/
theorem silent_evaluate (e : Expression) :
    Silent settings V E names place (evaluate settings e) V :=
  .read (fun _ => rfl) fun _ hs => hc.evaluate e hs.frame

/-- So is that of a pipeline. -/
theorem silent_evaluatePipeline (p : Pipeline) :
    Silent settings V E names place (evaluatePipeline settings p) V :=
  .read (fun _ => rfl) fun _ hs => hc.pipeline p hs.frame

/-- So is that of attributes, by induction on them. -/
theorem silent_evaluateAll (entries : List (String × Expression)) :
    Silent settings V E names place (evaluateAll settings entries)
      fun bindings => ∀ e ∈ bindings, V e.2 := by
  unfold evaluateAll
  induction entries with
  | nil => exact .pure (List.forall_mem_nil _)
  | cons entry entries ih =>
    rw [List.mapM_cons]
    have hentry : Silent settings V E names place
        (do return (entry.1, ← evaluate settings entry.2)) fun e => V e.2 :=
      .bind hc (silent_evaluate hc entry.2) fun v hv => .pure hv
    refine .bind hc hentry fun e he => .bind hc ih fun bindings hb => .pure ?_
    exact List.forall_mem_cons.mpr ⟨he, hb⟩

/-! ## Loops -/

/-- So is the attribute of a loop. -/
private theorem silent_loopAttribute (e : Expression) :
    Silent settings V E names place (loopAttribute settings e) fun _ => True := by
  refine .bind hc (silent_evaluate hc e) fun v _ => ?_
  split
  · exact .pure trivial
  · exact .bind hc (.lift (hc.toInteger _)) fun n _ => .pure trivial

/-- So is where a loop starts. -/
private theorem silent_loopStart (name : String) (offset : Option LoopOffset) :
    Silent settings V E names place (loopStart settings name offset) fun _ => True := by
  cases offset with
  | none => exact .pure trivial
  | some offset =>
    cases offset with
    | «continue» => exact .read (fun _ => rfl) fun _ _ => trivial
    | «at» e => exact .bind hc (silent_loopAttribute hc e) fun n _ => .pure trivial

/-- So is where it stops. -/
private theorem silent_loopStop (start : Nat) (limit : Option Expression) :
    Silent settings V E names place (loopStop settings start limit) fun _ => True := by
  cases limit with
  | none => exact .pure trivial
  | some e => exact .bind hc (silent_loopAttribute hc e) fun n _ => .pure trivial

/-- What a loop runs over is made of values that satisfy `V`. -/
theorem silent_loopSlice (name : String) (header : LoopHeader) :
    Silent settings V E names place (loopSlice settings name header)
      fun slice => ∀ index, V (slice.get index) := by
  refine .bind hc (silent_evaluate hc _) fun v hv => ?_
  refine .bind hc (silent_loopStart hc name _) fun start _ => ?_
  refine .bind hc (silent_loopStop hc start _) fun stop _ => ?_
  -- Where the loop will stop is kept before its turns begin.
  refine .bind hc (P := fun _ => True) ?_ fun _ _ => .pure fun index => ?_
  · exact .keep (fun s => .position _ _ s) fun s _ => ⟨(), rfl, trivial⟩
  · exact hc.slice start stop index (hc.liquid hv)

omit hc in
/-- In a scope of its own a stretch may bind names. -/
theorem silent_bindName (hplace : place ≠ .plain) (name : String) {value : Value}
    (hv : V value) : Silent settings V E names place (bindName name value) fun _ => True :=
  fun _ _ => ⟨.bind name hplace hv, rfl, trivial⟩

/-- Binding is silent inside a scope, by induction on the bindings. -/
theorem silent_bindAll (hplace : place ≠ .plain) {entries : List (String × Value)}
    (h : ∀ e ∈ entries, V e.2) :
    Silent settings V E names place (bindAll entries) fun _ => True := by
  induction entries with
  | nil => exact .pure trivial
  | cons entry entries ih =>
    obtain ⟨hv, hrest⟩ := List.forall_mem_cons.mp h
    exact .bind hc (silent_bindName hplace entry.1 hv) fun _ _ => ih hrest

/-- The value that describes an iteration satisfies `V` if that of the loop around it does. -/
private theorem silent_beginIteration (name : String)
    (length index : Nat) {parent : Value} (hp : V parent) :
    Silent settings V E names place (beginIteration name length index parent) V :=
  .keep (fun s => .iteration s _) fun _ _ => ⟨_, rfl, hc.loop _ name length index hp⟩

/-- So is the beginning of a turn. -/
theorem silent_beginTurn (hplace : place ≠ .plain) (name : String) (header : LoopHeader)
    {slice : Slice} (hslice : ∀ index, V (slice.get index)) {parent : Value} (hp : V parent)
    (index : Nat) :
    Silent settings V E names place (beginTurn name header slice parent index) V := by
  refine .bind hc (silent_beginIteration hc name _ _ hp) fun loop hloop => ?_
  refine .bind hc (silent_bindName hplace _ (hslice _)) fun _ _ => ?_
  exact .bind hc (silent_bindName hplace _ hloop) fun _ _ => .pure hloop

/-! ## Calls of partials -/

/-- A partial that is loaded holds standard tags only. -/
theorem silent_loadPartial (name : String) :
    Silent settings V E names place (loadPartial settings name)
      fun document => document.isStandard = true := by
  intro s hs
  unfold loadPartial
  cases hfound : s.progress.registers.partials.get? name with
  | some document => exact ⟨.done, rfl, hs.registers _ (Assoc.mem_of_get?_eq_some hfound)⟩
  | none =>
    -- It is read now, and kept unless that fails.
    have hm := hc.readPartial name
    cases hread : settings.readPartial name with
    | ok document =>
      exact ⟨.keep (.document s hread), rfl, settings.readPartial_isStandard hc.tags hread⟩
    | error e =>
      rw [hread] at hm
      exact ⟨.fail hm, rfl, trivial⟩

/-- The name of a partial is worked out silently. -/
private theorem silent_partialName (template : Expression) :
    Silent settings V E names place (partialName settings template) fun _ => True := by
  refine .bind hc (silent_evaluate hc template) fun v _ => ?_
  split
  · exact .pure trivial
  · exact .fail (hc.raised nofun nofun nofun rfl rfl)

/-- Whether a tag is disabled is asked silently. -/
private theorem silent_checkEnabled (tag : String) :
    Silent settings V E names place (checkEnabled settings tag) fun _ => True := by
  intro s _
  unfold checkEnabled
  split
  · exact ⟨.fail (hc.raised nofun nofun nofun rfl rfl), rfl, trivial⟩
  · exact ⟨.done, rfl, trivial⟩

omit hc in
/-- A variable that is found in an admitted frame satisfies `V`. -/
theorem Frame.Admits.find? {s : RenderState} (hs : s.frame.Admits V) {name : String} {v : Value}
    (hv : (settings.view s).find? name = some v) : V v := by
  rcases Option.or_eq_some_iff.mp hv with hv | ⟨-, hv⟩
  · rcases Option.or_eq_some_iff.mp hv with hv | ⟨-, hv⟩
    · obtain ⟨scope, hscope, hmem⟩ := Scopes.exists_mem_of_findIn? hv
      exact hs.inner scope hscope _ hmem
    · exact hs.outer _ (Assoc.mem_of_get?_eq_some hv)
  · obtain ⟨environment, henvironment, hmem⟩ := Scopes.exists_mem_of_findIn? hv
    exact hs.environments environment henvironment _ hmem

/-- What an include passes is worked out silently. -/
private theorem silent_includedObject (call : PartialCall) (name : String) :
    Silent settings V E names place (includedObject settings call name) V := by
  unfold includedObject
  split
  · exact .bind hc (silent_evaluate hc _) fun v hv => .pure (hc.liquid hv)
  · refine .read (fun _ => rfl) fun s hs => ?_
    show V (((settings.view s).find? name).getD .nil)
    cases hv : (settings.view s).find? name with
    | none => exact hc.nil
    | some v => exact hs.frame.find? hv

/-- Attributes are bound silently inside a scope, by induction on them. -/
private theorem silent_bindAttributes (hplace : place ≠ .plain)
    (attributes : List (String × Expression)) :
    Silent settings V E names place (bindAttributes settings attributes) fun _ => True := by
  induction attributes with
  | nil => exact .pure trivial
  | cons entry attributes ih =>
    refine .bind hc (silent_evaluate hc entry.2) fun v hv => ?_
    exact .bind hc (silent_bindName hplace entry.1 hv) fun _ _ => ih

/-- What is passed to a partial is worked out silently. -/
private theorem silent_passedObject (target : String) (call : PartialCall) :
    Silent settings V E names place (passedObject settings target call) (Passed.All V) := by
  unfold passedObject
  split
  · exact .pure (List.forall_mem_nil _)
  · refine .bind hc (silent_evaluate hc _) fun v hv => ?_
    have hobject : ∀ e ∈ [(target, v.liquid)], V e.2 :=
      List.forall_mem_singleton.mpr (hc.liquid hv)
    dsimp only
    split
    · split
      · rename_i members hm
        exact .pure fun index => hc.members index (hc.liquid hv) hm
      · exact .pure hobject
    · -- Nothing is passed on if the object is nil.
      refine .pure ?_
      show ∀ e ∈ (if v.liquid.isNil then [] else [(target, v.liquid)]), V e.2
      split
      · exact List.forall_mem_nil _
      · exact hobject

/-- So are the bindings for a member of a collection. -/
private theorem silent_memberBindings (name target : String) {members : Slice}
    (hm : ∀ index, V (members.get index)) (index : Nat) :
    Silent settings V E names place (memberBindings name target members index)
      fun bindings => ∀ e ∈ bindings, V e.2 := by
  refine .bind hc (silent_beginIteration hc name _ _ hc.nil) fun loop hloop => .pure ?_
  exact List.forall_mem_cons.mpr ⟨hm index, List.forall_mem_singleton.mpr hloop⟩

end

/-! ## Steps inside something -/

section

variable (hc : Closed settings V E)

/-- Writing is one moment. -/
theorem traces_emit (text : String) :
    Traces settings V E names .plain (emit text) (Trace.note (.write text)) :=
  fun _ _ => .write text

/-- An output is evaluated silently, and writing it is one moment. -/
theorem traces_write (hc : Closed settings V E) (p : Pipeline) :
    Traces settings V E names .plain (Render.write settings p) (Trace.write settings p) := by
  rw [write_eq]
  exact .after hc (silent_evaluatePipeline hc p) fun v _ => traces_emit v.text

/-- A step may be followed by one that reads its result off the state. -/
theorem Traces.result {x : Render α} {τ : Trace} {y : α → Render β}
    (hx : Traces settings V E names place x τ)
    (hy : ∀ a s, failure (y a s).1 = none ∧ (y a s).2 = s) :
    Traces settings V E names place (x >>= y) τ := by
  intro s hs
  have hrun := hx s hs
  rw [Attempt.bind_apply]
  cases h : x s with
  | mk r t =>
    rw [h] at hrun
    cases r with
    | error e => exact hrun
    | ok a =>
      dsimp only
      -- What comes after only computes the result.
      rw [(hy a t).1, (hy a t).2]
      exact hrun

/-- Entering a scope fails only where that nests too deep. -/
private theorem raised_enterScope (hc : Closed settings V E) {s t : RenderState} {e : Error}
    (h : charge Budget.enterScope s = (.error e, t)) : E e ∧ t = s := by
  rw [charge_eq] at h
  unfold Budget.enterScope at h
  split at h
  · cases h
    exact ⟨hc.raised nofun nofun nofun rfl rfl, rfl⟩
  · exact nomatch (Prod.mk.inj h).1

/-- A scope that was opened admits what was admitted before. -/
private theorem admits_enterScope {s t : RenderState} {r : Except Error Unit}
    (h : charge Budget.enterScope s = (r, t)) (hs : s.Admits V) : t.pushScope.Admits V := by
  rw [show t = (charge Budget.enterScope s).2 by rw [h]]
  exact ⟨hs.frame.push, hs.registers⟩

/-- A scope opens and closes around the moments of its inside. -/
theorem traces_inScope (hc : Closed settings V E) {x : Render α} {τ : Trace}
    (hx : Traces settings V E names .scoped x τ) :
    Traces settings V E names .plain (inScope x) (Trace.inScope τ) := by
  intro s hs
  unfold inScope Trace.inScope Trace.after
  -- A scope that is refused leaves a failed charge and no moments.
  cases h : charge Budget.enterScope s with
  | mk r t =>
    cases r with
    | error e =>
      obtain ⟨he, rfl⟩ := raised_enterScope hc h
      exact .fail he
    | ok a => exact .scope h (hx t.pushScope (admits_enterScope h hs))

/-- The name of the template is set around the moments of the inside. -/
theorem traces_inTemplate (name : String) {x : Render α} {τ : Trace}
    (hx : Traces settings V E names .plain x τ) :
    Traces settings V E names .plain (inTemplate name x) (Trace.inTemplate name τ) := by
  intro s hs
  refine .template name (hx _ ⟨?_, hs.registers⟩)
  exact ⟨hs.frame.inner, hs.frame.outer, hs.frame.environments, hs.frame.loops⟩

/-- The moments of an isolated step are those of its inside, in a frame of its own. -/
theorem traces_isolated (template : Option String) {names' : List String} {x : Render α}
    {τ : Trace} (hx : Traces settings V E names' .plain x τ) :
    Traces settings V E names .plain (isolated template x) (Trace.isolated template τ) :=
  fun _ hs => .isolated template (hx _ ⟨.isolated template, hs.registers⟩)

/-- A body whose output is stored in a variable. -/
theorem traces_capture {name : String} (hname : name ∈ names) {x : Render Unit} {τ : Trace}
    (hx : Traces settings V E names .plain x τ) :
    Traces settings V E names .plain (do store name (.str (← captured x)))
      (Trace.captured τ) := by
  intro s hs
  have hrun := hx (s.beginCapture.withOutput "") ⟨hs.frame, hs.registers⟩
  rw [Attempt.bind_apply]
  unfold captured diverted Trace.captured Trace.diverted
  cases h : x (s.beginCapture.withOutput "") with
  | mk r t =>
    rw [h] at hrun
    -- Either way the capture is closed and the output of before is put back.
    cases r with
    | ok a => exact .capture hname hrun
    | error e => exact .captureFailed hrun

/-! ## Loops -/

/-- Numbered steps, by induction on how many remain. -/
theorem traces_steps (hc : Closed settings V E) {step : Nat → Render Bool} {τ : Nat → Trace}
    (length : Nat) (hstep : ∀ index, Traces settings V E names place (step index) (τ index))
    (hgo : ∀ index s t more m, step index s = (.ok more, t) → GoesOn place s t m)
    (remaining : Nat) :
    Traces settings V E names place (steps step length remaining)
      (Trace.steps step τ length remaining) := by
  induction remaining with
  | zero => exact fun _ _ => .done
  | succ remaining ih =>
    rw [steps_succ]
    refine .bind hc (hstep _) (fun more => ?_) fun s t more h => .inl (hgo _ s t more _ h)
    -- Nothing follows a step that says it was the last.
    cases more with
    | true => exact ih
    | false => exact fun _ _ => .done

/-- A turn: its beginning, the body with the loop around it, and the interrupt that is taken. -/
private theorem traces_iteration (hc : Closed settings V E) (name : String)
    (header : LoopHeader) {slice : Slice} (hslice : ∀ index, V (slice.get index))
    {parent : Value} (hp : V parent) {body : Render Unit} {τ : Trace}
    (hbody : Traces settings V E names .plain body τ) (index : Nat) :
    Traces settings V E names .turns (Render.iteration name header slice parent body index)
      (Trace.iteration name header slice parent τ index) := by
  refine .after hc (silent_beginTurn hc turns_ne_plain name header hslice hp index)
    fun loop hloop s hs => ?_
  -- The body alone runs as part of the loop; what it raised is taken afterwards.
  have hrun := hbody (s.withLoops (loop :: s.frame.loops))
    ⟨hs.frame.withLoops (List.forall_mem_cons.mpr ⟨hloop, hs.frame.loops⟩), hs.registers⟩
  rw [Attempt.bind_apply]
  unfold inLoop Trace.inLoop
  cases h : body (s.withLoops (loop :: s.frame.loops)) with
  | mk r t =>
    rw [h] at hrun
    cases r with
    | ok a => exact .turn hloop hrun
    | error e => exact .turnFailed hloop hrun

/-- All turns of a loop, and that it is left. -/
theorem traces_loop (hc : Closed settings V E) (name : String) (header : LoopHeader)
    {slice : Slice} (hslice : ∀ index, V (slice.get index)) {body : Render Unit} {τ : Trace}
    (hbody : Traces settings V E names .plain body τ) :
    Traces settings V E names .plain (Render.loop name header slice body)
      (Trace.loop name header slice body τ) := by
  intro s hs
  -- The loop around this one, if there is one, is the parent of all turns.
  have hparent : V (s.frame.loops.head?.getD .nil) := by
    cases hl : s.frame.loops with
    | nil => exact hc.nil
    | cons loop loops => exact hs.frame.loops loop (hl ▸ List.mem_cons_self ..)
  -- The turns, inside the scope of the loop.
  have hturns := traces_steps hc slice.length
    (traces_iteration hc name header hslice hparent hbody) (fun _ _ _ _ _ _ => .inl rfl)
    slice.length
  unfold Trace.loop Trace.bind Trace.after Render.loop inScope Trace.inScope Trace.after
  dsimp only
  cases h : charge Budget.enterScope s with
  | mk r s' =>
    cases r with
    | error e =>
      obtain ⟨he, rfl⟩ := raised_enterScope hc h
      exact .fail he
    | ok a =>
      have hrun := hturns s'.pushScope (admits_enterScope h hs)
      dsimp only
      cases hsteps : steps (Render.iteration name header slice (s.frame.loops.head?.getD .nil) body)
        slice.length slice.length s'.pushScope with
      | mk r t =>
        rw [hsteps] at hrun
        cases r with
        -- The loop is left by itself, or by an error of a turn.
        | ok a => exact .loop h hrun
        | error e =>
          dsimp only
          rw [List.append_nil]
          exact .loopFailed h hrun

end

/-! ## Partials -/

/-- The documents that are called are runs through their moments. -/
def CallsTrace (settings : Settings) (V : Value → Prop) (E : Error → Prop)
    (partials : PartialRenderer) (inner : Trace.OfPartials) : Prop :=
  ∀ (document : Document) (turn : Bool) (names : List String), document.isStandard = true →
    (∀ name ∈ document.targets, name ∈ names) →
    Traces settings V E names .plain (partials document) (inner turn document)

section

variable {partials : PartialRenderer} {inner : Trace.OfPartials}

/-- Every item is taken up, whatever interrupt the one before left. -/
private theorem traces_eachItem (hc : Closed settings V E) (target : String)
    {render : Render Unit} {τ : Trace} (hrender : Traces settings V E names .plain render τ)
    {items : List Value} (hitems : ∀ item ∈ items, V item) :
    Traces settings V E names .scoped (eachItem target render items)
      (Trace.eachItem target render τ items) := by
  induction items with
  | nil => exact fun _ _ => .done
  | cons item items ih =>
    obtain ⟨hitem, hrest⟩ := List.forall_mem_cons.mp hitems
    have hfirst : Traces settings V E names .scoped (do bindName target item; render)
        (Trace.after (bindName target item) fun _ => τ) :=
      .after hc (silent_bindName scoped_ne_plain target hitem) fun _ _ s hs => .lift (hrender s hs)
    have hboth : Traces settings V E names .scoped (eachItem target render (item :: items))
        (Trace.bind (Trace.after (bindName target item) fun _ => τ)
          (do bindName target item; render) fun _ => Trace.eachItem target render τ items) := by
      rw [eachItem_cons]
      refine .bind hc hfirst (fun _ => ih hrest) fun s t _ _ => ?_
      -- What follows an item is the next one, or nothing.
      cases items with
      | nil => exact .inr ⟨rfl, rfl, rfl⟩
      | cons item items => exact .inl (.of_isTakenUp rfl rfl)
    intro s hs
    exact .seq (.takeUp .item scoped_ne_turns rfl) (hboth s hs) (.of_eq rfl)

/-- A partial that is included may store the variables that its document does. -/
theorem traces_includePartial (hc : Closed settings V E)
    (hcalls : CallsTrace settings V E partials inner) (call : PartialCall) :
    Traces settings V E names .plain (Render.includePartial settings partials call)
      (Trace.includePartial settings partials inner call) := by
  refine .after hc (silent_checkEnabled hc "include") fun _ _ => ?_
  refine .after hc (silent_partialName hc call.template) fun name _ => ?_
  refine .after hc (silent_loadPartial hc name) fun document hdocument => ?_
  refine .after hc (silent_includedObject hc call name) fun object hobject => ?_
  -- The name and the scope are entered together, and the document stands for both.
  refine traces_inTemplate name (traces_inScope hc fun s hs => .includes document ?_)
  refine Traces.after hc (silent_bindAttributes hc scoped_ne_plain call.attributes)
    (fun _ _ => ?_) s hs
  refine traces_eachItem hc _ (hcalls document false _ hdocument fun name hname => ?_)
    (hc.items hobject)
  exact List.mem_append_left _ hname

/-- A partial that is rendered once: its moments are those of the document. -/
private theorem traces_renderOnce (hc : Closed settings V E)
    (hcalls : CallsTrace settings V E partials inner) (turn : Bool) (name : String)
    {attributes : List (String × Value)} (ha : ∀ e ∈ attributes, V e.2)
    {bindings : Render (List (String × Value))}
    (hb : Silent settings V E names .plain bindings fun bindings => ∀ e ∈ bindings, V e.2) :
    Traces settings V E names .plain (renderOnce settings partials name attributes bindings)
      (Trace.renderOnce settings inner turn name attributes bindings) := by
  refine .after hc (silent_loadPartial hc name) fun document hdocument => ?_
  refine .after hc hb fun bindings hbindings => ?_
  have hall : ∀ e ∈ attributes ++ bindings, V e.2 := fun e he =>
    (List.mem_append.mp he).elim (ha e) (hbindings e)
  -- The partial stores in a frame of its own, so it may store any variables.
  have hinside : Traces settings V E document.targets .scoped
      (do bindAll (attributes ++ bindings); partials document)
      (Trace.after (bindAll (attributes ++ bindings)) fun _ => inner turn document) :=
    .after hc (silent_bindAll hc scoped_ne_plain hall) fun _ _ s hs =>
      .lift (hcalls document turn _ hdocument (fun _ h => h) s hs)
  exact traces_isolated _ (traces_inScope hc hinside)

/-- A partial is rendered once, or for each member of a collection. -/
theorem traces_renderPartial (hc : Closed settings V E)
    (hcalls : CallsTrace settings V E partials inner) (name : String) (call : PartialCall) :
    Traces settings V E names .plain (Render.renderPartial settings partials name call)
      (Trace.renderPartial settings partials inner name call) := by
  refine .after hc (silent_evaluateAll hc call.attributes) fun attributes ha => ?_
  refine .after hc (silent_passedObject hc _ call) fun passed hpassed => ?_
  cases passed with
  | once bindings => exact traces_renderOnce hc hcalls false name ha (.pure hpassed)
  | each members =>
    refine traces_steps hc members.length (fun index => ?_) (fun index s t more m h => ?_) _
    · exact (traces_renderOnce hc hcalls true name ha
        (silent_memberBindings hc name _ hpassed index)).result fun _ _ => ⟨rfl, rfl⟩
    · -- A member raises nothing in the frame of the caller.
      have hf : t.frame = s.frame := by
        rw [show t = (renderMember settings partials name _ attributes members index s).2 by rw [h]]
        exact (frameless_renderMember _ members index).frame s
      exact .of_eq (by rw [hf])

end

end Stencil
