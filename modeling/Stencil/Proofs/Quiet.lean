import Stencil.Proofs.Follows
import Stencil.Proofs.Renders

/-!
# Quiet steps

Most steps of a render have nothing to do with what it writes, spends and records: they
look at variables, bind names, begin iterations or load partials. Such a step does the
same whatever was written and recorded before, and leaves the output, the budget and the
recorded errors alone. This is closed under sequencing, so the steps between two writes
or charges are one quiet step.

## Key results

- `Quiet`: the steps, with what their results satisfy in admitted frames
- `quiet_loopSlice`, `quiet_beginTurn`: what a loop does around its turns
- `quiet_loadPartial`, `quiet_includedObject`, `quiet_passedObject`: calls of partials
-/

namespace Stencil

open Render

/-- The state after a render that had written the text before, and recorded other errors. -/
def RenderState.behind (s : RenderState) (text : String) (errors : Array Error) : RenderState :=
  { s with
    progress.output := text ++ s.progress.output
    progress.errors := errors }

/-- What a step does in a state that has nothing to do with what the render writes, spends and
records. -/
structure QuietAt {α : Type} (U : Array Error → Array Error → Prop) (V : Value → Prop)
    (E : Error → Prop) (x : Render α) (Q : α → Prop) (s : RenderState) : Prop where
  behind : ∀ text errors, U s.progress.errors errors →
    x (s.behind text errors) = ((x s).1, (x s).2.behind text errors)
  output : (x s).2.progress.output = s.progress.output
  errors : (x s).2.progress.errors = s.progress.errors
  budget : (x s).2.progress.budget = s.progress.budget
  meets : Meets Q E (x s).1
  admits : (x s).2.frame.Admits V

/-- A step that has nothing to do with what a render writes, spends and records. In admitted
frames its result satisfies `Q`, or `E` if it is an error. Recorded errors that are related by `U`
make no difference to it. -/
def Quiet {α : Type} (U : Array Error → Array Error → Prop) (V : Value → Prop) (E : Error → Prop)
    (x : Render α) (Q : α → Prop) : Prop :=
  ∀ s, s.frame.Admits V → QuietAt U V E x Q s

/-- The code of the host, in its objects and filters, does not tell recorded errors apart that are
related by `U`. -/
structure Registry.Overlooks (r : Registry) (U : Array Error → Array Error → Prop) : Prop where
  answers (id : Nat) (name : String) (s : Surroundings) {errors : Array Error} :
    U s.errors errors → r.answers id name { s with errors } = r.answers id name s
  filters : ∀ e ∈ r.filters, ∀ view : View, view.answers = r.answers → ∀ {errors : Array Error},
    U view.errors errors → ∀ input args,
      e.2.run { view with errors } input args = e.2.run view input args

/-- What a render relies on, and that recorded errors related by `U` make no difference to its
evaluations. -/
structure Unaware (U : Array Error → Array Error → Prop) (settings : Settings) (V : Value → Prop)
    (E : Error → Prop) : Prop extends Grounds settings V E where
  overlooks : settings.registry.Overlooks U

variable {settings : Settings} {U : Array Error → Array Error → Prop} {V : Value → Prop}
  {E : Error → Prop} {α β : Type} {P Q : α → Prop} {R : β → Prop}

/-! ## Recorded errors that make no difference -/

namespace Registry.Overlooks

variable {r : Registry}

/-- The same errors make no difference. -/
theorem eq (r : Registry) : r.Overlooks Eq where
  answers _ _ _ _ h := by
    cases h
    rfl
  filters _ _ _ _ _ h _ _ := by
    cases h
    rfl

/-- What is known of views that differ in their recorded errors. -/
theorem followedBy (h : r.Overlooks U) {view : View} (ha : view.answers = r.answers)
    {errors : Array Error} (hu : U view.errors errors) :
    view.FollowedBy (fun _ => false) { view with errors } where
  find _ := rfl
  answers id name := by
    refine .of_eq ?_
    show view.answers id name { view.toSurroundings with errors } = _
    rw [ha]
    exact h.answers id name view.toSurroundings hu
  strictVariables := .inl rfl
  strictFilters := .inl rfl
  room _ := .of_eq rfl

/-- The standard filters look at recorded errors only where the objects of the host do. -/
theorem of_standard (hfilters : r.filters = Filter.standard)
    (h : ∀ id name (s : Surroundings) errors, U s.errors errors →
      r.answers id name { s with errors } = r.answers id name s) : r.Overlooks U where
  answers id name s _ hu := h id name s _ hu
  filters e he view ha errors hu input args := by
    rw [hfilters] at he
    refine (Filter.standard_follows e he view { view with errors } input args ?_).eq
    have hnone : ({ r with filters := [] } : Registry).Overlooks U :=
      ⟨fun id name s _ hu => h id name s _ hu, nofun⟩
    exact hnone.followedBy ha hu

end Registry.Overlooks

/-- Nothing is assumed of values and errors. -/
theorem Unaware.of_overlooks (h : settings.registry.Overlooks U) :
    Unaware U settings (fun _ => True) fun _ => True :=
  { Grounds.trivial settings with overlooks := h }

/-- Nothing is assumed at all. -/
theorem Unaware.trivial (settings : Settings) : Unaware Eq settings (fun _ => True) fun _ => True :=
  .of_overlooks (.eq settings.registry)

namespace Quiet

/-- A step that reads the state and leaves it alone. -/
theorem read {f : RenderState → Except Error α}
    (hf : ∀ s text errors, U s.progress.errors errors → f (s.behind text errors) = f s)
    (hm : ∀ s, s.frame.Admits V → Meets Q E (f s)) : Quiet U V E (fun s => (f s, s)) Q :=
  fun s hs => ⟨fun text errors hu => Prod.ext (hf s text errors hu) rfl, rfl, rfl, rfl, hm s hs, hs⟩

/-- Giving a value is quiet. -/
theorem pure {a : α} (h : Q a) : Quiet U V E (Pure.pure a) Q :=
  read (fun _ _ _ _ => rfl) fun _ _ => h

/-- So is failing with a known error. -/
theorem fail {e : Error} (h : E e) : Quiet U V E (Attempt.fail e) Q :=
  read (fun _ _ _ _ => rfl) fun _ _ => h

/-- So is handing on an outcome that is known. -/
theorem lift {r : Except Error α} (h : Meets Q E r) : Quiet U V E (Attempt.lift r) Q :=
  read (fun _ _ _ _ => rfl) fun _ _ => h

/-- A step that changes the frame. -/
theorem modifyFrame {f : Frame → Frame}
    (hf : ∀ frame : Frame, frame.Admits V → (f frame).Admits V) :
    Quiet U V E (Attempt.modify fun s => { s with frame := f s.frame }) fun _ => True :=
  fun s hs => ⟨fun _ _ _ => rfl, rfl, rfl, rfl, trivial, hf s.frame hs⟩

/-- A step that changes the registers. -/
theorem modifyRegisters (f : Registers → Registers) :
    Quiet U V E (Attempt.modify fun s => { s with progress.registers := f s.progress.registers })
      fun _ => True :=
  fun _ hs => ⟨fun _ _ _ => rfl, rfl, rfl, rfl, trivial, hs⟩

/-- The second step may rely on what the first one gives. -/
theorem bind {x : Render α} {f : α → Render β} (hx : Quiet U V E x P)
    (hf : ∀ a, P a → Quiet U V E (f a) R) : Quiet U V E (x >>= f) R := by
  intro s hs
  have hq := hx s hs
  have hbehind := hq.behind
  obtain ⟨-, houtput, herrors, hbudget, hm, ht⟩ := hq
  cases h : x s with
  | mk r t =>
    rw [h] at hbehind houtput herrors hbudget hm ht
    cases r with
    -- The second step is not taken.
    | error e =>
      have heq : (x >>= f) s = (.error e, t) := Attempt.bind_of_error h f
      refine ⟨fun text errors hu => ?_, ?_, ?_, ?_, ?_, ?_⟩ <;> rw [heq]
      · exact Attempt.bind_of_error (hbehind text errors hu) f
      · exact houtput
      · exact herrors
      · exact hbudget
      · exact hm
      · exact ht
    | ok a =>
      have heq : (x >>= f) s = f a t := Attempt.bind_of_ok h f
      have hnext := hf a hm t ht
      refine ⟨fun text errors hu => ?_, ?_, ?_, ?_, ?_, ?_⟩ <;> rw [heq]
      · -- The first step recorded nothing, so the errors are related as before.
        have hu' : U t.progress.errors errors := by
          rw [herrors]
          exact hu
        exact (Attempt.bind_of_ok (hbehind text errors hu) f).trans (hnext.behind text errors hu')
      · exact hnext.output.trans houtput
      · exact hnext.errors.trans herrors
      · exact hnext.budget.trans hbudget
      · exact hnext.meets
      · exact hnext.admits

end Quiet

/-! ## Evaluation -/

section

variable (hg : Unaware U settings V E)
include hg

/-- The view behind other errors. -/
private theorem followedBy_behind {s : RenderState} {errors : Array Error}
    (hu : U s.progress.errors errors) (text : String) :
    (settings.view s).FollowedBy (fun _ => false) (settings.view (s.behind text errors)) :=
  hg.overlooks.followedBy rfl hu

/-- Evaluation is quiet. -/
theorem quiet_evaluate (e : Expression) : Quiet U V E (evaluate settings e) V :=
  .read (fun _ text _ hu => (e.evaluate_follows (followedBy_behind hg hu text)).eq)
    fun _ hs => hg.evaluate e hs

/-- So is that of a pipeline. -/
theorem quiet_evaluatePipeline (p : Pipeline) : Quiet U V E (evaluatePipeline settings p) V := by
  refine .read (fun s text errors hu => ?_) fun _ hs => hg.pipeline p hs
  refine (p.evaluate_follows (followedBy_behind hg hu text) fun e he input args => ?_).eq
  exact .of_eq (hg.overlooks.filters e he (settings.view s) rfl hu input args)

/-- So is that of a condition. -/
theorem quiet_evaluateCondition (c : Condition) :
    Quiet U V E (evaluateCondition settings c) fun _ => True :=
  .read (fun _ text _ hu => (c.evaluate_follows (followedBy_behind hg hu text)).eq)
    fun _ hs => hg.condition c hs

/-- So is that of attributes, by induction on them. -/
theorem quiet_evaluateAll (entries : List (String × Expression)) :
    Quiet U V E (evaluateAll settings entries) fun bindings => ∀ e ∈ bindings, V e.2 := by
  unfold evaluateAll
  induction entries with
  | nil => exact .pure (List.forall_mem_nil _)
  | cons entry entries ih =>
    rw [List.mapM_cons]
    have hentry : Quiet U V E (do return (entry.1, ← evaluate settings entry.2)) fun e => V e.2 :=
      .bind (quiet_evaluate hg entry.2) fun v hv => .pure hv
    refine .bind hentry fun e he => .bind ih fun bindings hb => .pure ?_
    exact List.forall_mem_cons.mpr ⟨he, hb⟩

/-! ## Loops -/

/-- So is the attribute of a loop. -/
private theorem quiet_loopAttribute (e : Expression) :
    Quiet U V E (loopAttribute settings e) fun _ => True := by
  refine .bind (quiet_evaluate hg e) fun v _ => ?_
  split
  · exact .pure trivial
  · exact .bind (.lift (hg.toInteger _)) fun n _ => .pure trivial

/-- So is where a loop starts. -/
private theorem quiet_loopStart (name : String) (offset : Option LoopOffset) :
    Quiet U V E (loopStart settings name offset) fun _ => True := by
  cases offset with
  | none => exact .pure trivial
  | some offset =>
    cases offset with
    | «continue» => exact .read (fun _ _ _ _ => rfl) fun _ _ => trivial
    | «at» e => exact .bind (quiet_loopAttribute hg e) fun n _ => .pure trivial

/-- So is where it stops. -/
private theorem quiet_loopStop (start : Nat) (limit : Option Expression) :
    Quiet U V E (loopStop settings start limit) fun _ => True := by
  cases limit with
  | none => exact .pure trivial
  | some e => exact .bind (quiet_loopAttribute hg e) fun n _ => .pure trivial

/-- What a loop runs over is made of values that satisfy `V`. -/
theorem quiet_loopSlice (name : String) (header : LoopHeader) :
    Quiet U V E (loopSlice settings name header) fun slice => ∀ index, V (slice.get index) := by
  refine .bind (quiet_evaluate hg _) fun v hv => ?_
  refine .bind (quiet_loopStart hg name _) fun start _ => ?_
  refine .bind (quiet_loopStop hg start _) fun stop _ => ?_
  have hposition (position : Nat) : Quiet U V E (setPosition name position) fun _ => True :=
    .modifyRegisters fun r => { r with positions := r.positions.put name position }
  refine .bind (hposition _) fun _ _ => .pure fun index => ?_
  exact hg.slice start stop index (hg.liquid hv)

omit hg in
/-- Binding a value changes the frame only. -/
theorem quiet_bindName (name : String) {value : Value} (hv : V value) :
    Quiet U V E (bindName name value) fun _ => True :=
  .modifyFrame fun _ hframe => hframe.bind name hv

omit hg in
/-- So does storing one. -/
theorem quiet_store (name : String) {value : Value} (hv : V value) :
    Quiet U V E (store name value) fun _ => True :=
  .modifyFrame fun _ hframe => hframe.store name hv

omit hg in
/-- So does binding several, by induction on them. -/
theorem quiet_bindAll {entries : List (String × Value)} (h : ∀ e ∈ entries, V e.2) :
    Quiet U V E (bindAll entries) fun _ => True := by
  induction entries with
  | nil => exact .pure trivial
  | cons entry entries ih =>
    obtain ⟨hv, hrest⟩ := List.forall_mem_cons.mp h
    exact .bind (quiet_bindName entry.1 hv) fun _ _ => ih hrest

/-- The value that describes an iteration satisfies `V` if that of the loop around it does. -/
private theorem quiet_beginIteration (name : String) (length index : Nat) {parent : Value}
    (hp : V parent) : Quiet U V E (beginIteration name length index parent) V :=
  fun _ hs => ⟨fun _ _ _ => rfl, rfl, rfl, rfl, hg.loop _ name length index hp, hs⟩

/-- So does the beginning of a turn. -/
theorem quiet_beginTurn (name : String) (header : LoopHeader) {slice : Slice}
    (hslice : ∀ index, V (slice.get index)) {parent : Value} (hp : V parent) (index : Nat) :
    Quiet U V E (beginTurn name header slice parent index) V := by
  refine .bind (quiet_beginIteration hg name _ _ hp) fun loop hloop => ?_
  refine .bind (quiet_bindName _ (hslice _)) fun _ _ => ?_
  exact .bind (quiet_bindName _ hloop) fun _ _ => .pure hloop

omit hg in
/-- So does an interrupt. -/
theorem quiet_interrupt (i : Interrupt) : Quiet U V E (interrupt i) fun _ => True :=
  fun _ hs =>
    ⟨fun _ _ _ => rfl, rfl, rfl, rfl, trivial, hs.inner, hs.outer, hs.environments, hs.loops⟩

omit hg in
/-- So does taking one up. -/
theorem quiet_takeInterrupt : Quiet U V E takeInterrupt fun _ => True := fun _ hs =>
  ⟨fun _ _ _ => rfl, rfl, rfl, rfl, trivial, hs.inner, hs.outer, hs.environments, hs.loops⟩

omit hg in
/-- Whether there is one is only looked at. -/
theorem quiet_interrupted : Quiet U V E interrupted fun _ => True :=
  .read (fun _ _ _ _ => rfl) fun _ _ => trivial

/-! ## Calls of partials -/

/-- The partial of that name among those that were read. -/
private def findPartial (name : String) : Render (Option Document) := fun s =>
  (.ok (s.progress.registers.partials.get? name), s)

/-- Keeps a partial that was read. -/
private def keepPartial (name : String) (document : Document) : Render Unit :=
  Attempt.modify fun s => s.withPartial name document

omit hg in
/-- A partial is looked up first, and read and kept if it is not there. -/
private theorem loadPartial_eq (name : String) :
    loadPartial settings name = do
      match ← findPartial name with
      | some document => return document
      | none =>
        let document ← Attempt.lift (settings.readPartial name)
        keepPartial name document
        return document := by
  -- One read of the registers, one file, one change of the registers.
  funext s
  rw [Attempt.bind_apply]
  unfold loadPartial findPartial
  dsimp only
  cases s.progress.registers.partials.get? name with
  | some document => rfl
  | none =>
    dsimp only
    rw [Attempt.bind_apply]
    unfold Attempt.lift
    cases settings.readPartial name <;> rfl

/-- A partial is kept in the registers, and nothing is written. -/
theorem quiet_loadPartial (name : String) :
    Quiet U V E (loadPartial settings name) fun _ => True := by
  have hkeep (document : Document) : Quiet U V E (keepPartial name document) fun _ => True :=
    .modifyRegisters fun r => { r with partials := r.partials.put name document }
  have hfind : Quiet U V E (findPartial name) fun _ => True :=
    .read (fun _ _ _ _ => rfl) fun _ _ => trivial
  rw [loadPartial_eq]
  refine .bind hfind fun found _ => ?_
  cases found with
  | some document => exact .pure trivial
  | none =>
    refine .bind (.lift (hg.readPartial name)) fun document _ => ?_
    exact .bind (hkeep document) fun _ _ => .pure trivial

/-- The name of a partial is worked out quietly. -/
theorem quiet_partialName (template : Expression) :
    Quiet U V E (partialName settings template) fun _ => True := by
  refine .bind (quiet_evaluate hg template) fun v _ => ?_
  split
  · exact .pure trivial
  · exact .fail (hg.raised nofun nofun nofun rfl rfl)

/-- Whether a tag is disabled is asked quietly. -/
theorem quiet_checkEnabled (tag : String) :
    Quiet U V E (checkEnabled settings tag) fun _ => True := by
  let message := tag ++ " " ++ settings.registry.messages.text "errors.disabled.tag"
  -- The refusal reads the frame only, so it is a read with a result.
  let check (s : RenderState) : Except Error Unit :=
    if s.frame.disabled.contains tag then .error ⟨.standard, message, none, none⟩ else .ok ()
  have heq : checkEnabled settings tag = fun s => (check s, s) := by
    funext s
    unfold checkEnabled
    dsimp only [check]
    split <;> rfl
  rw [heq]
  refine .read (fun _ _ _ _ => rfl) fun s _ => ?_
  dsimp only [check]
  split
  · exact hg.raised nofun nofun nofun rfl rfl
  · trivial

/-- What an include passes is worked out quietly. -/
theorem quiet_includedObject (call : PartialCall) (name : String) :
    Quiet U V E (includedObject settings call name) V := by
  unfold includedObject
  split
  · exact .bind (quiet_evaluate hg _) fun v hv => .pure (hg.liquid hv)
  · refine .read (fun _ _ _ _ => rfl) fun s hs => ?_
    show V (((settings.view s).find? name).getD .nil)
    cases hv : (settings.view s).find? name with
    | none => exact hg.nil
    | some v => exact hs.find? hv

/-- Attributes are bound quietly, by induction on them. -/
theorem quiet_bindAttributes (attributes : List (String × Expression)) :
    Quiet U V E (bindAttributes settings attributes) fun _ => True := by
  induction attributes with
  | nil => exact .pure trivial
  | cons entry attributes ih =>
    refine .bind (quiet_evaluate hg entry.2) fun v hv => ?_
    exact .bind (quiet_bindName entry.1 hv) fun _ _ => ih

/-- What is passed to a partial is worked out quietly. -/
theorem quiet_passedObject (target : String) (call : PartialCall) :
    Quiet U V E (passedObject settings target call) (Passed.All V) := by
  unfold passedObject
  split
  · exact .pure (List.forall_mem_nil _)
  · refine .bind (quiet_evaluate hg _) fun v hv => ?_
    have hobject : ∀ e ∈ [(target, v.liquid)], V e.2 :=
      List.forall_mem_singleton.mpr (hg.liquid hv)
    dsimp only
    split
    · split
      · rename_i members hm
        exact .pure fun index => hg.members index (hg.liquid hv) hm
      · exact .pure hobject
    · -- Nothing is passed on if the object is nil.
      refine .pure ?_
      show ∀ e ∈ (if v.liquid.isNil then [] else [(target, v.liquid)]), V e.2
      split
      · exact List.forall_mem_nil _
      · exact hobject

/-- So are the bindings for a member of a collection. -/
theorem quiet_memberBindings (name target : String) {members : Slice}
    (hm : ∀ index, V (members.get index)) (index : Nat) :
    Quiet U V E (memberBindings name target members index)
      fun bindings => ∀ e ∈ bindings, V e.2 := by
  refine .bind (quiet_beginIteration hg name _ _ hg.nil) fun loop hloop => .pure ?_
  exact List.forall_mem_cons.mpr ⟨hm index, List.forall_mem_singleton.mpr hloop⟩

end

end Stencil
