import Stencil.Proofs.Lockstep

/-!
# Steps that nodes take themselves

Between the bodies that a node renders it evaluates markup, binds names, loads partials and opens
scopes. None of these steps records anything or leaves the document that the render is in. The
values that they give and the errors that they fail with are such as evaluation gives.

## Key definitions

- `Known`: what is known of the documents, the values and the errors of a render
- `RenderState.IsUnder`: the state of a render that is in a document
- `OwnStep`: the steps, closed under sequencing

## Key results

- `OwnStep.write`, `OwnStep.loopSlice`, `OwnStep.loadPartial`, `OwnStep.bindAttributes`: the steps
  of outputs, loops and calls of partials
-/

namespace Stencil

open Render

/-- What is known of a render: the documents that it comes to, by name, what its values satisfy, and
what the errors satisfy that its nodes fail with. -/
structure Known where
  document : Option String → Document → Prop
  value : Value → Prop
  error : Error → Prop

/-- A render with these settings does not come across anything else. -/
structure Known.Covers (known : Known) (settings : Settings) : Prop extends
    Grounds settings known.value known.error where
  overBudget : known.error .overBudget
  /-- What is read under a name is known by it. -/
  read {name : String} {document : Document} :
    settings.readPartial name = .ok document → known.document (some name) document

/-- The state of a render that is in a document of the name `owner`. All partials that were read are
known by their names, and the values that can be seen are such as are known. -/
structure RenderState.IsUnder (known : Known) (owner : Option String) (s : RenderState) : Prop where
  template : s.frame.template = owner
  partials {name : String} {document : Document} :
    s.progress.registers.partials.get? name = some document → known.document (some name) document
  admits : s.frame.Admits known.value

/-- A step that a node takes itself. It records nothing, and its result satisfies `Q`. -/
structure OwnStep (known : Known) {α : Type} (x : Render α) (Q : α → Prop) : Prop where
  errors {owner : Option String} {s : RenderState} :
    s.IsUnder known owner → (x s).2.progress.errors = s.progress.errors
  under {owner : Option String} {s : RenderState} :
    s.IsUnder known owner → (x s).2.IsUnder known owner
  meets {owner : Option String} {s : RenderState} :
    s.IsUnder known owner → Meets Q known.error (x s).1

/-- That a scope is refused is known. -/
theorem Known.Covers.tooDeep {known : Known} {settings : Settings} (hk : known.Covers settings) :
    known.error .tooDeep :=
  hk.raised nofun nofun nofun rfl rfl

variable {settings : Settings} {known : Known} {α β : Type} {P Q : α → Prop} {R : β → Prop}

/-- A state in which the same is seen, after the same was read, is in the same document. -/
theorem RenderState.IsUnder.of_eq {owner : Option String} {s t : RenderState}
    (hs : s.IsUnder known owner) (hframe : t.frame = s.frame)
    (hregisters : t.progress.registers = s.progress.registers) : t.IsUnder known owner where
  template := hframe ▸ hs.template
  partials := hregisters ▸ hs.partials
  admits := hframe ▸ hs.admits

namespace OwnStep

/-- A step that reads the state and leaves it alone. -/
theorem read {f : RenderState → Except Error α}
    (h : ∀ {owner s}, s.IsUnder known owner → Meets Q known.error (f s)) :
    OwnStep known (fun s => (f s, s)) Q :=
  ⟨fun _ => rfl, fun h => h, h⟩

/-- Giving a value is an own step. -/
theorem pure {a : α} (h : Q a) : OwnStep known (Pure.pure a) Q :=
  read fun _ => h

/-- So is failing with a known error. -/
theorem fail {e : Error} (h : known.error e) : OwnStep known (Attempt.fail e : Render α) Q :=
  read fun _ => h

/-- So is handing on an outcome that is known. -/
theorem lift {r : Except Error α} (h : Meets Q known.error r) : OwnStep known (Attempt.lift r) Q :=
  read fun _ => h

/-- What a step gives that succeeds. -/
theorem of_ok {x : Render α} (hx : OwnStep known x Q) {owner : Option String} {s t : RenderState}
    (hs : s.IsUnder known owner) {a : α} (h : x s = (.ok a, t)) : Q a := by
  have hmeets := hx.meets hs
  rw [h] at hmeets
  exact hmeets

/-- The second step may rely on what the first one gives. -/
theorem bind {x : Render α} {f : α → Render β} (hx : OwnStep known x P)
    (hf : ∀ a, P a → OwnStep known (f a) R) : OwnStep known (x >>= f) R := by
  -- What the first step gives decides how the sequence goes on, in each of the three respects.
  have hbind {owner : Option String} {s : RenderState} (hs : s.IsUnder known owner) :
      ((x >>= f) s).2.progress.errors = s.progress.errors
        ∧ ((x >>= f) s).2.IsUnder known owner ∧ Meets R known.error ((x >>= f) s).1 := by
    have herrors := hx.errors hs
    have hunder := hx.under hs
    have hmeets := hx.meets hs
    rcases h : x s with ⟨e | a, t⟩
    · rw [h] at herrors hunder hmeets
      rw [Attempt.bind_of_error h]
      exact ⟨herrors, hunder, hmeets⟩
    · rw [h] at herrors hunder hmeets
      rw [Attempt.bind_of_ok h]
      have hnext := hf a hmeets
      exact ⟨(hnext.errors hunder).trans herrors, hnext.under hunder, hnext.meets hunder⟩
  exact ⟨fun hs => (hbind hs).1, fun hs => (hbind hs).2.1, fun hs => (hbind hs).2.2⟩

/-- A step that binds a name, or assigns to it. -/
theorem bindName (name : String) {value : Value} (hv : known.value value) :
    OwnStep known (Render.bindName name value) fun _ => True :=
  ⟨fun _ => rfl, fun h => ⟨h.template, h.partials, h.admits.bind name hv⟩, fun _ => trivial⟩

/-- A known value is stored. -/
theorem store (name : String) {value : Value} (hv : known.value value) :
    OwnStep known (Render.store name value) fun _ => True :=
  ⟨fun _ => rfl, fun h => ⟨h.template, h.partials, h.admits.store name hv⟩, fun _ => trivial⟩

/-- A step that changes the registers, but not the partials that were read. -/
theorem modifyRegisters (f : Registers → Registers) (hf : ∀ r, (f r).partials = r.partials) :
    OwnStep known
      (Attempt.modify fun s => { s with progress.registers := f s.progress.registers })
      fun _ => True :=
  ⟨fun _ => rfl, fun h => ⟨h.template, fun hget => h.partials (hf _ ▸ hget), h.admits⟩,
    fun _ => trivial⟩

/-- A step that changes the interrupts. -/
theorem takeInterrupt : OwnStep known Render.takeInterrupt fun _ => True :=
  ⟨fun _ => rfl, fun h => ⟨h.template, h.partials,
    ⟨h.admits.inner, h.admits.outer, h.admits.environments, h.admits.loops⟩⟩, fun _ => trivial⟩

/-- An interrupt is no value. -/
theorem interrupt (i : Interrupt) : OwnStep known (Render.interrupt i) fun _ => True :=
  ⟨fun _ => rfl, fun h => ⟨h.template, h.partials,
    ⟨h.admits.inner, h.admits.outer, h.admits.environments, h.admits.loops⟩⟩, fun _ => trivial⟩

/-- Whether there is one is only looked at. -/
theorem interrupted : OwnStep known Render.interrupted fun _ => True :=
  read fun _ => trivial

/-- A step that charges. -/
theorem charge {cost : Budget → Except Error Unit × Budget}
    (h : ∀ b, Meets (fun _ => True) known.error (cost b).1) :
    OwnStep known (Render.charge cost) fun _ => True :=
  ⟨fun _ => rfl, fun hs => hs.of_eq rfl rfl, fun _ => h _⟩

/-- A text is written, or refused by the budget. -/
theorem emit (hbudget : known.error .overBudget) (text : String) :
    OwnStep known (Render.emit text) fun _ => True where
  errors _ := rfl
  under hs := hs.of_eq rfl rfl
  meets _ := (meets_emit text _).mono (fun _ h => h) fun _ h => h ▸ hbudget

section

variable (hk : known.Covers settings)
include hk

/-! ## Evaluation -/

/-- An expression has a known value, or a known error. -/
theorem evaluate (e : Expression) : OwnStep known (Render.evaluate settings e) known.value :=
  read fun hs => hk.evaluate e hs.admits

/-- So has a pipeline. -/
theorem evaluatePipeline (p : Pipeline) :
    OwnStep known (Render.evaluatePipeline settings p) known.value :=
  read fun hs => hk.pipeline p hs.admits

/-- A condition holds or not, or has a known error. -/
theorem evaluateCondition (c : Condition) :
    OwnStep known (Render.evaluateCondition settings c) fun _ => True :=
  read fun hs => hk.condition c hs.admits

/-- Attributes have known values, by induction on them. -/
theorem evaluateAll (entries : List (String × Expression)) :
    OwnStep known (Render.evaluateAll settings entries)
      fun bindings => ∀ e ∈ bindings, known.value e.2 := by
  unfold Render.evaluateAll
  induction entries with
  | nil => exact pure (List.forall_mem_nil _)
  | cons entry entries ih =>
    rw [List.mapM_cons]
    have hentry : OwnStep known (do return (entry.1, ← Render.evaluate settings entry.2))
        fun e => known.value e.2 := bind (evaluate hk entry.2) fun v hv => pure hv
    refine bind hentry fun e he => bind ih fun bindings hb => pure ?_
    exact List.forall_mem_cons.mpr ⟨he, hb⟩

/-- An output is evaluated and written. -/
theorem write (p : Pipeline) : OwnStep known (Render.write settings p) fun _ => True := by
  rw [write_eq]
  exact bind (evaluatePipeline hk p) fun v _ => emit hk.overBudget v.text

/-! ## Loops -/

/-- The attribute of a loop is an integer, or refused as one. -/
private theorem loopAttribute (e : Expression) :
    OwnStep known (Render.loopAttribute settings e) fun _ => True := by
  refine bind (evaluate hk e) fun v _ => ?_
  split
  · exact pure trivial
  · exact bind (lift (hk.toInteger _)) fun _ _ => pure trivial

/-- Where a loop starts is known, or its offset is refused. -/
private theorem loopStart (name : String) (offset : Option LoopOffset) :
    OwnStep known (Render.loopStart settings name offset) fun _ => True := by
  cases offset with
  | none => exact pure trivial
  | some offset =>
    cases offset with
    | «continue» => exact read fun _ => trivial
    | «at» e => exact bind (loopAttribute hk e) fun _ _ => pure trivial

/-- Where it stops is known, or its limit is refused. -/
private theorem loopStop (start : Nat) (limit : Option Expression) :
    OwnStep known (Render.loopStop settings start limit) fun _ => True := by
  cases limit with
  | none => exact pure trivial
  | some e => exact bind (loopAttribute hk e) fun _ _ => pure trivial

/-- What a loop runs over is made of values such as are known. -/
theorem loopSlice (name : String) (header : LoopHeader) :
    OwnStep known (Render.loopSlice settings name header)
      fun slice => ∀ index, known.value (slice.get index) := by
  have hposition (position : Nat) : OwnStep known (setPosition name position) fun _ => True :=
    modifyRegisters (fun r => { r with positions := r.positions.put name position }) fun _ => rfl
  refine bind (evaluate hk _) fun v hv => bind (loopStart hk name _) fun start _ => ?_
  refine bind (loopStop hk start _) fun stop _ => bind (hposition _) fun _ _ => pure fun index => ?_
  exact hk.slice start stop index (hk.liquid hv)

/-- A loop describes itself with known values. -/
theorem beginIteration (name : String) (length index : Nat) {parent : Value}
    (hparent : known.value parent) :
    OwnStep known (Render.beginIteration name length index parent) known.value where
  errors _ := rfl
  under hs := hs.of_eq rfl rfl
  meets _ := hk.loop _ name length index hparent

/-- A turn binds the item and the description of the loop. -/
theorem beginTurn (name : String) (header : LoopHeader) {slice : Slice}
    (hslice : ∀ index, known.value (slice.get index)) {parent : Value}
    (hparent : known.value parent) (index : Nat) :
    OwnStep known (Render.beginTurn name header slice parent index) known.value :=
  bind (beginIteration hk name _ _ hparent) fun _ hloop =>
    bind (bindName _ (hslice _)) fun _ _ => bind (bindName _ hloop) fun _ _ => pure hloop

/-! ## Calls of partials -/

theorem loadPartial (name : String) :
    OwnStep known (Render.loadPartial settings name) (known.document (some name)) where
  errors {owner s} _ := by
    unfold Render.loadPartial
    split
    · rfl
    · split <;> rfl
  under {owner s} hs := by
    unfold Render.loadPartial
    split
    · exact hs
    · split
      · rename_i document hdocument
        -- The partial that was read is kept with those before it.
        refine ⟨hs.template, fun {name' document'} hget => ?_, hs.admits⟩
        rw [Assoc.get?_put] at hget
        split at hget
        · rename_i heq
          cases heq
          cases hget
          exact hk.read hdocument
        · exact hs.partials hget
      · exact hs
  meets {owner s} hs := by
    unfold Render.loadPartial
    split
    · -- A partial is taken from the registers, read, or refused.
      rename_i document hget
      exact hs.partials hget
    · have hread := hk.readPartial name
      split
      · rename_i document hdocument
        exact hk.read hdocument
      · rename_i e he
        rw [he] at hread
        exact hread

/-- The name of a partial is a text, or refused as one. -/
theorem partialName (template : Expression) :
    OwnStep known (Render.partialName settings template) fun _ => True := by
  refine bind (evaluate hk template) fun v _ => ?_
  split
  · exact pure trivial
  · exact fail (hk.raised nofun nofun nofun rfl rfl)

/-- A tag that is disabled is refused with a known error. -/
theorem checkEnabled (tag : String) :
    OwnStep known (Render.checkEnabled settings tag) fun _ => True where
  errors {owner s} _ := by
    unfold Render.checkEnabled
    split <;> rfl
  under {owner s} hs := by
    unfold Render.checkEnabled
    split <;> exact hs
  meets {owner s} _ := by
    unfold Render.checkEnabled
    split
    · exact hk.raised nofun nofun nofun rfl rfl
    · trivial

/-- An include passes a known value. -/
theorem includedObject (call : PartialCall) (name : String) :
    OwnStep known (Render.includedObject settings call name) known.value := by
  unfold Render.includedObject
  split
  · exact bind (evaluate hk _) fun v hv => pure (hk.liquid hv)
  · refine read fun {owner s} hs => ?_
    show known.value (((settings.view s).find? name).getD .nil)
    cases hv : (settings.view s).find? name with
    | none => exact hk.nil
    | some v => exact hs.admits.find? hv

/-- Attributes are bound to known values, by induction on them. -/
theorem bindAttributes (attributes : List (String × Expression)) :
    OwnStep known (Render.bindAttributes settings attributes) fun _ => True := by
  induction attributes with
  | nil => exact pure trivial
  | cons entry attributes ih =>
    exact bind (evaluate hk entry.2) fun _ hv => bind (bindName entry.1 hv) fun _ _ => ih

/-- What is passed to a partial is known. -/
theorem passedObject (target : String) (call : PartialCall) :
    OwnStep known (Render.passedObject settings target call) (Passed.All known.value) := by
  unfold Render.passedObject
  split
  · exact pure (List.forall_mem_nil _)
  · refine bind (evaluate hk _) fun v hv => ?_
    have hobject : ∀ e ∈ [(target, v.liquid)], known.value e.2 :=
      List.forall_mem_singleton.mpr (hk.liquid hv)
    dsimp only
    split
    · split
      · rename_i members hm
        exact pure fun index => hk.members index (hk.liquid hv) hm
      · exact pure hobject
    · -- Nothing is passed on if the object is nil.
      refine pure ?_
      show ∀ e ∈ (if v.liquid.isNil then [] else [(target, v.liquid)]), known.value e.2
      split
      · exact List.forall_mem_nil _
      · exact hobject

/-- So are the bindings for a member of a collection. -/
theorem memberBindings (name target : String) {members : Slice}
    (hm : ∀ index, known.value (members.get index)) (index : Nat) :
    OwnStep known (Render.memberBindings name target members index)
      fun bindings => ∀ e ∈ bindings, known.value e.2 :=
  bind (beginIteration hk name _ _ hk.nil) fun _ hloop =>
    pure (List.forall_mem_cons.mpr ⟨hm index, List.forall_mem_singleton.mpr hloop⟩)

omit hk in
/-- Names are bound to known values, by induction on them. -/
theorem bindAll {entries : List (String × Value)} (h : ∀ e ∈ entries, known.value e.2) :
    OwnStep known (Render.bindAll entries) fun _ => True := by
  induction entries with
  | nil => exact pure trivial
  | cons entry entries ih =>
    obtain ⟨hv, hrest⟩ := List.forall_mem_cons.mp h
    exact bind (bindName entry.1 hv) fun _ _ => ih hrest

/-! ## Counters -/

/-- A counter is a register with an integer in it. -/
theorem count (register : String) : OwnStep known (Render.count register) fun _ => True := by
  let value (s : RenderState) : Except Error Int64 :=
    ((s.progress.registers.values.get? register).getD (.int 0)).toInteger
  -- The number is read from the state, so the step is a sequence that begins with a reading.
  have heq : Render.count register = (fun s => (value s, s) : Render Int64) >>= fun n =>
      (Render.count.setRegister register (.int (n + 1)) >>= fun _ =>
        Render.emit (Value.int (n + 1)).text) := rfl
  rw [heq]
  refine bind (P := fun _ => True) (read fun _ => hk.toInteger _) fun n _ => ?_
  have hset (v : Value) : OwnStep known (Render.count.setRegister register v) fun _ => True :=
    modifyRegisters (fun r => { r with values := r.values.put register v }) fun _ => rfl
  exact bind (hset _) fun _ _ => emit hk.overBudget _

end

end OwnStep

end Stencil
