import Stencil.Render.Document

/-!
# Renders as scripts

A script is a render written down step by step: what it evaluates, charges, writes, binds and
stores, how its steps follow one another and how they stand inside one another. To run it is to
render. So what holds of all renders is an induction over scripts, under one choice of settings
or under two, and what a render does on the way can be read off its script.

The scripts below follow the definitions of `Stencil.Render.Document` one by one.

## Key definitions

- `Aside`: steps that look at nothing of what was written, spent and recorded
- `Script`, `Script.run`
- `Body.script`, `Document.scriptWithin`: the scripts of bodies and documents

## Key results

- `Body.run_script`, `Document.run_scriptWithin`: to run the script is to render
-/

namespace Stencil

open Render

/-! ## Steps aside -/

/-- The state with another output, budget and record of errors. -/
def RenderState.besides (s : RenderState) (output : String) (budget : Budget)
    (errors : Array Error) : RenderState :=
  { s with
    progress.output := output
    progress.budget := budget
    progress.errors := errors }

/-- A step that looks at nothing of what was written, spent and recorded and leaves it alone, and
the variables as well. -/
structure Aside {α : Type} (x : Render α) : Prop where
  besides (s : RenderState) (output : String) (budget : Budget) (errors : Array Error) :
    x (s.besides output budget errors) = ((x s).1, (x s).2.besides output budget errors)
  scopes (s : RenderState) : (x s).2.frame.scopes = s.frame.scopes

namespace Aside

variable {α : Type}

/-- Giving a value is a step aside. -/
theorem pure (a : α) : Aside (Pure.pure a) :=
  ⟨fun _ _ _ _ => rfl, fun _ => rfl⟩

/-- So is failing. -/
theorem fail (e : Error) : Aside (Attempt.fail e : Render α) :=
  ⟨fun _ _ _ _ => rfl, fun _ => rfl⟩

/-- So is handing on an outcome. -/
theorem lift (r : Except Error α) : Aside (Attempt.lift r) :=
  ⟨fun _ _ _ _ => rfl, fun _ => rfl⟩

/-- The position of a loop is kept in the registers. -/
theorem setPosition (name : String) (position : Nat) : Aside (setPosition name position) :=
  ⟨fun _ _ _ _ => rfl, fun _ => rfl⟩

/-- So is the value of a counter. -/
theorem setRegister (register : String) (value : Value) :
    Aside (count.setRegister register value) :=
  ⟨fun _ _ _ _ => rfl, fun _ => rfl⟩

/-- The turns of loops are numbered apart from the budget. -/
theorem beginIteration (name : String) (length index : Nat) (parent : Value) :
    Aside (beginIteration name length index parent) :=
  ⟨fun _ _ _ _ => rfl, fun _ => rfl⟩

/-- An interrupt is put into the frame. -/
theorem interrupt (i : Interrupt) : Aside (interrupt i) :=
  ⟨fun _ _ _ _ => rfl, fun _ => rfl⟩

/-- And taken from there. -/
theorem takeInterrupt : Aside takeInterrupt :=
  ⟨fun _ _ _ _ => rfl, fun _ => rfl⟩

/-- Whether there is one is only looked at. -/
theorem interrupted : Aside interrupted :=
  ⟨fun _ _ _ _ => rfl, fun _ => rfl⟩

/-- A variable is only looked at. -/
theorem variableOrNil (settings : Settings) (name : String) :
    Aside (variableOrNil settings name) :=
  ⟨fun _ _ _ _ => rfl, fun _ => rfl⟩

/-- A partial is kept in the registers, or nothing is changed. -/
theorem loadPartial (settings : Settings) (name : String) : Aside (loadPartial settings name) := by
  constructor
  · intro s output budget errors
    -- Each of the outcomes gives back the budget and the errors.
    unfold Render.loadPartial
    dsimp only [RenderState.besides]
    cases s.progress.registers.partials.get? name with
    | some document => rfl
    | none => cases settings.readPartial name <;> rfl
  · intro s
    unfold Render.loadPartial
    cases s.progress.registers.partials.get? name with
    | some document => rfl
    | none => cases settings.readPartial name <;> rfl

/-- Whether a tag is disabled is only looked at. -/
theorem checkEnabled (settings : Settings) (tag : String) : Aside (checkEnabled settings tag) := by
  constructor
  · intro s output budget errors
    have hframe : (s.besides output budget errors).frame = s.frame := rfl
    unfold Render.checkEnabled
    rw [hframe]
    split <;> rfl
  · intro s
    unfold Render.checkEnabled
    split <;> rfl

/-- What is left alone by a step aside. -/
theorem output_eq {x : Render α} (h : Aside x) (s : RenderState) :
    (x s).2.progress.output = s.progress.output :=
  congrArg (·.2.progress.output) (h.besides s s.progress.output s.progress.budget s.progress.errors)

/-- A step aside charges nothing. -/
theorem budget_eq {x : Render α} (h : Aside x) (s : RenderState) :
    (x s).2.progress.budget = s.progress.budget :=
  congrArg (·.2.progress.budget) (h.besides s s.progress.output s.progress.budget s.progress.errors)

/-- A step aside records nothing. -/
theorem errors_eq {x : Render α} (h : Aside x) (s : RenderState) :
    (x s).2.progress.errors = s.progress.errors :=
  congrArg (·.2.progress.errors) (h.besides s s.progress.output s.progress.budget s.progress.errors)

end Aside

/-! ## Scripts -/

/-- A render, step by step; `inner` if it is taken in a scope of its own, where names may be
bound. -/
inductive Script : (inner : Bool) → Type → Type 1 where
  | aside {b : Bool} {α : Type} (x : Render α) : Aside x → Script b α
  | evaluate {b : Bool} (e : Expression) : Script b Value
  | pipeline {b : Bool} (p : Pipeline) : Script b Value
  | condition {b : Bool} (c : Condition) : Script b Bool
  /-- The nodes of a body are charged. -/
  | score {b : Bool} (nodes : Nat) : Script b Unit
  | emit {b : Bool} (text : String) : Script b Unit
  | bindAll (entries : List (String × Value)) : Script true Unit
  | assign {b : Bool} (name : String) (value : Value) : Script b Unit
  | bind {b : Bool} {α β : Type} (x : Script b α) (f : α → Script b β) : Script b β
  | diverted {b : Bool} (x : Script b Unit) : Script b String
  /-- What a script writes is stored in place of being written. -/
  | capture {b : Bool} (name : String) (x : Script b Unit) : Script b Unit
  | inScope {b : Bool} {α : Type} (x : Script true α) : Script b α
  | inTemplate {b : Bool} {α : Type} (name : String) (x : Script b α) : Script b α
  | isolated {b : Bool} {α : Type} (template : Option String) (x : Script false α) : Script b α
  | inLoop {b : Bool} {α : Type} (loop : Value) (x : Script b α) : Script b α
  | rescuing {b : Bool} (line : Option Nat) (blank : Bool) (x : Script b Unit) : Script b Unit

namespace Script

/-- Takes the steps of a script. -/
def run (settings : Settings) : {b : Bool} → {α : Type} → Script b α → Render α
  | _, _, aside x _ => x
  | _, _, evaluate e => Render.evaluate settings e
  | _, _, pipeline p => evaluatePipeline settings p
  | _, _, condition c => evaluateCondition settings c
  | _, _, score nodes => charge (·.chargeScore nodes)
  | _, _, emit text => Render.emit text
  | _, _, bindAll entries => Render.bindAll entries
  | _, _, assign name value => Render.assign name value
  | _, _, bind x f => x.run settings >>= fun a => (f a).run settings
  | _, _, diverted x => Render.diverted (x.run settings)
  | _, _, capture name x => captured (x.run settings) >>= fun text => store name (.str text)
  | _, _, inScope x => Render.inScope (x.run settings)
  | _, _, inTemplate name x => Render.inTemplate name (x.run settings)
  | _, _, isolated template x => Render.isolated template (x.run settings)
  | _, _, inLoop loop x => Render.inLoop loop (x.run settings)
  | _, _, rescuing line blank x => Render.rescuing settings line blank (x.run settings)

instance {b : Bool} : Monad (Script b) where
  pure a := aside (pure a) (.pure a)
  bind := bind

variable {b : Bool} {α β : Type} {settings : Settings}

/-- Running a script that only gives a value. -/
@[simp] theorem run_pure (a : α) : (pure a : Script b α).run settings = pure a := rfl

/-- Running a script after another. -/
@[simp] theorem run_bind (x : Script b α) (f : α → Script b β) :
    (x >>= f).run settings = x.run settings >>= fun a => (f a).run settings := rfl

/-! ### Evaluation -/

/-- The script of `Render.evaluateAll`. -/
def evaluateAll : List (String × Expression) → Script b (List (String × Value))
  | [] => pure []
  | (name, e) :: entries => do
    let v ← evaluate e
    let rest ← evaluateAll entries
    return (name, v) :: rest

/-- The script of `Render.write`. -/
def write (p : Pipeline) : Script b Unit := do
  let v ← pipeline p
  emit v.text

/-! ### Loops -/

/-- The script of `Render.loopAttribute`. -/
def loopAttribute (e : Expression) : Script b (Option Int64) := do
  match (← evaluate e).scalar with
  | .nil => return none
  | v => do return some (← aside (Attempt.lift v.toInteger) (.lift _))

/-- The script of `Render.loopStart`. -/
def loopStart (name : String) : Option LoopOffset → Script b Nat
  | none => pure 0
  | some .continue =>
    aside (fun s => (.ok ((s.progress.registers.positions.get? name).getD 0), s))
      ⟨fun _ _ _ _ => rfl, fun _ => rfl⟩
  | some (.at e) => do
    return ((← loopAttribute e).map (·.toInt.toNat)).getD 0

/-- The script of `Render.loopStop`. -/
def loopStop (start : Nat) : Option Expression → Script b (Option Nat)
  | none => pure none
  | some e => do
    return (← loopAttribute e).map (start + ·.toInt.toNat)

/-- The script of `Render.loopSlice`. -/
def loopSlice (name : String) (header : LoopHeader) : Script b Slice := do
  let collection := (← evaluate header.collection).liquid
  let start ← loopStart name header.offset
  let stop ← loopStop start header.limit
  let slice := Slice.of start stop collection
  aside (setPosition name (start + slice.length)) (.setPosition ..)
  return slice

/-- The script of `Render.steps`. -/
def steps (step : Nat → Script b Bool) (length : Nat) : (remaining : Nat) → Script b Unit
  | 0 => pure ()
  | remaining + 1 => do
    if ← step (length - (remaining + 1)) then steps step length remaining else pure ()

/-- The script of `Render.beginTurn`. -/
def beginTurn (name : String) (header : LoopHeader) (slice : Slice) (parent : Value)
    (index : Nat) : Script true Value := do
  let place := if header.reversed then slice.length - 1 - index else index
  let loop ← aside (beginIteration name slice.length index parent) (.beginIteration ..)
  bindAll [(header.item, slice.get place)]
  bindAll [("forloop", loop)]
  return loop

/-- The script of `Render.iteration`. -/
def iteration (name : String) (header : LoopHeader) (slice : Slice) (parent : Value)
    (body : Script true Unit) (index : Nat) : Script true Bool := do
  let loop ← beginTurn name header slice parent index
  inLoop loop body
  return (← aside takeInterrupt .takeInterrupt) != some .break

/-- The script of `Render.loop`. -/
def loop (name : String) (header : LoopHeader) (slice : Slice) (body : Script true Unit) :
    Script b Unit := do
  let parent ← aside (fun s => (.ok (s.frame.loops.head?.getD .nil), s))
    ⟨fun _ _ _ _ => rfl, fun _ => rfl⟩
  inScope (steps (iteration name header slice parent body) slice.length slice.length)

/-! ### Partials -/

/-- The script of a called partial. -/
abbrev OfPartials := Document → Script true Unit

/-- The script of `Render.partialName`. -/
def partialName (settings : Settings) (template : Expression) : Script b String := do
  match (← evaluate template).scalar with
  | .str name => return name
  | _ =>
    let e := Error.argument (settings.registry.messages.text "errors.argument.include")
    aside (Attempt.fail e) (.fail e)

/-- The script of `Render.includedObject`. -/
def includedObject (settings : Settings) (call : PartialCall) (name : String) : Script b Value :=
  match call.object with
  | some e => do return (← evaluate e).liquid
  | none => aside (variableOrNil settings name) (.variableOrNil ..)

/-- The script of `Render.eachItem`. -/
def eachItem (target : String) (render : Script true Unit) : List Value → Script true Unit
  | [] => pure ()
  | item :: items => do
    bindAll [(target, item)]
    render
    eachItem target render items

/-- The script of `Render.bindAttributes`. -/
def bindAttributes : List (String × Expression) → Script true Unit
  | [] => pure ()
  | (key, e) :: attributes => do
    bindAll [(key, ← evaluate e)]
    bindAttributes attributes

/-- The script of `Render.includePartial`. -/
def includePartial (settings : Settings) (partials : OfPartials) (call : PartialCall) :
    Script b Unit := do
  aside (checkEnabled settings "include") (.checkEnabled ..)
  let name ← partialName settings call.template
  let document ← aside (loadPartial settings name) (.loadPartial ..)
  let object ← includedObject settings call name
  inTemplate name <| inScope do
    bindAttributes call.attributes
    eachItem (call.objectName name) (partials document) (includedItems object)

/-- The script of `Render.renderOnce`. -/
def renderOnce (settings : Settings) (partials : OfPartials) (name : String)
    (attributes : List (String × Value)) (bindings : Script b (List (String × Value))) :
    Script b Unit := do
  let document ← aside (loadPartial settings name) (.loadPartial ..)
  let bindings ← bindings
  isolated (some name) <| inScope do
    bindAll (attributes ++ bindings)
    partials document

/-- The script of `Render.passedObject`. -/
def passedObject (target : String) (call : PartialCall) : Script b Passed :=
  match call.object with
  | none => return .once []
  | some e => do
    let v := (← evaluate e).liquid
    if call.each then
      match Slice.all? v with
      | some members => return .each members
      | none => return .once [(target, v)]
    else return .once (if v.isNil then [] else [(target, v)])

/-- The script of `Render.memberBindings`. -/
def memberBindings (name target : String) (members : Slice) (index : Nat) :
    Script b (List (String × Value)) := do
  let loop ← aside (beginIteration name members.length index .nil) (.beginIteration ..)
  return [(target, members.get index), ("forloop", loop)]

/-- The script of `Render.renderPartial`. -/
def renderPartial (settings : Settings) (partials : OfPartials) (name : String)
    (call : PartialCall) : Script b Unit := do
  let target := call.objectName name
  let attributes ← evaluateAll call.attributes
  match ← passedObject target call with
  | .once bindings => renderOnce settings partials name attributes (pure bindings)
  | .each members =>
    let member (index : Nat) : Script b Bool := do
      renderOnce settings partials name attributes (memberBindings name target members index)
      return true
    steps member members.length members.length

/-- The script of `Render.count`. -/
def count (register : String) : Script b Unit := do
  let n ← aside
    (fun s => (((s.progress.registers.values.get? register).getD (.int 0)).toInteger, s))
    ⟨fun _ _ _ _ => rfl, fun _ => rfl⟩
  let next := Value.int (n + 1)
  aside (count.setRegister register next) (.setRegister ..)
  emit next.text

end Script

/-! ## The scripts of nodes -/

open Script in
mutual

/-- The script of a body. -/
def Body.script (settings : Settings) (partials : OfPartials) {b : Bool} : Body → Script b Unit
  | .mk nodes _ => do
    score nodes.length
    Node.scriptAll settings partials nodes

/-- The script of nodes in order. -/
def Node.scriptAll (settings : Settings) (partials : OfPartials) {b : Bool} :
    List Node → Script b Unit
  | [] => pure ()
  | node :: nodes => do
    if ← node.script settings partials then Node.scriptAll settings partials nodes else pure ()

/-- The script of a node. -/
def Node.script (settings : Settings) (partials : OfPartials) {b : Bool} : Node → Script b Bool
  | .text text => do
    emit text
    return true
  | .output p => do
    rescuing p.line false (write p)
    return true
  | .tag tag => do
    rescuing tag.line tag.isBlank (Tag.script settings partials tag)
    return !(← aside interrupted .interrupted)

/-- The script of the first branch that is taken. -/
def Branch.scriptFirst (settings : Settings) (partials : OfPartials) {b : Bool} (negated : Bool) :
    List Branch → Script b Unit
  | [] => pure ()
  | .mk c body :: branches => do
    if (← condition c) != negated then Body.script settings partials body
    else Branch.scriptFirst settings partials false branches

/-- The script of the arms of a choice. -/
def Arm.scriptAll (settings : Settings) (partials : OfPartials) {b : Bool} (matched : Bool) :
    List Arm → Script b Unit
  | [] => pure ()
  | .when c body :: arms => do
    if ← condition c then
      Body.script settings partials body
      Arm.scriptAll settings partials true arms
    else Arm.scriptAll settings partials matched arms
  | .otherwise body :: arms => do
    if matched then Arm.scriptAll settings partials matched arms
    else
      Body.script settings partials body
      Arm.scriptAll settings partials matched arms

/-- The script of numbered sections. -/
def Body.scriptSections (settings : Settings) (partials : OfPartials) {b : Bool} (index : Nat) :
    List Body → Script b Unit
  | [] => pure ()
  | body :: bodies => do
    emit ("<" ++ toString index ++ ">")
    inScope (Body.script settings partials body)
    Body.scriptSections settings partials (index + 1) bodies

/-- The script of a body, if there is one. -/
def Body.scriptIfAny (settings : Settings) (partials : OfPartials) {b : Bool} :
    Option Body → Script b Unit
  | none => pure ()
  | some body => Body.script settings partials body

/-- The script of a tag. -/
def Tag.script (settings : Settings) (partials : OfPartials) {b : Bool} : Tag → Script b Unit
  | .conditional _ negated branches _ _ => Branch.scriptFirst settings partials negated branches
  | .choice arms _ _ => Arm.scriptAll settings partials false arms
  | .loop name header body otherwise _ _ => do
    let slice ← loopSlice name header
    if slice.length = 0 then Body.scriptIfAny settings partials otherwise
    else Script.loop name header slice (Body.script settings partials body)
  | .interrupt i _ => aside (Render.interrupt i) (.interrupt i)
  | .assign target source _ => do Script.assign target (← pipeline source)
  | .capture target body _ => Script.capture target (Body.script settings partials body)
  | .comment | .inlineComment => pure ()
  | .raw text => emit text
  | .echo source => write source
  | .lines body _ => Body.script settings partials body
  | .includePartial call _ => Script.includePartial settings partials call
  | .renderPartial name call _ => Script.renderPartial settings partials name call
  | .transform _ f body => do emit (f (← diverted (Body.script settings partials body)))
  | .sections _ bodies _ => Body.scriptSections settings partials 0 bodies
  | .counter _ register => Script.count register

end

/-- The script of a document that calls partials at most `levels` deep. -/
def Document.scriptWithin (settings : Settings) :
    (levels : Nat) → {b : Bool} → Document → Script b Unit
  | 0 => Body.script settings fun _ => .aside (Attempt.fail .tooDeep) (.fail .tooDeep)
  | levels + 1 => Body.script settings fun document => scriptWithin settings levels document

/-! ## To run a script is to render -/

/-- Settings that may differ in how strict they are, and in how errors are dealt with. -/
structure Settings.Agree (σ τ : Settings) : Prop where
  registry : τ.registry = σ.registry
  parsing : τ.parsing = σ.parsing

namespace Script

variable {σ τ : Settings} {b : Bool}

/-- The script of `Render.evaluateAll` does what that does, by induction on the entries. -/
private theorem run_evaluateAll (entries : List (String × Expression)) :
    (evaluateAll entries : Script b _).run τ = Render.evaluateAll τ entries := by
  unfold Render.evaluateAll
  induction entries with
  | nil => rfl
  | cons entry entries ih =>
    rw [List.mapM_cons, evaluateAll, run_bind]
    simp only [run_bind, ih, run_pure, bind_assoc, pure_bind]
    rfl

/-- The script of `Render.write` does what that does. -/
private theorem run_write (p : Pipeline) : (write p : Script b _).run τ = Render.write τ p := by
  rw [write_eq]
  rfl

/-- The script of `Render.loopAttribute` does what that does. -/
private theorem run_loopAttribute (e : Expression) :
    (loopAttribute e : Script b _).run τ = Render.loopAttribute τ e := by
  refine congrArg (Render.evaluate τ e >>= ·) (funext fun v => ?_)
  dsimp only
  cases v.scalar <;> rfl

/-- The script of `Render.loopStart` does what that does. -/
private theorem run_loopStart (name : String) (offset : Option LoopOffset) :
    (loopStart name offset : Script b _).run τ = Render.loopStart τ name offset := by
  cases offset with
  | none => rfl
  | some offset =>
    cases offset with
    | «continue» => rfl
    | «at» e => rw [loopStart, run_bind, run_loopAttribute]; rfl

/-- The script of `Render.loopStop` does what that does. -/
private theorem run_loopStop (start : Nat) (limit : Option Expression) :
    (loopStop start limit : Script b _).run τ = Render.loopStop τ start limit := by
  cases limit with
  | none => rfl
  | some e => rw [loopStop, run_bind, run_loopAttribute]; rfl

/-- The script of `Render.loopSlice` does what that does. -/
private theorem run_loopSlice (name : String) (header : LoopHeader) :
    (loopSlice name header : Script b _).run τ = Render.loopSlice τ name header := by
  rw [loopSlice]
  simp only [run_bind, run_loopStart, run_loopStop]
  rfl

/-- Numbered scripts do what numbered steps do, if each script does what the step does. -/
private theorem run_steps {step : Nat → Script b Bool} {step' : Nat → Render Bool}
    (h : ∀ index, (step index).run τ = step' index) (length remaining : Nat) :
    (steps step length remaining).run τ = Render.steps step' length remaining := by
  induction remaining with
  | zero => rfl
  | succ remaining ih =>
    rw [steps_succ, steps, run_bind, h]
    refine congrArg (_ >>= ·) (funext fun more => ?_)
    -- The next step is taken only if this one asks for it.
    cases more with
    | true => exact ih
    | false => rfl

/-- The script of a loop does what the loop does, if that of its body does. -/
private theorem run_loop (name : String) (header : LoopHeader) (slice : Slice)
    {body : Script true Unit} {body' : Render Unit} (hbody : body.run τ = body') :
    (loop name header slice body : Script b _).run τ = Render.loop name header slice body' := by
  subst hbody
  -- The loop around this one is read off the frame before the scope is entered.
  let parent (s : RenderState) : Value := s.frame.loops.head?.getD .nil
  have heq : Render.loop name header slice (body.run τ)
      = (fun s => (.ok (parent s), s) : Render Value) >>= fun parent =>
        Render.inScope (Render.steps (Render.iteration name header slice parent (body.run τ))
          slice.length slice.length) := rfl
  rw [heq]
  refine congrArg (_ >>= ·) (funext fun parent => congrArg Render.inScope ?_)
  exact run_steps (fun index => rfl) slice.length slice.length

/-- The script of `Render.partialName` does what that does. -/
private theorem run_partialName (hag : σ.Agree τ) (template : Expression) :
    (partialName σ template : Script b _).run τ = Render.partialName τ template := by
  unfold Render.partialName
  rw [hag.registry]
  refine congrArg (Render.evaluate τ template >>= ·) (funext fun v => ?_)
  dsimp only
  cases v.scalar <;> rfl

/-- The script of `Render.includedObject` does what that does. -/
private theorem run_includedObject (call : PartialCall) (name : String) :
    (includedObject σ call name : Script b _).run τ = Render.includedObject τ call name := by
  unfold includedObject Render.includedObject
  cases call.object <;> rfl

/-- The script of `Render.eachItem` does what that does, by induction on the items. -/
private theorem run_eachItem (target : String) {render : Script true Unit}
    {render' : Render Unit} (h : render.run τ = render') (items : List Value) :
    (eachItem target render items).run τ = Render.eachItem target render' items := by
  induction items with
  | nil => rfl
  | cons item items ih =>
    rw [eachItem_cons, eachItem, bind_assoc, ← ih, ← h]
    rfl

/-- The script of `Render.bindAttributes` does what that does, by induction on the attributes. -/
private theorem run_bindAttributes (attributes : List (String × Expression)) :
    (bindAttributes attributes).run τ = Render.bindAttributes τ attributes := by
  induction attributes with
  | nil => rfl
  | cons entry attributes ih =>
    rw [bindAttributes, Render.bindAttributes, ← ih]
    rfl

/-- The script of `Render.passedObject` does what that does. -/
private theorem run_passedObject (target : String) (call : PartialCall) :
    (passedObject target call : Script b _).run τ = Render.passedObject τ target call := by
  unfold passedObject Render.passedObject
  cases call.object with
  | none => rfl
  | some e =>
    refine congrArg (Render.evaluate τ e >>= ·) (funext fun v => ?_)
    dsimp only
    -- Only `for` looks whether the value has items; `with` passes it on as it is.
    cases call.each with
    | true => cases Slice.all? v.liquid <;> rfl
    | false => rfl

/-- A partial is loaded in the same way where the settings agree. -/
private theorem loadPartial_of_agree (hag : σ.Agree τ) (name : String) :
    Render.loadPartial σ name = Render.loadPartial τ name := by
  unfold Render.loadPartial Settings.readPartial
  rw [hag.registry, hag.parsing]

/-- Settings that agree disable the same tags with the same message. -/
private theorem checkEnabled_of_agree (hag : σ.Agree τ) (tag : String) :
    Render.checkEnabled σ tag = Render.checkEnabled τ tag := by
  unfold Render.checkEnabled
  rw [hag.registry]

variable (hag : σ.Agree τ) {partials : OfPartials} {partials' : PartialRenderer}
  (hpartials : ∀ document, (partials document).run τ = partials' document)
include hag hpartials

/-- The script of an include does what that does, if those of partials do. -/
private theorem run_includePartial (call : PartialCall) :
    (includePartial σ partials call : Script b _).run τ
      = Render.includePartial τ partials' call := by
  unfold includePartial Render.includePartial
  simp only [run_bind, run_partialName hag, run_includedObject]
  rw [← checkEnabled_of_agree hag]
  simp only [← loadPartial_of_agree hag, ← run_bindAttributes, ← run_eachItem _ (hpartials _)]
  rfl

/-- The script of `Render.renderOnce` does what that does, if those of partials do. -/
private theorem run_renderOnce (name : String) (attributes : List (String × Value))
    {bindings : Script b (List (String × Value))} {bindings' : Render (List (String × Value))}
    (hb : bindings.run τ = bindings') :
    (renderOnce σ partials name attributes bindings).run τ
      = Render.renderOnce τ partials' name attributes bindings' := by
  unfold renderOnce Render.renderOnce
  rw [← loadPartial_of_agree hag, ← hb]
  simp only [← hpartials]
  rfl

/-- The script of `Render.renderPartial` does what that does, if those of partials do. -/
private theorem run_renderPartial (name : String) (call : PartialCall) :
    (renderPartial σ partials name call : Script b _).run τ
      = Render.renderPartial τ partials' name call := by
  unfold renderPartial Render.renderPartial
  dsimp only
  rw [run_bind, run_evaluateAll]
  refine congrArg (_ >>= ·) (funext fun attributes => ?_)
  rw [run_bind, run_passedObject]
  refine congrArg (_ >>= ·) (funext fun passed => ?_)
  cases passed with
  | once bindings => exact run_renderOnce hag hpartials name attributes rfl
  | each members =>
    refine run_steps (fun index => ?_) _ _
    rw [run_bind, run_renderOnce hag hpartials name attributes rfl]
    rfl

end Script

open Script

/-- What running the scripts of bodies relies on. -/
structure Script.Rely (σ τ : Settings) (partials : OfPartials) (partials' : PartialRenderer) :
    Prop where
  settings : σ.Agree τ
  partials : ∀ document, (partials document).run τ = partials' document

section

variable {σ τ : Settings} {partials : OfPartials} {partials' : PartialRenderer}

mutual

/-- To run the script of a body is to render it. -/
theorem Body.run_script (h : Script.Rely σ τ partials partials') {b : Bool} : ∀ body : Body,
    (Body.script σ partials body : Script b _).run τ = Body.render τ partials' body
  | .mk nodes _ => by
    rw [Body.script, Body.render, run_bind]
    exact congrArg (_ >>= ·) (funext fun _ => Node.run_scriptAll h nodes)

/-- The script of a list of nodes does what rendering them does. -/
theorem Node.run_scriptAll (h : Script.Rely σ τ partials partials') {b : Bool} :
    ∀ nodes : List Node,
    (Node.scriptAll σ partials nodes : Script b _).run τ = Node.renderAll τ partials' nodes
  | [] => by
    rw [Node.scriptAll, Node.renderAll]
    rfl
  | node :: nodes => by
    rw [Node.scriptAll, Node.renderAll_cons, run_bind, Node.run_script h node]
    refine congrArg (_ >>= ·) (funext fun more => ?_)
    cases more with
    | true => exact Node.run_scriptAll h nodes
    | false => rfl

/-- The script of a node does what rendering it does. -/
theorem Node.run_script (h : Script.Rely σ τ partials partials') {b : Bool} : ∀ node : Node,
    (Node.script σ partials node : Script b _).run τ = Node.render τ partials' node
  | .text text => by
    rw [Node.script, Node.render]
    rfl
  | .output p => by
    rw [Node.script, Node.render, run_bind, run, run_write]
    rfl
  | .tag tag => by
    rw [Node.script, Node.render, run_bind, run, Tag.run_script h tag]
    rfl

/-- The script of branches does what rendering the first one that holds does. -/
theorem Branch.run_scriptFirst (h : Script.Rely σ τ partials partials') {b : Bool}
    (negated : Bool) : ∀ branches : List Branch,
    (Branch.scriptFirst σ partials negated branches : Script b _).run τ
      = Branch.renderFirst τ partials' negated branches
  | [] => by
    rw [Branch.scriptFirst, Branch.renderFirst]
    rfl
  | .mk c body :: branches => by
    rw [Branch.scriptFirst, Branch.renderFirst, run_bind]
    refine congrArg (_ >>= ·) (funext fun holds => ?_)
    split
    · exact Body.run_script h body
    · exact Branch.run_scriptFirst h false branches

/-- The script of arms does what rendering those that match does. -/
theorem Arm.run_scriptAll (h : Script.Rely σ τ partials partials') {b : Bool} (matched : Bool) :
    ∀ arms : List Arm,
    (Arm.scriptAll σ partials matched arms : Script b _).run τ
      = Arm.renderAll τ partials' matched arms
  | [] => by
    rw [Arm.scriptAll, Arm.renderAll]
    rfl
  | .when c body :: arms => by
    rw [Arm.scriptAll, Arm.renderAll, run_bind]
    refine congrArg (_ >>= ·) (funext fun holds => ?_)
    -- The body of an arm that matches is rendered, and the arms behind it still are.
    cases holds with
    | true =>
      simp only [if_true, run_bind, Body.run_script h body, Arm.run_scriptAll h true arms]
    | false => exact Arm.run_scriptAll h matched arms
  | .otherwise body :: arms => by
    rw [Arm.scriptAll, Arm.renderAll]
    split
    · exact Arm.run_scriptAll h matched arms
    · simp only [run_bind, Body.run_script h body, Arm.run_scriptAll h matched arms]

/-- The script of sections does what rendering them does. -/
theorem Body.run_scriptSections (h : Script.Rely σ τ partials partials') {b : Bool}
    (index : Nat) : ∀ bodies : List Body,
    (Body.scriptSections σ partials index bodies : Script b _).run τ
      = Body.renderSections τ partials' index bodies
  | [] => by
    rw [Body.scriptSections, Body.renderSections]
    rfl
  | body :: bodies => by
    rw [Body.scriptSections, Body.renderSections]
    simp only [run_bind, run, Body.run_script h body,
      Body.run_scriptSections h (index + 1) bodies]

/-- The script of a body that may be missing. -/
theorem Body.run_scriptIfAny (h : Script.Rely σ τ partials partials') {b : Bool} :
    ∀ body : Option Body,
    (Body.scriptIfAny σ partials body : Script b _).run τ = Body.renderIfAny τ partials' body
  | none => by
    rw [Body.scriptIfAny, Body.renderIfAny]
    rfl
  | some body => by
    rw [Body.scriptIfAny, Body.renderIfAny]
    exact Body.run_script h body

/-- The script of a tag does what rendering it does, kind by kind. -/
theorem Tag.run_script (h : Script.Rely σ τ partials partials') {b : Bool} : ∀ tag : Tag,
    (Tag.script σ partials tag : Script b _).run τ = Tag.render τ partials' tag
  | .conditional _ negated branches _ _ => by
    rw [Tag.script, Tag.render]
    exact Branch.run_scriptFirst h negated branches
  | .choice arms _ _ => by
    rw [Tag.script, Tag.render]
    exact Arm.run_scriptAll h false arms
  | .loop name header body otherwise _ _ => by
    -- The slice is computed first, and it decides between the turns and `else`.
    rw [Tag.script, Tag.render, run_bind, run_loopSlice]
    refine congrArg (_ >>= ·) (funext fun slice => ?_)
    split
    · exact Body.run_scriptIfAny h otherwise
    · exact run_loop name header slice (Body.run_script h body)
  | .interrupt i _ => by
    rw [Tag.script, Tag.render]
    rfl
  | .assign target source _ => by
    rw [Tag.script, Tag.render]
    rfl
  | .capture target body _ => by
    rw [Tag.script, Tag.render, run, Body.run_script h body]
  | .comment => by
    rw [Tag.script, Tag.render]
    rfl
  | .inlineComment => by
    rw [Tag.script, Tag.render]
    rfl
  | .raw text => by
    rw [Tag.script, Tag.render]
    rfl
  | .echo source => by
    rw [Tag.script, Tag.render]
    exact run_write source
  | .lines body _ => by
    rw [Tag.script, Tag.render]
    exact Body.run_script h body
  | .includePartial call _ => by
    rw [Tag.script, Tag.render]
    exact run_includePartial h.settings h.partials call
  | .renderPartial name call _ => by
    rw [Tag.script, Tag.render]
    exact run_renderPartial h.settings h.partials name call
  | .transform _ f body => by
    rw [Tag.script, Tag.render, run_bind, run, Body.run_script h body]
    rfl
  | .sections _ bodies _ => by
    rw [Tag.script, Tag.render]
    exact Body.run_scriptSections h 0 bodies
  | .counter _ register => by
    rw [Tag.script, Tag.render]
    rfl

end

end

/-- To run the script of a document is to render it. -/
theorem Document.run_scriptWithin {σ τ : Settings} (hag : σ.Agree τ) (levels : Nat) {b : Bool}
    (document : Document) :
    (scriptWithin σ levels document : Script b _).run τ = renderWithin τ levels document := by
  -- On the last level no partial can be called any more.
  induction levels generalizing b document with
  | zero => exact Body.run_script ⟨hag, fun _ => rfl⟩ document
  | succ levels ih => exact Body.run_script ⟨hag, fun called => ih called⟩ document

end Stencil
