import Stencil.Render.Partial
import Stencil.Render.Slice

/-! # Rendering documents

Every node of a body is charged when the body starts; then the nodes are rendered one after the
other, and an error in one of them is dealt with before the next one starts.  After a tag that
leaves an interrupt pending the rest of the body is passed over.

Documents call partials, which are documents that may call others.  A partial is always rendered
in a scope of its own, so the ceiling on the depth of scopes also bounds how deep partials call
each other, and `Document.render` needs no bound that could be seen.

* `write_eq`, `steps_succ`, `eachItem_cons`, `Node.renderAll_cons`: what is spelled out on states
  is a sequence of steps. -/

namespace Stencil

namespace Render

/-- Renders a document that was called. -/
abbrev PartialRenderer := Document → Render Unit

/-- Writes the value of a pipeline. -/
def write (settings : Settings) (p : Pipeline) : Render Unit := fun s =>
  match evaluatePipeline settings p s with
  | (.ok v, s) => emit v.text s
  | (.error e, s) => (.error e, s)

theorem write_eq (settings : Settings) (p : Pipeline) :
    write settings p = evaluatePipeline settings p >>= fun v => emit v.text := by
  funext s
  rw [Attempt.bind_apply]
  unfold write
  cases evaluatePipeline settings p s with
  | mk r t => cases r <;> rfl

/-! ## Loops -/

/-- Takes the last `remaining` of `length` numbered steps, until one of them says that it was the
last. -/
def steps (step : Nat → Render Bool) (length : Nat) : (remaining : Nat) → Render Unit
  | 0 => fun s => (.ok (), s)
  | remaining + 1 => fun s =>
    match step (length - (remaining + 1)) s with
    | (.ok true, s) => steps step length remaining s
    | (.ok false, s) => (.ok (), s)
    | (.error e, s) => (.error e, s)

theorem steps_succ (step : Nat → Render Bool) (length remaining : Nat) :
    steps step length (remaining + 1)
      = step (length - (remaining + 1)) >>= fun more =>
          if more then steps step length remaining else pure () := by
  funext s
  rw [Attempt.bind_apply, steps]
  dsimp only
  cases step (length - (remaining + 1)) s with
  | mk r t =>
    cases r with
    | error e => rfl
    | ok more => cases more <;> rfl

/-- The value of an attribute of a loop, nothing if it is nil. -/
def loopAttribute (settings : Settings) (e : Expression) : Render (Option Int64) := do
  match (← evaluate settings e).scalar with
  | .nil => return none
  | v => some <$> Attempt.lift v.toInteger

/-- The index that a loop starts from. -/
def loopStart (settings : Settings) (name : String) : Option LoopOffset → Render Nat
  | none => pure 0
  | some .continue => fun s => (.ok ((s.progress.registers.positions.get? name).getD 0), s)
  | some (.at e) => do
    return ((← loopAttribute settings e).map (·.toInt.toNat)).getD 0

/-- The index that a loop from `start` on stops before, if it is limited. -/
def loopStop (settings : Settings) (start : Nat) : Option Expression → Render (Option Nat)
  | none => pure none
  | some e => do
    -- A limit below zero is clamped, which leaves no turns.
    return (← loopAttribute settings e).map (start + ·.toInt.toNat)

/-- Keeps where a loop stopped. -/
def setPosition (name : String) (position : Nat) : Render Unit :=
  Attempt.modify fun s =>
    let registers := s.progress.registers
    { s with
      progress.registers := { registers with positions := registers.positions.put name position } }

/-- What a loop runs over.  Where it will stop is kept under its name. -/
def loopSlice (settings : Settings) (name : String) (header : LoopHeader) : Render Slice := do
  let collection := (← evaluate settings header.collection).liquid
  let start ← loopStart settings name header.offset
  let stop ← loopStop settings start header.limit
  let slice := Slice.of start stop collection
  -- A loop that is cut short still counts as having run to its end.
  setPosition name (start + slice.length)
  return slice

/-- Begins one iteration of a loop, and gives the value that describes it. -/
def beginTurn (name : String) (header : LoopHeader) (slice : Slice) (parent : Value)
    (index : Nat) : Render Value := do
  -- A loop that is reversed counts up all the same; only the items come from the end.
  let place := if header.reversed then slice.length - 1 - index else index
  let loop ← beginIteration name slice.length index parent
  bindName header.item (slice.get place)
  bindName "forloop" loop
  return loop

/-- One iteration of a loop; false if it ends the loop.  One pending interrupt is used up. -/
def iteration (name : String) (header : LoopHeader) (slice : Slice) (parent : Value)
    (body : Render Unit) (index : Nat) : Render Bool := do
  let loop ← beginTurn name header slice parent index
  inLoop loop body
  -- A continued iteration was left by then, so only a break makes a difference.
  return (← takeInterrupt) != some .break

/-- All iterations of a loop, in a scope of their own. -/
def loop (name : String) (header : LoopHeader) (slice : Slice) (body : Render Unit) :
    Render Unit := fun s =>
  -- Looked up outside, as it is the same for all turns.
  let parent := s.frame.loops.head?.getD .nil
  inScope (steps (iteration name header slice parent body) slice.length slice.length) s

/-! ## Calls of partials -/

/-- Renders a partial once for each item. -/
def eachItem (target : String) (render : Render Unit) : List Value → Render Unit
  | [] => fun s => (.ok (), s)
  | item :: items => fun s =>
    match (do bindName target item; render) s with
    | (.ok (), s) => eachItem target render items s
    | (.error e, s) => (.error e, s)

theorem eachItem_cons (target : String) (render : Render Unit) (item : Value)
    (items : List Value) :
    eachItem target render (item :: items)
      = (do bindName target item; render) >>= fun _ => eachItem target render items := by
  funext s
  rw [Attempt.bind_apply, eachItem]
  dsimp only
  cases (do bindName target item; render : Render Unit) s with
  | mk r t => cases r <;> rfl

/-- The object that the partial `name` is included with: the variable of its name, unless the call
passes another. -/
def includedObject (settings : Settings) (call : PartialCall) (name : String) : Render Value :=
  match call.object with
  | some e => Value.liquid <$> evaluate settings e
  | none => variableOrNil settings name

/-- What a partial is rendered with, one after the other: the items of a list, or the object. -/
def includedItems : Value → List Value
  | .array items => items
  | v => [v]

/-- Binds attributes in the innermost scope, from left to right.  Each can see those before it. -/
def bindAttributes (settings : Settings) : List (String × Expression) → Render Unit
  | [] => pure ()
  | (key, e) :: attributes => do
    bindName key (← evaluate settings e)
    bindAttributes settings attributes

/-- Renders a partial in the frame of its caller, in a scope of its own.  A list is rendered item by
item. -/
def includePartial (settings : Settings) (partials : PartialRenderer) (call : PartialCall) :
    Render Unit := do
  checkEnabled settings "include"
  let name ← partialName settings call.template
  -- The partial is read before its object is evaluated.
  let document ← loadPartial settings name
  let object ← includedObject settings call name
  inTemplate name <| inScope do
    bindAttributes settings call.attributes
    eachItem (call.objectName name) (partials document) (includedItems object)

/-- Renders a partial in a frame of its own, where it sees the attributes and `bindings`, which are
made after the partial was loaded. -/
def renderOnce (settings : Settings) (partials : PartialRenderer) (name : String)
    (attributes : List (String × Value)) (bindings : Render (List (String × Value))) :
    Render Unit := do
  let document ← loadPartial settings name
  let bindings ← bindings
  isolated (some name) <| inScope do
    -- Bindings come last, so they hide attributes of their name.
    bindAll (attributes ++ bindings)
    partials document

/-- What the object of a call passes on. -/
inductive Passed where
  /-- The partial is rendered once. -/
  | once (bindings : List (String × Value))
  /-- The partial is rendered for each member of a collection. -/
  | each (members : Slice)

/-- What the object of a call passes on under the name `target`. -/
def passedObject (settings : Settings) (target : String) (call : PartialCall) : Render Passed :=
  match call.object with
  | none => return .once []
  | some e => do
    let v := (← evaluate settings e).liquid
    if call.each then
      -- What has no members is passed on as it is.
      match Slice.all? v with
      | some members => return .each members
      | none => return .once [(target, v)]
    else return .once (if v.isNil then [] else [(target, v)])

/-- The bindings for the member of a collection at an index. -/
def memberBindings (name target : String) (members : Slice) (index : Nat) :
    Render (List (String × Value)) := do
  let loop ← beginIteration name members.length index .nil
  return [(target, members.get index), ("forloop", loop)]

/-- Renders a partial isolated from its caller for the member of a collection at an index. -/
def renderMember (settings : Settings) (partials : PartialRenderer) (name target : String)
    (attributes : List (String × Value)) (members : Slice) (index : Nat) : Render Bool := do
  renderOnce settings partials name attributes (memberBindings name target members index)
  return true

/-- Renders a partial isolated from its caller, once or for each member of a collection. -/
def renderPartial (settings : Settings) (partials : PartialRenderer) (name : String)
    (call : PartialCall) : Render Unit := do
  let target := call.objectName name
  let attributes ← evaluateAll settings call.attributes
  match ← passedObject settings target call with
  | .once bindings => renderOnce settings partials name attributes (pure bindings)
  | .each members =>
    let member := renderMember settings partials name target attributes members
    steps member members.length members.length

/-! ## Tags of hosts -/

/-- Counts up in a register and writes the count. -/
def count (register : String) : Render Unit := do
  let s ← Attempt.get
  let n ← Attempt.lift ((s.progress.registers.values.get? register).getD (.int 0)).toInteger
  let next := Value.int (n + 1)
  setRegister register next
  emit next.text
where
  /-- Sets a register. -/
  setRegister (register : String) (value : Value) : Render Unit :=
    Attempt.modify fun s =>
      let registers := s.progress.registers
      { s with
        progress.registers := { registers with values := registers.values.put register value } }

end Render

/-! ## Nodes -/

open Render in
mutual

/-- Renders a body. -/
def Body.render (settings : Settings) (partials : PartialRenderer) : Body → Render Unit
  | .mk nodes _ => do
    charge (·.chargeScore nodes.length)
    Node.renderAll settings partials nodes

/-- Renders nodes in order, up to a tag that leaves an interrupt pending. -/
def Node.renderAll (settings : Settings) (partials : PartialRenderer) : List Node → Render Unit
  | [] => fun s => (.ok (), s)
  | node :: nodes => fun s =>
    match node.render settings partials s with
    | (.ok true, s) => Node.renderAll settings partials nodes s
    | (.ok false, s) => (.ok (), s)
    | (.error e, s) => (.error e, s)

/-- Renders a node; false if the nodes behind it are to be passed over. -/
def Node.render (settings : Settings) (partials : PartialRenderer) : Node → Render Bool
  | .text text => do
    emit text
    return true
  | .output p => do
    rescuing settings p.line false (write settings p)
    return true
  | .tag tag => do
    rescuing settings tag.line tag.isBlank (Tag.render settings partials tag)
    -- Texts and outputs raise no interrupts, so only tags are asked.
    return !(← interrupted)

/-- Renders the first branch that is taken.  `negated` says that the first condition must fail. -/
def Branch.renderFirst (settings : Settings) (partials : PartialRenderer) (negated : Bool) :
    List Branch → Render Unit
  | [] => pure ()
  | .mk condition body :: branches => do
    if (← evaluateCondition settings condition) != negated then Body.render settings partials body
    else Branch.renderFirst settings partials false branches

/-- Renders the arms whose conditions hold, and those for when none held before. -/
def Arm.renderAll (settings : Settings) (partials : PartialRenderer) (matched : Bool) :
    List Arm → Render Unit
  | [] => pure ()
  | .when condition body :: arms => do
    if ← evaluateCondition settings condition then
      Body.render settings partials body
      -- Later arms whose conditions hold are rendered as well.
      Arm.renderAll settings partials true arms
    else Arm.renderAll settings partials matched arms
  | .otherwise body :: arms => do
    if matched then Arm.renderAll settings partials matched arms
    else
      Body.render settings partials body
      Arm.renderAll settings partials matched arms

/-- Renders numbered sections from `index` on, each in a scope of its own. -/
def Body.renderSections (settings : Settings) (partials : PartialRenderer) (index : Nat) :
    List Body → Render Unit
  | [] => pure ()
  | body :: bodies => do
    emit ("<" ++ toString index ++ ">")
    inScope (Body.render settings partials body)
    Body.renderSections settings partials (index + 1) bodies

/-- Renders a body, or nothing if there is none. -/
def Body.renderIfAny (settings : Settings) (partials : PartialRenderer) : Option Body → Render Unit
  | none => pure ()
  | some body => Body.render settings partials body

/-- Renders a tag. -/
def Tag.render (settings : Settings) (partials : PartialRenderer) : Tag → Render Unit
  | .conditional _ negated branches _ _ => Branch.renderFirst settings partials negated branches
  | .choice arms _ _ => Arm.renderAll settings partials false arms
  | .loop name header body otherwise _ _ => do
    let slice ← loopSlice settings name header
    if slice.length = 0 then Body.renderIfAny settings partials otherwise
    else Render.loop name header slice (Body.render settings partials body)
  | .interrupt i _ => Render.interrupt i
  | .assign target source _ => do Render.assign target (← evaluatePipeline settings source)
  | .capture target body _ => do
    store target (.str (← captured (Body.render settings partials body)))
  | .comment | .inlineComment => pure ()
  | .raw text => emit text
  | .echo source => write settings source
  | .lines body _ => Body.render settings partials body
  | .includePartial call _ => Render.includePartial settings partials call
  | .renderPartial name call _ => Render.renderPartial settings partials name call
  | .transform _ f body => do emit (f (← diverted (Body.render settings partials body)))
  | .sections _ bodies _ => Body.renderSections settings partials 0 bodies
  | .counter _ register => count register

end

theorem Node.renderAll_cons (settings : Settings) (partials : Render.PartialRenderer) (node : Node)
    (nodes : List Node) :
    Node.renderAll settings partials (node :: nodes)
      = node.render settings partials >>= fun more =>
          if more then Node.renderAll settings partials nodes else pure () := by
  funext s
  rw [Attempt.bind_apply, Node.renderAll]
  dsimp only
  cases node.render settings partials s with
  | mk r t =>
    cases r with
    | error e => rfl
    | ok more => cases more <;> rfl

/-! ## Documents -/

/-- How many scopes may still be opened. -/
def Budget.scopesLeft (b : Budget) : Nat :=
  match b.depthCeiling with
  | some ceiling => ceiling - b.depth
  | none => 0x8000000000000000

namespace Document

/-- Renders a document that calls partials at most `levels` deep. -/
def renderWithin (settings : Settings) : (levels : Nat) → Document → Render Unit
  -- Every call opens a scope, so a ceiling refuses it before the levels run out.
  | 0 => Body.render settings fun _ => Attempt.fail .tooDeep
  | levels + 1 => Body.render settings (renderWithin settings levels)

/-- Renders a document. -/
def render (settings : Settings) (document : Document) : Render Unit := fun s =>
  renderWithin settings s.progress.budget.scopesLeft document s

end Document

end Stencil
