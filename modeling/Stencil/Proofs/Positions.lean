import Stencil.Proofs.Entries
import Stencil.Proofs.Renders

/-!
# The positions of loops

Where a loop will have stopped is kept in the registers under the name of the loop. Nothing else
moves a position: so those that a render leaves are told by the loops that it entered, in all
partials that share the registers.

## Key definitions

- `Moves`: the positions that loops leave, one after the other
- `Enters`: steps that move positions by the loops that they enter
- `Stays`, `Puts`: steps that move none, or one

## Key results

- `Enters.bind`, `Enters.inScope`, `Enters.steps`: how steps are put together
- `Document.enters_render`, `Document.moves_entriesOfAll`: a render moves positions by its loops
-/

namespace Stencil

open Render

/-- Where the last loop of each name stopped. -/
def RenderState.positions (s : RenderState) : Assoc Nat :=
  s.progress.registers.positions

/-- The positions that loops leave, one after the other, and nothing else moves. -/
inductive Moves (settings : Settings) : Assoc Nat → List LoopEntry → Assoc Nat → Prop where
  | done {p} : Moves settings p [] p
  | enter {entry entries t q} :
      loopSlice settings entry.name entry.header entry.state = (.ok entry.slice, t) →
      Moves settings t.positions entries q →
      Moves settings entry.state.positions (entry :: entries) q

/-- A step that enters some loops, and moves positions by them only. -/
def Enters (settings : Settings) {α : Type} (x : Render α) (entries : Entries) : Prop :=
  ∀ s, Moves settings s.positions (entries s) (x s).2.positions

/-- A step that leaves all positions alone. -/
def Stays {α : Type} (x : Render α) : Prop :=
  ∀ s, (x s).2.positions = s.positions

/-- A step that puts one position if it succeeds, and leaves all alone if it fails. -/
def Puts {α : Type} (name : String) (x : Render α) : Prop :=
  ∀ s, match x s with
    | (.ok _, t) => ∃ position, t.positions = s.positions.put name position
    | (.error _, t) => t.positions = s.positions

variable {settings : Settings} {α β : Type}

/-- Loops entered one after the other move the positions one after the other. -/
theorem Moves.append {p q r : Assoc Nat} {entries entries' : List LoopEntry}
    (h : Moves settings p entries q) (h' : Moves settings q entries' r) :
    Moves settings p (entries ++ entries') r := by
  induction h with
  | done => exact h'
  | enter hslice _ ih => exact .enter hslice (ih h')

namespace Stays

/-- Two steps that leave all positions alone. -/
theorem bind {x : Render α} {f : α → Render β} (hx : Stays x) (hf : ∀ a, Stays (f a)) :
    Stays (x >>= f) := by
  intro s
  have hs := hx s
  rw [Attempt.bind_apply]
  cases h : x s with
  | mk r t =>
    rw [h] at hs
    cases r with
    | ok a => exact (hf a t).trans hs
    | error e => exact hs

/-- Evaluation leaves all positions alone. -/
theorem evaluate (e : Expression) : Stays (evaluate settings e) :=
  fun _ => rfl

/-- So does evaluating attributes, by induction on them. -/
theorem evaluateAll (entries : List (String × Expression)) :
    Stays (evaluateAll settings entries) := by
  unfold Render.evaluateAll
  induction entries with
  | nil => exact fun _ => rfl
  | cons entry entries ih =>
    rw [List.mapM_cons]
    exact .bind (.bind (.evaluate entry.2) fun _ _ => rfl) fun _ => .bind ih fun _ _ => rfl

/-- Writing leaves all positions alone. -/
theorem emit (text : String) : Stays (emit text) :=
  fun _ => rfl

/-- So does an output. -/
theorem write (p : Pipeline) : Stays (write settings p) := by
  rw [write_eq]
  have hvalue : Stays (evaluatePipeline settings p) := fun _ => rfl
  exact hvalue.bind fun v => .emit v.text

/-- Dealing with an error leaves all positions alone. -/
theorem rescue (line : Option Nat) (blank : Bool) (e : Error) :
    Stays (rescue settings line blank e) := by
  intro s
  cases hp : settings.propagates e with
  | true => rw [rescue_of_propagates hp]
  | false =>
    rw [rescue_of_not_propagates hp]
    split
    · rfl
    · exact Stays.emit _ _

/-! ### Loops -/

/-- The attributes of a loop only read. -/
theorem loopAttribute (e : Expression) : Stays (loopAttribute settings e) := by
  refine .bind (.evaluate e) fun v => ?_
  split
  · exact fun _ => rfl
  · exact .bind (fun _ => rfl) fun _ _ => rfl

/-- The position that a loop goes on from is only read here. -/
theorem loopStart (name : String) (offset : Option LoopOffset) :
    Stays (loopStart settings name offset) := by
  cases offset with
  | none => exact fun _ => rfl
  | some offset =>
    cases offset with
    | «continue» => exact fun _ => rfl
    | «at» e => exact .bind (.loopAttribute e) fun _ _ => rfl

/-- Where a loop stops is worked out without positions. -/
theorem loopStop (start : Nat) (limit : Option Expression) :
    Stays (loopStop settings start limit) := by
  cases limit with
  | none => exact fun _ => rfl
  | some e => exact .bind (.loopAttribute e) fun _ _ => rfl

/-- A turn numbers and binds, and no more. -/
theorem beginTurn (name : String) (header : LoopHeader) (slice : Slice) (parent : Value)
    (index : Nat) : Stays (beginTurn name header slice parent index) :=
  fun _ => rfl

/-! ### Calls of partials -/

/-- Whether a tag is disabled is only looked at. -/
theorem checkEnabled (tag : String) : Stays (checkEnabled settings tag) := by
  intro s
  unfold Render.checkEnabled
  split <;> rfl

/-- The name of a partial is worked out without positions. -/
theorem partialName (template : Expression) : Stays (partialName settings template) := by
  refine .bind (.evaluate template) fun v => ?_
  split <;> exact fun _ => rfl

/-- Partials and positions are kept apart in the registers. -/
theorem loadPartial (name : String) : Stays (loadPartial settings name) := by
  intro s
  unfold Render.loadPartial
  split
  · rfl
  · split <;> rfl

/-- What an include passes is worked out without positions. -/
theorem includedObject (call : PartialCall) (name : String) :
    Stays (includedObject settings call name) := by
  unfold Render.includedObject
  split
  · exact .bind (.evaluate _) fun _ _ => rfl
  · exact fun _ => rfl

/-- Attributes are bound without positions, by induction on them. -/
theorem bindAttributes (attributes : List (String × Expression)) :
    Stays (bindAttributes settings attributes) := by
  induction attributes with
  | nil => exact fun _ => rfl
  | cons entry attributes ih =>
    exact .bind (.evaluate entry.2) fun _ => .bind (fun _ => rfl) fun _ => ih

/-- What is passed to a partial is worked out without positions. -/
theorem passedObject (target : String) (call : PartialCall) :
    Stays (passedObject settings target call) := by
  unfold Render.passedObject
  split
  · exact fun _ => rfl
  · refine .bind (.evaluate _) fun v => ?_
    dsimp only
    split
    · split <;> exact fun _ => rfl
    · exact fun _ => rfl

/-- So are the bindings for a member of a collection. -/
theorem memberBindings (name target : String) (members : Slice) (index : Nat) :
    Stays (memberBindings name target members index) :=
  fun _ => rfl

/-- Counters and positions are kept apart in the registers. -/
theorem count (register : String) : Stays (count register) := by
  refine .bind (fun _ => rfl) fun s => .bind (fun _ => rfl) fun n => ?_
  exact .bind (fun _ => rfl) fun _ => .emit _

end Stays

namespace Puts

/-- A step that leaves positions alone, and one that puts one. -/
theorem after {name : String} {x : Render α} {f : α → Render β} (hx : Stays x)
    (hf : ∀ a, Puts name (f a)) : Puts name (x >>= f) := by
  intro s
  have hs := hx s
  rw [Attempt.bind_apply]
  -- The first step has left the positions as they were.
  cases h : x s with
  | mk r t =>
    rw [h] at hs
    cases r with
    | error e => exact hs
    | ok a =>
      dsimp only at hs ⊢
      rw [← hs]
      exact hf a t

/-- A loop puts the position of its own name, once all its attributes were evaluated. -/
theorem loopSlice (name : String) (header : LoopHeader) :
    Puts name (loopSlice settings name header) := by
  refine .after (.evaluate _) fun v => ?_
  refine .after (.loopStart name header.offset) fun start => ?_
  exact .after (.loopStop start header.limit) fun stop _ => ⟨_, rfl⟩

end Puts

/-! ## Steps that enter loops -/

/-- A step that leaves all positions alone enters no loop. -/
theorem Stays.enters {x : Render α} (hx : Stays x) : Enters settings x Entries.none := by
  intro s
  rw [hx s]
  exact .done

namespace Enters

/-- One step after the other: the loops of the second one are entered from where the first one got
to. -/
theorem bind {x : Render α} {f : α → Render β} {entries : Entries} {next : α → Entries}
    (hx : Enters settings x entries) (hf : ∀ a, Enters settings (f a) (next a)) :
    Enters settings (x >>= f) (Entries.bind entries x next) := by
  intro s
  have hmoves := hx s
  rw [Attempt.bind_apply]
  unfold Entries.bind Entries.after
  -- What the second step enters comes behind what the first one does.
  cases h : x s with
  | mk r t =>
    rw [h] at hmoves
    cases r with
    | error e => exact hmoves.append .done
    | ok a => exact hmoves.append (hf a t)

/-- A step that enters no loop may come first. -/
theorem after {x : Render α} {f : α → Render β} {next : α → Entries} (hx : Stays x)
    (hf : ∀ a, Enters settings (f a) (next a)) :
    Enters settings (x >>= f) (Entries.after x next) :=
  hx.enters.bind hf

/-- A step may be followed by one that enters no loop. -/
theorem before {x : Render α} {f : α → Render β} {entries : Entries}
    (hx : Enters settings x entries) (hf : ∀ a, Stays (f a)) :
    Enters settings (x >>= f) entries := by
  intro s
  have hmoves := hx s
  rw [Attempt.bind_apply]
  -- The second step enters nothing.
  cases h : x s with
  | mk r t =>
    rw [h] at hmoves
    cases r with
    | error e => exact hmoves
    | ok a =>
      dsimp only
      rw [hf a t]
      exact hmoves

/-- Dealing with an error enters no further loop. -/
theorem rescuing (line : Option Nat) (blank : Bool) {x : Render Unit} {entries : Entries}
    (hx : Enters settings x entries) :
    Enters settings (rescuing settings line blank x) entries := by
  intro s
  have hmoves := hx s
  unfold Render.rescuing
  -- Dealing with an error leaves the positions as they are.
  cases h : x s with
  | mk r t =>
    rw [h] at hmoves
    cases r with
    | ok a => exact hmoves
    | error e =>
      dsimp only
      rw [Stays.rescue line blank e t]
      exact hmoves

/-! ### Steps inside something -/

/-- A scope enters the loops of its inside, unless it is refused. -/
theorem inScope {x : Render α} {entries : Entries} (hx : Enters settings x entries) :
    Enters settings (inScope x) (Entries.inScope entries) := by
  intro s
  unfold Render.inScope Entries.inScope Entries.after
  have hs : (charge Budget.enterScope s).2.positions = s.positions := rfl
  cases h : charge Budget.enterScope s with
  | mk r t =>
    rw [h] at hs
    rw [← hs]
    cases r with
    -- Nothing is rendered where the scope would nest too deep.
    | error e => exact .done
    | ok a => exact hx t.pushScope

/-- The name of the template makes no difference. -/
theorem inTemplate (name : String) {x : Render α} {entries : Entries}
    (hx : Enters settings x entries) :
    Enters settings (inTemplate name x) (Entries.inTemplate name entries) :=
  fun s => hx (s.withTemplate (some name))

/-- An isolated step shares its registers, positions included. -/
theorem isolated (template : Option String) {x : Render α} {entries : Entries}
    (hx : Enters settings x entries) :
    Enters settings (isolated template x) (Entries.isolated template entries) :=
  fun s => hx (s.withFrame (s.frame.isolated template))

/-- The loops around make no difference. -/
theorem inLoop (loop : Value) {x : Render α} {entries : Entries}
    (hx : Enters settings x entries) :
    Enters settings (inLoop loop x) (Entries.inLoop loop entries) :=
  fun s => hx (s.withLoops (loop :: s.frame.loops))

/-- Where the output goes makes no difference. -/
theorem diverted {x : Render Unit} {entries : Entries} (hx : Enters settings x entries) :
    Enters settings (diverted x) (Entries.diverted entries) :=
  fun s => hx (s.withOutput "")

/-- Nor does whether it is captured. -/
theorem captured {x : Render Unit} {entries : Entries} (hx : Enters settings x entries) :
    Enters settings (captured x) (Entries.captured entries) :=
  fun s => hx.diverted s.beginCapture

/-! ### Loops and partials -/

/-- Numbered steps, by induction on how many remain. -/
theorem steps {step : Nat → Render Bool} {entries : Nat → Entries} (length : Nat)
    (hstep : ∀ index, Enters settings (step index) (entries index)) (remaining : Nat) :
    Enters settings (steps step length remaining)
      (Entries.steps step entries length remaining) := by
  induction remaining with
  | zero => exact fun _ => .done
  | succ remaining ih =>
    rw [steps_succ]
    refine .bind (hstep _) fun more => ?_
    -- A turn may be the last one.
    cases more with
    | true => exact ih
    | false => exact fun _ => .done

/-- A turn enters the loops of the body. -/
theorem iteration (name : String) (header : LoopHeader) (slice : Slice) (parent : Value)
    {body : Render Unit} {entries : Entries} (hbody : Enters settings body entries) (index : Nat) :
    Enters settings (iteration name header slice parent body index)
      (Entries.iteration name header slice parent entries index) := by
  refine .after (.beginTurn name header slice parent index) fun loop => ?_
  exact (hbody.inLoop loop).before fun _ => .bind (fun _ => rfl) fun _ _ => rfl

/-- A loop enters those of its body in each of its turns. -/
theorem loop (name : String) (header : LoopHeader) (slice : Slice) {body : Render Unit}
    {entries : Entries} (hbody : Enters settings body entries) :
    Enters settings (loop name header slice body)
      (Entries.loop name header slice body entries) := by
  intro s
  have hturns := Enters.steps slice.length
    (Enters.iteration name header slice (s.frame.loops.head?.getD .nil) hbody) slice.length
  exact hturns.inScope s

/-- A loop that is entered moves its own position, and what it does then moves others. -/
theorem loopSlice (name : String) (header : LoopHeader) {f : Slice → Render β}
    {next : Slice → Entries} (hf : ∀ slice, Enters settings (f slice) (next slice)) :
    Enters settings (loopSlice settings name header >>= f) fun s =>
      Entries.after (Render.loopSlice settings name header)
        (fun slice t => ⟨name, header, slice, s⟩ :: next slice t) s := by
  intro s
  rw [Attempt.bind_apply]
  dsimp only [Entries.after]
  cases h : Render.loopSlice settings name header s with
  | mk r t =>
    cases r with
    | ok slice =>
      -- The loop is entered as soon as it is known what it runs over, since the position is put
      -- then.
      let entry : LoopEntry := ⟨name, header, slice, s⟩
      have hentry : Render.loopSlice settings entry.name entry.header entry.state
          = (.ok entry.slice, t) := h
      exact .enter hentry (hf slice t)
    | error e =>
      -- A loop whose limit or offset is no integer puts no position.
      have hputs : Puts name (Render.loopSlice settings name header) :=
        Puts.loopSlice name header
      have ht := hputs s
      rw [h] at ht
      dsimp only at ht ⊢
      rw [ht]
      exact .done

/-- A partial is rendered for each item, by induction on the items. -/
theorem eachItem (target : String) {render : Render Unit} {entries : Entries}
    (hrender : Enters settings render entries) (items : List Value) :
    Enters settings (eachItem target render items)
      (Entries.eachItem target render entries items) := by
  induction items with
  | nil => exact fun _ => .done
  | cons item items ih =>
    rw [eachItem_cons]
    -- Binding the item enters nothing.
    have hfirst : Enters settings (do bindName target item; render)
        (Entries.after (bindName target item) fun _ => entries) :=
      .after (fun _ => rfl) fun _ => hrender
    exact hfirst.bind fun _ => ih

end Enters

/-- The documents that are called enter the loops that are told of them. -/
def CallsEnter (settings : Settings) (partials : PartialRenderer) (inner : Entries.OfPartials) :
    Prop :=
  ∀ document, Enters settings (partials document) (inner document)

section

variable {partials : PartialRenderer} {inner : Entries.OfPartials}

/-- An include enters the loops of its partial. -/
private theorem enters_includePartial (hcalls : CallsEnter settings partials inner)
    (call : PartialCall) :
    Enters settings (includePartial settings partials call)
      (Entries.includePartial settings partials inner call) := by
  refine .after (.checkEnabled "include") fun _ => ?_
  refine .after (.partialName call.template) fun name => ?_
  refine .after (.loadPartial name) fun document => ?_
  refine .after (.includedObject call name) fun object => ?_
  refine .inTemplate name (.inScope ?_)
  exact .after (.bindAttributes call.attributes) fun _ => .eachItem _ (hcalls document) _

/-- So does a partial that is rendered once. -/
private theorem enters_renderOnce (hcalls : CallsEnter settings partials inner) (name : String)
    (attributes : List (String × Value)) {bindings : Render (List (String × Value))}
    (hb : Stays bindings) :
    Enters settings (renderOnce settings partials name attributes bindings)
      (Entries.renderOnce settings inner name attributes bindings) := by
  refine .after (.loadPartial name) fun document => ?_
  refine .after hb fun bindings => ?_
  exact .isolated _ (.inScope (.after (fun _ => rfl) fun _ => hcalls document))

/-- And one that is rendered for each member of a collection. -/
private theorem enters_renderPartial (hcalls : CallsEnter settings partials inner)
    (name : String) (call : PartialCall) :
    Enters settings (renderPartial settings partials name call)
      (Entries.renderPartial settings partials inner name call) := by
  refine .after (.evaluateAll call.attributes) fun attributes => ?_
  refine .after (.passedObject _ call) fun passed => ?_
  -- The partial is rendered once, or for each member.
  cases passed with
  | once bindings => exact enters_renderOnce hcalls name attributes fun _ => rfl
  | each members =>
    refine .steps members.length (fun index => ?_) _
    have hmember := enters_renderOnce hcalls name attributes
      (Stays.memberBindings name (call.objectName name) members index)
    exact hmember.before fun _ _ => rfl

/-! ## Nodes -/

mutual

/-- A body moves positions by the loops that it enters. -/
theorem Body.enters_render (hcalls : CallsEnter settings partials inner) :
    ∀ body : Body, Enters settings (body.render settings partials)
      (body.entries settings partials inner)
  | .mk nodes _ => by
    rw [Body.render, Body.entries]
    exact .after (fun _ => rfl) fun _ => Node.enters_renderAll hcalls nodes

/-- Nodes move positions by the loops that they enter. -/
theorem Node.enters_renderAll (hcalls : CallsEnter settings partials inner) :
    ∀ nodes : List Node, Enters settings (Node.renderAll settings partials nodes)
      (Node.entriesAll settings partials inner nodes)
  | [] => fun _ => .done
  | node :: nodes => by
    rw [Node.renderAll_cons, Node.entriesAll]
    refine .bind (Node.enters_render hcalls node) fun more => ?_
    cases more with
    | true => exact Node.enters_renderAll hcalls nodes
    | false => exact fun _ => .done

/-- A node moves positions by the loops that it enters. -/
theorem Node.enters_render (hcalls : CallsEnter settings partials inner) :
    ∀ node : Node, Enters settings (node.render settings partials)
      (node.entries settings partials inner)
  | .text text => by
    rw [Node.render, Node.entries]
    exact (Stays.emit text).enters.before fun _ _ => rfl
  | .output p => by
    rw [Node.render, Node.entries]
    exact ((Stays.write p).enters.rescuing p.line false).before fun _ _ => rfl
  -- Only a tag enters positions; what comes behind it asks for interrupts.
  | .tag tag => by
    rw [Node.render, Node.entries]
    refine ((Tag.enters_render hcalls tag).rescuing tag.line tag.isBlank).before fun _ => ?_
    exact .bind (fun _ => rfl) fun _ _ => rfl

/-- The first branch that is taken moves positions by the loops that it enters. -/
theorem Branch.enters_renderFirst (hcalls : CallsEnter settings partials inner) (negated : Bool) :
    ∀ branches : List Branch,
      Enters settings (Branch.renderFirst settings partials negated branches)
        (Branch.entriesFirst settings partials inner negated branches)
  | [] => fun _ => .done
  | .mk condition body :: branches => by
    rw [Branch.renderFirst, Branch.entriesFirst]
    refine .after (fun _ => rfl) fun holds => ?_
    split
    · exact Body.enters_render hcalls body
    · exact Branch.enters_renderFirst hcalls false branches

/-- The arms of a choice move positions by the loops that they enter. -/
theorem Arm.enters_renderAll (hcalls : CallsEnter settings partials inner) (matched : Bool) :
    ∀ arms : List Arm, Enters settings (Arm.renderAll settings partials matched arms)
      (Arm.entriesAll settings partials inner matched arms)
  | [] => fun _ => .done
  | .when condition body :: arms => by
    rw [Arm.renderAll, Arm.entriesAll]
    refine .after (fun _ => rfl) fun holds => ?_
    -- The body is rendered before the other arms, or they are all there is.
    split
    · exact (Body.enters_render hcalls body).bind fun _ => Arm.enters_renderAll hcalls true arms
    · exact Arm.enters_renderAll hcalls matched arms
  | .otherwise body :: arms => by
    rw [Arm.renderAll, Arm.entriesAll]
    split
    · exact Arm.enters_renderAll hcalls matched arms
    · exact (Body.enters_render hcalls body).bind fun _ => Arm.enters_renderAll hcalls matched arms

/-- Numbered sections move positions by the loops that they enter. -/
theorem Body.enters_renderSections (hcalls : CallsEnter settings partials inner) (index : Nat) :
    ∀ bodies : List Body, Enters settings (Body.renderSections settings partials index bodies)
      (Body.entriesOfSections settings partials inner index bodies)
  | [] => fun _ => .done
  | body :: bodies => by
    rw [Body.renderSections, Body.entriesOfSections]
    refine .after (.emit _) fun _ => ?_
    exact (Body.enters_render hcalls body).inScope.bind fun _ =>
      Body.enters_renderSections hcalls (index + 1) bodies

/-- A body moves positions by the loops that it enters, if there is one. -/
theorem Body.enters_renderIfAny (hcalls : CallsEnter settings partials inner) :
    ∀ body : Option Body, Enters settings (Body.renderIfAny settings partials body)
      (Body.entriesIfAny settings partials inner body)
  | none => fun _ => .done
  | some body => by
    rw [Body.renderIfAny, Body.entriesIfAny]
    exact Body.enters_render hcalls body

/-- A tag moves positions by the loops that it enters. -/
theorem Tag.enters_render (hcalls : CallsEnter settings partials inner) :
    ∀ tag : Tag, Enters settings (tag.render settings partials)
      (tag.entries settings partials inner)
  | .conditional _ negated branches _ _ => by
    rw [Tag.render, Tag.entries]
    exact Branch.enters_renderFirst hcalls negated branches
  | .choice arms _ _ => by
    rw [Tag.render, Tag.entries]
    exact Arm.enters_renderAll hcalls false arms
  | .loop name header body otherwise _ _ => by
    rw [Tag.render, Tag.entries]
    -- The position is put first, so loops in the body go on behind the whole slice.
    refine .loopSlice name header fun slice => ?_
    split
    · exact Body.enters_renderIfAny hcalls otherwise
    · exact .loop name header slice (Body.enters_render hcalls body)
  | .capture _ body _ => by
    rw [Tag.render, Tag.entries]
    exact (Body.enters_render hcalls body).captured.before fun _ _ => rfl
  | .lines body _ => by
    rw [Tag.render, Tag.entries]
    exact Body.enters_render hcalls body
  | .includePartial call _ => by
    rw [Tag.render, Tag.entries]
    exact enters_includePartial hcalls call
  | .renderPartial name call _ => by
    rw [Tag.render, Tag.entries]
    exact enters_renderPartial hcalls name call
  | .transform _ f body => by
    rw [Tag.render, Tag.entries]
    exact (Body.enters_render hcalls body).diverted.before fun _ => .emit _
  | .sections _ bodies _ => by
    rw [Tag.render, Tag.entries]
    exact Body.enters_renderSections hcalls 0 bodies
  | .assign target source _ => by
    rw [Tag.render, Tag.entries]
    refine Stays.enters (.bind (fun _ => rfl) fun v => ?_)
    exact .bind (fun _ => rfl) fun _ _ => rfl
  | .echo source => by
    rw [Tag.render, Tag.entries]
    exact (Stays.write source).enters
  | .counter _ register => by
    rw [Tag.render, Tag.entries]
    exact (Stays.count register).enters
  | .raw text => by
    rw [Tag.render, Tag.entries]
    exact (Stays.emit text).enters
  | .interrupt .. | .comment | .inlineComment => fun _ => .done

end

end

/-! ## Documents -/

namespace Document

/-- By induction on the levels that are left for partials. -/
theorem callsEnter_renderWithin (levels : Nat) :
    CallsEnter settings (renderWithin settings levels) (entriesWithin settings levels) := by
  -- Each level calls the one below it; at the last one every call fails.
  induction levels with
  | zero => exact fun document => Body.enters_render (fun _ _ => .done) document
  | succ levels ih => exact fun document => Body.enters_render ih document

/-- A render moves positions by the loops that it enters, and in no other way. -/
theorem enters_render (document : Document) :
    Enters settings (document.render settings) (document.entries settings) :=
  fun s => callsEnter_renderWithin s.progress.budget.scopesLeft document s

/-- So do renders in one context, one after the other. -/
theorem moves_entriesOfAll (documents : List Document) (s : RenderState) :
    Moves settings s.positions (entriesOfAll settings documents s)
      (afterAll settings documents s).positions := by
  induction documents generalizing s with
  | nil => exact .done
  | cons document documents ih => exact (document.enters_render s).append (ih _)

end Document

end Stencil
