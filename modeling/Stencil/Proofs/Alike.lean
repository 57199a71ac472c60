import Stencil.Proofs.Outputs
import Stencil.Proofs.Quiet

/-!
# Two versions of a render

A render can be compared with one that ends at its first error, with one that treats some
outputs differently, or with itself. What two such renders do is then put together from
the same steps in the same way, whatever the document is. `Versions.Alike` is that
relation: its constructors are the single steps, sequences of steps, and the ways to do
something inside something.

What holds of two versions of a render is then an induction over the relation. It also
serves for what holds of every render, which is a version of itself.

## Key definitions

- `Versions`: what the two versions of a render have in common, and where they differ
- `Versions.Alike`: steps that are built alike

## Key results

- `Body.alike_renderBy`: bodies
- `Document.alike_renderWithinBy`: documents and the partials that they call
-/

namespace Stencil

open Render

/-! ## Versions -/

/-- The charges for nodes and for what is stored. -/
inductive Budget.Charge : (Budget → Except Error Unit × Budget) → Prop where
  | score (amount : Nat) : Charge (·.chargeScore amount)
  | assign (amount : Nat) : Charge (·.chargeAssign amount)

/-- Two versions of a render. -/
structure Versions where
  /-- The settings of the first one. -/
  settings : Settings
  /-- Whether the first error ends the second one. -/
  rethrow : Bool
  /-- The steps that may be different ones. -/
  Differs : Render Unit → Render Unit → Prop
  /-- The recorded errors that the code of the host does not tell apart. -/
  Unseen : Array Error → Array Error → Prop
  /-- What the values in the first one satisfy. -/
  V : Value → Prop
  /-- What the errors in the first one satisfy. -/
  E : Error → Prop

namespace Versions

/-- The settings of the second version. -/
def other (v : Versions) : Settings :=
  { v.settings with rethrow := v.rethrow }

/-- Versions that differ at most in whether errors are rethrown. Nothing is known of values and
errors. -/
def rethrowing (settings : Settings) (rethrow : Bool)
    (Unseen : Array Error → Array Error → Prop := Eq) : Versions where
  settings := settings
  rethrow := rethrow
  Differs _ _ := False
  Unseen := Unseen
  V _ := True
  E _ := True

/-- A render and itself. -/
abbrev itself (settings : Settings) (Unseen : Array Error → Array Error → Prop := Eq) : Versions :=
  rethrowing settings settings.rethrow Unseen

/-- The two versions of a step. The result satisfies `Q`. -/
inductive Alike (v : Versions) : {α : Type} → Render α → Render α → (α → Prop) → Prop where
  | quiet {α : Type} {x : Render α} {Q : α → Prop} : Quiet v.Unseen v.V v.E x Q → v.Alike x x Q
  | bind {α β : Type} {x y : Render α} {f g : α → Render β} {P : α → Prop} {R : β → Prop} :
      v.Alike x y P → (∀ a, P a → v.Alike (f a) (g a) R) → v.Alike (x >>= f) (y >>= g) R
  | charge {cost : Budget → Except Error Unit × Budget} : Budget.Charge cost →
      v.Alike (charge cost) (charge cost) fun _ => True
  | emit (text : String) : v.Alike (emit text) (emit text) fun _ => True
  | diverted {x y : Render Unit} : v.Alike x y (fun _ => True) →
      v.Alike (diverted x) (diverted y) fun _ => True
  | captured {x y : Render Unit} : v.Alike x y (fun _ => True) →
      v.Alike (captured x) (captured y) fun _ => True
  | inScope {α : Type} {x y : Render α} {Q : α → Prop} : v.Alike x y Q →
      v.Alike (inScope x) (inScope y) Q
  | inTemplate {α : Type} {x y : Render α} {Q : α → Prop} (name : String) : v.Alike x y Q →
      v.Alike (inTemplate name x) (inTemplate name y) Q
  | isolated {α : Type} {x y : Render α} {Q : α → Prop} (template : Option String) :
      v.Alike x y Q → v.Alike (isolated template x) (isolated template y) Q
  | inLoop {α : Type} {x y : Render α} {Q : α → Prop} {loop : Value} : v.V loop → v.Alike x y Q →
      v.Alike (inLoop loop x) (inLoop loop y) Q
  | rescuing {x y : Render Unit} (line : Option Nat) (blank : Bool) :
      v.Alike x y (fun _ => True) →
      v.Alike (rescuing v.settings line blank x) (rescuing v.other line blank y) fun _ => True
  /-- A step that is a different one, and gives admitted frames like any other. -/
  | differs {x y : Render Unit} : v.Differs x y →
      (∀ s, s.frame.Admits v.V →
        Meets (fun _ => True) v.E (x s).1 ∧ (x s).2.frame.Admits v.V) →
      v.Alike x y fun _ => True

variable {v : Versions}

namespace Alike

variable {α β : Type} {P Q : α → Prop}

/-- Giving the same value is alike. -/
theorem pure {a : α} (h : Q a) : v.Alike (Pure.pure a) (Pure.pure a) Q :=
  .quiet (.pure h)

/-- A quiet step, and what follows. -/
theorem after {x : Render α} {f g : α → Render β} {R : β → Prop} (hx : Quiet v.Unseen v.V v.E x P)
    (hf : ∀ a, P a → v.Alike (f a) (g a) R) : v.Alike (x >>= f) (x >>= g) R :=
  .bind (.quiet hx) hf

end Alike

/-! ## Evaluation

Whether errors are rethrown makes no difference to evaluation. -/

section

variable (v)

/-- Binding attributes has nothing to do with rethrowing. -/
theorem bindAttributes_other (attributes : List (String × Expression)) :
    bindAttributes v.other attributes = bindAttributes v.settings attributes := by
  induction attributes with
  | nil => rfl
  | cons entry attributes ih =>
    rw [bindAttributes, ih]
    rfl

end

variable (hg : Unaware v.Unseen v.settings v.V v.E)
include hg

/-- Writing what a pipeline gives is alike. -/
theorem alike_write (p : Pipeline) :
    v.Alike (write v.settings p) (write v.other p) fun _ => True := by
  rw [write_eq, write_eq]
  exact .after (quiet_evaluatePipeline hg p) fun w _ => .emit w.text

theorem alike_rescued (p : Pipeline) :
    v.Alike (rescued v.settings p) (rescued v.other p) fun _ => True :=
  .rescuing p.line false (alike_write hg p)

omit hg in
theorem alike_assign (name : String) {value : Value} (hv : v.V value) :
    v.Alike (assign name value) (assign name value) fun _ => True :=
  .bind (.charge (.assign _)) fun _ _ => .quiet (quiet_store name hv)

/-! ## Loops -/

omit hg in
/-- By induction on the turns that remain. -/
theorem alike_steps {step step' : Nat → Render Bool}
    (h : ∀ index, v.Alike (step index) (step' index) fun _ => True) (length remaining : Nat) :
    v.Alike (steps step length remaining) (steps step' length remaining) fun _ => True := by
  induction remaining with
  | zero => exact .pure trivial
  | succ remaining ih =>
    rw [steps_succ, steps_succ]
    refine .bind (h _) fun more _ => ?_
    cases more with
    | true => exact ih
    | false => exact .pure trivial

/-- One turn of a loop, with its item bound and the loop on the loops. -/
private theorem alike_iteration (name : String) (header : LoopHeader) {slice : Slice}
    (hslice : ∀ index, v.V (slice.get index)) {parent : Value} (hp : v.V parent)
    {body body' : Render Unit} (hbody : v.Alike body body' fun _ => True) (index : Nat) :
    v.Alike (Render.iteration name header slice parent body index)
      (Render.iteration name header slice parent body' index) fun _ => True := by
  refine .after (quiet_beginTurn hg name header hslice hp index) fun loop hloop => ?_
  -- Only the body may differ; binding the names and taking the interrupt are quiet.
  refine .bind (.inLoop hloop hbody) fun _ _ => ?_
  exact .after quiet_takeInterrupt fun _ _ => .pure trivial

/-- All turns of a loop. -/
theorem alike_loop (name : String) (header : LoopHeader) {slice : Slice}
    (hslice : ∀ index, v.V (slice.get index)) {body body' : Render Unit}
    (hbody : v.Alike body body' fun _ => True) :
    v.Alike (Render.loop name header slice body) (Render.loop name header slice body')
      fun _ => True := by
  let parent (s : RenderState) : Value := s.frame.loops.head?.getD .nil
  have hparent : Quiet v.Unseen v.V v.E (fun s => (.ok (parent s), s)) v.V := by
    refine .read (fun _ _ _ _ => rfl) fun s hs => ?_
    -- The loop around this one, if there is one, is the parent of all turns.
    show v.V (s.frame.loops.head?.getD .nil)
    cases hl : s.frame.loops with
    | nil => exact hg.nil
    | cons loop loops => exact hs.loops loop (hl ▸ List.mem_cons_self ..)
  have heq (body : Render Unit) : Render.loop name header slice body
      = (fun s => (.ok (parent s), s) : Render Value) >>= fun parent =>
        inScope (steps (Render.iteration name header slice parent body) slice.length
          slice.length) := rfl
  rw [heq, heq]
  exact .after hparent fun parent hp =>
    .inScope (alike_steps (alike_iteration hg name header hslice hp hbody) _ _)

/-! ## Partials -/

omit hg in
/-- Item by item, by induction on the items. -/
private theorem alike_eachItem (target : String) {render render' : Render Unit}
    (h : v.Alike render render' fun _ => True) {items : List Value}
    (hitems : ∀ item ∈ items, v.V item) :
    v.Alike (eachItem target render items) (eachItem target render' items) fun _ => True := by
  induction items with
  | nil => exact .pure trivial
  | cons item items ih =>
    obtain ⟨hitem, hrest⟩ := List.forall_mem_cons.mp hitems
    rw [eachItem_cons, eachItem_cons]
    exact .bind (.after (quiet_bindName target hitem) fun _ _ => h) fun _ _ => ih hrest

variable {partials partials' : PartialRenderer}
  (hpartials : ∀ document, v.Alike (partials document) (partials' document) fun _ => True)
include hpartials

/-- A partial that is included, for each item or once. -/
theorem alike_includePartial (call : PartialCall) :
    v.Alike (Render.includePartial v.settings partials call)
      (Render.includePartial v.other partials' call) fun _ => True := by
  refine .after (quiet_checkEnabled hg "include") fun _ _ => ?_
  refine .after (quiet_partialName hg call.template) fun name _ => ?_
  refine .after (quiet_loadPartial hg name) fun document _ => ?_
  refine .after (quiet_includedObject hg call name) fun object hobject => ?_
  refine .inTemplate name (.inScope ?_)
  -- The attributes are evaluated by either run with the same outcome.
  rw [bindAttributes_other]
  refine .after (quiet_bindAttributes hg call.attributes) fun _ _ => ?_
  exact alike_eachItem _ (hpartials document) (hg.items hobject)

/-- An isolated partial, whatever is done to make its bindings. -/
theorem alike_renderOnce (name : String) {attributes : List (String × Value)}
    (ha : ∀ e ∈ attributes, v.V e.2) {bindings : Render (List (String × Value))}
    (hb : Quiet v.Unseen v.V v.E bindings fun bindings => ∀ e ∈ bindings, v.V e.2) :
    v.Alike (renderOnce v.settings partials name attributes bindings)
      (renderOnce v.other partials' name attributes bindings) fun _ => True := by
  refine .after (quiet_loadPartial hg name) fun document _ => ?_
  refine .after hb fun bindings hbindings => ?_
  -- Both come from values that are known already, so the scope may bind them.
  have hall : ∀ e ∈ attributes ++ bindings, v.V e.2 := fun e he =>
    (List.mem_append.mp he).elim (ha e) (hbindings e)
  refine .isolated (some name) (.inScope ?_)
  exact .after (quiet_bindAll hall) fun _ _ => hpartials document

/-- A partial that is rendered for one member. -/
theorem alike_renderMember (name target : String) {attributes : List (String × Value)}
    (ha : ∀ e ∈ attributes, v.V e.2) {members : Slice} (hm : ∀ index, v.V (members.get index))
    (index : Nat) :
    v.Alike (renderMember v.settings partials name target attributes members index)
      (renderMember v.other partials' name target attributes members index) fun _ => True :=
  .bind (alike_renderOnce hg hpartials name ha (quiet_memberBindings hg name target hm index))
    fun _ _ => .pure trivial

/-- A partial that is rendered, for each member or once. -/
theorem alike_renderPartial (name : String) (call : PartialCall) :
    v.Alike (Render.renderPartial v.settings partials name call)
      (Render.renderPartial v.other partials' name call) fun _ => True := by
  refine .after (quiet_evaluateAll hg call.attributes) fun attributes ha => ?_
  refine .after (quiet_passedObject hg _ call) fun passed hpassed => ?_
  cases passed with
  | once bindings => exact alike_renderOnce hg hpartials name ha (.pure hpassed)
  | each members =>
    exact alike_steps (alike_renderMember hg hpartials name _ ha hpassed) _ _

/-! ## Tags without bodies -/

omit hpartials in
/-- A counter reads its register, sets it and writes it. -/
private theorem alike_count (register : String) :
    v.Alike (count register) (count register) fun _ => True := by
  -- Counting reads one register, sets it and writes: only the last step shows.
  let value (s : RenderState) : Except Error Int64 :=
    ((s.progress.registers.values.get? register).getD (.int 0)).toInteger
  have hvalue : Quiet v.Unseen v.V v.E (fun s => (value s, s)) fun _ => True :=
    .read (fun _ _ _ _ => rfl) fun s _ => hg.toInteger _
  have hset (w : Value) : Quiet v.Unseen v.V v.E (count.setRegister register w) fun _ => True :=
    .modifyRegisters fun r => { r with values := r.values.put register w }
  have heq : count register = (fun s => (value s, s) : Render Int64) >>= fun n =>
      (count.setRegister register (.int (n + 1)) >>= fun _ => emit (Value.int (n + 1)).text) := rfl
  rw [heq]
  exact .after hvalue fun n _ => .after (hset _) fun _ _ => .emit _

end Versions

open Versions

/-! ## Nodes -/

/-- What two versions of the renderer of bodies rely on. -/
structure Versions.Rely (v : Versions) (outputs outputs' : OutputRenderer)
    (partials partials' : PartialRenderer) : Prop where
  grounds : Unaware v.Unseen v.settings v.V v.E
  outputs : ∀ p, v.Alike (outputs p) (outputs' p) fun _ => True
  partials : ∀ document, v.Alike (partials document) (partials' document) fun _ => True

section

variable {v : Versions} {outputs outputs' : OutputRenderer} {partials partials' : PartialRenderer}

mutual

/-- Bodies are rendered alike if outputs and partials are. -/
theorem Body.alike_renderBy (h : v.Rely outputs outputs' partials partials') :
    ∀ body : Body,
    v.Alike (Body.renderBy v.settings outputs partials body)
      (Body.renderBy v.other outputs' partials' body) fun _ => True
  | .mk nodes _ => by
    rw [Body.renderBy, Body.renderBy]
    exact .bind (.charge (.score _)) fun _ _ => Node.alike_renderAllBy h nodes

/-- Node after node, until one says that nothing more is rendered. -/
theorem Node.alike_renderAllBy (h : v.Rely outputs outputs' partials partials') :
    ∀ nodes : List Node,
    v.Alike (Node.renderAllBy v.settings outputs partials nodes)
      (Node.renderAllBy v.other outputs' partials' nodes) fun _ => True
  | [] => .pure trivial
  | node :: nodes => by
    rw [Node.renderAllBy, Node.renderAllBy]
    refine .bind (Node.alike_renderBy h node) fun more _ => ?_
    split
    · exact Node.alike_renderAllBy h nodes
    · exact .pure trivial

/-- A node deals with the errors of its own. -/
theorem Node.alike_renderBy (h : v.Rely outputs outputs' partials partials') :
    ∀ node : Node,
    v.Alike (Node.renderBy v.settings outputs partials node)
      (Node.renderBy v.other outputs' partials' node) fun _ => True
  | .text text => .bind (.emit text) fun _ _ => .pure trivial
  | .output p => .bind (h.outputs p) fun _ _ => .pure trivial
  | .tag tag =>
    -- An error inside the tag is rescued by either run, at the same place.
    .bind (.rescuing tag.line tag.isBlank (Tag.alike_renderBy h tag)) fun _ _ =>
      .after quiet_interrupted fun _ _ => .pure trivial

/-- The first branch whose condition holds. -/
theorem Branch.alike_renderFirstBy (h : v.Rely outputs outputs' partials partials')
    (negated : Bool) : ∀ branches : List Branch,
    v.Alike (Branch.renderFirstBy v.settings outputs partials negated branches)
      (Branch.renderFirstBy v.other outputs' partials' negated branches) fun _ => True
  | [] => .pure trivial
  | .mk condition body :: branches => by
    rw [Branch.renderFirstBy, Branch.renderFirstBy]
    refine .after (quiet_evaluateCondition h.grounds condition) fun holds _ => ?_
    split
    · exact Body.alike_renderBy h body
    · exact Branch.alike_renderFirstBy h false branches

/-- The arms that match, and the others if none did. -/
theorem Arm.alike_renderAllBy (h : v.Rely outputs outputs' partials partials') (matched : Bool) :
    ∀ arms : List Arm,
    v.Alike (Arm.renderAllBy v.settings outputs partials matched arms)
      (Arm.renderAllBy v.other outputs' partials' matched arms) fun _ => True
  | [] => .pure trivial
  | .when condition body :: arms => by
    rw [Arm.renderAllBy, Arm.renderAllBy]
    refine .after (quiet_evaluateCondition h.grounds condition) fun holds _ => ?_
    split
    · exact .bind (Body.alike_renderBy h body) fun _ _ => Arm.alike_renderAllBy h true arms
    · exact Arm.alike_renderAllBy h matched arms
  | .otherwise body :: arms => by
    rw [Arm.renderAllBy, Arm.renderAllBy]
    split
    · exact Arm.alike_renderAllBy h matched arms
    · exact .bind (Body.alike_renderBy h body) fun _ _ => Arm.alike_renderAllBy h matched arms

/-- The sections of a tag of the host, by induction on them. -/
theorem Body.alike_renderSectionsBy (h : v.Rely outputs outputs' partials partials') (index : Nat) :
    ∀ bodies : List Body,
    v.Alike (Body.renderSectionsBy v.settings outputs partials index bodies)
      (Body.renderSectionsBy v.other outputs' partials' index bodies) fun _ => True
  | [] => .pure trivial
  | body :: bodies => by
    rw [Body.renderSectionsBy, Body.renderSectionsBy]
    refine .bind (.emit _) fun _ _ => .bind (.inScope (Body.alike_renderBy h body)) fun _ _ => ?_
    exact Body.alike_renderSectionsBy h (index + 1) bodies

/-- A body that may be missing. -/
theorem Body.alike_renderIfAnyBy (h : v.Rely outputs outputs' partials partials') :
    ∀ body : Option Body,
    v.Alike (Body.renderIfAnyBy v.settings outputs partials body)
      (Body.renderIfAnyBy v.other outputs' partials' body) fun _ => True
  | none => .pure trivial
  | some body => Body.alike_renderBy h body

/-- A tag is put together of steps that are alike, whichever tag it is. -/
theorem Tag.alike_renderBy (h : v.Rely outputs outputs' partials partials') :
    ∀ tag : Tag,
    v.Alike (Tag.renderBy v.settings outputs partials tag)
      (Tag.renderBy v.other outputs' partials' tag) fun _ => True
  | .conditional _ negated branches _ _ => Branch.alike_renderFirstBy h negated branches
  | .choice arms _ _ => Arm.alike_renderAllBy h false arms
  | .loop name header body otherwise _ _ => by
    rw [Tag.renderBy, Tag.renderBy]
    -- Both runs loop over the same slice, so they choose the same way on.
    refine .after (quiet_loopSlice h.grounds name header) fun slice hslice => ?_
    split
    · exact Body.alike_renderIfAnyBy h otherwise
    · exact alike_loop h.grounds name header hslice (Body.alike_renderBy h body)
  | .interrupt i _ => .quiet (quiet_interrupt i)
  | .assign target source _ =>
    .after (quiet_evaluatePipeline h.grounds source) fun _ hv => alike_assign target hv
  | .capture target body _ =>
    .bind (.captured (Body.alike_renderBy h body)) fun text _ =>
      .quiet (quiet_store target (h.grounds.str text))
  | .comment => .pure trivial
  | .inlineComment => .pure trivial
  | .raw text => .emit text
  | .echo source => alike_write h.grounds source
  | .lines body _ => Body.alike_renderBy h body
  | .includePartial call _ => alike_includePartial h.grounds h.partials call
  | .renderPartial name call _ => alike_renderPartial h.grounds h.partials name call
  | .transform _ f body =>
    .bind (.diverted (Body.alike_renderBy h body)) fun text _ => .emit (f text)
  | .sections _ bodies _ => Body.alike_renderSectionsBy h 0 bodies
  | .counter _ register => alike_count h.grounds register

end

end

/-! ## Documents -/

namespace Document

variable {v : Versions} {outputs outputs' : OutputRenderer}

/-- Documents are rendered alike, and so are the partials that they call. -/
theorem alike_renderWithinBy (hg : Unaware v.Unseen v.settings v.V v.E)
    (houtputs : ∀ p, v.Alike (outputs p) (outputs' p) fun _ => True) (levels : Nat)
    (document : Document) :
    v.Alike (renderWithinBy v.settings outputs levels document)
      (renderWithinBy v.other outputs' levels document) fun _ => True := by
  -- On the last level no partial can be called any more.
  induction levels generalizing document with
  | zero =>
    have hdeep : v.E .tooDeep := hg.raised nofun nofun nofun rfl rfl
    exact Body.alike_renderBy ⟨hg, houtputs, fun _ => .quiet (.fail hdeep)⟩ document
  | succ levels ih => exact Body.alike_renderBy ⟨hg, houtputs, ih⟩ document

/-- Documents are rendered alike by the renderer as it is. -/
theorem alike_renderWithin (hg : Unaware v.Unseen v.settings v.V v.E) (levels : Nat)
    (document : Document) :
    v.Alike (renderWithin v.settings levels document) (renderWithin v.other levels document)
      fun _ => True := by
  rw [← renderWithinBy_rescued, ← renderWithinBy_rescued]
  exact alike_renderWithinBy hg (alike_rescued hg) levels document

end Document

end Stencil
