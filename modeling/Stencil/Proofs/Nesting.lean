import Stencil.Proofs.Lockstep

/-!
# How deep partials call each other

A partial is rendered in a scope of its own, and the budget refuses a scope that would be nested too
deep. So partials that call themselves or each other in a circle come to an end: if the budget has
room for `levels` more scopes, whatever would render the calls below that many is never asked. The
recursion of the renderer through its partials can be unrolled a finite number of times, and below
that anything may stand.

The relation `SameUpTo` says this of two renders that are built from the same steps. Its measure is
the room that is left: it goes down where a scope is opened, and what is inside a document of any
shape is an induction over that document.

## Key definitions

- `Budget.Allows`: how many scopes may still be opened
- `SameUpTo`: steps that do the same where so many scopes may still be opened
- `Document.unrolled`: the renderer with a limited number of calls inside each other

## Key results

- `Body.sameUpTo_render`: bodies, where what their partials do is the same one level further in
- `Document.unrolled_eq_render`: the calls beyond the room in the budget make no difference
- `Document.render_eq_body`: the renderer satisfies its recursion equation
-/

namespace Stencil

open Render

/-! ## Room for scopes -/

namespace Budget

/-- At most `levels` more scopes may be opened. -/
def Allows (levels : Nat) (b : Budget) : Prop :=
  ∃ ceiling, b.depthCeiling = some ceiling ∧ ceiling ≤ b.depth + levels

/-- As many scopes are open in both budgets, and as many may be. -/
structure SameDepth (b b' : Budget) : Prop where
  depth : b'.depth = b.depth
  ceiling : b'.depthCeiling = b.depthCeiling

namespace SameDepth

variable {b b' b'' : Budget}

/-- A budget is as deep as itself. -/
theorem refl (b : Budget) : SameDepth b b :=
  ⟨rfl, rfl⟩

/-- Equal budgets are equally deep. -/
theorem of_eq (h : b' = b) : SameDepth b b' :=
  h ▸ refl b

/-- Equally deep is transitive. -/
theorem trans (h : SameDepth b b') (h' : SameDepth b' b'') : SameDepth b b'' :=
  ⟨h'.depth.trans h.depth, h'.ceiling.trans h.ceiling⟩

end SameDepth

variable {levels : Nat} {b b' : Budget}

/-- How many scopes may be opened depends on the depth and its ceiling only. -/
theorem Allows.of_sameDepth (h : Allows levels b) (hb : SameDepth b b') : Allows levels b' := by
  obtain ⟨ceiling, hceiling, hle⟩ := h
  exact ⟨ceiling, hb.ceiling.trans hceiling, hb.depth ▸ hle⟩

/-- What allows fewer levels allows more. -/
theorem Allows.mono {levels' : Nat} (h : Allows levels b) (hle : levels ≤ levels') :
    Allows levels' b := by
  obtain ⟨ceiling, hceiling, hroom⟩ := h
  exact ⟨ceiling, hceiling, by omega⟩

/-- A ceiling allows what is left up to it. -/
theorem allows_scopesLeft {ceiling : Nat} (h : b.depthCeiling = some ceiling) :
    Allows b.scopesLeft b := by
  refine ⟨ceiling, h, ?_⟩
  unfold scopesLeft
  rw [h]
  dsimp only
  omega

/-- What is left is the least room that there is. -/
theorem Allows.scopesLeft (h : Allows levels b) :
    Allows b.scopesLeft b ∧ b.scopesLeft ≤ levels := by
  obtain ⟨ceiling, hceiling, hle⟩ := h
  refine ⟨allows_scopesLeft hceiling, ?_⟩
  unfold Budget.scopesLeft
  rw [hceiling]
  dsimp only
  omega

/-- What is charged is not a scope. -/
theorem Charge.sameDepth {cost : Budget → Except Error Unit × Budget} (h : Charge cost)
    (b : Budget) : SameDepth b (cost b).2 := by
  cases h with
  | score amount =>
    dsimp only
    rw [chargeScore_eq]
    exact ⟨rfl, rfl⟩
  | assign amount =>
    dsimp only
    rw [chargeAssign_eq]
    exact ⟨rfl, rfl⟩

/-- Writing opens no scope. -/
theorem sameDepth_chargeWrite (b : Budget) (bytes : Nat) :
    SameDepth b (b.chargeWrite bytes).2 := by
  cases hc : b.captures with
  | zero =>
    rw [chargeWrite_of_not_captured hc]
    exact ⟨rfl, rfl⟩
  | succ n =>
    rw [chargeWrite_of_captured (by omega), chargeAssign_eq]
    exact ⟨rfl, rfl⟩

end Budget

/-- A scope that is not refused counts. -/
theorem depth_entered {s : RenderState}
    (h : ¬exceeds (s.progress.budget.depth + 1) s.progress.budget.depthCeiling = true) :
    s.entered.progress.budget.depth = s.progress.budget.depth + 1
      ∧ s.entered.progress.budget.depthCeiling = s.progress.budget.depthCeiling := by
  -- There is room for one scope more.
  have henter : s.progress.budget.enterScope
      = (.ok (), { s.progress.budget with
          depth := s.progress.budget.depth + 1
          maxDepth := max s.progress.budget.maxDepth (s.progress.budget.depth + 1) }) :=
    if_neg h
  have hbudget : s.entered.progress.budget = s.progress.budget.enterScope.2 := rfl
  rw [hbudget, henter]
  exact ⟨rfl, rfl⟩

/-- Inside a scope there is room for one less. -/
theorem allows_entered {levels : Nat} {s : RenderState}
    (h : s.progress.budget.Allows (levels + 1))
    (henter : ¬exceeds (s.progress.budget.depth + 1) s.progress.budget.depthCeiling = true) :
    s.entered.progress.budget.Allows levels := by
  obtain ⟨ceiling, hceiling, hle⟩ := h
  obtain ⟨hdepth, hsame⟩ := depth_entered henter
  refine ⟨ceiling, hsame.trans hceiling, ?_⟩
  rw [hdepth]
  omega

/-- Where there is no room, no scope is opened. -/
theorem refused_of_allows_zero {s : RenderState} (h : s.progress.budget.Allows 0) :
    exceeds (s.progress.budget.depth + 1) s.progress.budget.depthCeiling = true := by
  obtain ⟨ceiling, hceiling, hle⟩ := h
  rw [hceiling]
  exact decide_eq_true (by omega)

/-! ## Steps that do the same -/

/-- Where at most `levels` more scopes may be opened, `y` does what `x` does and closes what it
opens. -/
structure SameUpTo {α : Type} (levels : Nat) (x y : Render α) : Prop where
  same : ∀ s : RenderState, s.progress.budget.Allows levels → y s = x s
  depth : ∀ s : RenderState, s.progress.budget.Allows levels →
    s.progress.budget.SameDepth (x s).2.progress.budget

variable {α β : Type} {levels : Nat}

namespace SameUpTo

/-- A step does the same as itself, if it closes what it opens. -/
theorem of_depth {x : Render α}
    (h : ∀ s : RenderState, s.progress.budget.SameDepth (x s).2.progress.budget) :
    SameUpTo levels x x :=
  ⟨fun _ _ => rfl, fun s _ => h s⟩

/-- A step that has nothing to do with what is spent. -/
theorem quiet {x : Render α} {Q : α → Prop} (h : Quiet Eq (fun _ => True) (fun _ => True) x Q) :
    SameUpTo levels x x :=
  of_depth fun s => .of_eq (h s (.trivial s.frame)).budget

/-- Giving a value opens nothing. -/
theorem pure (a : α) : SameUpTo levels (Pure.pure a) (Pure.pure a) :=
  of_depth fun _ => .refl _

/-- One step after the other: what is left for the second one is what was left for the first. -/
theorem bind {x y : Render α} {f g : α → Render β} (hx : SameUpTo levels x y)
    (hf : ∀ a, SameUpTo levels (f a) (g a)) : SameUpTo levels (x >>= f) (y >>= g) := by
  refine ⟨fun s hs => ?_, fun s hs => ?_⟩
  · -- Both do the same.
    have hsame := hx.same s hs
    have hdepth := hx.depth s hs
    cases h : x s with
    | mk r t =>
      rw [h] at hsame hdepth
      cases r with
      | error e => rw [Attempt.bind_of_error h, Attempt.bind_of_error hsame]
      | ok a =>
        rw [Attempt.bind_of_ok h, Attempt.bind_of_ok hsame]
        exact (hf a).same t (hs.of_sameDepth hdepth)
  · -- And what is open in between counts for the second step as well.
    have hdepth := hx.depth s hs
    cases h : x s with
    | mk r t =>
      rw [h] at hdepth
      cases r with
      | error e =>
        rw [Attempt.bind_of_error h]
        exact hdepth
      | ok a =>
        rw [Attempt.bind_of_ok h]
        exact hdepth.trans ((hf a).depth t (hs.of_sameDepth hdepth))

/-- A charge opens nothing. -/
theorem charge {cost : Budget → Except Error Unit × Budget} (h : Budget.Charge cost) :
    SameUpTo levels (Render.charge cost) (Render.charge cost) :=
  of_depth fun s => h.sameDepth s.progress.budget

/-- Writing opens nothing. -/
theorem emit (text : String) : SameUpTo levels (Render.emit text) (Render.emit text) :=
  of_depth fun s => s.progress.budget.sameDepth_chargeWrite text.utf8ByteSize

/-- Where the output goes makes no difference. -/
theorem diverted {x y : Render Unit} (h : SameUpTo levels x y) :
    SameUpTo levels (Render.diverted x) (Render.diverted y) where
  same s hs := by rw [diverted_eq, diverted_eq, h.same (s.withOutput "") hs]
  depth s hs := h.depth (s.withOutput "") hs

/-- Nor does whether it is captured. -/
theorem captured {x y : Render Unit} (h : SameUpTo levels x y) :
    SameUpTo levels (Render.captured x) (Render.captured y) where
  same s hs := by rw [captured_eq, captured_eq, h.diverted.same s.beginCapture hs]
  depth s hs :=
    have hinside := h.diverted.depth s.beginCapture hs
    ⟨hinside.depth, hinside.ceiling⟩

/-- Inside a scope the steps need to be the same only as far as there is room in there. -/
theorem inScope {x y : Render α} (h : ∀ inside < levels, SameUpTo inside x y) :
    SameUpTo levels (Render.inScope x) (Render.inScope y) := by
  refine ⟨fun s hs => ?_, fun s hs => ?_⟩
  · rw [inScope_eq, inScope_eq]
    split
    · -- A scope that is refused has no inside.
      rfl
    · rename_i henter
      cases levels with
      -- No level is left, so the scope would have been refused.
      | zero => exact absurd (refused_of_allows_zero hs) henter
      | succ inside => rw [(h inside (Nat.lt_succ_self _)).same _ (allows_entered hs henter)]
  · rw [inScope_eq]
    split
    · exact .refl _
    · rename_i henter
      cases levels with
      | zero => exact absurd (refused_of_allows_zero hs) henter
      | succ inside =>
        obtain ⟨hdepth, hceiling⟩ := depth_entered henter
        have hinside := (h inside (Nat.lt_succ_self _)).depth _ (allows_entered hs henter)
        refine ⟨?_, hinside.ceiling.trans hceiling⟩
        show (x s.entered).2.progress.budget.depth - 1 = _
        rw [hinside.depth, hdepth, Nat.add_sub_cancel]

/-- The name of the template makes no difference. -/
theorem inTemplate {x y : Render α} (name : String) (h : SameUpTo levels x y) :
    SameUpTo levels (Render.inTemplate name x) (Render.inTemplate name y) where
  same s hs := by rw [inTemplate_eq, inTemplate_eq, h.same (s.withTemplate (some name)) hs]
  depth s hs := h.depth (s.withTemplate (some name)) hs

/-- An isolated step shares its budget. -/
theorem isolated {x y : Render α} (template : Option String) (h : SameUpTo levels x y) :
    SameUpTo levels (Render.isolated template x) (Render.isolated template y) where
  same s hs := by
    rw [isolated_eq, isolated_eq, h.same (s.withFrame (s.frame.isolated template)) hs]
  depth s hs := h.depth (s.withFrame (s.frame.isolated template)) hs

/-- The loops around make no difference. -/
theorem inLoop {x y : Render α} (loop : Value) (h : SameUpTo levels x y) :
    SameUpTo levels (Render.inLoop loop x) (Render.inLoop loop y) where
  same s hs := by
    rw [inLoop_eq, inLoop_eq, h.same (s.withLoops (loop :: s.frame.loops)) hs]
  depth s hs := h.depth (s.withLoops (loop :: s.frame.loops)) hs

/-- Dealing with an error opens nothing. -/
theorem sameDepth_rescue (settings : Settings) (line : Option Nat) (blank : Bool) (e : Error)
    (s : RenderState) :
    s.progress.budget.SameDepth (rescue settings line blank e s).2.progress.budget := by
  -- At most a text is written, which has nothing to do with the depth.
  cases hp : settings.propagates e with
  | true =>
    rw [rescue_of_propagates hp]
    exact .refl _
  | false =>
    rw [rescue_of_not_propagates hp]
    split
    · exact .refl _
    · exact Budget.sameDepth_chargeWrite _ _

/-- An error is dealt with in the same way on both sides. -/
theorem rescuing {x y : Render Unit} (settings : Settings) (line : Option Nat) (blank : Bool)
    (h : SameUpTo levels x y) :
    SameUpTo levels (Render.rescuing settings line blank x)
      (Render.rescuing settings line blank y) := by
  refine ⟨fun s hs => ?_, fun s hs => ?_⟩
  · unfold Render.rescuing
    rw [h.same s hs]
  · have hdepth := h.depth s hs
    -- An error is dealt with at the depth at which it came up.
    cases hx : x s with
    | mk r t =>
      rw [hx] at hdepth
      cases r with
      | ok a =>
        rw [rescuing_of_ok hx]
        exact hdepth
      | error e =>
        rw [rescuing_of_error hx]
        exact hdepth.trans (sameDepth_rescue settings line blank e t)

/-- A quiet step, and what follows. -/
theorem after {x : Render α} {f g : α → Render β} {Q : α → Prop}
    (hx : Quiet Eq (fun _ => True) (fun _ => True) x Q) (hf : ∀ a, SameUpTo levels (f a) (g a)) :
    SameUpTo levels (x >>= f) (x >>= g) :=
  .bind (.quiet hx) hf

/-- Numbered steps, by induction on how many remain. -/
theorem steps {step step' : Nat → Render Bool} (h : ∀ index, SameUpTo levels (step index)
    (step' index)) (length remaining : Nat) :
    SameUpTo levels (Render.steps step length remaining)
      (Render.steps step' length remaining) := by
  induction remaining with
  | zero => exact .pure ()
  | succ remaining ih =>
    rw [steps_succ, steps_succ]
    refine .bind (h _) fun more => ?_
    -- A turn may be the last one.
    cases more with
    | true => exact ih
    | false => exact .pure ()

end SameUpTo

/-! ## Loops and partials -/

section

variable (settings : Settings)

/-- An output opens nothing. -/
private theorem sameUpTo_write (p : Pipeline) :
    SameUpTo levels (write settings p) (write settings p) := by
  rw [write_eq]
  exact .after (quiet_evaluatePipeline (.trivial settings) p) fun v => .emit v.text

/-- An assignment opens nothing. -/
private theorem sameUpTo_assign (name : String) (value : Value) :
    SameUpTo levels (assign name value) (assign name value) :=
  .bind (.charge (.assign _)) fun _ => .quiet (quiet_store name trivial)

include settings in
/-- A loop opens a scope for all its turns. -/
private theorem sameUpTo_loop (name : String) (header : LoopHeader) (slice : Slice)
    {body body' : Render Unit} (hbody : ∀ inside < levels, SameUpTo inside body body') :
    SameUpTo levels (Render.loop name header slice body) (Render.loop name header slice body') := by
  -- The loop opens a scope, so its body has one level less.
  let parent (s : RenderState) : Value := s.frame.loops.head?.getD .nil
  have heq (body : Render Unit) : Render.loop name header slice body
      = (fun s => (.ok (parent s), s) : Render Value) >>= fun parent =>
        inScope (steps (Render.iteration name header slice parent body) slice.length
          slice.length) := rfl
  rw [heq, heq]
  refine .bind (.of_depth fun _ => .refl _) fun parent => .inScope fun inside hinside => ?_
  refine .steps (fun index => ?_) _ _
  refine .after (quiet_beginTurn (.trivial settings) name header (fun _ => trivial) trivial index)
    fun loop => ?_
  exact .bind (.inLoop loop (hbody inside hinside)) fun _ => .after quiet_takeInterrupt fun _ =>
    .pure _

/-- A partial is rendered for each item, by induction on the items. -/
private theorem sameUpTo_eachItem (target : String) {render render' : Render Unit}
    (h : SameUpTo levels render render') (items : List Value) :
    SameUpTo levels (eachItem target render items) (eachItem target render' items) := by
  induction items with
  | nil => exact .pure ()
  | cons item items ih =>
    rw [eachItem_cons, eachItem_cons]
    exact .bind (.after (quiet_bindName target trivial) fun _ => h) fun _ => ih

/-- A counter reads its register, sets it and writes it. -/
private theorem sameUpTo_count (register : String) :
    SameUpTo levels (count register) (count register) := by
  let value (s : RenderState) : Except Error Int64 :=
    ((s.progress.registers.values.get? register).getD (.int 0)).toInteger
  have heq : count register = (fun s => (value s, s) : Render Int64) >>= fun n =>
      (count.setRegister register (.int (n + 1)) >>= fun _ => emit (Value.int (n + 1)).text) := rfl
  rw [heq]
  exact .bind (.of_depth fun _ => .refl _) fun n => .bind (.of_depth fun _ => .refl _) fun _ =>
    .emit _

variable {partials partials' : PartialRenderer}
  (hpartials : ∀ inside < levels, ∀ document,
    SameUpTo inside (partials document) (partials' document))
include hpartials

/-- An include opens a scope around its partial. -/
private theorem sameUpTo_includePartial (call : PartialCall) :
    SameUpTo levels (Render.includePartial settings partials call)
      (Render.includePartial settings partials' call) := by
  have hg := Unaware.trivial settings
  refine .after (quiet_checkEnabled hg "include") fun _ => ?_
  refine .after (quiet_partialName hg call.template) fun name => ?_
  refine .after (quiet_loadPartial hg name) fun document => ?_
  refine .after (quiet_includedObject hg call name) fun object => ?_
  refine .inTemplate name (.inScope fun inside hinside => ?_)
  refine .after (quiet_bindAttributes hg call.attributes) fun _ => ?_
  exact sameUpTo_eachItem _ (hpartials inside hinside document) _

/-- So does a partial that is rendered once. -/
private theorem sameUpTo_renderOnce (name : String) (attributes : List (String × Value))
    {bindings : Render (List (String × Value))} {Q : List (String × Value) → Prop}
    (hb : Quiet Eq (fun _ => True) (fun _ => True) bindings Q) :
    SameUpTo levels (renderOnce settings partials name attributes bindings)
      (renderOnce settings partials' name attributes bindings) := by
  refine .after (quiet_loadPartial (.trivial settings) name) fun document => ?_
  refine .after hb fun bindings => ?_
  refine .isolated (some name) (.inScope fun inside hinside => ?_)
  exact .after (quiet_bindAll fun _ _ => trivial) fun _ => hpartials inside hinside document

/-- And one that is rendered for each member of a collection. -/
private theorem sameUpTo_renderPartial (name : String) (call : PartialCall) :
    SameUpTo levels (Render.renderPartial settings partials name call)
      (Render.renderPartial settings partials' name call) := by
  have hg := Unaware.trivial settings
  refine .after (quiet_evaluateAll hg call.attributes) fun attributes => ?_
  refine .after (quiet_passedObject hg _ call) fun passed => ?_
  -- The partial is rendered once, or for each member.
  cases passed with
  | once bindings =>
    exact sameUpTo_renderOnce settings hpartials name attributes
      (.pure (Q := fun _ => True) trivial)
  | each members =>
    have hmembers (index : Nat) : True := trivial
    exact .steps (fun index => .bind (sameUpTo_renderOnce settings hpartials name attributes
      (quiet_memberBindings hg name _ hmembers index)) fun _ => .pure true) _ _

end

/-! ## Documents -/

section

variable {settings : Settings} {partials partials' : PartialRenderer}

/-- Two renderers of partials do the same one level further in. -/
abbrev SameInside (levels : Nat) (partials partials' : PartialRenderer) : Prop :=
  ∀ inside < levels, ∀ document, SameUpTo inside (partials document) (partials' document)

/-- Partials that do the same for some levels do so for fewer. -/
theorem SameInside.anti {levels' : Nat} (h : SameInside levels' partials partials')
    (hle : levels ≤ levels') : SameInside levels partials partials' :=
  fun inside hinside => h inside (Nat.lt_of_lt_of_le hinside hle)

mutual

/-- Bodies are rendered in the same way if partials are, one level further in. -/
theorem Body.sameUpTo_render (levels : Nat) (h : SameInside levels partials partials') :
    ∀ body : Body,
    SameUpTo levels (Body.render settings partials body) (Body.render settings partials' body)
  | .mk nodes _ => by
    rw [Body.render, Body.render]
    exact .bind (.charge (.score _)) fun _ => Node.sameUpTo_renderAll levels h nodes

/-- The nodes of a body. -/
theorem Node.sameUpTo_renderAll (levels : Nat) (h : SameInside levels partials partials') :
    ∀ nodes : List Node,
    SameUpTo levels (Node.renderAll settings partials nodes)
      (Node.renderAll settings partials' nodes)
  | [] => .pure ()
  | node :: nodes => by
    rw [Node.renderAll_cons, Node.renderAll_cons]
    refine .bind (Node.sameUpTo_render levels h node) fun more => ?_
    split
    · exact Node.sameUpTo_renderAll levels h nodes
    · exact .pure ()

/-- A node of a body. -/
theorem Node.sameUpTo_render (levels : Nat) (h : SameInside levels partials partials') :
    ∀ node : Node,
    SameUpTo levels (Node.render settings partials node) (Node.render settings partials' node)
  | .text text => .bind (.emit text) fun _ => .pure true
  | .output p => .bind (.rescuing settings p.line false (sameUpTo_write settings p)) fun _ =>
      .pure true
  | .tag tag => by
    rw [Node.render, Node.render]
    refine .bind (.rescuing settings tag.line tag.isBlank (Tag.sameUpTo_render levels h tag))
      fun _ => ?_
    exact .after quiet_interrupted fun _ => .pure _

/-- The first branch whose condition holds. -/
theorem Branch.sameUpTo_renderFirst (levels : Nat) (h : SameInside levels partials partials')
    (negated : Bool) : ∀ branches : List Branch,
    SameUpTo levels (Branch.renderFirst settings partials negated branches)
      (Branch.renderFirst settings partials' negated branches)
  | [] => .pure ()
  | .mk condition body :: branches => by
    rw [Branch.renderFirst, Branch.renderFirst]
    refine .after (quiet_evaluateCondition (.trivial settings) condition) fun holds => ?_
    split
    · exact Body.sameUpTo_render levels h body
    · exact Branch.sameUpTo_renderFirst levels h false branches

/-- The arms of a choice. -/
theorem Arm.sameUpTo_renderAll (levels : Nat) (h : SameInside levels partials partials')
    (matched : Bool) : ∀ arms : List Arm,
    SameUpTo levels (Arm.renderAll settings partials matched arms)
      (Arm.renderAll settings partials' matched arms)
  | [] => .pure ()
  | .when condition body :: arms => by
    rw [Arm.renderAll, Arm.renderAll]
    refine .after (quiet_evaluateCondition (.trivial settings) condition) fun holds => ?_
    -- The body is rendered before the other arms, or they are all there is.
    split
    · exact .bind (Body.sameUpTo_render levels h body) fun _ =>
        Arm.sameUpTo_renderAll levels h true arms
    · exact Arm.sameUpTo_renderAll levels h matched arms
  | .otherwise body :: arms => by
    rw [Arm.renderAll, Arm.renderAll]
    split
    · exact Arm.sameUpTo_renderAll levels h matched arms
    · exact .bind (Body.sameUpTo_render levels h body) fun _ =>
        Arm.sameUpTo_renderAll levels h matched arms

/-- Sections, each in a scope of its own. -/
theorem Body.sameUpTo_renderSections (levels : Nat) (h : SameInside levels partials partials')
    (index : Nat) : ∀ bodies : List Body,
    SameUpTo levels (Body.renderSections settings partials index bodies)
      (Body.renderSections settings partials' index bodies)
  | [] => .pure ()
  | body :: bodies => by
    rw [Body.renderSections, Body.renderSections]
    refine .bind (.emit _) fun _ => .bind (.inScope fun inside hinside => ?_) fun _ => ?_
    · exact Body.sameUpTo_render inside (h.anti (Nat.le_of_lt hinside)) body
    · exact Body.sameUpTo_renderSections levels h (index + 1) bodies

/-- A body that may be missing. -/
theorem Body.sameUpTo_renderIfAny (levels : Nat) (h : SameInside levels partials partials') :
    ∀ body : Option Body,
    SameUpTo levels (Body.renderIfAny settings partials body)
      (Body.renderIfAny settings partials' body)
  | none => .pure ()
  | some body => Body.sameUpTo_render levels h body

/-- A tag, kind by kind. -/
theorem Tag.sameUpTo_render (levels : Nat) (h : SameInside levels partials partials') :
    ∀ tag : Tag,
    SameUpTo levels (Tag.render settings partials tag) (Tag.render settings partials' tag)
  | .conditional _ negated branches _ _ => Branch.sameUpTo_renderFirst levels h negated branches
  | .choice arms _ _ => Arm.sameUpTo_renderAll levels h false arms
  | .loop name header body otherwise _ _ => by
    rw [Tag.render, Tag.render]
    -- Only loops and partials go one level deeper.
    refine .after (quiet_loopSlice (.trivial settings) name header) fun slice => ?_
    split
    · exact Body.sameUpTo_renderIfAny levels h otherwise
    · exact sameUpTo_loop settings name header slice fun inside hinside =>
        Body.sameUpTo_render inside (h.anti (Nat.le_of_lt hinside)) body
  | .interrupt i _ => .quiet (quiet_interrupt i)
  | .assign target source _ =>
    .after (quiet_evaluatePipeline (.trivial settings) source) fun v => sameUpTo_assign target v
  | .capture target body _ =>
    .bind (.captured (Body.sameUpTo_render levels h body)) fun text =>
      .quiet (quiet_store target trivial)
  | .comment => .pure ()
  | .inlineComment => .pure ()
  | .raw text => .emit text
  | .echo source => sameUpTo_write settings source
  | .lines body _ => Body.sameUpTo_render levels h body
  | .includePartial call _ => sameUpTo_includePartial settings h call
  | .renderPartial name call _ => sameUpTo_renderPartial settings h name call
  | .transform _ f body =>
    .bind (.diverted (Body.sameUpTo_render levels h body)) fun text => .emit (f text)
  | .sections _ bodies _ => Body.sameUpTo_renderSections levels h 0 bodies
  | .counter _ register => sameUpTo_count register

end

end

namespace Document

/-- Renders a document in which at most `calls` documents are being rendered inside each other, it
among them; `bottom` is asked for any that are called further in. -/
def unrolled (settings : Settings) (bottom : PartialRenderer) : (calls : Nat) → PartialRenderer
  | 0 => bottom
  | calls + 1 => Body.render settings (unrolled settings bottom calls)

variable {settings : Settings}

/-- A render within levels is the unrolled one that fails where they end. -/
theorem renderWithin_eq_unrolled (levels : Nat) :
    renderWithin settings levels
      = unrolled settings (fun _ => Attempt.fail .tooDeep) (levels + 1) := by
  induction levels with
  | zero => rfl
  | succ levels ih =>
    funext document
    exact congrArg (fun partials => Body.render settings partials document) ih

/-- With room for `levels` scopes, what is called more than `levels` deep is not asked. -/
theorem sameUpTo_unrolled (bottom bottom' : PartialRenderer) {levels calls calls' : Nat}
    (h : levels < calls) (h' : levels < calls') (document : Document) :
    SameUpTo levels (unrolled settings bottom calls document)
      (unrolled settings bottom' calls' document) := by
  induction levels using Nat.strongRecOn generalizing calls calls' document with
  | ind levels ih =>
    obtain ⟨calls, rfl⟩ : ∃ n, calls = n + 1 := ⟨calls - 1, by omega⟩
    obtain ⟨calls', rfl⟩ : ∃ n, calls' = n + 1 := ⟨calls' - 1, by omega⟩
    exact Body.sameUpTo_render levels
      (fun inside hinside called => ih inside hinside (by omega) (by omega) called) document

/-- Whatever would render the calls beyond the room that is left for scopes, the document is
rendered in the same way. -/
theorem unrolled_eq_render (bottom : PartialRenderer) {calls : Nat} (document : Document)
    {s : RenderState} (h : s.progress.budget.Allows calls) :
    unrolled settings bottom (calls + 1) document s = document.render settings s := by
  obtain ⟨hroom, hleft⟩ := h.scopesLeft
  have hsame : SameUpTo s.progress.budget.scopesLeft (unrolled settings _ _ document)
      (unrolled settings bottom _ document) :=
    sameUpTo_unrolled (fun _ => Attempt.fail .tooDeep) bottom
      (Nat.lt_succ_self s.progress.budget.scopesLeft) (Nat.lt_succ_of_le hleft) document
  rw [Document.render, renderWithin_eq_unrolled]
  exact hsame.same s hroom

/-- Where there is a ceiling for the depth, a document is rendered as its body is, with the partials
that it calls rendered as documents. -/
theorem render_eq_body {s : RenderState} {ceiling : Nat}
    (h : s.progress.budget.depthCeiling = some ceiling) (document : Document) :
    document.render settings s = Body.render settings (Document.render settings) document s := by
  have hleft := Budget.allows_scopesLeft h
  rw [← unrolled_eq_render (Document.render settings) document hleft]
  -- One level further in, there is less room than calls are left to be unrolled.
  have hinside : SameInside s.progress.budget.scopesLeft
      (unrolled settings (Document.render settings) s.progress.budget.scopesLeft)
      (Document.render settings) := by
    intro inside hinside called
    obtain ⟨calls, hcalls⟩ : ∃ n, s.progress.budget.scopesLeft = n + 1 :=
      ⟨s.progress.budget.scopesLeft - 1, by omega⟩
    have hsame : SameUpTo inside (unrolled settings _ _ called) (unrolled settings _ _ called) :=
      sameUpTo_unrolled (Document.render settings) (Document.render settings) hinside hinside called
    refine ⟨fun t ht => ?_, hsame.depth⟩
    rw [hcalls]
    exact (unrolled_eq_render _ called (ht.mono (by omega))).symm
  exact ((Body.sameUpTo_render _ hinside document).same s hleft).symm

end Document

end Stencil
