import Stencil.Proofs.Traces

/-!
# Renders are runs

A render of a document of standard tags is a run through the moments of its trace. The
proof goes along the syntax of documents once, with a lemma for each kind of node, and
along the levels at which partials are called.

## Key results

- `Body.traces_render`: a body and the moments of its trace
- `Document.run_render`: a whole document
- `Template.run_moments`: a whole template
-/

namespace Stencil

open Render

variable {settings : Settings} {V : Value → Prop} {E : Error → Prop} {names : List String}
  {place : Place}

/-! ## Errors that are dealt with -/

/-- The error with its place, as it is recorded. -/
def placed (line : Option Nat) (e : Error) (s : RenderState) : Error :=
  (e.atLine line).inTemplate s.frame.template

/-- An error that is propagated is raised again. -/
theorem rescue_of_propagates {e : Error} (h : settings.propagates e = true) (line : Option Nat)
    (blank : Bool) (s : RenderState) : rescue settings line blank e s = (.error e, s) := by
  have heq : rescue settings line blank e = Attempt.fail e := if_pos h
  rw [heq]
  rfl

/-- An error that does not propagate is recorded, and shown unless it must not be. -/
theorem rescue_of_not_propagates {e : Error} (h : settings.propagates e = false)
    (line : Option Nat) (blank : Bool) (s : RenderState) :
    rescue settings line blank e s
      = (if (placed line e s).isUndefined || blank then pure ()
          else emit (settings.showError (placed line e s))) (record (placed line e s) s).2 := by
  have hne : ¬settings.propagates e = true := by
    rw [h]
    exact Bool.false_ne_true
  -- The error is recorded, and then its text is written or left out.
  have heq : rescue settings line blank e = fun s =>
      (do record (placed line e s)
          if (placed line e s).isUndefined || blank then pure ()
          else emit (settings.showError (placed line e s))) s := if_neg hne
  rw [heq]
  rfl

/-- Without an error there is nothing to deal with. -/
theorem rescuing_of_ok {x : Render Unit} {s t : RenderState} {a : Unit} (h : x s = (.ok a, t))
    (line : Option Nat) (blank : Bool) : rescuing settings line blank x s = (.ok (), t) := by
  unfold rescuing
  rw [h]

/-- With one, it is dealt with in the state that it left. -/
theorem rescuing_of_error {x : Render Unit} {s t : RenderState} {e : Error}
    (h : x s = (.error e, t)) (line : Option Nat) (blank : Bool) :
    rescuing settings line blank x s = rescue settings line blank e t := by
  unfold rescuing
  rw [h]

/-- The run that ended with the error goes on to its end. -/
theorem traces_rescue {e : Error} (line : Option Nat) (blank : Bool) {s t : RenderState}
    {m : List Moment} (h : Run settings V E names .plain s m (some e) t) :
    Run settings V E names .plain s (m ++ Trace.rescue settings line blank e t)
      (failure (rescue settings line blank e t).1) (rescue settings line blank e t).2 := by
  unfold Trace.rescue
  cases hp : settings.propagates e with
  | true =>
    rw [rescue_of_propagates hp]
    simp only [Bool.true_or, if_true, List.append_nil]
    exact h
  | false =>
    -- The place that is noted changes nothing of the kind of the error.
    have hkind : (placed line e t).kind = e.kind := by
      unfold placed
      rw [Error.kind_inTemplate, Error.kind_atLine]
    rw [rescue_of_not_propagates hp]
    refine .recover h hp hkind ?_
    unfold placed
    simp only [Bool.false_or]
    split
    · exact .done
    · exact .write _

/-- What is rescued traces what it does, and the rescue. -/
theorem traces_rescuing (line : Option Nat) (blank : Bool) {x : Render Unit} {τ : Trace}
    (hx : Traces settings V E names .plain x τ) :
    Traces settings V E names .plain (rescuing settings line blank x)
      (Trace.rescuing settings line blank x τ) := by
  intro s hs
  have hrun := hx s hs
  unfold rescuing Trace.rescuing
  -- Without an error nothing is added to the trace.
  cases h : x s with
  | mk r t =>
    rw [h] at hrun
    cases r with
    | ok a =>
      dsimp only
      rw [List.append_nil]
      exact hrun
    | error e => exact traces_rescue line blank hrun

/-- Writing leaves the frame as it is. -/
theorem frame_write (settings : Settings) (p : Pipeline) (s : RenderState) :
    (Render.write settings p s).2.frame = s.frame := by
  unfold Render.write evaluatePipeline
  cases p.evaluate settings.registry.filters (settings.view s) <;> rfl

/-- So does dealing with an error. -/
theorem frame_rescue (settings : Settings) (line : Option Nat) (blank : Bool) (e : Error)
    (s : RenderState) : (rescue settings line blank e s).2.frame = s.frame := by
  cases hp : settings.propagates e with
  | true => rw [rescue_of_propagates hp]
  | false =>
    rw [rescue_of_not_propagates hp]
    split <;> rfl

/-- An output changes nothing of the frame, and neither does dealing with its error. -/
private theorem frame_rescuing_write (settings : Settings) (line : Option Nat) (blank : Bool)
    (p : Pipeline) (s : RenderState) :
    (rescuing settings line blank (Render.write settings p) s).2.frame = s.frame := by
  have hf := frame_write settings p s
  unfold rescuing
  cases h : Render.write settings p s with
  | mk r t =>
    rw [h] at hf
    cases r with
    | ok a => exact hf
    | error e => exact (frame_rescue settings line blank e t).trans hf

/-! ## Nodes -/

/-- All of the tags are standard and store only variables that may be stored. -/
def Fits (names : List String) (tags : List Tag) : Prop :=
  ∀ tag ∈ tags, tag.isStandard = true ∧ ∀ name, tag.target? = some name → name ∈ names

/-- The tags on the left fit. -/
theorem Fits.left {tags tags' : List Tag} (h : Fits names (tags ++ tags')) : Fits names tags :=
  fun tag ht => h tag (List.mem_append_left _ ht)

theorem Fits.right {tags tags' : List Tag} (h : Fits names (tags ++ tags')) : Fits names tags' :=
  fun tag ht => h tag (List.mem_append_right _ ht)

/-- A body of standard tags fits the variables that it stores. -/
theorem Body.fits {body : Body} (h : body.isStandard = true)
    (hn : ∀ name ∈ body.targets, name ∈ names) : Fits names body.tags := fun tag ht =>
  ⟨List.all_eq_true.mp h tag ht, fun name hname =>
    hn name (List.mem_filterMap.mpr ⟨tag, ht, hname⟩)⟩

section

variable {partials : PartialRenderer} {inner : Trace.OfPartials}

/-- After a node the next one is rendered only if no interrupt is pending or none is new. -/
private theorem goesOn_of_more {node : Node} {s t : RenderState} (m : List Moment)
    (h : Node.render settings partials node s = (.ok true, t)) : GoesOn .plain s t m := by
  have ht : t = (Node.render settings partials node s).2 := by rw [h]
  -- Only tags can raise an interrupt, and they are asked for it.
  cases node with
  | text text =>
    have hf : t.frame = s.frame := by
      rw [ht, Node.render, Attempt.bind_apply]
      cases hr : emit text s with
      | mk r u => cases r <;> exact congrArg (·.2.frame) hr.symm
    exact .of_eq (by rw [hf])
  | output p =>
    have hf : t.frame = s.frame := by
      have hw := frame_rescuing_write settings p.line false p s
      rw [ht, Node.render, Attempt.bind_apply]
      cases hr : rescuing settings p.line false (Render.write settings p) s with
      | mk r u =>
        rw [hr] at hw
        cases r <;> exact hw
    exact .of_eq (by rw [hf])
  | tag tag =>
    rw [Node.render, Attempt.bind_apply] at h
    cases hr : rescuing settings tag.line tag.isBlank (Tag.render settings partials tag) s with
    | mk r u =>
      rw [hr] at h
      cases r with
      | error e => cases (Prod.mk.inj h).1
      | ok a =>
        obtain ⟨hmore, rfl⟩ := Prod.mk.inj h
        have hmore : (!!u.frame.interrupts.isEmpty) = true := Except.ok.inj hmore
        rw [Bool.not_not, List.isEmpty_iff] at hmore
        exact .of_eq_nil hmore

/-- The arms that are left of a choice do nothing, or the first thing is that one is taken up. -/
private theorem idle_or_takenUp (arms : List Arm) (matched : Bool) (s : RenderState) :
    Idle (Arm.renderAll settings partials matched arms)
        (Arm.traceAll settings partials inner matched arms) s
      ∨ (Arm.traceAll settings partials inner matched arms s).head? = some ⟨.arm, s⟩ := by
  induction arms generalizing matched with
  | nil => exact .inl ⟨rfl, rfl, rfl⟩
  | cons arm arms ih =>
    cases arm with
    | when condition body =>
      unfold Idle
      rw [Arm.renderAll, Arm.traceAll, Attempt.bind_apply]
      unfold evaluateCondition
      dsimp only
      cases condition.evaluate (settings.view s) with
      -- A condition that cannot be told is taken up as well, for its error.
      | error e => exact .inr rfl
      | ok holds =>
        cases holds with
        | true => exact .inr rfl
        | false => exact ih matched
    | otherwise body =>
      unfold Idle
      rw [Arm.renderAll, Arm.traceAll]
      cases matched with
      | true => exact ih true
      | false => exact .inr rfl

/-- A condition is evaluated without an event. -/
private theorem silent_evaluateCondition (hc : Closed settings V E) (c : Condition) :
    Silent settings V E names place (evaluateCondition settings c) fun _ => True :=
  .read (fun _ => rfl) fun _ hs => hc.condition c hs.frame

/-- An arm that is taken up, and the arms behind it. -/
private theorem traces_arm (hc : Closed settings V E) {body : Body} {matched : Bool}
    {arms : List Arm}
    (hbody : Traces settings V E names .plain (body.render settings partials)
      (Body.trace settings partials inner false body))
    (harms : Traces settings V E names .plain (Arm.renderAll settings partials matched arms)
      (Arm.traceAll settings partials inner matched arms)) :
    Traces settings V E names .plain
      (do body.render settings partials; Arm.renderAll settings partials matched arms)
      fun s => ⟨.arm, s⟩ ::
        Trace.bind (Body.trace settings partials inner false body) (body.render settings partials)
          (fun _ => Arm.traceAll settings partials inner matched arms) s := by
  intro s hs
  refine .seq (.takeUp .arm plain_ne_turns rfl) ?_ (.of_eq rfl)
  refine Traces.bind hc hbody (fun _ => harms) (fun s t _ _ => ?_) s hs
  -- The arms behind take up what the body has left, or there is nothing more to do.
  rcases idle_or_takenUp arms matched t with hidle | htaken
  · exact .inr hidle
  · exact .inl (.of_isTakenUp rfl htaken)

mutual

/-- A body of standard tags is rendered through its moments. -/
theorem Body.traces_render (hc : Closed settings V E)
    (hcalls : CallsTrace settings V E partials inner) (turn : Bool) :
    ∀ {body : Body}, Fits names body.tags →
    Traces settings V E names .plain (body.render settings partials)
      (Body.trace settings partials inner turn body)
  | .mk nodes _, h => by
    have hnodes := Node.traces_renderAll hc hcalls h
    rw [Body.render, Body.trace]
    intro s hs
    have hrun : Run settings V E names .plain s [⟨.body nodes.length turn, s⟩] _ _ :=
      .body nodes.length turn
    have hf : (charge (·.chargeScore nodes.length) s).2.frame = s.frame := rfl
    rw [Attempt.bind_apply]
    unfold Trace.after
    dsimp only
    cases hcharge : charge (·.chargeScore nodes.length) s with
    | mk r t =>
      rw [hcharge] at hrun hf
      cases r with
      -- The nodes are charged together, before the first of them.
      | error e => exact hrun
      | ok a =>
        have ht : t.Admits V := hrun.admits hc.tags hc.str hs
        exact .seq hrun (hnodes t ht) (.of_eq (by rw [hf]))

/-- Nodes are rendered through their moments. -/
theorem Node.traces_renderAll (hc : Closed settings V E)
    (hcalls : CallsTrace settings V E partials inner) :
    ∀ {nodes : List Node}, Fits names (Node.tagsAll nodes) →
    Traces settings V E names .plain (Node.renderAll settings partials nodes)
      (Node.traceAll settings partials inner nodes)
  | [], _ => fun _ _ => .done
  | node :: nodes, h => by
    rw [Node.renderAll_cons, Node.traceAll]
    refine .bind hc (Node.traces_render hc hcalls h.left) (fun more => ?_) fun s t more hr => ?_
    · cases more with
      | true => exact Node.traces_renderAll hc hcalls h.right
      | false => exact fun _ _ => .done
    · -- The nodes behind an interrupt are passed over.
      cases more with
      | true => exact .inl (goesOn_of_more _ hr)
      | false => exact .inr ⟨rfl, rfl, rfl⟩

/-- A node is rendered through its moments. -/
theorem Node.traces_render (hc : Closed settings V E)
    (hcalls : CallsTrace settings V E partials inner) :
    ∀ {node : Node}, Fits names node.tags →
    Traces settings V E names .plain (node.render settings partials)
      (Node.trace settings partials inner node)
  | .text text, _ => (traces_emit text).result fun _ _ => ⟨rfl, rfl⟩
  | .output p, _ =>
    (traces_rescuing p.line false (traces_write hc p)).result fun _ _ => ⟨rfl, rfl⟩
  | .tag tag, h => by
    -- A tag and the tags inside it fit.
    obtain ⟨htag, hinner⟩ := List.forall_mem_cons.mp h
    exact (traces_rescuing tag.line tag.isBlank (Tag.traces_render hc hcalls htag hinner)).result
      fun _ _ => ⟨rfl, rfl⟩

/-- The first branch that is taken is rendered through its moments. -/
theorem Branch.traces_renderFirst (hc : Closed settings V E)
    (hcalls : CallsTrace settings V E partials inner) (negated : Bool) :
    ∀ {branches : List Branch}, Fits names (Branch.tagsAll branches) →
    Traces settings V E names .plain (Branch.renderFirst settings partials negated branches)
      (Branch.traceFirst settings partials inner negated branches)
  | [], _ => fun _ _ => .done
  | .mk condition body :: branches, h => by
    rw [Branch.renderFirst, Branch.traceFirst]
    refine .after hc (silent_evaluateCondition hc condition) fun holds _ => ?_
    -- The first branch that holds, or those behind it.
    split
    · exact Body.traces_render hc hcalls false h.left
    · exact Branch.traces_renderFirst hc hcalls false h.right

/-- The arms of a choice are rendered through their moments. -/
theorem Arm.traces_renderAll (hc : Closed settings V E)
    (hcalls : CallsTrace settings V E partials inner) (matched : Bool) :
    ∀ {arms : List Arm}, Fits names (Arm.tagsAll arms) →
    Traces settings V E names .plain (Arm.renderAll settings partials matched arms)
      (Arm.traceAll settings partials inner matched arms)
  | [], _ => fun _ _ => .done
  | .when condition body :: arms, h => by
    intro s hs
    have hm := hc.condition condition hs.frame
    rw [Arm.renderAll, Arm.traceAll, Attempt.bind_apply]
    unfold evaluateCondition
    dsimp only
    -- The condition fails, which ends the choice, or it says whether the body is rendered.
    cases hcond : condition.evaluate (settings.view s) with
    | error e =>
      rw [hcond] at hm
      exact .seq (.takeUp .arm plain_ne_turns rfl) (.fail hm) (.of_eq rfl)
    | ok holds =>
      cases holds with
      | true =>
        exact traces_arm hc (Body.traces_render hc hcalls false h.left)
          (Arm.traces_renderAll hc hcalls true h.right) s hs
      | false => exact Arm.traces_renderAll hc hcalls matched h.right s hs
  | .otherwise body :: arms, h => by
    rw [Arm.renderAll, Arm.traceAll]
    cases matched with
    | true => exact Arm.traces_renderAll hc hcalls true h.right
    | false =>
      exact traces_arm hc (Body.traces_render hc hcalls false h.left)
        (Arm.traces_renderAll hc hcalls false h.right)

/-- A body, if there is one, is rendered through its moments. -/
theorem Body.traces_renderIfAny (hc : Closed settings V E)
    (hcalls : CallsTrace settings V E partials inner) :
    ∀ {body : Option Body}, Fits names (Body.tagsIfAny body) →
    Traces settings V E names .plain (Body.renderIfAny settings partials body)
      (Body.traceIfAny settings partials inner body)
  | none, _ => fun _ _ => .done
  | some _, h => Body.traces_render hc hcalls false h

/-- A standard tag is rendered through its moments. -/
theorem Tag.traces_render (hc : Closed settings V E)
    (hcalls : CallsTrace settings V E partials inner) :
    ∀ {tag : Tag},
    (tag.isStandard = true ∧ ∀ name, tag.target? = some name → name ∈ names) →
    Fits names tag.inner →
    Traces settings V E names .plain (tag.render settings partials)
      (Tag.trace settings partials inner tag)
  | .conditional _ negated branches _ _, _, h => Branch.traces_renderFirst hc hcalls negated h
  | .choice arms _ _, _, h => Arm.traces_renderAll hc hcalls false h
  | .loop name header body otherwise _ _, _, h => by
    -- The collection is evaluated without an event; then the loop or its `else` is traced.
    refine .after hc (silent_loopSlice hc name header) fun slice hslice => ?_
    split
    · exact Body.traces_renderIfAny hc hcalls h.right
    · exact traces_loop hc name header hslice (Body.traces_render hc hcalls true h.left)
  | .interrupt i _, _, _ => fun _ _ => .interrupt i
  | .assign target source _, htag, _ =>
    .after hc (silent_evaluatePipeline hc source) fun v hv _ _ =>
      .assign (htag.2 target rfl) hv
  | .capture target body _, htag, h =>
    traces_capture (htag.2 target rfl) (Body.traces_render hc hcalls false h)
  | .comment, _, _ => fun _ _ => .done
  | .inlineComment, _, _ => fun _ _ => .done
  | .raw text, _, _ => traces_emit text
  | .echo source, _, _ => traces_write hc source
  | .lines body _, _, h => Body.traces_render hc hcalls false h
  | .includePartial call _, _, _ => traces_includePartial hc hcalls call
  | .renderPartial name call _, _, _ => traces_renderPartial hc hcalls name call
  | .transform .., htag, _ => nomatch htag.1
  | .sections .., htag, _ => nomatch htag.1
  | .counter .., htag, _ => nomatch htag.1

end

end

/-! ## Documents -/

namespace Document

/-- Partials at any depth are rendered through their moments. -/
theorem callsTrace_renderWithin (hc : Closed settings V E) (levels : Nat) :
    CallsTrace settings V E (renderWithin settings levels) (traceWithin settings levels) := by
  -- On the last level no partial can be called any more.
  induction levels with
  | zero =>
    have hdeep : CallsTrace settings V E (fun _ => Attempt.fail .tooDeep)
        fun _ _ => Trace.silent :=
      fun _ _ _ _ _ _ _ => .fail (hc.raised nofun nofun nofun rfl rfl)
    intro document turn names hd hn
    exact Body.traces_render hc hdeep turn (Body.fits hd hn)
  | succ levels ih =>
    intro document turn names hd hn
    exact Body.traces_render hc ih turn (Body.fits hd hn)

/-- Rendering a document of standard tags is a run through its moments. -/
theorem run_render (hc : Closed settings V E) {document : Document}
    (hd : document.isStandard = true) {s : RenderState} (hs : s.Admits V) :
    Run settings V E document.targets .plain s (document.moments settings s)
      (failure (document.render settings s).1) (document.render settings s).2 :=
  callsTrace_renderWithin hc _ document false _ hd (fun _ h => h) s hs

end Document

/-! ## Renders about which nothing is assumed -/

/-- Every value will do, and every error. -/
theorem Grounds.trivial (settings : Settings) :
    Grounds settings (fun _ => True) (fun _ => True) where
  evaluate e s _ := by cases e.evaluate (settings.view s) <;> exact True.intro
  pipeline p s _ := by
    cases p.evaluate settings.registry.filters (settings.view s) <;> exact True.intro
  condition c s _ := by cases c.evaluate (settings.view s) <;> exact True.intro
  readPartial name := by cases settings.readPartial name <;> exact True.intro
  raised _ _ _ _ _ := True.intro
  nil := True.intro
  str _ := True.intro
  loop _ _ _ _ _ _ := True.intro
  liquid _ := True.intro
  slice _ _ _ _ _ := True.intro
  members _ _ _ := True.intro
  items _ _ _ := True.intro

/-- Nothing is asked of values and errors. -/
theorem Closed.trivial (htags : settings.registry.tags = TagKind.standard) :
    Closed settings (fun _ => True) (fun _ => True) :=
  { Grounds.trivial settings with tags := htags }

/-- All values of a map satisfy nothing in particular. -/
theorem Object.All.trivial (m : Object) : Object.All (fun _ => True) m :=
  fun _ _ => True.intro

/-- So do all values of a frame. -/
theorem Frame.Admits.trivial (frame : Frame) : frame.Admits fun _ => True :=
  ⟨fun _ _ => .trivial _, .trivial _, fun _ _ => .trivial _, fun _ _ => True.intro⟩

/-- A state is admitted if the partials that were read are standard. -/
theorem RenderState.Admits.trivial {s : RenderState} (h : s.progress.registers.AreStandard) :
    s.Admits fun _ => True :=
  ⟨.trivial s.frame, h⟩

/-! ## Templates -/

/-- A template that was read with the standard tags. -/
structure Template.IsStandard (t : Template) : Prop where
  tags : t.registry.tags = TagKind.standard
  document : ∃ document, t.document = some document ∧ document.isStandard = true

namespace Template

/-- What a source is read into with the standard tags is such a template. -/
theorem isStandard_parse {t t' : Template} (htags : t.registry.tags = TagKind.standard)
    {source : String} {options : ParseOptions} (h : t.parse source options = (.ok (), t')) :
    t'.IsStandard := by
  let ctx := ParseContext.ofOptions t.registry options
  have hctx : ctx.registry.tags = TagKind.standard := htags
  -- What is read with the tags of the language is standard.
  have hm := Document.parse_ensures hctx source {}
  unfold parse at h
  split at h
  · rename_i document s hread
    rw [hread] at hm
    obtain ⟨-, rfl⟩ := Prod.mk.inj h
    exact ⟨htags, document, rfl, hm⟩
  · exact nomatch (Prod.mk.inj h).1

/-- A template that is read with the tags of the language is standard. -/
theorem isStandard_parse_of_isOk {t : Template} (htags : t.registry.tags = TagKind.standard)
    {source : String} (h : (t.parse source).1.isOk = true) : (t.parse source).2.IsStandard := by
  cases hparse : t.parse source with
  | mk r t' =>
    cases r with
    | ok a => exact isStandard_parse htags hparse
    | error e =>
      rw [hparse] at h
      exact nomatch h

/-- The error that rendering the document ends with. -/
def ending (t : Template) (values : Object) (options : RenderOptions) (rethrow : Bool) :
    Option Error :=
  match t.document with
  | none => none
  | some document =>
    failure (document.render (options.settings t.registry t.parsing rethrow)
      (t.start values options)).1

/-- The state that a render of the template ends in. -/
def final (t : Template) (values : Object) (options : RenderOptions) (rethrow : Bool) :
    RenderState :=
  match t.document with
  | none => t.start values options
  | some document =>
    (document.render (options.settings t.registry t.parsing rethrow) (t.start values options)).2

/-- Rendering a template is a run through its moments. -/
theorem run_moments {t : Template} (ht : t.IsStandard) {values : Object}
    {options : RenderOptions} {rethrow : Bool}
    (hc : Closed (options.settings t.registry t.parsing rethrow) V E)
    (hs : (t.start values options).Admits V) :
    ∃ names, Run (options.settings t.registry t.parsing rethrow) V E names .plain
      (t.start values options) (t.moments values options rethrow)
      (t.ending values options rethrow) (t.final values options rethrow) := by
  obtain ⟨document, hd, hstandard⟩ := ht.document
  unfold moments ending final
  rw [hd]
  exact ⟨document.targets, document.run_render hc hstandard hs⟩

end Template

end Stencil
