import Stencil.Proofs.Renders

/-!
# Renders leave the state balanced

Whatever a part of a document opens it closes again, and whatever it replaces it puts
back, whether it fails or not: scopes, captures, loops, the name of the template, the
frame around an isolated partial. What is left is what was stored in the outermost scope,
and only the variables that the document stores, or a partial that it includes, are.

## Key results

- `Run.balanced`: the invariant of runs
- `balanced_render`: every body and every node of a document of standard tags
-/

namespace Stencil

open Render

/-- The variables that a document which is included at a moment stores. -/
def Moment.included (m : Moment) : List String :=
  match m.event with
  | .includes document => document.targets
  | _ => []

/-- The state is as it was but for the output, what was spent and recorded, and variables of
the outermost scope: of those only `names` and what included documents store. -/
structure Balanced (names : List String) (m : List Moment) (s t : RenderState) : Prop where
  scopes : t.frame.scopes.inner = s.frame.scopes.inner
  outer : ∀ name, name ∉ names → name ∉ m.flatMap Moment.included →
    t.frame.scopes.outer.get? name = s.frame.scopes.outer.get? name
  depth : t.progress.budget.depth = s.progress.budget.depth
  captures : t.progress.budget.captures = s.progress.budget.captures
  environments : t.frame.environments = s.frame.environments
  loops : t.frame.loops = s.frame.loops
  template : t.frame.template = s.frame.template
  disabled : t.frame.disabled = s.frame.disabled

/-! ## The invariant -/

/-- What is balanced in the course of a run: between the opening of a scope and its end names
may be bound in that scope, so only those around it are as they were. -/
structure BalancedAt (place : Place) (names : List String) (m : List Moment)
    (s t : RenderState) : Prop where
  scopes : place = .plain → t.frame.scopes.inner = s.frame.scopes.inner
  around : t.frame.scopes.inner.tail = s.frame.scopes.inner.tail
  inScope : place ≠ .plain → t.frame.scopes.inner ≠ []
  outer : ∀ name, name ∉ names → name ∉ m.flatMap Moment.included →
    t.frame.scopes.outer.get? name = s.frame.scopes.outer.get? name
  depth : t.progress.budget.depth = s.progress.budget.depth
  captures : t.progress.budget.captures = s.progress.budget.captures
  environments : t.frame.environments = s.frame.environments
  loops : t.frame.loops = s.frame.loops
  template : t.frame.template = s.frame.template
  disabled : t.frame.disabled = s.frame.disabled

namespace BalancedAt

variable {place : Place} {names : List String} {m m' : List Moment} {s t u : RenderState}

/-- A step that changes neither the frame nor what is open. -/
theorem of_eq (hs : place ≠ .plain → s.frame.scopes.inner ≠ []) (hf : t.frame = s.frame)
    (hd : t.progress.budget.depth = s.progress.budget.depth)
    (hc : t.progress.budget.captures = s.progress.budget.captures) :
    BalancedAt place names m s t where
  scopes _ := by rw [hf]
  around := by rw [hf]
  inScope hp := by
    rw [hf]
    exact hs hp
  outer _ _ _ := by rw [hf]
  depth := hd
  captures := hc
  environments := by rw [hf]
  loops := by rw [hf]
  template := by rw [hf]
  disabled := by rw [hf]

theorem refl (hs : place ≠ .plain → s.frame.scopes.inner ≠ []) :
    BalancedAt place names m s s :=
  of_eq hs rfl rfl rfl

theorem trans (h : BalancedAt place names m s t) (h' : BalancedAt place names m' t u) :
    BalancedAt place names (m ++ m') s u where
  scopes hp := (h'.scopes hp).trans (h.scopes hp)
  around := h'.around.trans h.around
  inScope := h'.inScope
  -- A variable that no target of either stretch names is left by both.
  outer name hn hm := by
    rw [List.flatMap_append, List.mem_append, not_or] at hm
    exact (h'.outer name hn hm.2).trans (h.outer name hn hm.1)
  depth := h'.depth.trans h.depth
  captures := h'.captures.trans h.captures
  environments := h'.environments.trans h.environments
  loops := h'.loops.trans h.loops
  template := h'.template.trans h.template
  disabled := h'.disabled.trans h.disabled

/-- What stores a variable that may be stored. -/
theorem store {name : String} (hname : name ∈ names) (value : Value) (s : RenderState) :
    BalancedAt .plain names m s (store name value s).2 where
  scopes _ := rfl
  around := rfl
  inScope hp := absurd rfl hp
  -- Another name is found as before.
  outer other hn _ := by
    have hne : other ≠ name := fun he => hn (he ▸ hname)
    show (Assoc.put s.frame.scopes.outer name value).get? other = _
    rw [Assoc.get?_put, if_neg hne]
  depth := rfl
  captures := rfl
  environments := rfl
  loops := rfl
  template := rfl
  disabled := rfl

/-- A name that is bound in a scope of its own. -/
theorem bind (hp : place ≠ .plain) (hs : s.frame.scopes.inner ≠ []) (name : String)
    (value : Value) : BalancedAt place names m s (bindName name value s).2 := by
  have hbound : ∃ scope, (bindName name value s).2.frame.scopes
      = { s.frame.scopes with inner := scope :: s.frame.scopes.inner.tail } := by
    show ∃ scope, s.frame.scopes.bind name value = _
    -- There is an inner scope, so the name is not bound in the outermost one.
    unfold Scopes.bind
    cases hi : s.frame.scopes.inner with
    | nil => exact absurd hi hs
    | cons scope scopes => exact ⟨_, rfl⟩
  obtain ⟨scope, hbound⟩ := hbound
  exact {
    scopes := fun h => absurd h hp
    around := by
      rw [hbound]
      rfl
    inScope := fun _ => by
      rw [hbound]
      exact List.cons_ne_nil _ _
    outer := fun _ _ _ => by rw [hbound]
    depth := rfl
    captures := rfl
    environments := rfl
    loops := rfl
    template := rfl
    disabled := rfl }

/-- Where a balanced step ends may be replaced by a state of the same frame. -/
theorem congr (h : BalancedAt place names m s u) (hf : t.frame = u.frame)
    (hd : t.progress.budget.depth = s.progress.budget.depth)
    (hc : t.progress.budget.captures = s.progress.budget.captures) :
    BalancedAt place names m s t where
  scopes hp := by
    rw [hf]
    exact h.scopes hp
  around := by
    rw [hf]
    exact h.around
  inScope hp := by
    rw [hf]
    exact h.inScope hp
  outer name hn hm := by
    rw [hf]
    exact h.outer name hn hm
  depth := hd
  captures := hc
  environments := by
    rw [hf]
    exact h.environments
  loops := by
    rw [hf]
    exact h.loops
  template := by
    rw [hf]
    exact h.template
  disabled := by
    rw [hf]
    exact h.disabled

/-- A capture that was opened is closed. -/
theorem endCapture (h : BalancedAt .plain names m (s.beginCapture.withOutput "") t) :
    BalancedAt .plain names m s (t.withOutput s.progress.output).endCapture where
  scopes := h.scopes
  around := h.around
  inScope := h.inScope
  outer := h.outer
  depth := h.depth
  -- The capture is counted off again.
  captures := by
    show t.progress.budget.captures - 1 = s.progress.budget.captures
    rw [h.captures]
    rfl
  environments := h.environments
  loops := h.loops
  template := h.template
  disabled := h.disabled

/-- A scope that was opened is closed. -/
theorem pop {s' : RenderState}
    (henter : charge Budget.enterScope s = (.ok (), s'))
    (h : BalancedAt place names m s'.pushScope t) : BalancedAt .plain names m s t.popScope := by
  obtain rfl := eq_of_enterScope henter
  -- The innermost scope is the one that was opened.
  have hscopes : t.popScope.frame.scopes.inner = s.frame.scopes.inner := h.around
  exact {
    scopes := fun _ => hscopes
    around := by rw [hscopes]
    inScope := fun hp => absurd rfl hp
    outer := h.outer
    depth := by
      show t.progress.budget.depth - 1 = s.progress.budget.depth
      rw [h.depth]
      rfl
    captures := h.captures
    environments := h.environments
    loops := h.loops
    template := h.template
    disabled := h.disabled }

/-- Around a scope that is open already, what is balanced does not touch that scope. -/
theorem lift (hs : s.frame.scopes.inner ≠ []) (h : BalancedAt .plain names m s t) :
    BalancedAt place names m s t where
  scopes _ := h.scopes rfl
  around := h.around
  -- No scope was closed, so there still is one.
  inScope _ := by
    rw [h.scopes rfl]
    exact hs
  outer := h.outer
  depth := h.depth
  captures := h.captures
  environments := h.environments
  loops := h.loops
  template := h.template
  disabled := h.disabled

/-- The score of a body is charged. -/
theorem body (hs : place ≠ .plain → s.frame.scopes.inner ≠ []) (nodes : Nat) :
    BalancedAt place names m s (charge (·.chargeScore nodes) s).2 := by
  refine of_eq hs rfl ?_ ?_
  · rw [charge_eq, Budget.chargeScore_eq]
  · rw [charge_eq, Budget.chargeScore_eq]

/-- A variable that may be stored is assigned, or the charge for it is refused. -/
theorem assign {name : String} (hname : name ∈ names) (value : Value) (s : RenderState) :
    BalancedAt .plain names m s (Render.assign name value s).2 := by
  have hd : (Render.assign name value s).2.progress.budget.depth = s.progress.budget.depth := by
    rw [progress_assign, charge_eq, Budget.chargeAssign_eq]
  have hc : (Render.assign name value s).2.progress.budget.captures
      = s.progress.budget.captures := by
    rw [progress_assign, charge_eq, Budget.chargeAssign_eq]
  rcases frame_assign name value s with hf | hf
  · exact of_eq (fun hp => absurd rfl hp) hf hd hc
  · exact (store hname value s).congr hf hd hc

/-- A text is captured and stored. -/
theorem capture {name : String} (hname : name ∈ names)
    (h : BalancedAt .plain names m (s.beginCapture.withOutput "") t) :
    BalancedAt .plain names m s
      (Render.store name (.str t.progress.output)
        (t.withOutput s.progress.output).endCapture).2 := by
  have hstore := store (m := []) hname (.str t.progress.output)
    (t.withOutput s.progress.output).endCapture
  have hall := h.endCapture.trans hstore
  rwa [List.append_nil] at hall

/-- The loop of a turn is left. -/
theorem turn {value : Value} (hs : place ≠ .plain → s.frame.scopes.inner ≠ [])
    (h : BalancedAt .plain names m (s.withLoops (value :: s.frame.loops)) t) :
    BalancedAt place names m s (t.withLoops s.frame.loops) where
  scopes _ := h.scopes rfl
  around := h.around
  -- A turn leaves the scopes as it found them.
  inScope hp := by
    show t.frame.scopes.inner ≠ []
    rw [h.scopes rfl]
    exact hs hp
  outer := h.outer
  depth := h.depth
  captures := h.captures
  environments := h.environments
  loops := rfl
  template := h.template
  disabled := h.disabled

/-- The name of the template is put back. -/
theorem inTemplate {name : String}
    (h : BalancedAt place names m (s.withTemplate (some name)) t) :
    BalancedAt place names m s (t.withTemplate s.frame.template) where
  scopes := h.scopes
  around := h.around
  inScope := h.inScope
  outer := h.outer
  depth := h.depth
  captures := h.captures
  environments := h.environments
  loops := h.loops
  template := rfl
  disabled := h.disabled

/-- The whole frame is put back; only what is counted comes from inside. -/
theorem isolated {template : Option String} {names' : List String}
    (h : BalancedAt .plain names' m (s.withFrame (s.frame.isolated template)) t) :
    BalancedAt .plain names m s (t.withFrame s.frame) where
  scopes _ := rfl
  around := rfl
  inScope hp := absurd rfl hp
  -- The caller's frame is put back whole.
  outer _ _ _ := rfl
  depth := h.depth
  captures := h.captures
  environments := rfl
  loops := rfl
  template := rfl
  disabled := rfl

/-- What a document stores is in the moment at which it is included. -/
theorem includes {document : Document}
    (h : BalancedAt place (document.targets ++ names) m s t) :
    BalancedAt place names (⟨.includes document, s⟩ :: m) s t where
  scopes := h.scopes
  around := h.around
  inScope := h.inScope
  outer name hn hm := by
    rw [List.flatMap_cons, List.mem_append, not_or] at hm
    -- The targets of the partial are those of the moment in front.
    refine h.outer name (fun hmem => ?_) hm.2
    exact (List.mem_append.mp hmem).elim hm.1 hn
  depth := h.depth
  captures := h.captures
  environments := h.environments
  loops := h.loops
  template := h.template
  disabled := h.disabled

end BalancedAt

variable {settings : Settings} {V : Value → Prop} {E : Error → Prop} {names : List String}
  {place : Place} {s t : RenderState} {m : List Moment} {r : Option Error}

/-- Runs are balanced. -/
theorem Run.balancedAt (h : Run settings V E names place s m r t)
    (hs : place ≠ .plain → s.frame.scopes.inner ≠ []) : BalancedAt place names m s t := by
  induction h with
  | done => exact .refl hs
  | fail => exact .refl hs
  | keep hk => exact .of_eq hs hk.frame (by rw [hk.budget]) (by rw [hk.budget])
  | bind name hp _ => exact .bind hp (hs hp) name _
  | seq _ _ _ ih ih' => exact (ih hs).trans (ih' (ih hs).inScope)
  | lift _ ih => exact .lift (hs scoped_ne_plain) (ih fun hp => absurd rfl hp)
  | body nodes turn => exact .body hs nodes
  | write text =>
    exact .of_eq hs rfl (Budget.depth_chargeWrite _ _) (Budget.captures_chargeWrite _ _)
  | assign hname _ => exact .assign hname _ _
  | interrupt =>
    exact ⟨fun _ => rfl, rfl, hs, fun _ _ _ => rfl, rfl, rfl, rfl, rfl, rfl, rfl⟩
  | takeUp => exact .refl hs
  | @recover names s t _ _ _ _ _ e' _ _ _ _ ih ih' =>
    have h := ih hs
    have hrecord : BalancedAt .plain names [] t (record e' t).2 := .of_eq h.inScope rfl rfl rfl
    exact h.trans (hrecord.trans (ih' h.inScope))
  | capture hname _ ih => exact (ih hs).capture hname
  | captureFailed _ ih => exact (ih hs).endCapture
  | scope henter _ ih => exact .pop henter (ih fun _ => List.cons_ne_nil _ _)
  | @loop names s s' t _ henter _ ih =>
    have h := BalancedAt.pop henter (ih fun _ => List.cons_ne_nil _ _)
    have hleft : BalancedAt .plain names [⟨.left, t.popScope⟩] t.popScope t.popScope :=
      .refl h.inScope
    exact h.trans hleft
  | loopFailed henter _ ih => exact .pop henter (ih fun _ => List.cons_ne_nil _ _)
  | turn _ _ ih =>
    -- Interrupts are part of the frame, but nothing that is to be balanced.
    have h := BalancedAt.turn hs (ih fun hp => absurd rfl hp)
    exact ⟨h.scopes, h.around, h.inScope, h.outer, h.depth, h.captures, h.environments, h.loops,
      h.template, h.disabled⟩
  | turnFailed _ _ ih => exact .turn hs (ih fun hp => absurd rfl hp)
  | template name _ ih => exact (ih hs).inTemplate
  | isolated template _ ih => exact (ih fun hp => absurd rfl hp).isolated
  | includes document _ ih => exact (ih hs).includes

theorem Run.balanced (h : Run settings V E names .plain s m r t) : Balanced names m s t :=
  have h := h.balancedAt fun hp => absurd rfl hp
  ⟨h.scopes rfl, h.outer, h.depth, h.captures, h.environments, h.loops, h.template, h.disabled⟩

/-! ## Bodies and nodes -/

/-- The variables that the tags of a node store values in. -/
def Node.targets (node : Node) : List String :=
  node.tags.filterMap Tag.target?

/-- Every body and every node of standard tags leaves the state balanced, however its render
ends and however deep it calls partials: scopes, depth, captures, loops, the template's name,
the disabled tags and the environments are as before, and of the outermost scope only the
variables that it stores, or a partial that it includes, may have changed. -/
theorem balanced_render (htags : settings.registry.tags = TagKind.standard) (levels : Nat)
    (hs : s.progress.registers.AreStandard) :
    (∀ (body : Body) (turn : Bool), body.isStandard = true →
      Balanced body.targets
        (body.trace settings (Document.renderWithin settings levels)
          (Document.traceWithin settings levels) turn s)
        s (body.render settings (Document.renderWithin settings levels) s).2)
    ∧ ∀ node : Node, node.isStandard = true →
      Balanced node.targets
        (node.trace settings (Document.renderWithin settings levels)
          (Document.traceWithin settings levels) s)
        s (node.render settings (Document.renderWithin settings levels) s).2 := by
  have hc := Closed.trivial htags
  have hcalls := Document.callsTrace_renderWithin hc levels
  have hadmits : s.Admits fun _ => True := .trivial hs
  constructor
  · intro body turn hbody
    -- Every target of a tag inside is a target of the body.
    have hfits : Fits body.targets body.tags := Body.fits hbody fun _ h => h
    exact (Body.traces_render hc hcalls turn hfits s hadmits).balanced
  · intro node hnode
    have hfits : Fits node.targets node.tags := fun tag ht =>
      ⟨List.all_eq_true.mp hnode tag ht, fun _ hname => List.mem_filterMap.mpr ⟨tag, ht, hname⟩⟩
    exact (Node.traces_render hc hcalls hfits s hadmits).balanced

/-- A loop that assigns leaves the scopes balanced, with its variable gone. -/
theorem balanced_render_loop :
    let assign : Tag := .assign "x" { source := .variable "i", filters := [] } none
    let header : LoopHeader := { item := "i", collection := .literal (.range 1 2) }
    let body : Body := .mk [.tag (.loop "i" header (.mk [.tag assign] true) none none true)] true
    let settings : Settings := { registry := .standard }
    let partials := Document.renderWithin settings 1
    body.isStandard = true
      ∧ Balanced ["x"]
          (body.trace settings partials (Document.traceWithin settings 1) false {})
          {} (body.render settings partials {}).2 := by
  intro assign header body settings partials
  have hs : ({} : RenderState).progress.registers.AreStandard := fun _ h => nomatch h
  exact ⟨rfl, (balanced_render rfl 1 hs).1 body false rfl⟩

end Stencil
