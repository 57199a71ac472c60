import Stencil.Proofs.Depth

/-!
# Partials that were read

A partial is read once in a render and kept in the registers, which isolated partials share with
their callers. Nothing but loading touches what is kept, and loading adds to it only what reading
gives, which depends on nothing of the state. So whatever was done before, and wherever it is done,
to load a partial gives what reading it would give.

A script says by itself that it touches the kept partials by loading only. The moments of such a
script form a chain in which more and more partials are kept.

## Key definitions

- `Settings.Extends`: more partials are kept, as they are read
- `Settings.Leads`: a chain of them
- `Script.OnlyLoads`: scripts that do nothing else to them

## Key results

- `Script.leads_stations`: the moments of a script
- `Document.leads_stations`: the moments of a render
-/

namespace Stencil

open Render

/-! ## What is kept -/

/-- The partials that were read. -/
abbrev RenderState.cache (s : RenderState) : Assoc Document :=
  s.progress.registers.partials

namespace Settings

variable {settings : Settings} {c c' c'' : Assoc Document}

/-- What was kept stays as it was, and what is kept in addition is as it is read. -/
structure Extends (settings : Settings) (c c' : Assoc Document) : Prop where
  kept {name : String} {document : Document} :
    c.get? name = some document → c'.get? name = some document
  read {name : String} {document : Document} : c'.get? name = some document →
    c.get? name = some document ∨ settings.readPartial name = .ok document

/-- What is kept extends itself. -/
theorem Extends.refl (c : Assoc Document) : settings.Extends c c :=
  ⟨fun h => h, .inl⟩

/-- Extensions of extensions extend. -/
theorem Extends.trans (h : settings.Extends c c') (h' : settings.Extends c' c'') :
    settings.Extends c c'' :=
  ⟨fun hc => h'.kept (h.kept hc), fun hc => (h'.read hc).elim h.read .inr⟩

/-- A partial that was not kept is added as it is read. -/
theorem extends_put {name : String} {document : Document} (hnone : c.get? name = none)
    (hread : settings.readPartial name = .ok document) :
    settings.Extends c (c.put name document) := by
  constructor
  · intro name' document' hc
    rw [Assoc.get?_put]
    split
    · -- The name was not there, so nothing that was read is replaced.
      rename_i heq
      rw [heq, hnone] at hc
      exact nomatch hc
    · exact hc
  · intro name' document' hc
    rw [Assoc.get?_put] at hc
    split at hc
    · rename_i heq
      obtain rfl := Option.some.inj hc
      exact .inr (heq ▸ hread)
    · exact .inl hc

/-- Loading keeps what it reads, or leaves what is kept as it is. -/
theorem extends_loadPartial (settings : Settings) (name : String) (s : RenderState) :
    settings.Extends s.cache (loadPartial settings name s).2.cache := by
  unfold loadPartial
  cases hkept : s.cache.get? name with
  | some document => exact .refl _
  | none =>
    cases hread : settings.readPartial name with
    | error e => exact .refl _
    | ok document => exact extends_put hkept hread

/-- Where all that is kept was added as it is read, a partial that is loaded is what reading it
gives, and is kept. One that cannot be read leaves no trace. -/
theorem loadPartial_of_extends_nil {s : RenderState} (h : settings.Extends [] s.cache)
    (name : String) :
    match settings.readPartial name with
    | .ok document => ∃ t, loadPartial settings name s = (.ok document, t)
      ∧ t.cache.get? name = some document
    | .error e => loadPartial settings name s = (.error e, s) := by
  cases hkept : s.cache.get? name with
  | some document =>
    -- What is kept was read, as the cache was empty at first.
    rw [(h.read hkept).resolve_left nofun]
    exact ⟨s, loadPartial_of_read hkept, hkept⟩
  | none =>
    unfold loadPartial
    rw [show s.progress.registers.partials.get? name = none from hkept]
    cases hread : settings.readPartial name with
    | error e => rfl
    | ok document => exact ⟨_, rfl, by rw [Assoc.get?_put, if_pos rfl]⟩

/-! ## Chains -/

/-- From `c` to `c'` more and more is kept, and `l` are the moments on the way. -/
structure Leads (settings : Settings) (c : Assoc Document) (l : List Station)
    (c' : Assoc Document) : Prop where
  whole : settings.Extends c c'
  first : ∀ p ∈ l, settings.Extends c p.state.cache
  last : ∀ p ∈ l, settings.Extends p.state.cache c'
  chain : l.Pairwise fun p q => settings.Extends p.state.cache q.state.cache

namespace Leads

variable {l l' : List Station} {p q : Station}

/-- A chain without moments is an extension. -/
theorem nil (h : settings.Extends c c') : settings.Leads c [] c' :=
  ⟨h, List.forall_mem_nil _, List.forall_mem_nil _, .nil⟩

/-- A moment at which nothing changes. -/
theorem single (h : p.state.cache = c) : settings.Leads c [p] c := by
  subst h
  exact ⟨.refl _, List.forall_mem_singleton.mpr (.refl _),
    List.forall_mem_singleton.mpr (.refl _), List.pairwise_singleton _ _⟩

/-- One stretch after another. -/
theorem append (h : settings.Leads c l c') (h' : settings.Leads c' l' c'') :
    settings.Leads c (l ++ l') c'' where
  whole := h.whole.trans h'.whole
  first := List.forall_mem_append.mpr ⟨h.first, fun p hp => h.whole.trans (h'.first p hp)⟩
  last := List.forall_mem_append.mpr ⟨fun p hp => (h.last p hp).trans h'.whole, h'.last⟩
  chain := List.pairwise_append.mpr
    ⟨h.chain, h'.chain, fun p hp q hq => (h.last p hp).trans (h'.first q hq)⟩

/-- A stretch with its start and its end. -/
theorem inside (h : settings.Leads c l c') (hp : p.state.cache = c) (hq : q.state.cache = c') :
    settings.Leads c (p :: l ++ [q]) c' :=
  ((single hp).append h).append (single hq)

end Leads

end Settings

/-! ## Scripts that only load -/

namespace Script

variable {settings : Settings} {b : Bool} {α β : Type}

/-- The steps aside of the script do nothing to the partials that were read but add further ones, as
they are read. -/
def OnlyLoads (settings : Settings) : {b : Bool} → {α : Type} → Script b α → Prop
  | _, _, .aside x _ => ∀ s, settings.Extends s.cache (x s).2.cache
  | _, _, .bind x f => x.OnlyLoads settings ∧ ∀ a, (f a).OnlyLoads settings
  | _, _, .diverted x => x.OnlyLoads settings
  | _, _, .capture _ x => x.OnlyLoads settings
  | _, _, .inScope x => x.OnlyLoads settings
  | _, _, .inTemplate _ x => x.OnlyLoads settings
  | _, _, .isolated _ x => x.OnlyLoads settings
  | _, _, .inLoop _ x => x.OnlyLoads settings
  | _, _, .rescuing _ _ x => x.OnlyLoads settings
  | _, _, _ => True

/-- An assignment keeps no partials. -/
theorem cache_assign (name : String) (value : Value) (s : RenderState) :
    (Render.assign name value s).2.cache = s.cache := by
  have hcharge : (charge (·.chargeAssign value.storageCost) s).2.cache = s.cache := rfl
  rw [assign_eq]
  cases hc : charge (·.chargeAssign value.storageCost) s with
  | mk r t =>
    rw [hc] at hcharge
    cases r <;> exact hcharge

/-- Storing what was captured keeps no partials. -/
private theorem cache_capture (name : String) (x : Render Unit) (s : RenderState) :
    ((captured x >>= fun text => store name (.str text)) s).2.cache = (captured x s).2.cache := by
  cases h : captured x s with
  | mk r t =>
    cases r with
    | ok text => rw [Attempt.bind_of_ok h]; rfl
    | error e => rw [Attempt.bind_of_error h]

/-- Dealing with an error keeps no partials. -/
theorem cache_rescue (line : Option Nat) (blank : Bool) (e : Error) (s : RenderState) :
    (rescue settings line blank e s).2.cache = s.cache := by
  cases hp : settings.propagates e with
  | true => rw [rescue_of_propagates hp]
  | false =>
    rw [rescue_of_not_propagates hp]
    split <;> rfl

/-- So what is kept is what was kept before the error. -/
private theorem cache_rescuing (line : Option Nat) (blank : Bool) (x : Render Unit)
    (s : RenderState) : (Render.rescuing settings line blank x s).2.cache = (x s).2.cache := by
  cases h : x s with
  | mk r t =>
    cases r with
    | ok a => rw [rescuing_of_ok h]
    | error e => rw [rescuing_of_error h, cache_rescue]

/-- The moments of a script that only loads. -/
theorem leads_stations {x : Script b α} (hx : x.OnlyLoads settings) (around : List Frame)
    (s : RenderState) :
    settings.Leads s.cache (x.stations settings around s) (x.run settings s).2.cache := by
  -- What goes on inside a frame starts and ends with the registers of its surroundings, so it is a
  -- stretch of the same chain.
  induction x generalizing around s with
  | bind x f ih ihf =>
    have hbefore := ih hx.1 around s
    rw [stations, run]
    cases hr : x.run settings s with
    | mk r t =>
      rw [hr] at hbefore
      cases r with
      | error e =>
        rw [Attempt.bind_of_error hr]
        exact hbefore.append (.nil (.refl _))
      | ok a =>
        rw [Attempt.bind_of_ok hr]
        exact hbefore.append (ihf a (hx.2 a) around t)
  | assign name value =>
    have hend := cache_assign name value s
    rw [stations, run, hend]
    -- Between the charge and the storing there is one more moment.
    have hcharged : settings.Leads s.cache
        [⟨around, (charge (·.chargeAssign value.storageCost) s).2⟩] s.cache := .single rfl
    exact hcharged.inside rfl hend
  | capture name x ih =>
    have hcaptured : (captured (x.run settings) s).2.cache
        = (x.run settings (s.beginCapture.withOutput "")).2.cache := rfl
    have hend := (cache_capture name (x.run settings) s).trans hcaptured
    rw [stations, run, List.append_cons, hend]
    exact ((ih hx around (s.beginCapture.withOutput "")).inside rfl rfl).append (.single hend)
  | inScope x ih =>
    rw [stations, run, inScope_eq]
    split
    · -- A scope that is refused has one moment only.
      exact .single rfl
    · exact (ih hx around s.entered).inside rfl rfl
  | diverted x ih => exact (ih hx around (s.withOutput "")).inside rfl rfl
  | inTemplate name x ih => exact (ih hx around (s.withTemplate (some name))).inside rfl rfl
  | isolated template x ih =>
    exact (ih hx (s.frame :: around) (s.withFrame (s.frame.isolated template))).inside rfl rfl
  | inLoop loop x ih => exact (ih hx around (s.withLoops (loop :: s.frame.loops))).inside rfl rfl
  | rescuing line blank x ih =>
    have hend : (Render.rescuing settings line blank (x.run settings) s).2.cache
        = (x.run settings s).2.cache := cache_rescuing line blank (x.run settings) s
    rw [stations, run, hend]
    exact (ih hx around s).append (.single hend)
  | aside x h => exact .inside (.nil (hx s)) rfl rfl
  | evaluate e => exact .inside (.nil (.refl _)) rfl rfl
  | pipeline p => exact .inside (.nil (.refl _)) rfl rfl
  | condition c => exact .inside (.nil (.refl _)) rfl rfl
  | score nodes => exact .inside (.nil (.refl _)) rfl rfl
  | emit text => exact .inside (.nil (.refl _)) rfl rfl
  | bindAll entries => exact .inside (.nil (.refl _)) rfl rfl

/-- The partials that are called only load. -/
abbrev CallsLoad (settings : Settings) (partials : OfPartials) : Prop :=
  ∀ document, (partials document).OnlyLoads settings

/-! ## The steps of renders -/

namespace OnlyLoads

/-- A script that only gives a value loads nothing. -/
theorem pure (a : α) : (Pure.pure a : Script b α).OnlyLoads settings :=
  fun s => .refl s.cache

/-- One script after the other. -/
theorem bind {x : Script b α} {f : α → Script b β} (hx : x.OnlyLoads settings)
    (hf : ∀ a, (f a).OnlyLoads settings) : (x >>= f).OnlyLoads settings :=
  ⟨hx, hf⟩

/-- A step aside that does not touch the partials that were read. -/
theorem still {x : Render α} {h : Aside x} (hx : ∀ s, (x s).2.cache = s.cache) :
    (aside x h : Script b α).OnlyLoads settings := by
  intro s
  rw [hx s]
  exact .refl s.cache

/-- Evaluation loads nothing. -/
theorem evaluateAll : ∀ entries : List (String × Expression),
    (evaluateAll entries : Script b _).OnlyLoads settings
  | [] => .pure _
  | _ :: entries => .bind trivial fun _ => .bind (evaluateAll entries) fun _ => .pure _

/-- Nor does an output. -/
theorem write (p : Pipeline) : (write p : Script b Unit).OnlyLoads settings :=
  .bind trivial fun _ => trivial

/-! ### Loops -/

/-- Nor do the attributes of loops. -/
theorem loopAttribute (e : Expression) : (loopAttribute e : Script b _).OnlyLoads settings := by
  refine .bind trivial fun v => ?_
  split
  · exact .pure _
  · exact .bind (.still fun _ => rfl) fun _ => .pure _

/-- Nor does where a loop starts; the position is only read. -/
theorem loopStart (name : String) (offset : Option LoopOffset) :
    (loopStart name offset : Script b _).OnlyLoads settings := by
  cases offset with
  | none => exact .pure _
  | some offset =>
    cases offset with
    | «continue» => exact .still fun _ => rfl
    | «at» e => exact .bind (.loopAttribute e) fun _ => .pure _

/-- Nor does where it stops. -/
theorem loopStop (start : Nat) (limit : Option Expression) :
    (loopStop start limit : Script b _).OnlyLoads settings := by
  cases limit with
  | none => exact .pure _
  | some e => exact .bind (.loopAttribute e) fun _ => .pure _

/-- What a loop runs over is worked out without partials. -/
theorem loopSlice (name : String) (header : LoopHeader) :
    (loopSlice name header : Script b _).OnlyLoads settings :=
  .bind trivial fun _ => .bind (.loopStart name header.offset) fun start =>
    .bind (.loopStop start header.limit) fun _ => .bind (.still fun _ => rfl) fun _ => .pure _

/-- Numbered scripts, by induction on how many remain. -/
theorem steps {step : Nat → Script b Bool} (hstep : ∀ index, (step index).OnlyLoads settings)
    (length remaining : Nat) : (steps step length remaining).OnlyLoads settings := by
  induction remaining with
  | zero => exact .pure _
  | succ remaining ih =>
    refine .bind (hstep _) fun more => ?_
    cases more with
    | true => exact ih
    | false => exact .pure _

/-- The turns of a loop load what its body loads. -/
theorem loop (name : String) (header : LoopHeader) (slice : Slice) {body : Script true Unit}
    (hbody : body.OnlyLoads settings) :
    (loop name header slice body : Script b Unit).OnlyLoads settings := by
  have hturn (parent : Value) (index : Nat) :
      (beginTurn name header slice parent index).OnlyLoads settings :=
    .bind (.still fun _ => rfl) fun _ => .bind trivial fun _ => .bind trivial fun _ => .pure _
  have hiteration (parent : Value) (index : Nat) :
      (iteration name header slice parent body index).OnlyLoads settings :=
    .bind (hturn parent index) fun _ =>
      .bind hbody fun _ => .bind (.still fun _ => rfl) fun _ => .pure _
  exact .bind (.still fun _ => rfl) fun parent => steps (hiteration parent) ..

/-! ### Partials -/

variable {partials : OfPartials} (hcalls : CallsLoad settings partials)

/-- The name of a partial is worked out without loading it. -/
theorem partialName (template : Expression) :
    (partialName settings template : Script b _).OnlyLoads settings := by
  refine .bind trivial fun v => ?_
  split
  · exact .pure _
  · exact .still fun _ => rfl

/-- So is what an include passes. -/
theorem includedObject (call : PartialCall) (name : String) :
    (includedObject settings call name : Script b _).OnlyLoads settings := by
  unfold Script.includedObject
  cases call.object with
  | some e => exact .bind trivial fun _ => .pure _
  | none => exact .still fun _ => rfl

/-- A partial is rendered for each item, by induction on the items. -/
theorem eachItem (target : String) {render : Script true Unit}
    (hrender : render.OnlyLoads settings) : ∀ items : List Value,
    (eachItem target render items).OnlyLoads settings
  | [] => .pure _
  | _ :: items => .bind trivial fun _ => .bind hrender fun _ => eachItem target hrender items

/-- Attributes load nothing. -/
theorem bindAttributes : ∀ attributes : List (String × Expression),
    (bindAttributes attributes).OnlyLoads settings
  | [] => .pure _
  | _ :: attributes => .bind trivial fun _ => .bind trivial fun _ => bindAttributes attributes

/-- Loading a partial keeps it. -/
theorem loadPartial (name : String) :
    (aside (loadPartial settings name) (.loadPartial ..) : Script b _).OnlyLoads settings :=
  settings.extends_loadPartial name

/-- Whether a tag is disabled is only looked at. -/
theorem checkEnabled (tag : String) :
    (aside (checkEnabled settings tag) (.checkEnabled ..) : Script b _).OnlyLoads settings := by
  refine .still fun s => ?_
  unfold Render.checkEnabled
  split <;> rfl

/-- What is passed to a partial is worked out without loading it. -/
theorem passedObject (target : String) (call : PartialCall) :
    (passedObject target call : Script b _).OnlyLoads settings := by
  unfold Script.passedObject
  cases call.object with
  | none => exact .pure _
  | some e =>
    refine .bind trivial fun v => ?_
    dsimp only
    split
    · split <;> exact .pure _
    · exact .pure _

include hcalls

/-- An include loads its partial and what that loads. -/
theorem includePartial (call : PartialCall) :
    (includePartial settings partials call : Script b _).OnlyLoads settings := by
  refine .bind (.checkEnabled "include") fun _ => .bind (.partialName call.template) fun name => ?_
  refine .bind (.loadPartial name) fun document => ?_
  refine .bind (.includedObject call name) fun object => ?_
  exact .bind (.bindAttributes call.attributes) fun _ =>
    .eachItem (call.objectName name) (hcalls document) (includedItems object)

/-- So does a partial that is rendered once. -/
theorem renderOnce (name : String) (attributes : List (String × Value))
    {bindings : Script b (List (String × Value))} (hbindings : bindings.OnlyLoads settings) :
    (renderOnce settings partials name attributes bindings).OnlyLoads settings := by
  refine .bind (.loadPartial name) fun document => .bind hbindings fun bindings => ?_
  exact .bind trivial fun _ => hcalls document

/-- And one that is rendered for each member of a collection. -/
theorem renderPartial (name : String) (call : PartialCall) :
    (renderPartial settings partials name call : Script b _).OnlyLoads settings := by
  refine .bind (.evaluateAll call.attributes) fun attributes =>
    .bind (.passedObject (call.objectName name) call) fun passed => ?_
  cases passed with
  | once bindings => exact .renderOnce hcalls name attributes (.pure _)
  | each members =>
    refine .steps (fun index => ?_) ..
    refine .bind (.renderOnce hcalls name attributes ?_) fun _ => .pure _
    exact .bind (.still fun _ => rfl) fun _ => .pure _

omit hcalls

/-- A counter loads nothing. -/
theorem count (register : String) : (count register : Script b Unit).OnlyLoads settings :=
  .bind (.still fun _ => rfl) fun _ => .bind (.still fun _ => rfl) fun _ => trivial

end OnlyLoads

end Script

/-! ## Nodes -/

section

open Script

variable {settings : Settings} {partials : OfPartials}

mutual

/-- The script of a body only loads. -/
theorem Body.onlyLoads_script (hcalls : CallsLoad settings partials) {b : Bool} :
    ∀ body : Body,
    (Body.script settings partials body : Script b Unit).OnlyLoads settings
  | .mk nodes _ => .bind trivial fun _ => Node.onlyLoads_scriptAll hcalls nodes

/-- The script of a list of nodes only loads. -/
theorem Node.onlyLoads_scriptAll (hcalls : CallsLoad settings partials) {b : Bool} :
    ∀ nodes : List Node,
    (Node.scriptAll settings partials nodes : Script b Unit).OnlyLoads settings
  | [] => .pure _
  | node :: nodes => by
    refine .bind (Node.onlyLoads_script hcalls node) fun more => ?_
    cases more with
    | true => exact Node.onlyLoads_scriptAll hcalls nodes
    | false => exact .pure _

/-- The script of a node only loads. -/
theorem Node.onlyLoads_script (hcalls : CallsLoad settings partials) {b : Bool} :
    ∀ node : Node,
    (Node.script settings partials node : Script b Bool).OnlyLoads settings
  | .text _ => .bind trivial fun _ => .pure _
  | .output p => .bind (.write p) fun _ => .pure _
  | .tag tag => .bind (Tag.onlyLoads_script hcalls tag) fun _ =>
    .bind (.still fun _ => rfl) fun _ => .pure _

/-- The script of branches only loads. -/
theorem Branch.onlyLoads_scriptFirst (hcalls : CallsLoad settings partials) {b : Bool}
    (negated : Bool) : ∀ branches : List Branch,
    (Branch.scriptFirst settings partials negated branches : Script b Unit).OnlyLoads settings
  | [] => .pure _
  | .mk _ body :: branches => by
    refine .bind trivial fun holds => ?_
    split
    · exact Body.onlyLoads_script hcalls body
    · exact Branch.onlyLoads_scriptFirst hcalls false branches

/-- The script of arms only loads. -/
theorem Arm.onlyLoads_scriptAll (hcalls : CallsLoad settings partials) {b : Bool}
    (matched : Bool) : ∀ arms : List Arm,
    (Arm.scriptAll settings partials matched arms : Script b Unit).OnlyLoads settings
  | [] => .pure _
  | .when _ body :: arms => by
    refine .bind trivial fun holds => ?_
    cases holds with
    | true =>
      exact .bind (Body.onlyLoads_script hcalls body) fun _ =>
        Arm.onlyLoads_scriptAll hcalls true arms
    | false => exact Arm.onlyLoads_scriptAll hcalls matched arms
  | .otherwise body :: arms => by
    cases matched with
    | true => exact Arm.onlyLoads_scriptAll hcalls true arms
    | false =>
      exact .bind (Body.onlyLoads_script hcalls body) fun _ =>
        Arm.onlyLoads_scriptAll hcalls false arms

/-- The script of sections only loads. -/
theorem Body.onlyLoads_scriptSections (hcalls : CallsLoad settings partials) {b : Bool}
    (index : Nat) : ∀ bodies : List Body,
    (Body.scriptSections settings partials index bodies : Script b Unit).OnlyLoads settings
  | [] => .pure _
  | body :: bodies => .bind trivial fun _ => .bind (Body.onlyLoads_script hcalls body) fun _ =>
    Body.onlyLoads_scriptSections hcalls (index + 1) bodies

/-- The script of a body that may be missing only loads. -/
theorem Body.onlyLoads_scriptIfAny (hcalls : CallsLoad settings partials) {b : Bool} :
    ∀ body : Option Body,
    (Body.scriptIfAny settings partials body : Script b Unit).OnlyLoads settings
  | none => .pure _
  | some body => Body.onlyLoads_script hcalls body

/-- The script of a tag only loads, kind by kind. -/
theorem Tag.onlyLoads_script (hcalls : CallsLoad settings partials) {b : Bool} :
    ∀ tag : Tag,
    (Tag.script settings partials tag : Script b Unit).OnlyLoads settings
  | .conditional _ negated branches _ _ => Branch.onlyLoads_scriptFirst hcalls negated branches
  | .choice arms _ _ => Arm.onlyLoads_scriptAll hcalls false arms
  | .loop name header body otherwise _ _ => by
    refine .bind (.loopSlice name header) fun slice => ?_
    split
    · exact Body.onlyLoads_scriptIfAny hcalls otherwise
    · exact .loop name header slice (Body.onlyLoads_script hcalls body)
  | .interrupt _ _ => .still fun _ => rfl
  | .assign .. => .bind trivial fun _ => trivial
  | .capture _ body _ => Body.onlyLoads_script hcalls body
  | .comment | .inlineComment => .pure _
  | .raw _ => trivial
  | .echo source => .write source
  | .lines body _ => Body.onlyLoads_script hcalls body
  | .includePartial call _ => .includePartial hcalls call
  | .renderPartial name call _ => .renderPartial hcalls name call
  | .transform _ _ body => .bind (Body.onlyLoads_script hcalls body) fun _ => trivial
  | .sections _ bodies _ => Body.onlyLoads_scriptSections hcalls 0 bodies
  | .counter _ register => .count register

end

end

namespace Document

variable {settings : Settings}

/-- By induction on the levels that are left for partials. -/
theorem onlyLoads_scriptWithin (levels : Nat) {b : Bool} (document : Document) :
    (scriptWithin settings levels document : Script b Unit).OnlyLoads settings := by
  induction levels generalizing b document with
  | zero => exact Body.onlyLoads_script (fun _ => .still fun _ => rfl) document
  | succ levels ih => exact Body.onlyLoads_script ih document

/-- At the moments of a render more and more partials are kept. -/
theorem leads_stations (document : Document) (s : RenderState) :
    settings.Leads s.cache (document.stations settings s) (document.render settings s).2.cache := by
  rw [render_eq_run]
  exact Script.leads_stations (onlyLoads_scriptWithin _ document) [] s

end Document

end Stencil
