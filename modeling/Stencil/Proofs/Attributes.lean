import Stencil.Proofs.Frameless
import Stencil.Proofs.Lockstep
import Stencil.Proofs.Reads
import Stencil.Proofs.Renders
import Stencil.Proofs.Script

/-!
# Attributes of partials

What a partial finds under the names of the attributes that it is called with.

A `render` tag evaluates all attributes where it stands and then binds them, so each arrives with
the value that it has for the caller. An `include` tag binds them one by one in the scope that it
opens, so one that reads the name of an attribute before it sees that attribute in place of the
caller's variable; and as it binds the object afterwards, an attribute of the object's name is lost,
even if the call passes no object.

## Key definitions

- `Trace.starts`: the states in which a tag starts the partial that it calls
- `Arrives`: an attribute has the value that its expression has for the caller
- `View.evaluateInTurn`: the values of attributes that see those before them

## Key results

- `Script.around_run`: a partial leaves the scopes as they are, but for the outermost one
- `PartialCall.attributes_of_starts`: what arrives at a partial
-/

namespace Stencil

open Render

/-! ## Where partials start -/

namespace Trace

/-- Of a called document it is only noted that it begins. -/
def beginning : OfPartials := fun turn document =>
  note (.body document.nodes.length turn)

/-- The states in which documents begin. -/
def starts (t : Trace) (s : RenderState) : List RenderState :=
  (t s).filterMap fun m =>
    match m.event with
    | .body .. => some m.state
    | _ => none

variable {α : Type}

/-- What follows a step that succeeds starts in the state that it leaves. -/
theorem starts_after_of_ok {x : Render α} {s t : RenderState} {a : α} (h : x s = (.ok a, t))
    (next : α → Trace) : (after x next).starts s = (next a).starts t := by
  unfold starts after
  rw [h]

/-- Nothing follows a step that fails. -/
theorem starts_after_of_error {x : Render α} {s t : RenderState} {e : Error}
    (h : x s = (.error e, t)) (next : α → Trace) : (after x next).starts s = [] := by
  unfold starts after
  rw [h]
  rfl

/-- A document that begins after a step begins where the step has succeeded. -/
theorem mem_starts_after {x : Render α} {next : α → Trace} {s t : RenderState}
    (h : t ∈ (after x next).starts s) :
    ∃ a s', x s = (.ok a, s') ∧ t ∈ (next a).starts s' := by
  rcases hx : x s with ⟨e | a, s'⟩
  · rw [starts_after_of_error hx] at h
    exact nomatch h
  · rw [starts_after_of_ok hx] at h
    exact ⟨a, s', rfl, h⟩

/-- What starts behind a step starts in it or after it. -/
theorem mem_starts_bind {x : Render α} {l : Trace} {next : α → Trace} {s t : RenderState}
    (h : t ∈ (bind l x next).starts s) :
    t ∈ l.starts s ∨ t ∈ (after x next).starts s := by
  unfold starts bind at h
  rw [List.filterMap_append] at h
  exact List.mem_append.mp h

end Trace

/-! ## Partials leave the scopes around alone -/

/-- The inner scopes in which a script may not bind names. -/
def RenderState.around (s : RenderState) (inner : Bool) : List Object :=
  if inner then s.frame.scopes.inner.tail else s.frame.scopes.inner

/-- The scopes around are the same where the scopes are. -/
theorem RenderState.around_of_scopes {s t : RenderState}
    (h : t.frame.scopes.inner = s.frame.scopes.inner) (inner : Bool) :
    t.around inner = s.around inner := by
  unfold around
  rw [h]

/-- Only the innermost scope is bound in. -/
private theorem tail_bindAll (entries : List (String × Value)) (scopes : Scopes) :
    (entries.foldl (fun scopes e => scopes.bind e.1 e.2) scopes).inner.tail
      = scopes.inner.tail := by
  induction entries generalizing scopes with
  | nil => rfl
  | cons e entries ih =>
    refine (ih _).trans ?_
    obtain ⟨inner, outer⟩ := scopes
    cases inner <;> rfl

/-- A script leaves the scopes as they are in which it may not bind names. -/
theorem Script.around_run {σ : Settings} {b : Bool} {α : Type} (x : Script b α)
    (s : RenderState) : (x.run σ s).2.around b = s.around b := by
  induction x generalizing s with
  | aside x h => exact RenderState.around_of_scopes (congrArg Scopes.inner (h.scopes s)) _
  | evaluate | pipeline | condition | score | emit => rfl
  | bindAll entries => exact tail_bindAll entries s.frame.scopes
  | assign name value =>
    refine RenderState.around_of_scopes ?_ _
    rcases frame_assign name value s with h | h
    · exact congrArg (·.scopes.inner) h
    · exact congrArg (·.scopes.inner) h
  | bind x f ih ihf =>
    have hx := ih s
    rw [run]
    rcases hr : x.run σ s with ⟨e | a, t⟩
    · rw [hr] at hx
      rw [Attempt.bind_of_error hr]
      exact hx
    · rw [hr] at hx
      rw [Attempt.bind_of_ok hr]
      exact (ihf a t).trans hx
  | diverted x ih => exact ih (s.withOutput "")
  | capture name x ih =>
    -- The text is bound in the outermost scope, if it was captured at all.
    have hx : (captured (x.run σ) s).2.around _ = s.around _ :=
      ih (s.beginCapture.withOutput "")
    rw [run]
    rcases hr : captured (x.run σ) s with ⟨e | text, t⟩
    · rw [hr] at hx
      rw [Attempt.bind_of_error hr]
      exact hx
    · rw [hr] at hx
      rw [Attempt.bind_of_ok hr]
      exact hx
  | inScope x ih =>
    refine RenderState.around_of_scopes ?_ _
    rw [run, inScope_eq]
    split
    · rfl
    · exact ih s.entered
  | inTemplate name x ih => exact ih (s.withTemplate (some name))
  | isolated template x ih => rfl
  | inLoop loop x ih => exact ih (s.withLoops (loop :: s.frame.loops))
  | rescuing line blank x ih =>
    have hx := ih s
    rw [run]
    rcases hr : x.run σ s with ⟨e | a, t⟩
    · rw [hr] at hx
      rw [rescuing_of_error hr]
      refine (RenderState.around_of_scopes ?_ _).trans hx
      rw [frame_rescue]
    · rw [hr] at hx
      rw [rescuing_of_ok hr]
      exact hx

/-- A document leaves the inner scopes as they are. -/
theorem Document.inner_renderWithin (settings : Settings) (levels : Nat) (document : Document)
    (s : RenderState) :
    (renderWithin settings levels document s).2.frame.scopes.inner = s.frame.scopes.inner := by
  have hscript : (scriptWithin settings levels document : Script false Unit).run settings = _ :=
    Document.run_scriptWithin ⟨rfl, rfl⟩ levels document
  rw [← hscript]
  exact Script.around_run (scriptWithin settings levels document : Script false Unit) s

/-! ## What is bound -/

/-- Of entries with different names each is found. -/
theorem Assoc.get?_putAll_of_mem {α : Type} {entries : List (String × α)}
    (hkeys : (keys entries).Nodup) {entry : String × α} (h : entry ∈ entries) (m : Assoc α) :
    (putAll m entries).get? entry.1 = some entry.2 := by
  rw [get?_putAll, get?_reverse hkeys, get?_of_mem hkeys h]
  rfl

/-- A name without an entry is found as before. -/
theorem Assoc.get?_putAll_of_not_mem {α : Type} {entries : List (String × α)} {name : String}
    (h : name ∉ keys entries) (m : Assoc α) : (putAll m entries).get? name = m.get? name := by
  have hnone : Assoc.get? entries.reverse name = none := by
    have hkeys : name ∉ keys entries.reverse := by
      unfold keys at h ⊢
      rwa [List.map_reverse, List.mem_reverse]
    rw [mem_keys_iff, Bool.not_eq_true, Option.isSome_eq_false_iff, Option.isNone_iff_eq_none]
      at hkeys
    exact hkeys
  rw [get?_putAll, hnone, Option.none_or]

/-- What is bound one after the other is put into the innermost scope. -/
theorem Scopes.foldl_bind (entries : List (String × Value)) (scope : Object)
    (scopes : List Object) (outer : Object) :
    entries.foldl (fun scopes e => scopes.bind e.1 e.2) (⟨scope :: scopes, outer⟩ : Scopes)
      = ⟨Assoc.putAll scope entries :: scopes, outer⟩ := by
  induction entries generalizing scope with
  | nil => rfl
  | cons e entries ih => exact ih _

/-- The view from a scope of its own in which values are bound. -/
def View.binding (view : View) (bound : List (String × Value)) : View :=
  { view with scopes.inner := Assoc.putAll [] bound :: view.scopes.inner }

/-- The values of attributes, each evaluated in a scope in which those before it are bound. -/
def View.evaluateInTurn (view : View) (bound : List (String × Value)) :
    List (String × Expression) → Except Error (List (String × Value))
  | [] => return bound
  | (key, e) :: attributes => do
    let v ← e.evaluate (view.binding bound)
    view.evaluateInTurn (bound ++ [(key, v)]) attributes

/-- A name that is not bound is found as before. -/
theorem View.find?_binding_of_not_mem (view : View) {bound : List (String × Value)} {name : String}
    (h : name ∉ Assoc.keys bound) : (view.binding bound).find? name = view.find? name := by
  unfold find? binding Scopes.find?
  dsimp only
  rw [Scopes.findIn?, Assoc.get?_putAll_of_not_mem h]
  rfl

/-- What the innermost scope binds a name to. -/
def RenderState.innermost? (s : RenderState) (name : String) : Option Value :=
  s.frame.scopes.inner.head?.bind (Assoc.get? · name)

/-- In a scope that was opened in the state `s` values are bound one after the other. -/
structure RenderState.Binds (s : RenderState) (bound : List (String × Value))
    (t : RenderState) : Prop where
  scopes : t.frame.scopes
    = { s.frame.scopes with inner := Assoc.putAll [] bound :: s.frame.scopes.inner }
  environments : t.frame.environments = s.frame.environments

variable {settings : Settings}

/-- What the innermost scope holds is found first. -/
theorem Settings.find?_of_innermost? {s : RenderState} {name : String} {v : Value}
    (h : s.innermost? name = some v) : (settings.view s).find? name = some v := by
  obtain ⟨scope, hscope, hv⟩ := Option.bind_eq_some_iff.mp h
  obtain ⟨scopes, hinner⟩ := List.head?_eq_some_iff.mp hscope
  unfold View.find? Scopes.find? Settings.view
  rw [hinner, Scopes.findIn?, hv]
  rfl

/-- A name that is bound is held by the innermost scope. -/
theorem RenderState.innermost?_bindName {s : RenderState} (h : s.frame.scopes.inner ≠ [])
    (name : String) (value : Value) (other : String) :
    (bindName name value s).2.innermost? other
      = if other = name then some value else s.innermost? other := by
  obtain ⟨scope, scopes, hinner⟩ := List.exists_cons_of_ne_nil h
  show ((s.frame.scopes.bind name value).inner.head?.bind (Assoc.get? · other)) = _
  unfold Scopes.bind RenderState.innermost?
  rw [hinner]
  exact Assoc.get?_put scope name value other

namespace RenderState.Binds

variable {s t : RenderState} {bound : List (String × Value)}

/-- One more name is bound. -/
theorem bindName (h : s.Binds bound t) (name : String) (value : Value) :
    s.Binds (bound ++ [(name, value)]) (Render.bindName name value t).2 := by
  refine ⟨?_, h.environments⟩
  show t.frame.scopes.bind name value = _
  rw [h.scopes, Assoc.putAll_append]
  rfl

/-- The innermost scope holds what was bound last under a name. -/
theorem innermost? (h : s.Binds bound t) (name : String) :
    t.innermost? name = (Assoc.putAll [] bound).get? name := by
  unfold RenderState.innermost?
  rw [h.scopes]
  rfl

/-- There is a scope to bind in. -/
theorem inner_ne_nil (h : s.Binds bound t) : t.frame.scopes.inner ≠ [] := by
  rw [h.scopes]
  exact List.cons_ne_nil _ _

/-- What can be seen from the scope is what it binds, and what could be seen before. -/
theorem find?_eq (h : s.Binds bound t) (name : String) :
    (settings.view t).find? name = ((settings.view s).binding bound).find? name := by
  unfold View.find? View.binding Settings.view
  rw [h.scopes, h.environments]

/-- So expressions have the same values, if the code of the host looks at nothing else. -/
theorem sameOn (hanswers : settings.registry.answers.SeeVariables) (h : s.Binds bound t)
    (names : List String) :
    View.SameOn names ((settings.view s).binding bound) (settings.view t) :=
  ⟨fun name _ => h.find?_eq name, rfl, hanswers _ _ h.find?_eq⟩

end RenderState.Binds

/-! ## Steps of a call -/

/-- Asking whether a tag is enabled changes nothing. -/
private theorem eq_of_checkEnabled {tag : String} {s t : RenderState}
    (h : checkEnabled settings tag s = (.ok (), t)) : t = s := by
  unfold checkEnabled at h
  split at h
  · exact nomatch (Prod.mk.inj h).1
  · exact (Prod.mk.inj h).2.symm

/-- Finding out which partial is meant leaves the frame as it is. -/
private theorem frame_of_partialName {template : Expression} {name : String} {s t : RenderState}
    (h : partialName settings template s = (.ok name, t)) : t.frame = s.frame := by
  obtain ⟨v, u, hv, h⟩ := Attempt.ok_of_bind h
  have hframe : u.frame = s.frame := congrArg (·.2.frame) hv.symm
  rw [← hframe]
  cases hscalar : v.scalar with
  | str text =>
    rw [hscalar] at h
    exact congrArg (·.2.frame) h.symm
  | _ =>
    rw [hscalar] at h
    exact nomatch (Prod.mk.inj h).1

/-- Two states with the same frame show the same variables. -/
private theorem find?_of_frame {s t : RenderState} (h : t.frame = s.frame) (name : String) :
    (settings.view t).find? name = (settings.view s).find? name := by
  unfold View.find? Settings.view
  rw [h]

/-- The values of attributes that are evaluated where the call stands. -/
private theorem values_of_evaluateAll {entries : List (String × Expression)}
    {values : List (String × Value)} {s t : RenderState}
    (h : evaluateAll settings entries s = (.ok values, t)) :
    t = s ∧ Assoc.keys values = Assoc.keys entries
      ∧ ∀ entry ∈ entries, ∃ v, entry.2.evaluate (settings.view s) = .ok v
        ∧ (entry.1, v) ∈ values := by
  unfold evaluateAll at h
  -- By induction on the attributes: none of them changes the state for the others.
  induction entries generalizing values t with
  | nil =>
    obtain ⟨hvalues, ht⟩ := Prod.mk.inj h
    obtain rfl := Except.ok.inj hvalues
    exact ⟨ht.symm, rfl, List.forall_mem_nil _⟩
  | cons entry entries ih =>
    rw [List.mapM_cons] at h
    obtain ⟨first, u, hfirst, h⟩ := Attempt.ok_of_bind h
    obtain ⟨rest, u', hrest, hpure⟩ := Attempt.ok_of_bind h
    obtain ⟨v, w, hv, hpair⟩ := Attempt.ok_of_bind hfirst
    obtain ⟨hvalue, hw⟩ := Prod.mk.inj hv
    obtain ⟨hentry, hu⟩ := Prod.mk.inj hpair
    obtain ⟨hvalues, ht⟩ := Prod.mk.inj hpure
    obtain rfl := Except.ok.inj hentry
    obtain rfl := Except.ok.inj hvalues
    obtain rfl : s = u := hw.trans hu
    obtain ⟨hu', hkeys, hmem⟩ := ih hrest
    refine ⟨ht.symm.trans hu', congrArg (entry.1 :: ·) hkeys, List.forall_mem_cons.mpr ⟨?_, ?_⟩⟩
    · exact ⟨v, hvalue, List.mem_cons_self⟩
    · intro other hother
      obtain ⟨w, hw, hin⟩ := hmem other hother
      exact ⟨w, hw, List.mem_cons_of_mem _ hin⟩

/-- Attributes are bound one after the other. -/
theorem Render.bindAttributes_append (settings : Settings)
    (entries entries' : List (String × Expression)) :
    bindAttributes settings (entries ++ entries')
      = bindAttributes settings entries >>= fun _ => bindAttributes settings entries' := by
  induction entries with
  | nil => rfl
  | cons entry entries ih =>
    rw [List.cons_append, bindAttributes, bindAttributes, ih]
    simp only [bind_assoc]

/-- The values of attributes that are bound one after the other. -/
private theorem binds_of_bindAttributes (hanswers : settings.registry.answers.SeeVariables)
    {entries : List (String × Expression)} {bound : List (String × Value)} {s t u : RenderState}
    (ht : s.Binds bound t)
    (h : bindAttributes settings entries t = (.ok (), u)) :
    ∃ values, (settings.view s).evaluateInTurn bound entries = .ok (bound ++ values)
      ∧ Assoc.keys values = Assoc.keys entries ∧ s.Binds (bound ++ values) u := by
  -- By induction on the attributes: each one sees those that were bound before it.
  induction entries generalizing bound t with
  | nil =>
    obtain rfl := (Prod.mk.inj h).2
    refine ⟨[], ?_, rfl, ?_⟩
    · rw [List.append_nil]
      rfl
    · rwa [List.append_nil]
  | cons entry entries ih =>
    obtain ⟨key, e⟩ := entry
    obtain ⟨v, t', heval, hrest⟩ := Attempt.ok_of_bind h
    obtain ⟨hv, rfl⟩ := Prod.mk.inj heval
    obtain ⟨⟨⟩, t'', hbind, hmore⟩ := Attempt.ok_of_bind hrest
    obtain rfl := (Prod.mk.inj hbind).2
    obtain ⟨values, hvalues, hkeys, hbinds⟩ := ih (ht.bindName key v) hmore
    have hv' : e.evaluate ((settings.view s).binding bound) = .ok v :=
      (Expression.evaluate_of_sameOn e (ht.sameOn hanswers _)).symm.trans hv
    refine ⟨(key, v) :: values, ?_, congrArg (key :: ·) hkeys, ?_⟩
    · rw [View.evaluateInTurn, hv', List.append_cons]
      exact hvalues
    · rw [List.append_cons]
      exact hbinds

/-- Where a partial is started for an item, its innermost scope binds the item, and all other names
as it did before. -/
private theorem innermost?_of_eachItem {target : String} {render : Render Unit}
    (hrender : ∀ s, (render s).2.frame.scopes.inner = s.frame.scopes.inner) {begun : Trace}
    (hbegun : ∀ s, ∀ t ∈ begun.starts s, t = s) {items : List Value} {s t : RenderState}
    (hs : s.frame.scopes.inner ≠ [])
    (ht : t ∈ (Trace.eachItem target render begun items).starts s) :
    ∃ item ∈ items, t.innermost? target = some item
      ∧ ∀ name, name ≠ target → t.innermost? name = s.innermost? name := by
  induction items generalizing s with
  | nil => exact nomatch ht
  | cons item items ih =>
    have hbound := s.innermost?_bindName hs target item
    rcases Trace.mem_starts_bind ht with ht | ht
    · obtain ⟨⟨⟩, u, hu, ht⟩ := Trace.mem_starts_after ht
      obtain rfl := (Prod.mk.inj hu).2
      obtain rfl := hbegun _ t ht
      exact ⟨item, List.mem_cons_self, (hbound target).trans (if_pos rfl),
        fun name hname => (hbound name).trans (if_neg hname)⟩
    · -- The partial was rendered for this item, and is started for a later one.
      obtain ⟨⟨⟩, u, hturn, ht⟩ := Trace.mem_starts_after ht
      obtain ⟨⟨⟩, v, hbind, hu⟩ := Attempt.ok_of_bind hturn
      obtain rfl : (bindName target item s).2 = v := congrArg Prod.snd hbind
      have hinner := hrender (bindName target item s).2
      rw [hu] at hinner
      have hsame (name : String) :
          u.innermost? name = (bindName target item s).2.innermost? name := by
        unfold RenderState.innermost?
        rw [hinner]
      have hopen : u.frame.scopes.inner ≠ [] := by
        intro hnil
        have hfound := (hsame target).trans ((hbound target).trans (if_pos rfl))
        unfold RenderState.innermost? at hfound
        rw [hnil] at hfound
        exact nomatch hfound
      obtain ⟨item', hitem, htarget, hother⟩ := ih hopen ht
      refine ⟨item', List.mem_cons_of_mem _ hitem, htarget, fun name hname => ?_⟩
      rw [hother name hname, hsame, hbound, if_neg hname]

/-- The value of one attribute, and of those before it. Those behind it have other names. -/
private theorem innermost?_of_bindAttributes (hanswers : settings.registry.answers.SeeVariables)
    {before after : List (String × Expression)}
    {entry : String × Expression} {s t u : RenderState} (ht : s.Binds [] t)
    (hkeys : (Assoc.keys (before ++ entry :: after)).Nodup)
    (h : bindAttributes settings (before ++ entry :: after) t = (.ok (), u)) :
    ∃ bound v, (settings.view s).evaluateInTurn [] before = .ok bound
      ∧ Assoc.keys bound = Assoc.keys before
      ∧ entry.2.evaluate ((settings.view s).binding bound) = .ok v
      ∧ u.innermost? entry.1 = some v := by
  rw [bindAttributes_append] at h
  obtain ⟨⟨⟩, t₁, hbefore, hrest⟩ := Attempt.ok_of_bind h
  obtain ⟨v, t₂, heval, hbind⟩ := Attempt.ok_of_bind hrest
  obtain ⟨hv, rfl⟩ := Prod.mk.inj heval
  obtain ⟨⟨⟩, t₃, hbound, hafter⟩ := Attempt.ok_of_bind hbind
  obtain rfl : (bindName entry.1 v t₁).2 = t₃ := congrArg Prod.snd hbound
  obtain ⟨bound, hvalues, hbefore, hbinds⟩ := binds_of_bindAttributes hanswers ht hbefore
  obtain ⟨later, -, hlater, hall⟩ :=
    binds_of_bindAttributes hanswers (hbinds.bindName entry.1 v) hafter
  -- What is bound later has another key, so it does not hide the value.
  have hnodup : (Assoc.keys (([] ++ bound) ++ [(entry.1, v)] ++ later)).Nodup := by
    unfold Assoc.keys at hbefore hlater hkeys ⊢
    rw [List.map_append, List.map_append, List.nil_append, hbefore, hlater, List.append_assoc]
    rwa [List.map_append] at hkeys
  have hmem : (entry.1, v) ∈ ([] ++ bound) ++ [(entry.1, v)] ++ later :=
    List.mem_append_left _ (List.mem_append_right _ (List.mem_singleton_self _))
  refine ⟨bound, v, hvalues, hbefore, ?_, ?_⟩
  · exact (Expression.evaluate_of_sameOn entry.2 (hbinds.sameOn hanswers _)).symm.trans hv
  · rw [hall.innermost?]
    exact Assoc.get?_putAll_of_mem hnodup hmem []

/-! ## What arrives -/

/-- An attribute arrives unchanged: under its name there is the value that its expression has for
the caller. -/
def Arrives (caller callee : View) (entry : String × Expression) : Prop :=
  ∃ v, entry.2.evaluate caller = .ok v ∧ callee.find? entry.1 = some v

namespace PartialCall

variable {call : PartialCall} {s t : RenderState}

/-- Where a `render` tag starts its partial all attributes have arrived. -/
private theorem arrives_of_renderPartial {partials : PartialRenderer} {name : String}
    (hobject : call.object = none) (hkeys : (Assoc.keys call.attributes).Nodup)
    (ht : t ∈ (Trace.renderPartial settings partials .beginning name call).starts s) :
    ∀ entry ∈ call.attributes, Arrives (settings.view s) (settings.view t) entry := by
  obtain ⟨values, s₁, hvalues, h₁⟩ := Trace.mem_starts_after ht
  obtain ⟨-, hsame, hmem⟩ := values_of_evaluateAll hvalues
  obtain ⟨passed, s₂, hpassed, h₂⟩ := Trace.mem_starts_after h₁
  unfold passedObject at hpassed
  rw [hobject] at hpassed
  obtain rfl : Passed.once [] = passed := Except.ok.inj (Prod.mk.inj hpassed).1
  obtain ⟨document, s₃, -, h₃⟩ := Trace.mem_starts_after h₂
  obtain ⟨bindings, s₄, hbindings, h₄⟩ := Trace.mem_starts_after h₃
  obtain rfl : [] = bindings := Except.ok.inj (Prod.mk.inj hbindings).1
  obtain ⟨⟨⟩, s₅, henter, h₅⟩ := Trace.mem_starts_after h₄
  obtain ⟨⟨⟩, s₆, hbind, h₆⟩ := Trace.mem_starts_after h₅
  obtain rfl : t = s₆ := List.mem_singleton.mp h₆
  -- The frame of the partial starts with one scope, in which nothing but the attributes is bound.
  have hframe : s₅.frame = s₄.frame.isolated (some name) := congrArg (·.2.frame) henter.symm
  have hinner : t.frame.scopes = ⟨[Assoc.putAll [] values], []⟩ := by
    obtain rfl : (bindAll (values ++ []) s₅.pushScope).2 = t := congrArg Prod.snd hbind
    show (values ++ []).foldl (fun (scopes : Scopes) (e : String × Value) =>
      scopes.bind e.1 e.2) s₅.frame.scopes.push = _
    rw [hframe, List.append_nil]
    exact Scopes.foldl_bind values [] [] []
  intro entry hentry
  obtain ⟨v, hv, hin⟩ := hmem entry hentry
  refine ⟨v, hv, Settings.find?_of_innermost? ?_⟩
  unfold RenderState.innermost?
  rw [hinner]
  exact Assoc.get?_putAll_of_mem (hsame ▸ hkeys) hin []

/-- Where an `include` tag starts its partial an item of the variable of the partial's name is bound
in front of the attributes, which were bound one after the other. -/
private theorem binds_of_includePartial (hanswers : settings.registry.answers.SeeVariables)
    {levels : Nat} (hobject : call.object = none)
    (ht : t ∈ (Trace.includePartial settings (Document.renderWithin settings levels) .beginning
      call).starts s) :
    ∃ name, (partialName settings call.template s).1 = .ok name
      ∧ (∃ item ∈ includedItems (((settings.view s).find? name).getD .nil),
        t.innermost? (call.objectName name) = some item)
      ∧ ∃ u v, s.Binds [] u ∧ bindAttributes settings call.attributes u = (.ok (), v)
        ∧ ∀ key, key ≠ call.objectName name → t.innermost? key = v.innermost? key := by
  obtain ⟨⟨⟩, s₁, henabled, h₁⟩ := Trace.mem_starts_after ht
  obtain rfl := eq_of_checkEnabled henabled
  obtain ⟨name, s₂, hname, h₂⟩ := Trace.mem_starts_after h₁
  obtain ⟨document, s₃, hload, h₃⟩ := Trace.mem_starts_after h₂
  obtain ⟨object, s₄, hfound, h₄⟩ := Trace.mem_starts_after h₃
  unfold includedObject at hfound
  rw [hobject] at hfound
  obtain ⟨hvalue, rfl⟩ := Prod.mk.inj hfound
  obtain ⟨⟨⟩, s₅, henter, h₅⟩ := Trace.mem_starts_after h₄
  obtain ⟨⟨⟩, s₆, hbind, h₆⟩ := Trace.mem_starts_after
    (x := bindAttributes settings call.attributes) (s := s₅.pushScope) h₅
  -- Up to the attributes nothing has changed the variables of the caller.
  have hframe : s₃.frame = s₁.frame := by
    have hloaded := (frameless_loadPartial settings name).frame s₂
    rw [hload] at hloaded
    exact hloaded.trans (frame_of_partialName hname)
  have hentered : s₅.frame = { s₃.frame with template := some name } :=
    congrArg (·.2.frame) henter.symm
  have hbinds : s₁.Binds [] s₅.pushScope := by
    rw [hframe] at hentered
    constructor
    · show s₅.frame.scopes.push = _
      rw [hentered]
      rfl
    · show s₅.frame.environments = _
      rw [hentered]
  obtain ⟨values, -, -, hbound⟩ := binds_of_bindAttributes hanswers hbinds hbind
  -- A partial that was rendered for an earlier item leaves the attributes bound.
  have hkeeps := Document.inner_renderWithin settings levels document
  have hbegins (u v : RenderState) (h : v ∈ (Trace.beginning false document).starts u) : v = u :=
    List.mem_singleton.mp h
  obtain ⟨item, hitem, htarget, hother⟩ :=
    innermost?_of_eachItem hkeeps hbegins hbound.inner_ne_nil h₆
  refine ⟨name, congrArg Prod.fst hname, ⟨item, ?_, htarget⟩, _, _, hbinds, hbind, hother⟩
  rw [← find?_of_frame hframe, Except.ok.inj hvalue]
  exact hitem

/-- What arrives at a partial that is called without an object. Of a `render` tag all attributes
arrive unchanged. Of an `include` tag an attribute of the object's name is lost: there is an item of
the variable of the partial's name, or nil. Any other attribute has the value of its expression in a
scope in which the attributes before it are bound, so it arrives unchanged if its expression reads
none of their names. What the code of the host looks at, but for variables, may be different inside
the partial, and this is about code that does not. -/
theorem attributes_of_starts (settings : Settings) (levels : Nat) (call : PartialCall)
    (hobject : call.object = none) (hkeys : (Assoc.keys call.attributes).Nodup)
    (s : RenderState) :
    let partials := Document.renderWithin settings levels
    (∀ name, ∀ t ∈ (Trace.renderPartial settings partials .beginning name call).starts s,
        ∀ entry ∈ call.attributes, Arrives (settings.view s) (settings.view t) entry)
      ∧ (settings.registry.answers.SeeVariables →
        ∀ t ∈ (Trace.includePartial settings partials .beginning call).starts s,
          ∃ name, (partialName settings call.template s).1 = .ok name
            ∧ ∀ before entry after, call.attributes = before ++ entry :: after →
              (entry.1 = call.objectName name →
                ∃ item ∈ includedItems (((settings.view s).find? name).getD .nil),
                  (settings.view t).find? entry.1 = some item)
              ∧ (entry.1 ≠ call.objectName name →
                ∃ bound, (settings.view s).evaluateInTurn [] before = .ok bound
                  ∧ Arrives ((settings.view s).binding bound) (settings.view t) entry
                  ∧ ((∀ read ∈ entry.2.reads (settings.view s), read ∉ Assoc.keys before) →
                    (∀ id name,
                      settings.registry.answers id name
                          ((settings.view s).binding bound).toSurroundings
                        = settings.registry.answers id name (settings.view s).toSurroundings) →
                    Arrives (settings.view s) (settings.view t) entry))) := by
  refine ⟨fun name t ht => arrives_of_renderPartial hobject hkeys ht, fun hanswers t ht => ?_⟩
  obtain ⟨name, hname, ⟨item, hitem, htarget⟩, u, v, hbinds, hbind, hother⟩ :=
    binds_of_includePartial hanswers hobject ht
  refine ⟨name, hname, fun before entry after hsplit => ⟨fun heq => ?_, fun hne => ?_⟩⟩
  · rw [heq]
    exact ⟨item, hitem, Settings.find?_of_innermost? htarget⟩
  · rw [hsplit] at hbind hkeys
    obtain ⟨bound, value, hbound, hbefore, hvalue, hfound⟩ :=
      innermost?_of_bindAttributes hanswers hbinds hkeys hbind
    have hfind : (settings.view t).find? entry.1 = some value :=
      Settings.find?_of_innermost? ((hother entry.1 hne).trans hfound)
    refine ⟨bound, hbound, ⟨value, hvalue, hfind⟩, fun hreads hsees => ⟨value, ?_, hfind⟩⟩
    -- What the expression reads is the same for the caller and behind the attributes before.
    have hsame : View.SameOn (entry.2.reads (settings.view s)) (settings.view s)
        ((settings.view s).binding bound) :=
      ⟨fun read hread => View.find?_binding_of_not_mem _ (hbefore ▸ hreads read hread), rfl, hsees⟩
    exact (Expression.evaluate_of_sameOn entry.2 hsame).symm.trans hvalue

/-- An attribute that reads a variable of the caller arrives unchanged in front of another attribute
of the variable's name. -/
theorem attributes_of_starts_ahead :
    let call : PartialCall :=
      { template := .literal (.str "p")
        attributes := [("b", .variable "a"), ("a", .literal (.int 1))] }
    let s : RenderState :=
      { frame := { scopes := { outer := [("a", .int 0)] } }
        progress := { registers := { partials := [("p", .mk [] true)] } } }
    let settings : Settings := {}
    let partials := Document.renderWithin settings 1
    call.object = none ∧ (Assoc.keys call.attributes).Nodup
      ∧ (∃ t ∈ (Trace.renderPartial settings partials .beginning "p" call).starts s,
        Arrives (settings.view s) (settings.view t) ("b", .variable "a"))
      ∧ ∃ t ∈ (Trace.includePartial settings partials .beginning call).starts s,
        Arrives (settings.view s) (settings.view t) ("b", .variable "a") := by
  intro call s settings partials
  have hkeys : (Assoc.keys call.attributes).Nodup := by decide
  obtain ⟨hrender, hinclude⟩ := attributes_of_starts settings 1 call rfl hkeys s
  -- Both tags start the partial once.
  have hrendered :
      0 < ((Trace.renderPartial settings partials .beginning "p" call).starts s).length := by
    decide +kernel
  have hincluded :
      0 < ((Trace.includePartial settings partials .beginning call).starts s).length := by
    decide +kernel
  obtain ⟨t, ht⟩ := List.exists_mem_of_length_pos hrendered
  obtain ⟨u, hu⟩ := List.exists_mem_of_length_pos hincluded
  obtain ⟨name, hname, harrives⟩ := hinclude Answers.none_seeVariables u hu
  obtain rfl : "p" = name := Except.ok.inj hname
  refine ⟨rfl, hkeys, ⟨t, ht, hrender "p" t ht _ List.mem_cons_self⟩, u, hu, ?_⟩
  obtain ⟨_, -, -, hsame⟩ := (harrives [] _ _ rfl).2 (by decide)
  exact hsame (fun _ _ => List.not_mem_nil) fun _ _ => rfl

/-- Two attributes that do not arrive at an included partial: one that reads the name of the one
before it, and one of the partial's own name, which is nil. Both arrive at one that is rendered. -/
theorem attributes_lost :
    let settings : Settings := {}
    let partials := Document.renderWithin settings 1
    let s : RenderState :=
      { frame := { scopes := { outer := [("a", .int 0)] } }
        progress := { registers := { partials := [("p", .mk [] true)] } } }
    let read : PartialCall :=
      { template := .literal (.str "p")
        attributes := [("a", .literal (.int 1)), ("b", .variable "a")] }
    let named : PartialCall :=
      { template := .literal (.str "p"), attributes := [("p", .literal (.int 5))] }
    let found (name : String) (t : RenderState) := ((settings.view t).find? name).map Value.text
    ((Expression.variable "a").evaluate (settings.view s)).toOption.map Value.text = some "0"
      ∧ ((Trace.includePartial settings partials .beginning read).starts s).map (found "b")
        = [some "1"]
      ∧ ((Trace.renderPartial settings partials .beginning "p" read).starts s).map (found "b")
        = [some "0"]
      ∧ ((Trace.includePartial settings partials .beginning named).starts s).map (found "p")
        = [some ""]
      ∧ ((Trace.renderPartial settings partials .beginning "p" named).starts s).map (found "p")
        = [some "5"] := by
  decide +kernel

end PartialCall

end Stencil
