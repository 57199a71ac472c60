import Stencil.Proofs.Nesting
import Stencil.Proofs.Points

/-!
# The depth of a render

A render counts the scopes that are open, those in the frames around an isolated partial included,
and the budget bounds that number.

A station is what can be seen of a render at some moment: its state, which has the frame of the
innermost isolated partial only, and the frames around it.

## Key definitions

- `Station`, `Station.openScopes`: a moment of a render and the scopes that are open
- `Script.stations`, `Document.stations`: the moments of a render

## Key results

- `Script.sameLevel_run`: what a script opens it closes again
- `Script.counted_stations`: at every moment the scopes that are open are counted
- `Script.getLast?_stations`: the last moment is the end
-/

namespace Stencil

open Render

/-! ## Stations -/

/-- A moment of a render. -/
structure Station where
  /-- The frames around the isolated partial that is being rendered, the innermost first. -/
  around : List Frame
  state : RenderState

/-- How many scopes are open, in the frame of the moment and in those around it. -/
def Station.openScopes (p : Station) : Nat :=
  ((p.state.frame :: p.around).map fun frame => frame.scopes.inner.length).sum

/-- The scopes of the state and of the frames around it. -/
theorem Station.openScopes_mk (around : List Frame) (s : RenderState) :
    openScopes ⟨around, s⟩
      = s.frame.scopes.inner.length + (around.map fun frame => frame.scopes.inner.length).sum :=
  List.sum_cons

/-- The moments of a script that is run from a state, from its start to its end. -/
def Script.stations (settings : Settings) :
    {b : Bool} → {α : Type} → Script b α → List Frame → RenderState → List Station
  | _, _, .bind x f, around, s =>
    x.stations settings around s ++
      match x.run settings s with
      | (.ok a, t) => (f a).stations settings around t
      | (.error _, _) => []
  | _, _, .assign name value, around, s =>
    [⟨around, s⟩, ⟨around, (charge (·.chargeAssign value.storageCost) s).2⟩,
      ⟨around, (Render.assign name value s).2⟩]
  | _, _, .capture name x, around, s =>
    ⟨around, s⟩ :: x.stations settings around (s.beginCapture.withOutput "") ++
      [⟨around, (captured (x.run settings) s).2⟩,
        ⟨around, ((Script.capture name x).run settings s).2⟩]
  | _, _, .diverted x, around, s =>
    ⟨around, s⟩ :: x.stations settings around (s.withOutput "") ++
      [⟨around, (Render.diverted (x.run settings) s).2⟩]
  | _, _, .inScope x, around, s =>
    if exceeds (s.progress.budget.depth + 1) s.progress.budget.depthCeiling then [⟨around, s⟩]
    else
      ⟨around, s⟩ :: x.stations settings around s.entered ++
        [⟨around, (Render.inScope (x.run settings) s).2⟩]
  | _, _, .inTemplate name x, around, s =>
    ⟨around, s⟩ :: x.stations settings around (s.withTemplate (some name)) ++
      [⟨around, (Render.inTemplate name (x.run settings) s).2⟩]
  -- An isolated partial has a frame of its own, inside that of its caller.
  | _, _, .isolated template x, around, s =>
    ⟨around, s⟩ ::
      x.stations settings (s.frame :: around) (s.withFrame (s.frame.isolated template)) ++
      [⟨around, (Render.isolated template (x.run settings) s).2⟩]
  | _, _, .inLoop loop x, around, s =>
    ⟨around, s⟩ :: x.stations settings around (s.withLoops (loop :: s.frame.loops)) ++
      [⟨around, (Render.inLoop loop (x.run settings) s).2⟩]
  | _, _, .rescuing line blank x, around, s =>
    x.stations settings around s ++
      [⟨around, (Render.rescuing settings line blank (x.run settings) s).2⟩]
  | _, _, x, around, s => [⟨around, s⟩, ⟨around, (x.run settings s).2⟩]

/-- The moments of rendering a document. -/
def Document.stations (settings : Settings) (document : Document) (s : RenderState) :
    List Station :=
  let script : Script false Unit := scriptWithin settings s.progress.budget.scopesLeft document
  script.stations settings [] s

/-! ## What is opened is closed -/

/-- As many scopes are open in both states, in their frames and as counted. -/
structure SameLevel (s t : RenderState) : Prop where
  inner : t.frame.scopes.inner.length = s.frame.scopes.inner.length
  budget : s.progress.budget.SameDepth t.progress.budget

namespace SameLevel

variable {s t u : RenderState}

/-- Nothing has changed. -/
theorem refl (s : RenderState) : SameLevel s s :=
  ⟨rfl, .refl _⟩

/-- One stretch after the other. -/
theorem trans (h : SameLevel s t) (h' : SameLevel t u) : SameLevel s u :=
  ⟨h'.inner.trans h.inner, h.budget.trans h'.budget⟩

/-- Scopes are part of the frame. -/
theorem of_frame (h : t.frame = s.frame)
    (hb : s.progress.budget.SameDepth t.progress.budget) : SameLevel s t :=
  ⟨by rw [h], hb⟩

end SameLevel

/-- Binding a name opens no scope. -/
theorem length_inner_bind (scopes : Scopes) (name : String) (value : Value) :
    (scopes.bind name value).inner.length = scopes.inner.length := by
  obtain ⟨inner, outer⟩ := scopes
  cases inner <;> rfl

private theorem sameLevel_bindAll (entries : List (String × Value)) (s : RenderState) :
    SameLevel s (bindAll entries s).2 := by
  refine ⟨?_, .refl _⟩
  show (entries.foldl (fun scopes e => scopes.bind e.1 e.2) s.frame.scopes).inner.length = _
  generalize s.frame.scopes = scopes
  induction entries generalizing scopes with
  | nil => rfl
  | cons e entries ih => exact (ih _).trans (length_inner_bind scopes e.1 e.2)

/-- A charge leaves the depth as it is. -/
private theorem sameLevel_charge {cost : Budget → Except Error Unit × Budget}
    (h : Budget.Charge cost) (s : RenderState) : SameLevel s (charge cost s).2 :=
  .of_frame rfl (h.sameDepth _)

/-- So does an assignment. -/
private theorem sameLevel_assign (name : String) (value : Value) (s : RenderState) :
    SameLevel s (assign name value s).2 := by
  have hcharge := sameLevel_charge (.assign value.storageCost) s
  -- A charge that is refused leaves the scopes alone, and one that is met binds a name.
  rw [assign_eq]
  cases hc : charge (·.chargeAssign value.storageCost) s with
  | mk r t =>
    rw [hc] at hcharge
    cases r with
    | ok a => exact ⟨hcharge.inner, hcharge.budget⟩
    | error e => exact hcharge

/-- A capture opens no scope. -/
private theorem sameLevel_captured {x : Render Unit} (h : ∀ s, SameLevel s (x s).2)
    (s : RenderState) : SameLevel s (captured x s).2 := by
  have hinside := h (s.beginCapture.withOutput "")
  exact ⟨hinside.inner, hinside.budget.depth, hinside.budget.ceiling⟩

/-- A scope that is opened is closed again. -/
private theorem sameLevel_inScope {α : Type} {x : Render α} (h : ∀ s, SameLevel s (x s).2)
    (s : RenderState) : SameLevel s (inScope x s).2 := by
  rw [inScope_eq]
  split
  · exact .refl s
  · rename_i henter
    -- One scope more inside, one less behind it.
    obtain ⟨hdepth, hceiling⟩ := depth_entered henter
    have hinside := h s.entered
    refine ⟨?_, ?_, hinside.budget.ceiling.trans hceiling⟩
    · show (x s.entered).2.frame.scopes.inner.tail.length = _
      rw [List.length_tail, hinside.inner]
      exact Nat.add_sub_cancel ..
    · show (x s.entered).2.progress.budget.depth - 1 = _
      rw [hinside.budget.depth, hdepth, Nat.add_sub_cancel]

/-- Dealing with an error leaves the level at which it came up. -/
private theorem sameLevel_rescuing {x : Render Unit} (settings : Settings) (line : Option Nat)
    (blank : Bool) (h : ∀ s, SameLevel s (x s).2) (s : RenderState) :
    SameLevel s (rescuing settings line blank x s).2 := by
  have hx := h s
  cases hr : x s with
  | mk r t =>
    rw [hr] at hx
    -- The error is dealt with in the state that it arose in.
    cases r with
    | ok a =>
      rw [rescuing_of_ok hr]
      exact hx
    | error e =>
      rw [rescuing_of_error hr]
      exact hx.trans (.of_frame (frame_rescue settings line blank e t)
        (SameUpTo.sameDepth_rescue settings line blank e t))

/-- What a script opens it closes again. -/
theorem Script.sameLevel_run {σ : Settings} {b : Bool} {α : Type} (x : Script b α)
    (s : RenderState) : SameLevel s (x.run σ s).2 := by
  -- By induction on the script: each step leaves the level where it began.
  induction x generalizing s with
  | aside x h => exact ⟨by rw [run, h.scopes], .of_eq (h.budget_eq s)⟩
  | evaluate e => exact .refl s
  | pipeline p => exact .refl s
  | condition c => exact .refl s
  | score nodes => exact sameLevel_charge (.score nodes) s
  | emit text => exact .of_frame rfl (Budget.sameDepth_chargeWrite _ _)
  | bindAll entries => exact sameLevel_bindAll entries s
  | assign name value => exact sameLevel_assign name value s
  | bind x f ih ihf =>
    have hx := ih s
    rw [run]
    cases hr : x.run σ s with
    | mk r t =>
      rw [hr] at hx
      cases r with
      | error e =>
        rw [Attempt.bind_of_error hr]
        exact hx
      | ok a =>
        rw [Attempt.bind_of_ok hr]
        exact hx.trans (ihf a t)
  | diverted x ih =>
    have hx := ih (s.withOutput "")
    exact ⟨hx.inner, hx.budget⟩
  | capture name x ih =>
    have hx := sameLevel_captured ih s
    rw [run]
    cases hr : captured (x.run σ) s with
    | mk r t =>
      rw [hr] at hx
      cases r with
      | error e =>
        rw [Attempt.bind_of_error hr]
        exact hx
      | ok text =>
        rw [Attempt.bind_of_ok hr]
        exact ⟨hx.inner, hx.budget⟩
  | inScope x ih => exact sameLevel_inScope ih s
  | inTemplate name x ih =>
    have hx := ih (s.withTemplate (some name))
    exact ⟨hx.inner, hx.budget⟩
  | isolated template x ih =>
    exact .of_frame rfl (ih (s.withFrame (s.frame.isolated template))).budget
  | inLoop loop x ih =>
    have hx := ih (s.withLoops (loop :: s.frame.loops))
    exact ⟨hx.inner, hx.budget⟩
  | rescuing line blank x ih => exact sameLevel_rescuing σ line blank ih s

/-! ## What is open is counted -/

/-- The scopes that are open are `before` and those that are counted, and those are no more than the
ceiling allows. -/
structure Station.Counted (before : Nat) (ceiling : Option Nat) (p : Station) : Prop where
  scopes : p.openScopes = before + p.state.progress.budget.depth
  within : exceeds p.state.progress.budget.depth ceiling = false
  same : p.state.progress.budget.depthCeiling = ceiling

section

variable {before : Nat} {ceiling : Option Nat} {around : List Frame} {s t : RenderState}

/-- At the same level the scopes are counted as before. -/
theorem Station.Counted.of_sameLevel (h : Counted before ceiling ⟨around, s⟩)
    (hst : SameLevel s t) : Counted before ceiling ⟨around, t⟩ where
  scopes := by
    have hscopes := h.scopes
    rw [openScopes_mk] at hscopes ⊢
    rw [hst.inner, hst.budget.depth, hscopes]
  within := hst.budget.depth ▸ h.within
  same := hst.budget.ceiling.trans h.same

/-- A scope that is opened is counted. -/
theorem Station.Counted.entered (h : Counted before ceiling ⟨around, s⟩)
    (henter : ¬exceeds (s.progress.budget.depth + 1) s.progress.budget.depthCeiling = true) :
    Counted before ceiling ⟨around, s.entered⟩ := by
  obtain ⟨hdepth, hceiling⟩ := depth_entered henter
  refine ⟨?_, ?_, hceiling.trans h.same⟩
  · have hscopes := h.scopes
    have hinner : s.entered.frame.scopes.inner.length = s.frame.scopes.inner.length + 1 := rfl
    rw [openScopes_mk] at hscopes ⊢
    dsimp only at hscopes ⊢
    omega
  · rw [← h.same, hdepth]
    exact Bool.eq_false_iff.mpr henter

/-- No scope is open in a frame of its own, and those of the caller stay open around it. -/
theorem Station.Counted.isolated (h : Counted before ceiling ⟨around, s⟩)
    (template : Option String) :
    Counted before ceiling ⟨s.frame :: around, s.withFrame (s.frame.isolated template)⟩ where
  scopes := by
    -- The frame starts without scopes; those of the caller count as scopes around it.
    have hscopes := h.scopes
    unfold openScopes at hscopes ⊢
    exact (Nat.zero_add _).trans hscopes
  within := h.within
  same := h.same

/-- What holds at the start, at the moments inside and at the end holds at all moments. -/
theorem Station.forall_mem_inside {P : Station → Prop} {first last : Station}
    {inside : List Station} :
    (∀ p ∈ first :: inside ++ [last], P p) ↔ P first ∧ (∀ p ∈ inside, P p) ∧ P last := by
  rw [List.cons_append, List.forall_mem_cons, List.forall_mem_append, List.forall_mem_singleton]

end

/-- At every moment of a script the scopes that are open are counted. -/
theorem Script.counted_stations {σ : Settings} {b : Bool} {α : Type} (x : Script b α)
    {before : Nat} {ceiling : Option Nat} {around : List Frame} {s : RenderState}
    (h : Station.Counted before ceiling ⟨around, s⟩) :
    ∀ p ∈ x.stations σ around s, p.Counted before ceiling := by
  -- Whatever a script does, it ends at the level at which it started.
  have hend : ∀ {b : Bool} {α : Type} (x : Script b α) {around : List Frame} {s : RenderState},
      Station.Counted before ceiling ⟨around, s⟩ →
      ∀ p ∈ [⟨around, s⟩, ⟨around, (x.run σ s).2⟩], Station.Counted before ceiling p :=
    fun x _ _ h => Station.forall_mem_inside.mpr
      ⟨h, List.forall_mem_nil _, h.of_sameLevel (x.sameLevel_run _)⟩
  induction x generalizing around s with
  | bind x f ih ihf =>
    rw [stations]
    refine List.forall_mem_append.mpr ⟨ih h, ?_⟩
    have hx := x.sameLevel_run (σ := σ) s
    cases hr : x.run σ s with
    | mk r t =>
      rw [hr] at hx
      cases r with
      | error e => exact List.forall_mem_nil _
      | ok a => exact ihf a (h.of_sameLevel hx)
  | assign name value =>
    have hcharge := h.of_sameLevel (sameLevel_charge (.assign value.storageCost) s)
    have hstored := h.of_sameLevel (sameLevel_assign name value s)
    exact Station.forall_mem_inside.mpr ⟨h, List.forall_mem_singleton.mpr hcharge, hstored⟩
  | capture name x ih =>
    have hinside : Station.Counted before ceiling ⟨around, s.beginCapture.withOutput ""⟩ :=
      ⟨h.scopes, h.within, h.same⟩
    have hcaptured := h.of_sameLevel (sameLevel_captured x.sameLevel_run s (x := x.run σ))
    have hstored := h.of_sameLevel ((Script.capture name x).sameLevel_run (σ := σ) s)
    rw [stations, List.cons_append, List.append_cons]
    refine List.forall_mem_cons.mpr ⟨h, List.forall_mem_append.mpr ⟨?_, ?_⟩⟩
    · exact List.forall_mem_append.mpr ⟨ih hinside, List.forall_mem_singleton.mpr hcaptured⟩
    · exact List.forall_mem_singleton.mpr hstored
  | inScope x ih =>
    rw [stations]
    split
    · exact List.forall_mem_singleton.mpr h
    · rename_i henter
      exact Station.forall_mem_inside.mpr ⟨h, ih (h.entered henter),
        h.of_sameLevel (sameLevel_inScope x.sameLevel_run s)⟩
  | isolated template x ih =>
    exact Station.forall_mem_inside.mpr ⟨h, ih (h.isolated template),
      h.of_sameLevel ((Script.isolated template x).sameLevel_run s (b := b))⟩
  | diverted x ih =>
    exact Station.forall_mem_inside.mpr ⟨h, ih ⟨h.scopes, h.within, h.same⟩,
      h.of_sameLevel ((Script.diverted x).sameLevel_run s)⟩
  | inTemplate name x ih =>
    exact Station.forall_mem_inside.mpr ⟨h, ih ⟨h.scopes, h.within, h.same⟩,
      h.of_sameLevel ((Script.inTemplate name x).sameLevel_run s)⟩
  | inLoop loop x ih =>
    exact Station.forall_mem_inside.mpr ⟨h, ih ⟨h.scopes, h.within, h.same⟩,
      h.of_sameLevel ((Script.inLoop loop x).sameLevel_run s)⟩
  | rescuing line blank x ih =>
    exact List.forall_mem_append.mpr ⟨ih h, List.forall_mem_singleton.mpr
      (h.of_sameLevel ((Script.rescuing line blank x).sameLevel_run s))⟩
  | aside x hx => exact hend (.aside x hx) h
  | evaluate e => exact hend (.evaluate e) h
  | pipeline p => exact hend (.pipeline p) h
  | condition c => exact hend (.condition c) h
  | score nodes => exact hend (.score nodes) h
  | emit text => exact hend (.emit text) h
  | bindAll entries => exact hend (.bindAll entries) h

/-! ## Documents -/

/-- The moments of a script lead from its start to its end. -/
theorem Script.getLast?_stations {σ : Settings} {b : Bool} {α : Type} (x : Script b α)
    (around : List Frame) (s : RenderState) :
    (x.stations σ around s).getLast? = some ⟨around, (x.run σ s).2⟩ := by
  have hend (p : Station) (points : List Station) : (points ++ [p]).getLast? = some p :=
    List.getLast?_concat
  -- By induction on the script: the last station of a step is the state it leaves.
  induction x generalizing around s with
  | bind x f ih ihf =>
    rw [stations, run, List.getLast?_append]
    cases hr : x.run σ s with
    | mk r t =>
      have hx := ih around s
      rw [hr] at hx
      cases r with
      | error e => rw [Attempt.bind_of_error hr, hx]; rfl
      | ok a => rw [Attempt.bind_of_ok hr, ihf]; rfl
  | inScope x ih =>
    rw [stations, run]
    split
    · rename_i hlimit
      rw [inScope_eq, if_pos hlimit]
      rfl
    · exact hend _ _
  | capture name x ih => rw [stations, List.append_cons]; exact hend _ _
  | rescuing line blank x ih => exact hend _ _
  | diverted x ih => exact hend _ _
  | inTemplate name x ih => exact hend _ _
  | isolated template x ih => exact hend _ _
  | inLoop loop x ih => exact hend _ _
  | _ => rfl

end Stencil
