import Stencil.Proofs.HostErrors

/-!
# What expressions read

The variables that the value of an expression depends on in a view. A name in brackets is a value
like any other, and a drop may answer with a variable of its choice, so which variables are read
depends on the view itself.

## Key definitions

- `Expression.reads`: the variables that are looked up when an expression is evaluated
- `View.SameOn`: two views that have the same variables, as far as some names go

## Key results

- `Expression.evaluate_of_sameOn`: an expression depends on no other variables
-/

namespace Stencil

/-! ## The variables that are read -/

/-- The variable that a reply answers with. -/
def Reply.reads : Reply → List String
  | .variable name => [name]
  | .value _ | .raise .. => []

/-- The variables that a value answers a key with. -/
def Value.reads (v key : Value) : List String :=
  match v with
  | .drop (.host _ accessors missing ..) =>
    ((accessors.lookup key.text).or (missing.lookup key.text)).elim [] Reply.reads
  | _ => []

mutual

/-- The variables that are looked up when an expression is evaluated. -/
def Expression.reads (view : View) : Expression → List String
  | .literal _ | .empty | .blank => []
  | .lookup name segments =>
    name.reads view ++
      match name.evaluate view with
      | .ok v =>
        let name := v.scalar.text
        name :: Expression.readsAlong view segments ((view.find? name).getD .nil).liquid
      | .error _ => []
  | .range first last => first.reads view ++ last.reads view
  | .path root segments =>
    root.reads view ++
      match root.evaluate view with
      | .ok v => Expression.readsAlong view segments v.liquid
      | .error _ => []

/-- The variables that are looked up on a path that starts at a value. -/
def Expression.readsAlong (view : View) : List Segment → Value → List String
  | [], _ => []
  | .mk key dotted :: segments, v =>
    key.reads view ++
      match key.evaluate view with
      | .ok k =>
        v.reads k.scalar ++
          match v.lookup view k.scalar dotted with
          | .ok (some w) => Expression.readsAlong view segments w.liquid
          | _ => []
      | .error _ => []

end

/-! ## Views that differ in other variables -/

/-- The views have the same variables of those names, are both strict about variables or both not,
and the code of the host gives the same answers in both. -/
structure View.SameOn (names : List String) (view view' : View) : Prop where
  find : ∀ name ∈ names, view'.find? name = view.find? name
  strict : view'.strictVariables = view.strictVariables
  answers : ∀ id name,
    view'.answers id name view'.toSurroundings = view.answers id name view.toSurroundings

/-- The code of the host looks at no more than variables. -/
def Answers.SeeVariables (answers : Answers) : Prop :=
  ∀ view view' : View, (∀ name, view'.find? name = view.find? name) → ∀ id name,
    answers id name view'.toSurroundings = answers id name view.toSurroundings

theorem Answers.none_seeVariables : Answers.none.SeeVariables :=
  fun _ _ _ _ _ => rfl

namespace View.SameOn

variable {names names' : List String} {view view' : View}

theorem left (h : SameOn (names ++ names') view view') : SameOn names view view' :=
  ⟨fun name hname => h.find name (List.mem_append_left _ hname), h.strict, h.answers⟩

theorem right (h : SameOn (names ++ names') view view') : SameOn names' view view' :=
  ⟨fun name hname => h.find name (List.mem_append_right _ hname), h.strict, h.answers⟩

end View.SameOn

variable {view view' : View}

theorem Reply.resolve_of_sameOn {reply : Reply} (h : View.SameOn reply.reads view view') :
    reply.resolve view' = reply.resolve view := by
  cases reply with
  | «variable» name =>
    have hfind := h.find name (List.mem_singleton_self name)
    exact congrArg (fun v? => Except.ok (v?.getD Value.nil)) hfind
  | value | raise => rfl

theorem Value.lookup_of_sameOn {v key : Value} (dotted : Bool)
    (h : View.SameOn (v.reads key) view view') :
    v.lookup view' key dotted = v.lookup view key dotted := by
  cases v with
  | drop d =>
    have hmember : d.member? view' key.text = d.member? view key.text := by
      cases d with
      | loop => rfl
      | host id accessors missing toLiquid scalar items output =>
        unfold Value.reads at h
        unfold Drop.member?
        dsimp only at h ⊢
        -- A name that the object lists is answered by the listed reply, any other by its code.
        cases hreply : (accessors.lookup key.text).or (missing.lookup key.text) with
        | none => exact h.answers id key.text
        | some reply =>
          rw [hreply] at h
          exact congrArg (Except.map some) (Reply.resolve_of_sameOn h)
    unfold Value.lookup Drop.lookup
    dsimp only
    rw [hmember, h.strict]
  | nil | bool | int | float | str | array | object | range => rfl

mutual

/-- The value of an expression depends on no other variables than those that it reads. -/
theorem Expression.evaluate_of_sameOn : ∀ e : Expression,
    View.SameOn (e.reads view) view view' → e.evaluate view' = e.evaluate view
  | .literal _, _ => rfl
  | .empty, _ => rfl
  | .blank, _ => rfl
  | .lookup name segments, h => by
    unfold Expression.reads at h
    have hname := Expression.evaluate_of_sameOn name h.left
    have hfound := h.right
    unfold Expression.evaluate
    rw [hname]
    cases hv : name.evaluate view with
    | error e => rfl
    | ok v =>
      rw [hv] at hfound
      -- The path is followed from the variable, or from nil if there is none.
      have hfind := hfound.find v.scalar.text List.mem_cons_self
      have hfollow := Expression.follow_of_sameOn segments
        ⟨fun name hname => hfound.find name (List.mem_cons_of_mem _ hname), h.strict, h.answers⟩
      simp only [bind, Except.bind, hfind, h.strict]
      cases hw : view.find? v.scalar.text with
      | none =>
        rw [hw] at hfollow
        exact congrArg (ite (view.strictVariables = true) _) hfollow
      | some w =>
        rw [hw] at hfollow
        exact hfollow
  | .range first last, h => by
    unfold Expression.evaluate
    rw [Expression.evaluate_of_sameOn first h.left, Expression.evaluate_of_sameOn last h.right]
  | .path root segments, h => by
    unfold Expression.reads at h
    have hroot := Expression.evaluate_of_sameOn root h.left
    have hpath := h.right
    unfold Expression.evaluate
    rw [hroot]
    cases hv : root.evaluate view with
    | error e => rfl
    | ok v =>
      rw [hv] at hpath
      exact Expression.follow_of_sameOn segments hpath

/-- Where a path leads to depends on no other variables than those that are read along it. -/
theorem Expression.follow_of_sameOn : ∀ (segments : List Segment) {v : Value},
    View.SameOn (Expression.readsAlong view segments v) view view' →
      Expression.follow view' segments v = Expression.follow view segments v
  | [], _, _ => rfl
  | .mk key dotted :: segments, v, h => by
    unfold Expression.readsAlong at h
    have hkey := Expression.evaluate_of_sameOn key h.left
    have hpath := h.right
    unfold Expression.follow
    rw [hkey]
    cases hk : key.evaluate view with
    | error e => rfl
    | ok k =>
      rw [hk] at hpath
      -- A drop may answer with a variable, so the step reads one as well.
      have hstep := Value.lookup_of_sameOn dotted hpath.left
      have hrest := hpath.right
      show (v.lookup view' k.scalar dotted >>= _) = (v.lookup view k.scalar dotted >>= _)
      rw [hstep]
      cases hw : v.lookup view k.scalar dotted with
      | error e => rfl
      | ok w? =>
        rw [hw] at hrest
        cases w? with
        | some w => exact Expression.follow_of_sameOn segments hrest
        | none =>
          show (if view'.strictVariables = true then _ else _) = _
          rw [h.strict]
          rfl

end

end Stencil
