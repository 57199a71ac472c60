import Stencil.Evaluation
import Stencil.Filter.Standard
import Stencil.Proofs.Outcome

/-!
# Evaluation in two views

Two views may differ in what only some of an evaluation can tell apart: in the ceilings of the
budget, in the switches for undefined names, in the errors so far. An evaluation in the second view
then has the same result as in the first one, unless the first one is an error of the kind that the
difference is about.

That is an induction over expressions, a fact about each standard filter, and for the rest what is
known of the host's objects and filters.

## Key definitions

- `Follows`: the same result, unless the first one is such an error
- `View.FollowedBy`: what two views have in common
- `Filter.Follows`: a filter that has no other way to tell such views apart

## Key results

- `Expression.evaluate_follows`, `Condition.evaluate_follows`, `Pipeline.evaluate_follows`
- `Filter.standard_follows`: all standard filters
-/

namespace Stencil

/-! ## Results that follow one another -/

/-- The second result is the first one, unless that is an error that `p` holds of. -/
def Follows {α : Type} (p : Error → Bool) (r r' : Except Error α) : Prop :=
  Meets (fun _ => True) (fun e => p e = false) r → r' = r

namespace Follows

variable {α β γ : Type} {p : Error → Bool}

/-- Equal results follow each other. -/
theorem of_eq {r r' : Except Error α} (h : r' = r) : Follows p r r' :=
  fun _ => h

/-- An error that `p` holds of may become anything. -/
theorem of_error {e : Error} (h : p e = true) (r' : Except Error α) : Follows p (.error e) r' := by
  intro hno
  have hno : p e = false := hno
  rw [h] at hno
  exact nomatch hno

/-- Where `p` holds of no error the results are the same. -/
theorem eq {r r' : Except Error α} (h : Follows (fun _ => false) r r') : r' = r := by
  refine h ?_
  cases r with
  | ok a => trivial
  | error e => rfl

/-- So do one step after the other. -/
theorem bind {r r' : Except Error α} {f f' : α → Except Error β} (hr : Follows p r r')
    (hf : ∀ a, Follows p (f a) (f' a)) : Follows p (r >>= f) (r' >>= f') := by
  intro hno
  cases r with
  | error e =>
    rw [hr hno]
    rfl
  | ok a =>
    rw [hr trivial]
    exact hf a hno

/-- What is made of a result follows as the result does. -/
theorem map {r r' : Except Error α} (hr : Follows p r r') (f : α → β) :
    Follows p (f <$> r) (f <$> r') := by
  intro hno
  cases r with
  | error e => rw [hr hno]
  | ok a => rw [hr trivial]

/-- Item by item, by induction on the items. -/
theorem mapM {f f' : α → Except Error β} (hf : ∀ a, Follows p (f a) (f' a)) (items : List α) :
    Follows p (items.mapM f) (items.mapM f') := by
  induction items with
  | nil => exact .of_eq rfl
  | cons item items ih =>
    rw [List.mapM_cons, List.mapM_cons]
    exact .bind (hf item) fun b => .bind ih fun bs => .of_eq rfl

/-- So it is with a fold. -/
theorem foldlM {f f' : β → γ → Except Error β} (hf : ∀ b c, Follows p (f b c) (f' b c))
    (items : List γ) (b : β) : Follows p (items.foldlM f b) (items.foldlM f' b) := by
  induction items generalizing b with
  | nil => exact .of_eq rfl
  | cons item items ih =>
    rw [List.foldlM_cons, List.foldlM_cons]
    exact .bind (hf b item) ih

/-- And with a filter. -/
theorem filterM {f f' : α → Except Error Bool} (hf : ∀ a, Follows p (f a) (f' a))
    (items : List α) : Follows p (items.filterM f) (items.filterM f') := by
  have haux (kept : List α) :
      Follows p (List.filterAuxM f items kept) (List.filterAuxM f' items kept) := by
    induction items generalizing kept with
    | nil => exact .of_eq rfl
    | cons item items ih => exact .bind (hf item) fun keep => ih _
  exact .bind (haux []) fun kept => .of_eq rfl

end Follows

/-! ## Views -/

/-- The switch for undefined names is the same, or it was turned off and `p` holds of what it
raises. -/
def SwitchFollows (p : Error → Bool) (strict strict' : Bool) : Prop :=
  strict' = strict ∨ strict' = false ∧ ∀ e : Error, e.isUndefined = true → p e = true

/-- What is asked of a view has the same answer in the other view, unless the first one is an error
that `p` holds of. -/
structure View.FollowedBy (p : Error → Bool) (view view' : View) : Prop where
  find : ∀ name, view'.find? name = view.find? name
  answers : ∀ id name, Follows p (view.answers id name view.toSurroundings)
    (view'.answers id name view'.toSurroundings)
  strictVariables : SwitchFollows p view.strictVariables view'.strictVariables
  strictFilters : SwitchFollows p view.strictFilters view'.strictFilters
  /-- Whether there is room for a range. -/
  room : ∀ amount, Follows p (view.budget.checkScore amount) (view'.budget.checkScore amount)

/-- An undefined name is an error under the switch, and what follows without it. -/
private theorem SwitchFollows.ite {α : Type} {p : Error → Bool} {strict strict' : Bool}
    (h : SwitchFollows p strict strict') {e : Error} (he : e.isUndefined = true)
    {r r' : Except Error α} (hr : Follows p r r') :
    Follows p (if strict then .error e else r) (if strict' then .error e else r') := by
  rcases h with rfl | ⟨rfl, hp⟩
  · cases strict' with
    | true => exact .of_eq rfl
    | false => exact hr
  · cases strict with
    | true => exact .of_error (hp e he) _
    | false => exact hr

/-! ## Expressions -/

section

variable {p : Error → Bool} {view view' : View} (h : view.FollowedBy p view')
include h

/-- A member of a drop is asked for, and what it answers follows. -/
theorem Drop.member?_follows (name : String) (d : Drop) :
    Follows p (d.member? view name) (d.member? view' name) := by
  have hresolve (reply : Reply) : reply.resolve view' = reply.resolve view := by
    cases reply with
    | value | raise => rfl
    | «variable» name => exact congrArg (fun v? => Except.ok (v?.getD Value.nil)) (h.find name)
  cases d with
  | host id accessors missing =>
    unfold Drop.member?
    dsimp only
    cases (accessors.lookup name).or (missing.lookup name) with
    | some reply => exact .of_eq (congrArg (Except.map some) (hresolve reply))
    | none => exact h.answers id name
  | loop => exact .of_eq rfl

/-- What a host object answers to a key. -/
theorem Drop.lookup_follows (d : Drop) (key : Value) (dotted : Bool) :
    Follows p (d.lookup view key dotted) (d.lookup view' key dotted) := by
  unfold Drop.lookup
  refine .bind (d.member?_follows h key.text) fun member => ?_
  cases member with
  | some v => exact .of_eq rfl
  | none =>
    -- A member that the object does not have is an error, or nil.
    dsimp only
    split
    · exact .of_eq rfl
    · exact h.strictVariables.ite rfl (.of_eq rfl)

/-- Only drops look at the view. -/
theorem Value.lookup_follows (v key : Value) (dotted : Bool) :
    Follows p (v.lookup view key dotted) (v.lookup view' key dotted) := by
  cases v with
  | drop d => exact d.lookup_follows h key dotted
  | _ => exact .of_eq rfl

mutual

/-- The value of an expression. -/
theorem Expression.evaluate_follows : ∀ e : Expression,
    Follows p (e.evaluate view) (e.evaluate view')
  | .literal _ => .of_eq rfl
  | .empty => .of_eq rfl
  | .blank => .of_eq rfl
  | .lookup name segments => by
    unfold Expression.evaluate
    refine .bind (Expression.evaluate_follows name) fun v => ?_
    dsimp only
    -- Variables are bound to the same values in both views.
    rw [h.find]
    split
    · exact Expression.follow_follows segments _
    · -- A variable without a binding.
      exact h.strictVariables.ite rfl (Expression.follow_follows segments .nil)
  | .range first last => by
    unfold Expression.evaluate
    refine .bind (Expression.evaluate_follows first) fun v => .bind (.of_eq rfl) fun a => ?_
    exact .bind (Expression.evaluate_follows last) fun w => .of_eq rfl
  | .path root segments => by
    unfold Expression.evaluate
    exact .bind (Expression.evaluate_follows root) fun v => Expression.follow_follows segments _

/-- The value at the end of a path. -/
theorem Expression.follow_follows : ∀ (segments : List Segment) (v : Value),
    Follows p (Expression.follow view segments v) (Expression.follow view' segments v)
  | [], _ => .of_eq rfl
  | .mk key dotted :: segments, v => by
    unfold Expression.follow
    refine .bind (Expression.evaluate_follows key) fun k => ?_
    refine .bind (v.lookup_follows h k.scalar dotted) fun member => ?_
    cases member with
    | some w => exact Expression.follow_follows segments w.liquid
    | none =>
      -- A step that leads nowhere.
      exact h.strictVariables.ite rfl (.of_eq rfl)

end

/-! ## Conditions -/

/-- An operand is evaluated like any expression. -/
theorem Expression.operand_follows (e : Expression) :
    Follows p (e.operand view) (e.operand view') :=
  (e.evaluate_follows h).map _

/-- The comparison of two operands evaluates both. -/
theorem Expression.equals_follows (left right : Expression) :
    Follows p (left.equals view right) (left.equals view' right) := by
  unfold Expression.equals
  split
  · exact (Expression.operand_follows h _).map _
  · exact (Expression.operand_follows h _).map _
  · exact (Expression.operand_follows h _).map _
  · exact (Expression.operand_follows h _).map _
  · exact .bind (left.operand_follows h) fun l =>
      .bind (right.operand_follows h) fun r => .of_eq rfl

/-- So does every operator. -/
theorem Operator.evaluate_follows (op : Operator) (left right : Expression) :
    Follows p (op.evaluate view left right) (op.evaluate view' left right) := by
  have hboth {f : Value → Value → Except Error Bool} :
      Follows p (left.operand view >>= fun l => right.operand view >>= f l)
        (left.operand view' >>= fun l => right.operand view' >>= f l) :=
    .bind (left.operand_follows h) fun l => .bind (right.operand_follows h) fun r => .of_eq rfl
  cases op with
  | eq => exact left.equals_follows h right
  | notEq => exact (left.equals_follows h right).map _
  | contains => exact hboth
  | lt => exact hboth
  | ltEq => exact hboth
  | gt => exact hboth
  | gtEq => exact hboth

/-- Whether a condition holds. -/
theorem Condition.evaluate_follows (condition : Condition) :
    Follows p (condition.evaluate view) (condition.evaluate view') := by
  induction condition with
  | truthy e => exact (e.operand_follows h).map _
  | compare left op right => exact op.evaluate_follows h left right
  -- The right side is looked at only if the left one leaves it open.
  | and left right ihl ihr =>
    refine .bind ihl fun holds => ?_
    cases holds with
    | true => exact ihr
    | false => exact .of_eq rfl
  | or left right ihl ihr =>
    refine .bind ihl fun holds => ?_
    cases holds with
    | true => exact .of_eq rfl
    | false => exact ihr
  | always => exact .of_eq rfl

/-! ## Pipelines -/

/-- The arguments of a filter are evaluated one after the other. -/
theorem FilterCall.arguments_follows (call : FilterCall) :
    Follows p (call.arguments view) (call.arguments view') := by
  refine .bind (.mapM (·.evaluate_follows h) call.args) fun positional => ?_
  refine .bind (.mapM (fun entry => ?_) call.keywords) fun keywords => .of_eq rfl
  exact .bind (entry.2.evaluate_follows h) fun v => .of_eq rfl

/-- The value of a pipeline, if the filters in it give the same in both views. -/
theorem Pipeline.evaluate_follows {filters : Assoc Filter}
    (hfilters : ∀ e ∈ filters, ∀ input args,
      Follows p (e.2.run view input args) (e.2.run view' input args)) (pipeline : Pipeline) :
    Follows p (pipeline.evaluate filters view) (pipeline.evaluate filters view') := by
  refine .bind (pipeline.source.evaluate_follows h) fun v => .foldlM ?_ pipeline.filters v
  intro input call
  unfold FilterCall.evaluate
  split
  · rename_i filter hfilter
    refine .bind (call.arguments_follows h) fun args => ?_
    unfold Filter.apply
    dsimp only
    split
    · exact hfilters _ (Assoc.mem_of_get?_eq_some hfilter) input args
    · exact .of_eq rfl
  · -- A filter without a registration.
    exact h.strictFilters.ite rfl (.of_eq rfl)

end

/-! ## Filters -/

/-- The filter asks the view for nothing but what follows. -/
def Filter.Follows (p : Error → Bool) (f : Filter) : Prop :=
  ∀ (view view' : View) (input : Value) (args : Arguments), view.FollowedBy p view' →
    Stencil.Follows p (f.run view input args) (f.run view' input args)

namespace Filter

variable {p : Error → Bool} {view view' : View}

/-- A filter that looks at neither view. -/
theorem Follows.of_eq {f : Filter}
    (h : ∀ view view' input args, f.run view' input args = f.run view input args) : f.Follows p :=
  fun view view' input args _ => .of_eq (h view view' input args)

/-- A range that there is room for is written out. -/
theorem itemsOf_follows (h : view.FollowedBy p view') (input : Value) :
    Stencil.Follows p (itemsOf view input) (itemsOf view' input) := by
  cases input with
  | range first last => exact .bind (h.room _) fun _ => .of_eq rfl
  | _ => exact .of_eq rfl

/-- A filter that works on items, and with these on what follows. -/
theorem Follows.of_items {f : Filter} (g : View → Arguments → List Value → Except Error Value)
    (hrun : ∀ view input args, f.run view input args = itemsOf view input >>= g view args)
    (hg : ∀ view view' args items, view.FollowedBy p view' →
      Stencil.Follows p (g view args items) (g view' args items)) : f.Follows p := by
  intro view view' input args h
  rw [hrun, hrun]
  exact .bind (itemsOf_follows h input) fun items => hg view view' args items h

/-- A property of an item is looked up in it. -/
theorem property_follows (h : view.FollowedBy p view') (name item : Value) :
    Stencil.Follows p (property view name item) (property view' name item) :=
  .bind (item.lookup_follows h name true) fun _ => .of_eq rfl

/-- The key of an item is the item or a property of it. -/
theorem keyOf_follows (h : view.FollowedBy p view') (args : Arguments) (item : Value) :
    Stencil.Follows p (keyOf view args item) (keyOf view' args item) := by
  unfold keyOf
  split
  · exact property_follows h _ item
  · exact .of_eq rfl

/-- By induction on the items, with the keys that were seen. -/
theorem distinctFrom_follows {key key' : Value → Except Error Value}
    (hkey : ∀ item, Stencil.Follows p (key item) (key' item)) (items : List Value)
    (seen : List Value) :
    Stencil.Follows p (distinctFrom key seen items) (distinctFrom key' seen items) := by
  induction items generalizing seen with
  | nil => exact .of_eq rfl
  | cons item items ih =>
    refine .bind (hkey item) fun k => ?_
    split
    · exact ih seen
    · exact .bind (ih _) fun kept => .of_eq rfl

/-- The first item of each key. -/
private theorem uniq_follows : uniq.Follows p := by
  refine .of_items (fun view args items => do
    return .array (← distinctFrom (keyOf view args) [] items)) (fun _ _ _ => rfl) ?_
  intro view view' args items h
  exact .bind (distinctFrom_follows (keyOf_follows h args) items []) fun _ => .of_eq rfl

/-- The items whose key is not nil. -/
private theorem compact_follows : compact.Follows p := by
  refine .of_items _ (fun _ _ _ => rfl) fun view view' args items h => .bind ?_ fun _ => .of_eq rfl
  exact .filterM (fun item => .bind (keyOf_follows h args item) fun _ => .of_eq rfl) items

/-- Keys are looked up, and sorting looks at them alone. -/
private theorem sort_follows : sort.Follows p := by
  refine .of_items _ (fun _ _ _ => rfl) fun view view' args items h => .bind ?_ fun _ => .of_eq rfl
  exact .mapM (fun item => .bind (keyOf_follows h args item) fun _ => .of_eq rfl) items

/-- A property of every item. -/
private theorem map_follows : map.Follows p := by
  refine .of_items _ (fun _ _ _ => rfl) fun view view' args items h => .bind ?_ fun _ => .of_eq rfl
  exact .mapM (property_follows h (args.arg 0)) items

/-- A filter that looks at the items alone. -/
private theorem ofItems_follows {required optional : Nat}
    {g : Arguments → List Value → Except Error Value} :
    Filter.Follows p ⟨required, optional, fun view input args => itemsOf view input >>= g args⟩ :=
  .of_items (fun _ => g) (fun _ _ _ => rfl) fun _ _ _ _ _ => .of_eq rfl

/-- The first of the items. -/
private theorem first_follows : first.Follows p :=
  .of_eq fun _ _ input _ => by cases input <;> rfl

/-- The last of them. -/
private theorem last_follows : last.Follows p :=
  .of_eq fun _ _ input _ => by cases input <;> rfl

/-- No standard filter has another way to tell the views apart. -/
theorem standard_follows : ∀ e ∈ standard, Filter.Follows p e.2 := by
  -- All but those that work on items do not look at what they could see.
  have hblind {required optional : Nat} {run : Value → Arguments → Except Error Value} :
      Filter.Follows p ⟨required, optional, fun _ => run⟩ :=
    .of_eq fun _ _ _ _ => rfl
  unfold standard
  simp only [List.forall_mem_cons]
  -- In the order of the list.
  exact ⟨hblind, hblind, hblind, hblind, hblind, hblind, hblind, hblind, hblind, hblind, hblind,
    hblind, hblind, ofItems_follows, first_follows, last_follows, ofItems_follows, uniq_follows,
    compact_follows, sort_follows, map_follows, hblind, hblind, hblind, hblind, hblind, hblind,
    hblind, hblind, hblind, hblind, hblind, hblind, hblind, hblind, List.forall_mem_nil _⟩

end Filter

end Stencil
