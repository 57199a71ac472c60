import Stencil.Budget
import Stencil.Value

/-! # Views

What an expression can see while it is evaluated.  Evaluation only reads it.  The part of it that
the host's objects are shown as well are the *surroundings*: the scopes with their variables, the
environments behind them, the registers, the budget, the errors so far and what else describes the
render.  With it goes the code of those objects, which makes its answers from the surroundings.

There is always an outermost scope, where assignments land; `inner` holds the scopes opened since,
the innermost first.

* `Scopes.find?_bind`, `Scopes.find?_assign`: what each way of binding a name changes. -/

namespace Stencil

/-- The scopes that are open. -/
structure Scopes where
  /-- The scopes opened inside the outermost one, the innermost first. -/
  inner : List Object := []
  outer : Object := []

namespace Scopes

/-- The first binding of a name in a list of scopes. -/
def findIn? (name : String) : List Object → Option Value
  | [] => none
  | scope :: scopes =>
    match Assoc.get? scope name with
    | some v => some v
    | none => findIn? name scopes

/-- The innermost binding of a name. -/
def find? (s : Scopes) (name : String) : Option Value :=
  (findIn? name s.inner).or (Assoc.get? s.outer name)

/-- Binds a name in the innermost scope. -/
def bind (s : Scopes) (name : String) (value : Value) : Scopes :=
  match s.inner with
  | [] => { s with outer := s.outer.put name value }
  | scope :: scopes => { s with inner := scope.put name value :: scopes }

/-- Binds a name in the outermost scope. -/
def assign (s : Scopes) (name : String) (value : Value) : Scopes :=
  { s with outer := s.outer.put name value }

/-- Opens a scope. -/
def push (s : Scopes) : Scopes :=
  { s with inner := [] :: s.inner }

/-- Closes the innermost scope; the outermost one stays. -/
def pop (s : Scopes) : Scopes :=
  { s with inner := s.inner.tail }

/-- What is found is bound in one of the scopes. -/
theorem exists_mem_of_findIn? {name : String} {v : Value} {scopes : List Object}
    (h : findIn? name scopes = some v) : ∃ scope ∈ scopes, (name, v) ∈ scope := by
  induction scopes with
  | nil => exact nomatch h
  | cons scope scopes ih =>
    unfold findIn? at h
    split at h
    · rename_i w hw
      cases h
      exact ⟨scope, List.mem_cons_self, Assoc.mem_of_get?_eq_some hw⟩
    · obtain ⟨scope', hscope, hmem⟩ := ih h
      exact ⟨scope', List.mem_cons_of_mem _ hscope, hmem⟩

/-- A name bound in the innermost scope has that value, and no other name changes. -/
theorem find?_bind (s : Scopes) (name : String) (value : Value) (name' : String) :
    (s.bind name value).find? name' = if name' = name then some value else s.find? name' := by
  obtain ⟨inner, outer⟩ := s
  cases inner with
  | nil => simp [bind, find?, findIn?, Assoc.get?_put]
  | cons scope scopes =>
    by_cases h : name' = name <;> simp [bind, find?, findIn?, Assoc.get?_put, h]

/-- A name assigned in the outermost scope has that value unless an inner scope binds it. -/
theorem find?_assign (s : Scopes) (name : String) (value : Value) (name' : String) :
    (s.assign name value).find? name'
      = (findIn? name' s.inner).or
          (if name' = name then some value else Assoc.get? s.outer name') := by
  simp [assign, find?, Assoc.get?_put]

@[simp] theorem pop_push (s : Scopes) : s.push.pop = s := rfl

end Scopes

/-- How a loop's iteration is cut short. -/
inductive Interrupt where
  /-- The loop ends. -/
  | break
  /-- The iteration ends. -/
  | continue
deriving DecidableEq, Repr

/-- What the code of a host is shown of the render that it is called from. -/
structure Surroundings where
  scopes : Scopes := {}
  /-- Bindings behind the scopes, consulted in order. -/
  environments : List Object := []
  /-- Values that the host and its tags keep outside the variables. -/
  registers : Assoc Value := []
  /-- How many partials were read so far. -/
  partials : Nat := 0
  budget : Budget := {}
  /-- The errors that were rescued so far. -/
  errors : Array Error := #[]
  /-- The interrupts that no loop has noticed yet, the latest first. -/
  interrupts : List Interrupt := []
  /-- The name of the template that is being rendered. -/
  template : Option String := none
  /-- The tags that must not be used. -/
  disabled : List String := []
  /-- Whether a name without a binding is an error. -/
  strictVariables : Bool := false
  /-- Whether a filter without a registration is an error. -/
  strictFilters : Bool := false

/-- The code of the host's objects: what the object `id` answers to a name that no answer is listed
for, nothing if it does not answer that name.  It may look at all of its surroundings, fail with any
error, or never come back. -/
abbrev Answers := (id : Nat) → (name : String) → Surroundings → Except Error (Option Value)

/-- Host objects that answer nothing but what is listed with them. -/
def Answers.none : Answers := fun _ _ _ => .ok .none

/-- What evaluation can see. -/
structure View extends Surroundings where
  answers : Answers := .none

namespace View

/-- The binding of a variable: scopes from the inside out, then the environments in order. -/
def find? (view : View) (name : String) : Option Value :=
  (view.scopes.find? name).or (Scopes.findIn? name view.environments)

end View

end Stencil
