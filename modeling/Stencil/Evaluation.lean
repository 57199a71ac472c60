import Stencil.Expression
import Stencil.Filter
import Stencil.Text.Search
import Stencil.Value.Order

/-! # Evaluation

What expressions, pipelines and conditions mean in a view.  Evaluation reads the view and changes
nothing; it fails where host data fails, where a filter refuses its arguments, and, if the view is
strict, where a name has no meaning.

* `Condition.evaluate_and`, `Condition.evaluate_or`: the right side is looked at only if the left
  side does not decide. -/

namespace Stencil

mutual

/-- The value of an expression.  The keywords for what is empty and what is blank are empty texts
wherever they are not compared with. -/
def Expression.evaluate (view : View) : Expression → Except Error Value
  | .literal l => .ok l
  | .empty | .blank => .ok (.str "")
  | .lookup name segments => do
    let name := (← name.evaluate view).scalar.text
    match view.find? name with
    | some v => Expression.follow view segments v.liquid
    -- A name without a binding is nil, and a path goes on from there.
    | none =>
      if view.strictVariables then throw (.undefinedVariable name)
      else Expression.follow view segments .nil
  | .range first last => do
    let first ← (← first.evaluate view).scalar.toInteger
    let last ← (← last.evaluate view).scalar.toInteger
    return .range first last
  | .path root segments => do
    Expression.follow view segments (← root.evaluate view).liquid

/-- The value at the end of a path that starts at `v`.  A step that leads nowhere ends the path with
nil, or is an error if the view is strict. -/
def Expression.follow (view : View) : List Segment → Value → Except Error Value
  | [], v => .ok v
  | .mk key dotted :: segments, v => do
    let key := (← key.evaluate view).scalar
    match ← v.lookup view key dotted with
    | some w => Expression.follow view segments w.liquid
    -- The keys behind a step that leads nowhere are not evaluated.
    | none =>
      if view.strictVariables then throw (.undefinedVariable key.text)
      else return .nil

end

/-- The values of the arguments of a filter: those by position, then those by name. -/
def FilterCall.arguments (view : View) (call : FilterCall) : Except Error Arguments := do
  let positional ← call.args.mapM (·.evaluate view)
  let keywords ← call.keywords.mapM fun (name, arg) => return (name, ← arg.evaluate view)
  return { positional, keywords }

/-- Puts a value through a filter.  A filter that does not exist leaves the value alone, or is an
error if the view is strict; its arguments are not looked at. -/
def FilterCall.evaluate (filters : Assoc Filter) (view : View) (call : FilterCall) (input : Value) :
    Except Error Value :=
  match filters.get? call.name with
  | some filter => do filter.apply view input (← call.arguments view)
  | none => if view.strictFilters then .error (.undefinedFilter call.name) else .ok input

/-- The value of an expression after all its filters. -/
def Pipeline.evaluate (filters : Assoc Filter) (view : View) (p : Pipeline) :
    Except Error Value := do
  p.filters.foldlM (fun value call => call.evaluate filters view value) (← p.source.evaluate view)

/-! ## Conditions -/

namespace Value

/-- Whether a value contains another one: texts contain texts, lists items, objects keys and ranges
integers.  Nothing contains nil. -/
def contains : Value → Value → Bool
  | _, nil => false
  | str text, needle => Text.occursIn needle.text text
  | array items, needle => anySame items needle
  | object entries, key => Assoc.binds entries key.text
  | range first last, int n => first ≤ n && n ≤ last
  | drop d, needle => (d.items?.map (anySame · needle)).getD false
  | _, _ => false

/-- Whether two values are ordered as `holds` says.  Comparing a number with a text is an error; any
other two values without an order are not ordered in any way. -/
def ordered (holds : Ordering → Bool) (left right : Value) : Except Error Bool :=
  match left, right with
  | int _, str _ | float _, str _ | str _, int _ | str _, float _ =>
    .error (incomparable left right)
  | _, _ => .ok ((left.order? right).any holds)

end Value

/-- The value of an expression where it is compared. -/
def Expression.operand (view : View) (e : Expression) : Except Error Value :=
  Value.scalar <$> e.evaluate view

/-- Whether two expressions are equal.  A keyword asks whether the other side is empty or blank. -/
def Expression.equals (view : View) (left right : Expression) : Except Error Bool :=
  match left, right with
  | .empty, other | other, .empty => (·.isEmpty?.getD false) <$> other.operand view
  | .blank, other | other, .blank => Value.isBlank <$> other.operand view
  | _, _ => do return (← left.operand view).same (← right.operand view)

/-- What an operator says about two values. -/
def Operator.evaluate (view : View) (op : Operator) (left right : Expression) :
    Except Error Bool :=
  match op with
  | .eq => left.equals view right
  | .notEq => not <$> left.equals view right
  | .contains => do return (← left.operand view).contains (← right.operand view)
  | .lt => compared Ordering.isLT
  | .ltEq => compared Ordering.isLE
  | .gt => compared Ordering.isGT
  | .gtEq => compared Ordering.isGE
where
  /-- Compares the values of the two sides. -/
  compared (holds : Ordering → Bool) : Except Error Bool := do
    let l ← left.operand view
    let r ← right.operand view
    l.ordered holds r

namespace Condition

/-- Whether a condition holds. -/
def evaluate (view : View) : Condition → Except Error Bool
  | truthy e => Value.isTruthy <$> e.operand view
  | compare left op right => op.evaluate view left right
  | and left right => do
    if ← left.evaluate view then right.evaluate view else return false
  | or left right => do
    if ← left.evaluate view then return true else right.evaluate view
  | always => .ok true

variable {view : View}

theorem evaluate_and {left right : Condition} {b : Bool} (h : left.evaluate view = .ok b) :
    (and left right).evaluate view = if b then right.evaluate view else .ok false := by
  simp only [evaluate, h]
  cases b <;> rfl

theorem evaluate_or {left right : Condition} {b : Bool} (h : left.evaluate view = .ok b) :
    (or left right).evaluate view = if b then .ok true else right.evaluate view := by
  simp only [evaluate, h]
  cases b <;> rfl

end Condition

end Stencil
