import Stencil.Markup.Token
import Stencil.Value

/-! # Expressions

The trees that markup is read into: expressions that stand for a value, pipelines that pass a value
through filters, and conditions. -/

namespace Stencil

/-- Data that is written in markup as it is. -/
inductive Literal where
  | nil
  | bool (b : Bool)
  | int (n : Int64)
  | float (x : Float)
  | str (s : String)
  /-- A range between two literal numbers. -/
  | range (first last : Int64)

/-- The value that a literal stands for. -/
def Literal.value : Literal → Value
  | nil => .nil
  | bool b => .bool b
  | int n => .int n
  | float x => .float x
  | str s => .str s
  | range first last => .range first last

instance : Coe Literal Value := ⟨Literal.value⟩

mutual

/-- Something that stands for a value. -/
inductive Expression where
  | literal (literal : Literal)
  /-- The keyword that equals whatever is empty. -/
  | empty
  /-- The keyword that equals whatever is blank. -/
  | blank
  /-- A variable and a path into it. The name is a literal unless it is written in brackets. -/
  | lookup (name : Expression) (segments : List Segment)
  /-- A range whose ends are not both literals. -/
  | range (first last : Expression)
  /-- A path into something that is no variable. -/
  | path (root : Expression) (segments : List Segment)

/-- One step of a path; `dotted` if it is a name after a dot. -/
inductive Segment where
  | mk (key : Expression) (dotted : Bool)

end

instance : Inhabited Expression := ⟨.empty⟩

/-- What the step leads to. -/
def Segment.key : Segment → Expression
  | mk key _ => key

/-- Whether the step is a name after a dot. -/
def Segment.dotted : Segment → Bool
  | mk _ dotted => dotted

/-- The nil literal. -/
def Expression.nil : Expression := .literal .nil

/-- A variable of that name. -/
def Expression.variable (name : String) : Expression := .lookup (.literal (.str name)) []

/-- A filter with its arguments. -/
structure FilterCall where
  name : String
  args : List Expression := []
  keywords : List (String × Expression) := []

/-- An expression with the filters that its value goes through. -/
structure Pipeline where
  source : Expression
  filters : List FilterCall
  /-- Where it is written, if lines are kept. -/
  line : Option Nat := none

/-- Something that is true or false. -/
inductive Condition where
  /-- Whether the value is neither nil nor false. -/
  | truthy (value : Expression)
  | compare (left : Expression) (op : Operator) (right : Expression)
  | and (left right : Condition)
  | or (left right : Condition)
  | always

end Stencil
