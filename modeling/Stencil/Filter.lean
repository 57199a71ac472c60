import Stencil.Lookup

/-! # Filters

A filter turns a value into another one, with the help of arguments.  It declares how many arguments
it takes, and a call with another number is refused before the filter runs. -/

namespace Stencil

/-- The evaluated arguments of a filter. -/
structure Arguments where
  positional : List Value := []
  keywords : List (String × Value) := []

namespace Arguments

/-- The argument at a position, nil if it was left out. -/
def arg (args : Arguments) (index : Nat) : Value :=
  (args.positional[index]?).getD .nil

/-- The argument under a name; of several the first. -/
def keyword? (args : Arguments) (name : String) : Option Value :=
  args.keywords.lookup name

end Arguments

/-- A filter and how many arguments it takes. -/
structure Filter where
  required : Nat
  /-- How many more arguments than required it takes. -/
  optional : Nat
  run : View → Value → Arguments → Except Error Value

namespace Filter

/-- The refusal of a call with `given` arguments.  The value that the filter is applied to counts as
one. -/
def arityError (f : Filter) (given : Nat) : Error :=
  let expected :=
    if f.optional = 0 then toString (f.required + 1)
    else toString (f.required + 1) ++ ".." ++ toString (f.required + f.optional + 1)
  .argument ("wrong number of arguments (given " ++ toString (given + 1) ++ ", expected "
    ++ expected ++ ")")

/-- Applies the filter, if the number of arguments is right. -/
def apply (f : Filter) (view : View) (input : Value) (args : Arguments) : Except Error Value :=
  let given := args.positional.length
  if f.required ≤ given ∧ given ≤ f.required + f.optional then f.run view input args
  else .error (f.arityError given)

end Filter

end Stencil
