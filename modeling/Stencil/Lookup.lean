import Stencil.Value.Collection
import Stencil.View

/-! # Lookup

One step of a path: what a value answers to a key.  Collections answer indices, objects their keys,
drops whatever they like; after a dot, every collection also answers the names of its size, its ends
and its emptiness. -/

namespace Stencil

/-- The known answer of a host object. -/
def Reply.resolve (view : View) : Reply → Except Error Value
  | .value v => .ok v
  | .raise e => .error e
  | .variable name => .ok ((view.find? name).getD .nil)

/-- What a running loop answers to a name: where it is, and the loop around it. -/
def Drop.loopMember? (name : String) (length index : Nat) (parent : Value) :
    String → Option Value
  | "name" => some (.str name)
  | "length" => some (.ofCount length)
  | "index" => some (.ofCount (index + 1))
  | "index0" => some (.ofCount index)
  | "rindex" => some (.ofCount (length - index))
  | "rindex0" => some (.ofCount (length - index - 1))
  | "first" => some (.bool (index == 0))
  | "last" => some (.bool (index + 1 == length))
  | "parentloop" => some parent
  | _ => none

/-- What a drop answers to a name by itself.  For a host object these are its accessors, then its
further names, and then whatever its code answers. -/
def Drop.member? (view : View) (name : String) : Drop → Except Error (Option Value)
  | .host id accessors missing .. =>
    match (accessors.lookup name).or (missing.lookup name) with
    | some reply => (reply.resolve view).map some
    | none => view.answers id name view.toSurroundings
  | .loop _ loopName length index parent => .ok (Drop.loopMember? loopName length index parent name)

/-- What a drop answers to a key.  A name that it does not answer itself goes to its items; if they
have no answer either, the drop answers nil, unless missing names are errors. -/
def Drop.lookup (view : View) (d : Drop) (key : Value) (dotted : Bool) :
    Except Error (Option Value) := do
  let name := key.text
  match ← d.member? view name with
  | some v => return some v
  | none =>
    match d.items?.bind fun items => (Collection.items items).lookup? key dotted with
    | some v => return some v
    | none =>
      -- The path goes on from nil: a drop has an answer to every name.
      if view.strictVariables then throw (.undefinedDropMethod name d.output)
      else return some .nil

/-- What an object answers to a key: the value under the key's text, or what every collection
answers. -/
def Object.lookup? (entries : Object) (key : Value) (dotted : Bool) : Option Value :=
  match Assoc.get? entries key.text with
  | some v => some v
  | none => if dotted then (Collection.entries entries).accessor? key.text else none

/-- What a value answers to a key, nothing if it has no such member.  `dotted` says that the key
is a name after a dot. -/
def Value.lookup (view : View) (v key : Value) (dotted : Bool) : Except Error (Option Value) :=
  match v with
  | .drop d => d.lookup view key dotted
  | .object entries => .ok (Object.lookup? entries key dotted)
  | .array items => .ok ((Collection.items items).lookup? key dotted)
  | .range first last => .ok ((Collection.range first last).lookup? key dotted)
  | .str s => .ok ((Collection.characters s).lookup? key dotted)
  | _ => .ok none

end Stencil
