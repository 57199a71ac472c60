import Stencil.Assoc
import Stencil.Decimal.Text
import Stencil.Error
import Stencil.Text.Blank
import Stencil.Text.Quoted

/-! # Values

The data that templates work on.  Most of it is plain; a *drop* is an object of the host that
answers the names it wants to answer, may stand for another value, and is equal to itself only.
What a host object answers is listed with it as far as it is known beforehand; any other name is
answered by the code of the host, which is a part of the view that the name is looked up in.

* `Value.text` is what a value writes into the output, `Value.inspect` its form inside lists.
* `Value.same` is the equality of templates: by content, with numbers compared across their types.
  -/

namespace Stencil

mutual

/-- A value of the template language. -/
inductive Value where
  | nil
  | bool (b : Bool)
  | int (n : Int64)
  | float (x : Float)
  | str (s : String)
  | array (items : List Value)
  /-- Named values in the order of insertion. -/
  | object (entries : List (String × Value))
  /-- The integers from `first` to `last`, none if `last` is less. -/
  | range (first last : Int64)
  | drop (drop : Drop)

/-- An object that answers lookups by itself. -/
inductive Drop where
  /-- An object of the host. `accessors` are the names it lists and `missing` further names whose
  answer is known; `toLiquid` replaces it before it is looked into and `scalar` where it is compared
  or written.  The object's code, which answers all other names, goes by `id`. -/
  | host (id : Nat) (accessors missing : List (String × Reply)) (toLiquid scalar : Option Value)
      (items : Option (List Value)) (output : String)
  /-- The state of a running loop: the iteration `index` of `length`, counted from zero. `serial`
  tells the iterations of all loops apart. -/
  | loop (serial : Nat) (name : String) (length index : Nat) (parent : Value)

/-- A known answer of a host object to a name. -/
inductive Reply where
  | value (v : Value)
  /-- The host fails.  Its error may have a line and a template already. -/
  | raise (e : Error)
  /-- The answer is whatever the variable is bound to where the name is looked up. -/
  | variable (name : String)

end

/-- Named values in the order of insertion. -/
abbrev Object := Assoc Value

instance : Inhabited Value := ⟨.nil⟩

instance : Inhabited Reply := ⟨.value .nil⟩

instance : Inhabited Drop := ⟨.loop 0 "" 0 0 .nil⟩

/-- What tells one drop from another. -/
inductive Drop.Identity where
  | host (id : Nat)
  | loop (serial : Nat)
deriving DecidableEq

namespace Drop

/-- What tells the drop from others. -/
def identity : Drop → Identity
  | host id .. => .host id
  | loop serial .. => .loop serial

/-- The value that replaces the drop before it is looked into. -/
def toLiquid? : Drop → Option Value
  | host _ _ _ toLiquid .. => toLiquid
  | loop .. => none

/-- The value that stands for the drop where it is compared or written. -/
def scalar? : Drop → Option Value
  | host _ _ _ _ scalar .. => scalar
  | loop .. => none

/-- The items, if the drop is a collection. -/
def items? : Drop → Option (List Value)
  | host _ _ _ _ _ items _ => items
  | loop .. => none

/-- What the drop itself writes. -/
def output : Drop → String
  | host _ _ _ _ _ _ output => output
  | loop .. => "ForloopDrop"

end Drop

namespace Value

/-- Everything but nil and false. -/
def isTruthy : Value → Bool
  | nil | bool false => false
  | _ => true

/-- Whether the value is nil. -/
def isNil : Value → Bool
  | nil => true
  | _ => false

/-- The text of a string value. -/
def str? : Value → Option String
  | str s => some s
  | _ => none

/-- The name of a value's type in error messages. -/
def typeName : Value → String
  | nil => "NilClass"
  | bool true => "TrueClass"
  | bool false => "FalseClass"
  | int _ => "Integer"
  | float _ => "Float"
  | str _ => "String"
  | array _ => "Array"
  | object _ => "Hash"
  | range .. => "Range"
  | drop _ => "Drop"

/-- A count as a value. -/
def ofCount (n : Nat) : Value :=
  int (Decimal.ofCount n)

/-- An entry of an object as it is iterated over: the pair of its key and its value. -/
def ofEntry (entry : String × Value) : Value :=
  array [str entry.1, entry.2]

/-- The value itself, or what stands for it where it is compared or written. -/
def scalar : Value → Value
  | drop d => d.scalar?.getD (drop d)
  | v => v

/-- The value itself, or what replaces it before it is looked into. -/
def liquid : Value → Value
  | drop d => d.toLiquid?.getD (drop d)
  | v => v

/-! ## Text -/

mutual

/-- What a value writes: its form inside lists if it is `quoted`, and its plain output form if
not. -/
def write (quoted : Bool) : Value → String
  | nil => if quoted then "nil" else ""
  | bool b => if b then "true" else "false"
  | int n => toString n.toInt
  | float x => Decimal.floatText x
  | str s => if quoted then Text.quote s else s
  | array items =>
    -- Outside lists the items follow one another with nothing in between.
    if quoted then "[" ++ ", ".intercalate (writeItems true items) ++ "]"
    else String.join (writeItems false items)
  | object entries => "\x7b" ++ ", ".intercalate (writeEntries entries) ++ "\x7d"
  | range first last => toString first.toInt ++ ".." ++ toString last.toInt
  | drop d => writeDrop d

/-- The forms of the items of a list. -/
def writeItems (quoted : Bool) : List Value → List String
  | [] => []
  | v :: vs => v.write quoted :: writeItems quoted vs

/-- The forms of the entries of an object. -/
def writeEntries : List (String × Value) → List String
  | [] => []
  | (k, v) :: es => (Text.quote k ++ "=>" ++ v.write true) :: writeEntries es

/-- The form of a drop: that of the value that stands for it, or its own text. -/
def writeDrop : Drop → String
  | .host _ _ _ _ (some v) _ _ => v.write false
  | .host _ _ _ _ none _ output => output
  | .loop .. => "ForloopDrop"

end

/-- What the value writes into the output. -/
def text (v : Value) : String :=
  v.write false

/-- The form of the value inside lists and objects. -/
def inspect (v : Value) : String :=
  v.write true

/-! ## Emptiness -/

/-- Whether the value has nothing in it; nothing if it is not the kind of value that can be empty.
-/
def isEmpty? : Value → Option Bool
  | str s => some s.isEmpty
  | array items => some items.isEmpty
  | object entries => some entries.isEmpty
  | range first last => some (last < first)
  | drop d => d.items?.map List.isEmpty
  | _ => none

/-- Nil, false, empty collections and text of blank characters only. -/
def isBlank : Value → Bool
  | nil | bool false => true
  | str s => Text.isBlankText s
  | v => v.isEmpty?.getD false

/-! ## Numbers -/

/-- The value as an integer: an integer, a number without its fraction, or a text that is an
integer. -/
def toInteger : Value → Except Error Int64
  | int n => .ok n
  | float x => .ok x.toInt64
  | str s =>
    match Decimal.readWhole? (Text.trim s) with
    | some n => .ok n
    | none => .error .invalidInteger
  | _ => .error .invalidInteger

end Value

/-- A number that arithmetic works on. -/
inductive Number where
  | int (n : Int64)
  | float (x : Float)

namespace Number

/-- The number with a fraction part. -/
def toFloat : Number → Float
  | int n => n.toFloat
  | float x => x

/-- The number as a value. -/
def toValue : Number → Value
  | int n => .int n
  | float x => .float x

/-- The number a text stands for, zero if it stands for none. -/
def ofText (s : String) : Number :=
  let trimmed := Text.trim s
  match Decimal.readWhole? trimmed with
  | some n => int n
  | none =>
    match Decimal.readFloat? trimmed with
    | some x => float x
    | none => int 0

end Number

namespace Value

mutual

/-- The value as a number: numbers are themselves, texts are read, drops give the value that
stands for them, all else is zero.  A drop that nothing stands for has no number: it is asked for
the value that stands for it again and again. -/
def number? : Value → Option Number
  | int n => some (.int n)
  | float x => some (.float x)
  | str s => some (.ofText s)
  | drop d => dropNumber? d
  | _ => some (.int 0)

/-- The number of the value that stands for a drop. -/
def dropNumber? : Drop → Option Number
  | .host _ _ _ _ (some v) _ _ => v.number?
  | _ => none

end

/-- The value as a number.  For a drop that nothing stands for the answer never comes. -/
def number (v : Value) : Except Error Number :=
  match v.number? with
  | some n => .ok n
  | none => .error .crash

/-! ## Equality -/

mutual

/-- Equality of values: by content and, for numbers, across their types.  Objects are equal if
they have equal values under the same keys, in whatever order; drops are equal to themselves only.
-/
def same : Value → Value → Bool
  | nil, nil => true
  | bool a, bool b => a == b
  | int a, int b => a == b
  | int a, float b => a.toFloat == b
  | float a, int b => a == b.toFloat
  | float a, float b => a == b
  | str a, str b => a == b
  | array xs, array ys => sameItems xs ys
  -- Keys are unique, so as many entries and none that differs is enough.
  | object es, object fs => es.length == fs.length && sameEntries es fs
  | range a b, range c d => a == c && b == d
  | drop a, drop b => a.identity == b.identity
  | _, _ => false

/-- Equality of lists, item by item. -/
def sameItems : List Value → List Value → Bool
  | [], [] => true
  | x :: xs, y :: ys => x.same y && sameItems xs ys
  | _, _ => false

/-- Whether every entry has an equal value under its key in the other object. -/
def sameEntries : List (String × Value) → Object → Bool
  | [], _ => true
  | (k, v) :: es, fs =>
    match Assoc.get? fs k with
    | some w => v.same w && sameEntries es fs
    | none => false

end

/-- Whether a list has an item equal to `needle`. -/
def anySame (items : List Value) (needle : Value) : Bool :=
  items.any (·.same needle)

/-! ## Cost -/

mutual

/-- What it costs to store the value in a variable: the bytes of text, one for everything else,
and for collections also what they hold. -/
def storageCost : Value → Nat
  | str s => s.utf8ByteSize
  | array items => 1 + itemsCost items
  | object entries => 1 + entriesCost entries
  | _ => 1

/-- The cost of the items of a list. -/
def itemsCost : List Value → Nat
  | [] => 0
  | v :: vs => v.storageCost + itemsCost vs

/-- The cost of the entries of an object, keys included. -/
def entriesCost : List (String × Value) → Nat
  | [] => 0
  | (k, v) :: es => k.utf8ByteSize + v.storageCost + entriesCost es

end

end Value

end Stencil
