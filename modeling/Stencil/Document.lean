import Stencil.Expression
import Stencil.Registry

/-! # Documents

The tree that a template is read into.  A body is a list of nodes: text, outputs and tags; block
tags hold bodies in turn.  A body is *blank* if it shows nothing but blank text: its texts are
blank, it has no output, and its tags are blank.  The flag is kept up to date while nodes are
added.

* `Body.isBlank_push`: what adding a node does to the flag. -/

namespace Stencil

/-- Where a loop starts. -/
inductive LoopOffset where
  | at (value : Expression)
  /-- Where the last loop of the same name stopped. -/
  | continue

/-- What a loop runs over. -/
structure LoopHeader where
  /-- The variable that is bound to each item. -/
  item : String
  collection : Expression
  reversed : Bool := false
  limit : Option Expression := none
  offset : Option LoopOffset := none

/-- How a partial is called. -/
structure PartialCall where
  template : Expression
  /-- The value that is passed. -/
  object : Option Expression := none
  /-- Whether the partial is rendered for each item of the value. -/
  each : Bool := false
  /-- The name under which the value is passed, if it is not the partial's own. -/
  passedAs : Option String := none
  attributes : List (String × Expression) := []

mutual

/-- A part of a template. -/
inductive Node where
  | text (text : String)
  | output (pipeline : Pipeline)
  | tag (tag : Tag)

/-- Nodes in order, and whether they are blank. -/
inductive Body where
  | mk (nodes : List Node) (blank : Bool)

/-- A body that is rendered under a condition. -/
inductive Branch where
  | mk (condition : Condition) (body : Body)

/-- A body of a choice: for a condition, or for when none held before. -/
inductive Arm where
  | when (condition : Condition) (body : Body)
  | otherwise (body : Body)

/-- A tag with all that belongs to it. -/
inductive Tag where
  | conditional (name : String) (negated : Bool) (branches : List Branch) (line : Option Nat)
      (blank : Bool)
  | choice (arms : List Arm) (line : Option Nat) (blank : Bool)
  /-- A loop; its position is kept under `name`, and `otherwise` is rendered if there is nothing to
  loop over. -/
  | loop (name : String) (header : LoopHeader) (body : Body) (otherwise : Option Body)
      (line : Option Nat) (blank : Bool)
  | interrupt (interrupt : Interrupt) (line : Option Nat)
  | assign (target : String) (source : Pipeline) (line : Option Nat)
  | capture (target : String) (body : Body) (line : Option Nat)
  | comment
  | inlineComment
  | raw (text : String)
  | echo (source : Pipeline)
  | lines (body : Body) (line : Option Nat)
  | includePartial (call : PartialCall) (line : Option Nat)
  | renderPartial (name : String) (call : PartialCall) (line : Option Nat)
  | transform (name : String) (f : String → String) (body : Body)
  | sections (name : String) (bodies : List Body) (blank : Bool)
  | counter (name register : String)

end

/-- A template that was read. -/
abbrev Document := Body

namespace Body

/-- The nodes in order. -/
def nodes : Body → List Node
  | mk nodes _ => nodes

/-- Whether the body shows nothing but blank text. -/
def isBlank : Body → Bool
  | mk _ blank => blank

/-- Has no nodes. -/
def empty : Body := mk [] true

end Body

instance : Inhabited Body := ⟨.empty⟩

namespace Tag

/-- The name that the tag goes by. -/
def name : Tag → String
  | conditional name .. => name
  | choice .. => "case"
  | loop .. => "for"
  | interrupt .break _ => "break"
  | interrupt .continue _ => "continue"
  | assign .. => "assign"
  | capture .. => "capture"
  | comment => "comment"
  | inlineComment => "#"
  | raw _ => "raw"
  | echo _ => "echo"
  | lines .. => "liquid"
  | includePartial .. => "include"
  | renderPartial .. => "render"
  | transform name .. => name
  | sections name .. => name
  | counter name _ => name

/-- The line on which the tag starts, if it keeps one. -/
def line : Tag → Option Nat
  | conditional _ _ _ line _ => line
  | choice _ line _ => line
  | loop _ _ _ _ line _ => line
  | interrupt _ line => line
  | assign _ _ line => line
  | capture _ _ line => line
  | echo source => source.line
  | lines _ line => line
  | includePartial _ line => line
  | renderPartial _ _ line => line
  | comment | inlineComment | raw _ | transform .. | sections .. | counter .. => none

/-- Whether the tag never writes anything that can be seen. -/
def isBlank : Tag → Bool
  | conditional _ _ _ _ blank => blank
  | choice _ _ blank => blank
  | loop _ _ _ _ _ blank => blank
  | assign .. | capture .. | comment | inlineComment => true
  | raw text => text.isEmpty
  | lines body _ => body.isBlank
  | sections _ _ blank => blank
  | interrupt .. | echo _ | includePartial .. | renderPartial .. | transform .. | counter .. =>
    false

end Tag

/-- Whether the node shows nothing but blank text. -/
def Node.isBlank : Node → Bool
  | text s => Text.isBlankText s
  | output _ => false
  | tag t => t.isBlank

/-- Whether the node is a text. -/
def Node.isText : Node → Bool
  | text _ => true
  | _ => false

namespace Body

/-- Adds a node at the end. -/
def push (body : Body) (node : Node) : Body :=
  mk (body.nodes ++ [node]) (body.isBlank && node.isBlank)

/-- A body with one more node is blank if it was and the node is. -/
@[simp] theorem isBlank_push (body : Body) (node : Node) :
    (body.push node).isBlank = (body.isBlank && node.isBlank) := rfl

@[simp] theorem nodes_push (body : Body) (node : Node) :
    (body.push node).nodes = body.nodes ++ [node] := rfl

/-- Removes blank characters from the end of a text that comes last, and the text itself if
nothing of it is left. -/
def trimLastText (body : Body) : Body :=
  match body.nodes.getLast? with
  | some (.text s) =>
    let trimmed := Text.trimEnd s
    mk (body.nodes.dropLast ++ if trimmed.isEmpty then [] else [.text trimmed]) body.isBlank
  | _ => body

/-- Removes the texts. -/
def withoutTexts (body : Body) : Body :=
  mk (body.nodes.filter fun node => !node.isText) body.isBlank

end Body

end Stencil
