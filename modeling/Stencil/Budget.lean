import Stencil.Error

/-! # Budgets

What a render may spend.  Four amounts are counted: the bytes written, the nodes rendered, the
size of what is stored in variables, and how deep scopes are nested.  Each may have a ceiling.  A
charge is counted first and refused afterwards, so a counter shows what was asked for; a refusal
of the first three sets `reached` until the next `reset`.

* `reached_chargeScore`, `reached_chargeAssign`, `reached_chargeWrite`: a charge never clears the
  flag. -/

namespace Stencil

/-- How deep things may be nested unless the host says otherwise. -/
def defaultDepth : Nat := 100

/-- Whether an amount is above its ceiling. -/
def exceeds (amount : Nat) (ceiling : Option Nat) : Bool :=
  match ceiling with
  | some limit => limit < amount
  | none => false

/-- The ceilings of a render and what it has spent. -/
structure Budget where
  lengthCeiling : Option Nat := none
  scoreCeiling : Option Nat := none
  assignCeiling : Option Nat := none
  depthCeiling : Option Nat := some defaultDepth
  /-- Bytes written to the output. -/
  length : Nat := 0
  /-- Nodes rendered. -/
  score : Nat := 0
  /-- Size of what was stored in variables, captured text included. -/
  assigned : Nat := 0
  /-- Scopes that are open. -/
  depth : Nat := 0
  /-- The most scopes that were open at once. -/
  maxDepth : Nat := 0
  /-- Captures that are open. -/
  captures : Nat := 0
  /-- Whether a ceiling was breached. -/
  reached : Bool := false
deriving DecidableEq, Repr

namespace Budget

/-- Clears the counters and keeps the ceilings. -/
def reset (b : Budget) : Budget :=
  { lengthCeiling := b.lengthCeiling
    scoreCeiling := b.scoreCeiling
    assignCeiling := b.assignCeiling
    depthCeiling := b.depthCeiling }

/-- Notes a breach. -/
def markReached (b : Budget) : Budget :=
  { b with reached := true }

/-- Refuses a charge that was counted in `b` when `tooMuch` says that it is too much. -/
def settle (b : Budget) (tooMuch : Bool) : Except Error Unit × Budget :=
  if tooMuch then (.error .overBudget, b.markReached) else (.ok (), b)

/-- Charges the rendering of `amount` nodes. -/
def chargeScore (b : Budget) (amount : Nat) : Except Error Unit × Budget :=
  let b := { b with score := b.score + amount }
  b.settle (exceeds b.score b.scoreCeiling)

/-- Refuses work that would cost more score than is left, without charging it. -/
def checkScore (b : Budget) (amount : Nat) : Except Error Unit :=
  if exceeds (b.score + amount) b.scoreCeiling then .error .overBudget else .ok ()

/-- Charges the storage of a value. -/
def chargeAssign (b : Budget) (amount : Nat) : Except Error Unit × Budget :=
  let b := { b with assigned := b.assigned + amount }
  b.settle (exceeds b.assigned b.assignCeiling)

/-- Charges bytes that are written: to the stored values inside a capture and to the length of the
output elsewhere. -/
def chargeWrite (b : Budget) (bytes : Nat) : Except Error Unit × Budget :=
  if 0 < b.captures then b.chargeAssign bytes
  else
    -- The bytes are counted before they are judged, like every charge.
    let b := { b with length := b.length + bytes }
    b.settle (exceeds b.length b.lengthCeiling)

/-- Opens a capture. -/
def beginCapture (b : Budget) : Budget :=
  { b with captures := b.captures + 1 }

/-- Closes a capture. -/
def endCapture (b : Budget) : Budget :=
  { b with captures := b.captures - 1 }

/-- Opens a scope, unless that nests too deep. -/
def enterScope (b : Budget) : Except Error Unit × Budget :=
  if exceeds (b.depth + 1) b.depthCeiling then (.error .tooDeep, b)
  -- A refusal counts nothing and marks nothing.
  else (.ok (), { b with depth := b.depth + 1, maxDepth := max b.maxDepth (b.depth + 1) })

/-- Closes a scope. -/
def exitScope (b : Budget) : Budget :=
  { b with depth := b.depth - 1 }

/-! ## What a charge changes -/

/-- A charge that is too much is refused, and the flag is set. -/
theorem settle_eq (b : Budget) (tooMuch : Bool) :
    b.settle tooMuch
      = (if tooMuch then .error .overBudget else .ok (),
          { b with reached := tooMuch || b.reached }) := by
  cases tooMuch <;> rfl

/-- A score is noted whether it is refused or not. -/
theorem chargeScore_eq (b : Budget) (amount : Nat) :
    b.chargeScore amount
      = (if exceeds (b.score + amount) b.scoreCeiling then .error .overBudget else .ok (),
          { b with
            score := b.score + amount
            reached := exceeds (b.score + amount) b.scoreCeiling || b.reached }) := by
  rw [chargeScore, settle_eq]

/-- So is an assignment. -/
theorem chargeAssign_eq (b : Budget) (amount : Nat) :
    b.chargeAssign amount
      = (if exceeds (b.assigned + amount) b.assignCeiling then .error .overBudget else .ok (),
          { b with
            assigned := b.assigned + amount
            reached := exceeds (b.assigned + amount) b.assignCeiling || b.reached }) := by
  rw [chargeAssign, settle_eq]

/-- Inside a capture text is charged for like an assignment. -/
theorem chargeWrite_of_captured {b : Budget} (h : 0 < b.captures) (bytes : Nat) :
    b.chargeWrite bytes = b.chargeAssign bytes :=
  if_pos h

/-- Outside it counts for the length of the output. -/
theorem chargeWrite_of_not_captured {b : Budget} (h : b.captures = 0) (bytes : Nat) :
    b.chargeWrite bytes
      = (if exceeds (b.length + bytes) b.lengthCeiling then .error .overBudget else .ok (),
          { b with
            length := b.length + bytes
            reached := exceeds (b.length + bytes) b.lengthCeiling || b.reached }) := by
  rw [chargeWrite, if_neg (by omega), settle_eq]

/-- A written text is charged to what is stored or to the length of the output, and what is open
stays open. -/
theorem captures_chargeWrite (b : Budget) (bytes : Nat) :
    (b.chargeWrite bytes).2.captures = b.captures := by
  cases hc : b.captures with
  | zero => rw [chargeWrite_of_not_captured hc, hc]
  | succ n => rw [chargeWrite_of_captured (by omega), chargeAssign_eq, hc]

/-- Writing has nothing to do with the depth. -/
theorem depth_chargeWrite (b : Budget) (bytes : Nat) :
    (b.chargeWrite bytes).2.depth = b.depth := by
  cases hc : b.captures with
  | zero => rw [chargeWrite_of_not_captured hc]
  | succ n => rw [chargeWrite_of_captured (by omega), chargeAssign_eq]

/-- A flag that is set stays set by a score. -/
theorem reached_chargeScore {b : Budget} (h : b.reached = true) (amount : Nat) :
    (b.chargeScore amount).2.reached = true := by
  simp [chargeScore, settle_eq, h]

theorem reached_chargeAssign {b : Budget} (h : b.reached = true) (amount : Nat) :
    (b.chargeAssign amount).2.reached = true := by
  simp [chargeAssign, settle_eq, h]

theorem reached_chargeWrite {b : Budget} (h : b.reached = true) (bytes : Nat) :
    (b.chargeWrite bytes).2.reached = true := by
  unfold chargeWrite
  split
  · exact reached_chargeAssign h bytes
  · simp [settle_eq, h]

end Budget

end Stencil
