import Stencil.Proofs.HereditaryFilters
import Stencil.Proofs.Renders

/-!
# Errors of the host

Some errors come from the host only: those that exhaust a budget, but for the one error of the
budget itself, those that are foreign, and those that have a place already. That nothing within a
value raises such an error is handed down to what is within it and to what it answers.

## Key definitions

- `Value.avoids`: nothing within a value raises a bad error
- `HostOnly`: the bad errors are none of the engine's own
- `Answers.Avoid`: the code of the host raises none where it finds nothing that does

## Key results

- `Hereditary.avoids`: evaluation gives only values within which nothing raises such an error, and
  fails with none
-/

namespace Stencil

/-! ## What raises an error -/

mutual

/-- Whether nothing within a value raises an error that is bad. -/
def Value.avoids (bad : Error → Bool) : Value → Bool
  | .array items => Value.allAvoid bad items
  | .object entries => Value.entriesAvoid bad entries
  | .drop drop => drop.avoids bad
  | .nil | .bool _ | .int _ | .float _ | .str _ | .range .. => true

def Value.allAvoid (bad : Error → Bool) : List Value → Bool
  | [] => true
  | v :: vs => v.avoids bad && Value.allAvoid bad vs

def Value.entriesAvoid (bad : Error → Bool) : List (String × Value) → Bool
  | [] => true
  | (_, v) :: es => v.avoids bad && Value.entriesAvoid bad es

def Value.optionAvoids (bad : Error → Bool) : Option Value → Bool
  | none => true
  | some v => v.avoids bad

def Value.itemsAvoid (bad : Error → Bool) : Option (List Value) → Bool
  | none => true
  | some items => Value.allAvoid bad items

/-- Whether no answer that is listed with a drop is an error that is bad, or leads to one. -/
def Drop.avoids (bad : Error → Bool) : Drop → Bool
  | .host _ accessors missing toLiquid scalar items _ =>
    Reply.allAvoid bad accessors && Reply.allAvoid bad missing
      && Value.optionAvoids bad toLiquid && Value.optionAvoids bad scalar
      && Value.itemsAvoid bad items
  | .loop _ _ _ _ parent => parent.avoids bad

def Reply.avoids (bad : Error → Bool) : Reply → Bool
  | .value v => v.avoids bad
  | .raise e => !bad e
  | .variable _ => true

def Reply.allAvoid (bad : Error → Bool) : List (String × Reply) → Bool
  | [] => true
  | (_, reply) :: replies => reply.avoids bad && Reply.allAvoid bad replies

end

/-- The error is not bad, unless it is that of the budget itself. -/
def Error.Avoids (bad : Error → Bool) (e : Error) : Prop :=
  bad e = true → e = .overBudget

/-- The result of an evaluation in which nothing raises an error that is bad. -/
abbrev Avoids (bad : Error → Bool) : Except Error Value → Prop :=
  Meets (fun v => v.avoids bad = true) (Error.Avoids bad)

variable {bad : Error → Bool}

namespace Value

/-- Items avoid an error if each of them does. -/
theorem allAvoid_iff {items : List Value} :
    allAvoid bad items = true ↔ ∀ v ∈ items, v.avoids bad = true := by
  induction items with
  | nil => simp [allAvoid]
  | cons v items ih => simp [allAvoid, ih]

/-- So do entries. -/
theorem entriesAvoid_iff {entries : List (String × Value)} :
    entriesAvoid bad entries = true ↔ ∀ e ∈ entries, e.2.avoids bad = true := by
  induction entries with
  | nil => simp [entriesAvoid]
  | cons e entries ih => simp [entriesAvoid, ih]

end Value

/-- A reply avoids what all of them do. -/
theorem Reply.avoids_of_lookup {replies : List (String × Reply)}
    (h : Reply.allAvoid bad replies = true) {name : String} {reply : Reply}
    (hl : replies.lookup name = some reply) : reply.avoids bad = true := by
  have hmem : (name, reply) ∈ replies := Assoc.mem_of_get?_eq_some hl
  clear hl
  induction replies with
  | nil => exact nomatch hmem
  | cons e replies ih =>
    obtain ⟨hreply, hrest⟩ := Bool.and_eq_true_iff.mp h
    rcases List.mem_cons.mp hmem with rfl | hmem
    · exact hreply
    · exact ih hrest hmem

/-! ## What a drop holds and answers -/

namespace Drop

variable {drop : Drop} (h : (Value.drop drop).avoids bad = true)
include h

/-- What a drop turns into avoids what the drop does. -/
private theorem avoids_toLiquid {v : Value} (hv : drop.toLiquid? = some v) :
    v.avoids bad = true := by
  cases drop with
  | host id accessors missing toLiquid scalar items output =>
    have h : Drop.avoids bad (.host id accessors missing toLiquid scalar items output) = true := h
    simp only [Drop.avoids, Bool.and_eq_true] at h
    -- The four parts of a host object; the second one is what replaces it.
    obtain ⟨⟨⟨-, hliquid⟩, -⟩, -⟩ := h
    have hv : toLiquid = some v := hv
    subst hv
    exact hliquid
  | loop serial name length index parent => exact nomatch hv

/-- So do its items. -/
private theorem avoids_items {items : List Value} (hi : drop.items? = some items) :
    Value.allAvoid bad items = true := by
  cases drop with
  | host id accessors missing toLiquid scalar items' output =>
    have h : Drop.avoids bad (.host id accessors missing toLiquid scalar items' output) = true := h
    simp only [Drop.avoids, Bool.and_eq_true] at h
    have hi : items' = some items := hi
    subst hi
    exact h.2
  | loop serial name length index parent => exact nomatch hi

end Drop

/-! ## Errors that are not the engine's own -/

/-- The error is of the kind. -/
def ErrorKind.covers (kind : ErrorKind) (e : Error) : Bool :=
  e.kind == kind

/-- The error has a line already, or the name of a template. -/
def Error.isPlaced (e : Error) : Bool :=
  e.line.isSome || e.template.isSome

/-- Of the errors that are bad the engine raises none itself, but for that of the budget and the
crash of a filter. -/
def HostOnly (bad : Error → Bool) : Prop :=
  ∀ e : Error, e.kind ≠ .memory → e.kind ≠ .foreign → e.kind ≠ .crash → e.line = none →
    e.template = none → bad e = false

/-- Only a host raises errors of memory. -/
theorem hostOnly_memory : HostOnly (ErrorKind.covers .memory) :=
  fun _ hmemory _ _ _ _ => beq_eq_false_iff_ne.mpr hmemory

theorem hostOnly_crash : HostOnly (ErrorKind.covers .crash) :=
  fun _ _ _ hcrash _ _ => beq_eq_false_iff_ne.mpr hcrash

/-- An error without a line and a template has no place. -/
theorem Error.not_isPlaced {e : Error} (hline : e.line = none) (htemplate : e.template = none) :
    e.isPlaced = false := by
  unfold Error.isPlaced
  rw [hline, htemplate]
  rfl

theorem hostOnly_isPlaced : HostOnly Error.isPlaced :=
  fun _ _ _ _ => Error.not_isPlaced

/-- What is not bad is avoided. -/
theorem Error.avoids_of_eq_false {e : Error} (h : bad e = false) : e.Avoids bad :=
  fun hbad => nomatch h.symm.trans hbad

/-- Syntax errors are neither foreign nor crashes, nor do they say that a budget is exhausted. -/
theorem Error.avoids_of_isSyntax {kind : ErrorKind}
    (hkind : kind = .memory ∨ kind = .foreign ∨ kind = .crash) {e : Error}
    (h : e.isSyntax = true) : e.Avoids kind.covers := by
  refine Error.avoids_of_eq_false (beq_eq_false_iff_ne.mpr fun hk => ?_)
  unfold Error.isSyntax at h
  rw [hk] at h
  rcases hkind with rfl | rfl | rfl <;> exact nomatch h

/-- An error of the budget comes from no host. -/
theorem Error.avoids_overBudget : Error.overBudget.Avoids bad :=
  fun _ => rfl

/-! ## What the host answers -/

/-- Nothing within a variable that can be seen raises an error that is bad, and neither does the
code of the host in this view. -/
abbrev View.Avoids (bad : Error → Bool) (view : View) : Prop :=
  view.All (fun v => v.avoids bad = true) (Error.Avoids bad)

/-- The code of the host raises no error that is bad, and gives nothing that does, where no variable
that it finds does. -/
def Answers.Avoid (bad : Error → Bool) (answers : Answers) : Prop :=
  ∀ s : Surroundings,
    (∀ name v, (View.mk s answers).find? name = some v → v.avoids bad = true) →
    ∀ id name, MeetsIfAny (fun v => v.avoids bad = true) (Error.Avoids bad) (answers id name s)

/-- No answers raise nothing. -/
theorem Answers.none_avoid : Answers.none.Avoid bad :=
  fun _ _ _ _ _ h => nomatch h

/-- A reply gives what it holds, or looks up a variable. -/
private theorem Reply.resolve_avoids {view : View} (hview : view.Avoids bad) {reply : Reply}
    (h : reply.avoids bad = true) : Avoids bad (reply.resolve view) := by
  cases reply with
  | value v => exact h
  | raise e => exact Error.avoids_of_eq_false (by simpa [Reply.avoids] using h)
  | «variable» name =>
    show (((view.find? name).getD .nil).avoids bad) = true
    -- What a variable is bound to, the view may show, so it avoids the kind as well.
    cases hv : view.find? name with
    | none => rfl
    | some v => exact hview.find name v hv

/-- A drop answers with a reply or one of its own members. -/
private theorem Drop.member?_avoids {view : View} (hview : view.Avoids bad) {drop : Drop}
    (h : (Value.drop drop).avoids bad = true) (name : String) :
    MeetsIfAny (fun v => v.avoids bad = true) (Error.Avoids bad) (drop.member? view name) := by
  cases drop with
  | host id accessors missing toLiquid scalar items output =>
    have h : Drop.avoids bad (.host id accessors missing toLiquid scalar items output) = true := h
    simp only [Drop.avoids, Bool.and_eq_true] at h
    obtain ⟨⟨⟨⟨haccessors, hmissing⟩, -⟩, -⟩, -⟩ := h
    unfold Drop.member?
    dsimp only
    split
    · rename_i reply hl
      -- An accessor comes before an answer to what is missing.
      have hreply : reply.avoids bad = true := by
        rcases Option.or_eq_some_iff.mp hl with hl | ⟨-, hl⟩
        · exact Reply.avoids_of_lookup haccessors hl
        · exact Reply.avoids_of_lookup hmissing hl
      exact .map (Reply.resolve_avoids hview hreply) fun v hv w hw => Option.some.inj hw ▸ hv
    · exact hview.answers id name
  | loop serial loopName length index parent =>
    intro w hw
    unfold Drop.loopMember? at hw
    split at hw <;> cases hw <;> first | rfl | exact h

/-- That nothing within a value raises an error of the host is handed down. -/
theorem Hereditary.avoids (hbad : HostOnly bad) :
    Hereditary.Listed (fun v => v.avoids bad = true) (Error.Avoids bad) where
  atom {v} hv := by
    cases v with
    | array | object | drop => exact nomatch hv
    | _ => rfl
  item hv := Value.allAvoid_iff.mp hv
  entry hv := Value.entriesAvoid_iff.mp hv
  -- An entry is a list of its key, which is text, and its value.
  pair {e} he := Value.allAvoid_iff.mpr
    (List.forall_mem_cons.mpr ⟨rfl, List.forall_mem_singleton.mpr he⟩)
  liquid hd hv := Drop.avoids_toLiquid hd hv
  dropItem hd hi := Value.allAvoid_iff.mp (Drop.avoids_items hd hi)
  member hd hview name := Drop.member?_avoids hview hd name
  raised hmemory hforeign hcrash hline htemplate :=
    Error.avoids_of_eq_false (hbad _ hmemory hforeign hcrash hline htemplate)
  array := Value.allAvoid_iff.mpr
  overBudget := Error.avoids_overBudget

/-- An evaluation that fails with no error that is bad. -/
abbrev FailsAvoiding {α : Type} (bad : Error → Bool) : Except Error α → Prop :=
  Meets (fun _ => True) (Error.Avoids bad)

end Stencil
