import Stencil.Filter.Items
import Stencil.Proofs.Merging

/-!
# The stable sort

The parts of the sort are put together: runs are found and merged, and stretches without runs are
split by a pivot. Each part arranges the items that it is given, so that all of it does, and what
comes out at the end is in ascending order.

How long runs are, when they are merged and which pivots are chosen does not matter for that, and
nothing is said of it here but that a run has an item and a pivot is one.

## Key definitions

- `Run.Holds`: what a run knows of the items in it
- `Stack`: the runs that are not merged yet
- `Splits`: what a split by a pivot results in

## Key results

- `meets_collapse`, `meets_driftFrom`: runs are merged and scanned
- `meets_quicksort`: a stretch is sorted by splitting
- `meets_sort`: the whole sort
- `perm_of_sort`: what holds of it whatever the comparison answers
- `Filter.perm_of_sortedByKey`: the same of sorting by keys
-/

namespace Stencil.Sorting

variable {α : Type} {Q : α → α → Prop} {E : Error → Prop} {lt le : α → α → Prop} {less : Less α}

/-! ## Finding runs -/

section

variable (h : Tells Q E lt le less)
include h

/-- The items that go on in the same direction do so one after the other, and so all of them do. -/
theorem meets_runLength {descending : Bool} {previous : α} {items : List α}
    (hQ : (previous :: items).Pairwise Q) :
    Meets
      (fun n => (previous :: items.take n).Pairwise fun a b =>
        if descending then lt b a else le a b)
      E (runLength less descending previous items) := by
  induction items generalizing previous with
  | nil => exact List.pairwise_singleton _ _
  | cons x items ih =>
    obtain ⟨hprevious, hQ⟩ := List.pairwise_cons.mp hQ
    refine .bind (h.meets (h.symm (hprevious x List.mem_cons_self))) fun before hbefore => ?_
    -- The run goes on while the answers are the same; what is known of the next item follows for
    -- all behind it.
    by_cases hsame : before = descending
    · subst hsame
      rw [if_pos (beq_self_eq_true before)]
      refine .bind (ih hQ) fun n hn => ?_
      refine List.pairwise_cons.mpr ⟨?_, hn⟩
      obtain ⟨hx, -⟩ := List.pairwise_cons.mp hn
      refine List.forall_mem_cons.mpr ⟨hbefore, fun y hy => ?_⟩
      have hxy := hx y hy
      cases before with
      | true => exact h.lt_of_lt_of_le hxy (h.le_of_lt hbefore)
      | false => exact h.trans hbefore hxy
    · rw [if_neg fun hbeq => hsame (eq_of_beq hbeq)]
      exact List.pairwise_singleton _ _

/-- A run at the front goes on in one direction. -/
theorem meets_existingRun {items : List α} (hQ : items.Pairwise Q) :
    Meets
      (fun run => (items.take run.1).Pairwise fun a b => if run.2 then lt b a else le a b)
      E (existingRun less items) := by
  -- The first two items say which way the run goes.
  match items with
  | [] => exact .nil
  | [x] => exact List.pairwise_singleton _ _
  | x :: y :: items =>
    obtain ⟨hx, hQ⟩ := List.pairwise_cons.mp hQ
    refine .bind (h.meets (h.symm (hx y List.mem_cons_self))) fun descending hdescending => ?_
    refine .bind (meets_runLength h hQ) fun n hn => ?_
    refine List.pairwise_cons.mpr ⟨?_, hn⟩
    obtain ⟨hy, -⟩ := List.pairwise_cons.mp hn
    refine List.forall_mem_cons.mpr ⟨hdescending, fun z hz => ?_⟩
    have hyz := hy z hz
    cases descending with
    | true => exact h.lt_of_lt_of_le hyz (h.le_of_lt hdescending)
    | false => exact h.trans hdescending hyz

end

/-- A run has the items of the stretch `xs`, in order if it is known to be sorted. -/
structure Run.Holds (lt le : α → α → Prop) (xs : List α) (run : Run α) : Prop where
  arranges : Arranges lt xs run.items
  sorted : run.sorted = true → run.items.Pairwise le

/-- A list that is sorted is a run. -/
theorem Run.Holds.of_sorts {xs ys : List α} (h : Sorts lt le xs ys) :
    Run.Holds lt le xs ⟨ys, true⟩ :=
  ⟨h.toArranges, fun _ => h.sorted⟩

/-- The run that was found is a stretch at the front. -/
theorem meets_goodRun? (h : Tells Q E lt le less) {minimum : Nat} {items : List α}
    (hQ : items.Pairwise Q) :
    Meets (fun run? => ∀ run, run? = some run →
        ∃ n, minimum ≤ n ∧ Run.Holds lt le (items.take n) run)
      E (goodRun? less minimum items) := by
  unfold goodRun?
  split
  · exact nofun
  · refine .bind (meets_existingRun h hQ) fun found hfound => ?_
    obtain ⟨n, descending⟩ := found
    rintro run hrun
    -- A run that is too short is not used.
    by_cases hshort : n < minimum
    · rw [if_pos hshort] at hrun
      exact nomatch hrun
    · rw [if_neg hshort] at hrun
      cases hrun
      refine ⟨n, Nat.le_of_not_lt hshort, ?_⟩
      -- A descending run is reversed, which sorts it, as no two of its items are equal.
      cases descending with
      | true =>
        refine .of_sorts ⟨.of_descending hfound, List.pairwise_reverse.mpr ?_⟩
        exact hfound.imp fun hba => h.le_of_lt hba
      | false => exact .of_sorts ⟨.refl _, hfound⟩

/-- The next run is a stretch at the front, and not an empty one. -/
theorem meets_createRun (hc : Compares Q E lt le less) {minimum : Nat} (hminimum : 0 < minimum)
    (eager : Bool) {items : List α} (hQ : items.Pairwise Q) :
    Meets (fun run => ∃ n, 0 < n ∧ Run.Holds lt le (items.take n) run) E
      (createRun less minimum eager items) := by
  refine .bind (meets_goodRun? hc.toTells hQ) fun run? hrun? => ?_
  -- Without a run that is long enough, a few items are sorted at once or left for later.
  cases run? with
  | some run =>
    obtain ⟨n, hn, hholds⟩ := hrun? run rfl
    exact ⟨n, Nat.lt_of_lt_of_le hminimum hn, hholds⟩
  | none =>
    cases eager with
    | true =>
      refine .bind (meets_smallSort hc (hQ.sublist (List.take_sublist smallLength items)))
        fun sorted hsorted => ?_
      exact ⟨smallLength, by decide, .of_sorts hsorted⟩
    | false => exact ⟨minimum, hminimum, .refl _, nofun⟩

/-! ## Merging runs -/

/-- Runs that are not merged yet, from the last to the first, have the items of `xs`. -/
inductive Stack (lt le : α → α → Prop) : List α → List (Run α × Nat) → Prop where
  | nil : Stack lt le [] []
  | push {xs ys : List α} {runs : List (Run α × Nat)} {run : Run α} (depth : Nat) :
    Stack lt le xs runs → run.Holds lt le ys → Stack lt le (xs ++ ys) ((run, depth) :: runs)

section

variable (hc : Compares Q E lt le less) {quick : List α → Except Error (List α)}
variable (hquick : ∀ {xs : List α}, xs.Pairwise Q → Meets (Sorts lt le xs) E (quick xs))

include hc hquick

/-- A run is sorted if it is not yet. -/
theorem Run.Holds.meets_sort {xs : List α} {run : Run α} (hQ : xs.Pairwise Q)
    (h : run.Holds lt le xs) : Meets (Sorts lt le xs) E (run.sort quick) := by
  unfold Run.sort
  split
  · rename_i hsorted
    exact ⟨h.arranges, h.sorted hsorted⟩
  · exact (hquick (h.arranges.pairwise hc.toTells hQ)).mono
      (fun _ hresult => h.arranges.sorts hresult) fun _ he => he

/-- Two runs become one. -/
theorem meets_mergeRuns {memory : Nat} {xs ys : List α} {left right : Run α}
    (hQ : (xs ++ ys).Pairwise Q) (hleft : left.Holds lt le xs) (hright : right.Holds lt le ys) :
    Meets (Run.Holds lt le (xs ++ ys)) E (mergeRuns less quick memory left right) := by
  obtain ⟨hQx, hQy, -⟩ := List.pairwise_append.mp hQ
  unfold mergeRuns
  split
  · -- One of them is sorted or the two are too long, so both are sorted and merged.
    refine .bind (hleft.meets_sort hc hquick hQx) fun leftItems hleftItems => ?_
    refine .bind (hright.meets_sort hc hquick hQy) fun rightItems hrightItems => ?_
    have hmoved := hleftItems.toArranges.append hrightItems.toArranges
    have hQmoved := hmoved.pairwise hc.toTells hQ
    refine .bind (meets_merge hc.toTells hQmoved hleftItems.sorted hrightItems.sorted)
      fun merged hmerged => ?_
    exact .of_sorts (hmoved.sorts hmerged)
  · -- Otherwise they stand side by side as one run that is not sorted yet.
    exact ⟨hleft.arranges.append hright.arranges, nofun⟩

/-- Runs are merged from the last one on. Nothing is left in front of the tree of all merges. -/
theorem meets_collapse {memory depth : Nat} {xs ys : List α} {runs : List (Run α × Nat)}
    {run : Run α} (hQ : (xs ++ ys).Pairwise Q) (hruns : Stack lt le xs runs)
    (hrun : run.Holds lt le ys) :
    Meets
      (fun result => (∃ xs' ys', xs' ++ ys' = xs ++ ys ∧ Stack lt le xs' result.1
          ∧ result.2.Holds lt le ys')
        ∧ (depth = 0 → result.1 = []))
      E (collapse less quick memory depth run runs) := by
  -- By induction on the stack: the run on top is merged with the new one, or stays.
  induction hruns generalizing ys run with
  | nil => exact ⟨⟨[], ys, rfl, .nil, hrun⟩, fun _ => rfl⟩
  | @push xs zs runs left leftDepth hruns hleft ih =>
    rw [List.append_assoc] at hQ
    unfold collapse
    split
    · refine .bind (meets_mergeRuns hc hquick (List.pairwise_append.mp hQ).2.1 hleft hrun)
        fun merged hmerged => ?_
      rw [List.append_assoc]
      exact ih hQ hmerged
    · rename_i hdepth
      exact ⟨⟨_, _, rfl, .push leftDepth hruns hleft, hrun⟩, fun hzero => absurd hzero (by omega)⟩

end

/-! ## Scanning -/

/-- A good run has an item. -/
theorem goodLength_pos {length : Nat} (hlength : 0 < length) : 0 < goodLength length := by
  unfold goodLength
  split
  · omega
  · rename_i hlong
    have hlog : 1 ≤ length.log2 := (Nat.le_log2 (by omega)).mpr (by omega)
    have hpow : 2 ^ 1 ≤ 1 <<< ((1 + length.log2) / 2) := by
      rw [Nat.shiftLeft_eq, Nat.one_mul]
      exact Nat.pow_le_pow_right (by decide) (by omega)
    exact Nat.div_pos (Nat.le_trans hpow (Nat.le_add_right _ _)) (by decide)

/-- What is taken is dropped by its length. -/
private theorem drop_length_take (items : List α) (n : Nat) :
    items.drop (items.take n).length = items.drop n := by
  rw [List.length_take]
  rcases Nat.le_total n items.length with hn | hn
  · rw [Nat.min_eq_left hn]
  · rw [Nat.min_eq_right hn, List.drop_length, List.drop_eq_nil_of_le hn]

section

variable (hc : Compares Q E lt le less) {quick : List α → Except Error (List α)}
variable (hquick : ∀ {xs : List α}, xs.Pairwise Q → Meets (Sorts lt le xs) E (quick xs))
include hc hquick

/-- What is left is scanned, and then there is a single run. -/
theorem meets_driftFrom {length scanned : Nat} (hlength : 0 < length) {eager : Bool}
    {xs ys items : List α} {runs : List (Run α × Nat)} {run : Run α}
    (hQ : (xs ++ ys ++ items).Pairwise Q) (hruns : Stack lt le xs runs)
    (hrun : run.Holds lt le ys) :
    Meets (Run.Holds lt le (xs ++ ys ++ items)) E
      (driftFrom less quick length eager scanned runs run items) := by
  -- By induction on how much is left.
  induction hleft : items.length using Nat.strongRecOn
    generalizing scanned xs ys items runs run with
  | ind left ih =>
    cases items with
    | nil =>
      rw [List.append_nil] at hQ ⊢
      rw [driftFrom]
      refine .bind (meets_collapse hc hquick hQ hruns hrun) fun result hresult => ?_
      obtain ⟨⟨xs', ys', heq, hstack, hholds⟩, hnone⟩ := hresult
      rw [hnone rfl] at hstack
      cases hstack
      exact heq ▸ hholds
    | cons x items =>
      obtain ⟨hQscanned, hQitems, -⟩ := List.pairwise_append.mp hQ
      rw [driftFrom]
      refine .bind (meets_createRun hc (goodLength_pos hlength) eager hQitems)
        fun next hnext => ?_
      obtain ⟨n, hn, hholds⟩ := hnext
      refine .bind (meets_collapse hc hquick hQscanned hruns hrun) fun result hresult => ?_
      obtain ⟨⟨xs', ys', heq, hstack, hmerged⟩, -⟩ := hresult
      obtain ⟨runs', run'⟩ := result
      have hrest : items.drop (next.items.length - 1) = (x :: items).drop n := by
        rw [hholds.arranges.perm.length_eq]
        obtain ⟨n, rfl⟩ := Nat.exists_eq_succ_of_ne_zero (Nat.pos_iff_ne_zero.mp hn)
        exact drop_length_take items n
      rw [hrest]
      have hall : xs' ++ ys' ++ (x :: items).take n ++ (x :: items).drop n
          = xs ++ ys ++ x :: items := by
        rw [heq, List.append_assoc, List.take_append_drop]
      rw [← hall] at hQ ⊢
      exact ih _ (by simp at hleft ⊢; omega) hQ (.push _ hstack hmerged) hholds rfl

/-- A list is sorted by its runs. -/
theorem meets_drift (eager : Bool) {items : List α} (hne : items ≠ []) (hQ : items.Pairwise Q) :
    Meets (Sorts lt le items) E (drift less quick eager items) := by
  have hlength : 0 < items.length := List.length_pos_iff.mpr hne
  refine .bind (meets_createRun hc (goodLength_pos hlength) eager hQ) fun first hfirst => ?_
  obtain ⟨n, hn, hholds⟩ := hfirst
  have hrest : items.drop first.items.length = items.drop n := by
    rw [hholds.arranges.perm.length_eq, drop_length_take]
  -- The first run is there; the others are found from the rest of the items.
  have hdrift : Meets (Run.Holds lt le ([] ++ items.take n ++ items.drop n)) E
      (driftFrom less quick items.length eager first.items.length [] first (items.drop n)) :=
    meets_driftFrom hc hquick hlength (by simpa using hQ) .nil hholds
  rw [List.nil_append, List.take_append_drop] at hdrift
  rw [hrest]
  exact hdrift.bind fun run hrun => hrun.meets_sort hc hquick hQ

end

/-! ## The pivot -/

section

variable (h : Tells Q E lt le less)
include h

/-- The middle one of three items is one of them. -/
theorem meets_middle {a b c : α} (hQ : [a, b, c].Pairwise Q) :
    Meets (· ∈ [a, b, c]) E (middle less a b c) := by
  obtain ⟨⟨hab, hac⟩, hbc⟩ : (Q a b ∧ Q a c) ∧ Q b c := by simpa using hQ
  refine .bind (h.meets hab) fun beforeB _ => ?_
  refine .bind (h.meets hac) fun beforeC _ => ?_
  split
  · refine .bind (h.meets hbc) fun before _ => ?_
    show (if _ then b else c) ∈ [a, b, c]
    split <;> simp
  · exact List.mem_cons_self

omit h in
/-- A stretch of a list and what comes at some distance behind it. -/
private theorem sublist_stretch (items : List α) (start length next : Nat)
    (hnext : start + length ≤ next) :
    ((items.drop start).take length ++ items.drop next).Sublist (items.drop start) := by
  have hrest : (items.drop next).Sublist ((items.drop start).drop length) := by
    rw [List.drop_drop]
    exact List.drop_sublist_drop_left items hnext
  calc ((items.drop start).take length ++ items.drop next).Sublist
        ((items.drop start).take length ++ (items.drop start).drop length) := hrest.append_left _
    _ = items.drop start := List.take_append_drop length _

/-- The item near the middle is one of the items. -/
theorem meets_nearMiddle {start : α} {items : List α} (hne : items ≠ []) (hQ : items.Pairwise Q) :
    Meets (· ∈ items) E (nearMiddle less start items) := by
  induction hlength : items.length using Nat.strongRecOn generalizing items with
  | ind length ih =>
    rw [nearMiddle]
    split
    · show items.headD start ∈ items
      cases items with
      | nil => exact absurd rfl hne
      | cons x items => exact List.mem_cons_self
    · rename_i hlong
      -- The three stretches stand one behind the other.
      have hthree : (items.take (items.length / 8)
          ++ ((items.drop (4 * (items.length / 8))).take (items.length / 8)
            ++ (items.drop (7 * (items.length / 8))).take (items.length / 8))).Sublist items := by
        have hfirst := sublist_stretch items 0 (items.length / 8) (4 * (items.length / 8))
          (by omega)
        have hsecond := sublist_stretch items (4 * (items.length / 8)) (items.length / 8)
          (7 * (items.length / 8)) (by omega)
        refine .trans (.append_left ?_ _) hfirst
        exact .trans (.append_left (List.take_sublist _ _) _) hsecond
      obtain ⟨hQa, hQbc, habc⟩ := List.pairwise_append.mp (hQ.sublist hthree)
      obtain ⟨hQb, hQc, hbc⟩ := List.pairwise_append.mp hQbc
      have hpart (k : Nat) (hk : k + items.length / 8 ≤ items.length)
          (hQk : ((items.drop k).take (items.length / 8)).Pairwise Q) :
          Meets (· ∈ (items.drop k).take (items.length / 8)) E
            (nearMiddle less start ((items.drop k).take (items.length / 8))) := by
        refine ih _ ?_ (List.ne_nil_of_length_pos ?_) hQk rfl
        all_goals simp only [List.length_take, List.length_drop]; omega
      refine .bind (hpart 0 (by omega) hQa) fun a ha => ?_
      refine .bind (hpart _ (by omega) hQb) fun b hb => ?_
      refine .bind (hpart _ (by omega) hQc) fun c hc => ?_
      have hmiddle : [a, b, c].Pairwise Q := by
        have hab := habc a ha b (List.mem_append_left _ hb)
        have hac := habc a ha c (List.mem_append_right _ hc)
        simp [hab, hac, hbc b hb c hc]
      refine (meets_middle h hmiddle).mono (fun x hx => hthree.mem ?_) fun _ he => he
      simp only [List.mem_cons, List.not_mem_nil, or_false] at hx
      rcases hx with rfl | rfl | rfl
      · exact List.mem_append_left _ ha
      · exact List.mem_append_right _ (List.mem_append_left _ hb)
      · exact List.mem_append_right _ (List.mem_append_right _ hc)

/-- The pivot is an item, and stands at its place. -/
theorem meets_choosePivot {x : α} {items : List α} (hQ : (x :: items).Pairwise Q) :
    Meets (fun pivot => (x :: items)[pivot.2]? = some pivot.1) E (choosePivot less x items) := by
  have hplaces : Tells (fun a b : α × Nat => Q a.1 b.1) E (fun a b => lt a.1 b.1)
      (fun a b => le a.1 b.1) (fun a b => less a.1 b.1) :=
    ⟨h.symm, h.meets, h.le_of_lt, h.trans, h.lt_of_lt_of_le, h.lt_of_le_of_lt⟩
  have hpairs : (x :: items).zipIdx.Pairwise fun a b => Q a.1 b.1 := by
    rw [← List.pairwise_map, List.zipIdx_map_fst]
    exact hQ
  exact (meets_nearMiddle hplaces (by simp) hpairs).mono
    (fun pivot hpivot => List.mk_mem_zipIdx_iff_getElem?.mp hpivot) fun _ he => he

end

/-! ## Splitting -/

/-- The items of `xs` were split: what is `L` went left and what is `R` went right. -/
structure Splits (lt : α → α → Prop) (L R : α → Prop) (xs : List α) (sides : List α × List α) :
    Prop where
  arranges : Arranges lt xs (sides.1 ++ sides.2)
  left : ∀ x ∈ sides.1, L x
  right : ∀ x ∈ sides.2, R x

variable {L R : α → Prop}

/-- What is known of the sides may be weakened. -/
theorem Splits.mono {L' R' : α → Prop} {xs : List α} {s : List α × List α}
    (h : Splits lt L R xs s) (hL : ∀ x, L x → L' x) (hR : ∀ x, R x → R' x) :
    Splits lt L' R' xs s :=
  ⟨h.arranges, fun x hx => hL x (h.left x hx), fun x hx => hR x (h.right x hx)⟩

section

variable (hLR : ∀ {l r : α}, L l → R r → lt l r)
include hLR

/-- Two splits one behind the other. -/
theorem Splits.append {xs ys : List α} {s t : List α × List α} (hs : Splits lt L R xs s)
    (ht : Splits lt L R ys t) : Splits lt L R (xs ++ ys) (s.1 ++ t.1, s.2 ++ t.2) where
  arranges := by
    -- What went left in the second one moves past what went right in the first one.
    have hswap : Arranges lt (s.2 ++ t.1) (t.1 ++ s.2) :=
      .swap fun r hr l hl => hLR (ht.left l hl) (hs.right r hr)
    have hmoved := (hswap.append_left s.1).append_right t.2
    simp only [List.append_assoc] at hmoved ⊢
    refine .trans (hs.arranges.append ht.arranges) ?_
    simpa only [List.append_assoc] using hmoved
  left := List.forall_mem_append.mpr ⟨hs.left, ht.left⟩
  right := List.forall_mem_append.mpr ⟨hs.right, ht.right⟩

/-- A list is split item by item. -/
theorem meets_split {goesLeft : α → Except Error Bool} {xs : List α}
    (hgoes : ∀ x ∈ xs, Meets (fun left => if left then L x else R x) E (goesLeft x)) :
    Meets (Splits lt L R xs) E (split goesLeft xs) := by
  -- By induction on the items, each of which goes to the end of its side.
  induction xs with
  | nil => exact ⟨.refl [], nofun, nofun⟩
  | cons x xs ih =>
    obtain ⟨hx, hxs⟩ := List.forall_mem_cons.mp hgoes
    refine .bind hx fun left hleft => ?_
    refine .bind (ih hxs) fun sides hsides => ?_
    cases left with
    | true =>
      have hone : Splits lt L R [x] ([x], []) :=
        ⟨.refl [x], List.forall_mem_singleton.mpr hleft, nofun⟩
      exact hone.append hLR hsides
    | false =>
      have hone : Splits lt L R [x] ([], [x]) :=
        ⟨.refl [x], nofun, List.forall_mem_singleton.mpr hleft⟩
      exact hone.append hLR hsides

end

/-- A list with an item at some place is what stands in front of it, the item and what stands
behind. -/
private theorem eq_around {xs : List α} {place : Nat} {x : α} (h : xs[place]? = some x) :
    xs = xs.take place ++ [x] ++ xs.drop (place + 1) := by
  obtain ⟨hplace, rfl⟩ := List.getElem?_eq_some_iff.mp h
  rw [List.append_assoc, List.singleton_append, List.getElem_cons_drop, List.take_append_drop]

section

variable (h : Tells Q E lt le less) {pivot : α} {place : Nat} {xs : List α}
variable (hQ : xs.Pairwise Q) (hpivot : xs[place]? = some pivot)
include h hQ hpivot

/-- The pivot may be compared with all items at other places. -/
private theorem pairwise_around :
    (∀ x ∈ xs.take place, Q x pivot) ∧ ∀ x ∈ xs.drop (place + 1), Q x pivot := by
  have hpairs := eq_around hpivot ▸ hQ
  rw [List.append_assoc, List.singleton_append, List.pairwise_append] at hpairs
  obtain ⟨-, hbehind, hfront⟩ := hpairs
  exact ⟨fun x hx => hfront x hx pivot List.mem_cons_self,
    fun x hx => h.symm ((List.pairwise_cons.mp hbehind).1 x hx)⟩

/-- An item is the pivot, or may be compared with it. -/
private theorem eq_or_compared {x : α} (hx : x ∈ xs) : x = pivot ∨ Q pivot x := by
  obtain ⟨hfront, hbehind⟩ := pairwise_around h hQ hpivot
  rw [eq_around hpivot, List.mem_append, List.mem_append, List.mem_singleton] at hx
  rcases hx with (hx | hx) | hx
  · exact .inr (h.symm (hfront x hx))
  · exact .inl hx
  · exact .inr (h.symm (hbehind x hx))

/-- What is less than the pivot goes left, and the pivot goes right. -/
theorem meets_splitLess {ancestor : Option α}
    (hancestor : ∀ a, ancestor = some a → ∀ x ∈ xs, Q a x ∧ (x = a ∨ le a x)) :
    Meets
      (Splits lt (fun x => Q x pivot ∧ lt x pivot) (fun x => x = pivot ∨ Q pivot x ∧ le pivot x) xs)
      E (splitLess less ancestor pivot place xs) := by
  have hLR : ∀ {l r : α}, Q l pivot ∧ lt l pivot → r = pivot ∨ Q pivot r ∧ le pivot r → lt l r := by
    rintro l r ⟨-, hl⟩ (rfl | ⟨-, hr⟩)
    · exact hl
    · exact h.lt_of_lt_of_le hl hr
  have hrepeats : Meets (fun repeats => repeats = true → ∀ x ∈ xs, le pivot x) E
      (repeats less ancestor pivot) := by
    -- If the pivot is equal to that of the list around, nothing is less than it.
    cases ancestor with
    | none => exact nofun
    | some a =>
      have hmem : pivot ∈ xs := List.mem_of_getElem? hpivot
      refine .map (h.meets (hancestor a rfl pivot hmem).1) fun before hbefore hnot x hx => ?_
      obtain rfl : before = false := by simpa using hnot
      rcases (hancestor a rfl x hx).2 with rfl | hax
      · exact hbefore
      · exact h.trans hbefore hax
  refine .bind hrepeats fun repeated hrepeated => ?_
  cases repeated with
  | true =>
    exact ⟨.refl xs, nofun, fun x hx =>
      (eq_or_compared h hQ hpivot hx).imp id fun hpx => ⟨hpx, hrepeated rfl x hx⟩⟩
  | false =>
    -- Otherwise each item before and behind the pivot goes to its side, and the pivot to the right
    -- one.
    have hgoes (x : α) (hx : Q x pivot) :
        Meets (fun left => if left then Q x pivot ∧ lt x pivot
            else x = pivot ∨ Q pivot x ∧ le pivot x)
          E (less x pivot) := by
      refine (h.meets hx).mono (fun before hbefore => ?_) fun _ he => he
      cases before with
      | true => exact ⟨hx, hbefore⟩
      | false => exact .inr ⟨h.symm hx, hbefore⟩
    obtain ⟨hfront, hbehind⟩ := pairwise_around h hQ hpivot
    refine .bind (meets_split hLR fun x hx => hgoes x (hfront x hx)) fun s hs => ?_
    refine .bind (meets_split hLR fun x hx => hgoes x (hbehind x hx)) fun t ht => ?_
    have hone : Splits lt (fun x => Q x pivot ∧ lt x pivot)
        (fun x => x = pivot ∨ Q pivot x ∧ le pivot x) [pivot] ([], [pivot]) :=
      ⟨.refl _, nofun, List.forall_mem_singleton.mpr (.inl rfl)⟩
    have hall := (hs.append hLR hone).append hLR ht
    rw [← eq_around hpivot, List.append_nil, List.append_assoc, List.singleton_append] at hall
    exact hall

/-- What is not greater than the pivot goes left, and so does the pivot. -/
theorem meets_splitNotGreater :
    Meets
      (fun sides => Splits lt (fun x => x = pivot ∨ le x pivot) (lt pivot ·) xs sides
        ∧ ∃ before after, sides.1 = before ++ pivot :: after ∧ ∀ x ∈ before ++ after, le x pivot)
      E (splitNotGreater less pivot place xs) := by
  have hgoes (x : α) (hx : Q x pivot) :
      Meets (fun left => if left then le x pivot else lt pivot x) E (not <$> less pivot x) := by
    refine .map (h.meets (h.symm hx)) fun before hbefore => ?_
    cases before with
    | true => exact hbefore
    | false => exact hbefore
  obtain ⟨hfront, hbehind⟩ := pairwise_around h hQ hpivot
  refine .bind (meets_split h.lt_of_le_of_lt fun x hx => hgoes x (hfront x hx)) fun s hs => ?_
  refine .bind (meets_split h.lt_of_le_of_lt fun x hx => hgoes x (hbehind x hx)) fun t ht => ?_
  refine ⟨?_, s.1, t.1, rfl, List.forall_mem_append.mpr ⟨hs.left, ht.left⟩⟩
  have hLR : ∀ {l r : α}, l = pivot ∨ le l pivot → lt pivot r → lt l r := by
    rintro l r (rfl | hl) hr
    · exact hr
    · exact h.lt_of_le_of_lt hl hr
  -- The pivot itself goes to the left.
  have hone : Splits lt (fun x => x = pivot ∨ le x pivot) (lt pivot ·) [pivot] ([pivot], []) :=
    ⟨.refl _, List.forall_mem_singleton.mpr (.inl rfl), nofun⟩
  have hall := ((hs.mono (fun _ => .inr) fun _ hr => hr).append hLR hone).append hLR
    (ht.mono (fun _ => .inr) fun _ hr => hr)
  rw [← eq_around hpivot, List.append_nil, List.append_assoc, List.singleton_append] at hall
  exact hall

end

/-! ## Sorting -/

/-- Items that are as small as can be and not greater than one of them are in order. -/
theorem pairwise_equals (h : Tells Q E lt le less) {pivot : α} {before after : List α}
    (hle : ∀ x ∈ before ++ after, le x pivot)
    (hge : ∀ x ∈ before ++ pivot :: after, x = pivot ∨ le pivot x) :
    (before ++ pivot :: after).Pairwise le := by
  -- Everything is at most the pivot and at least as well, so any two are equal.
  have hpair {x y : α} (hx : x ∈ before ++ after) (hy : y ∈ before ++ pivot :: after) : le x y := by
    rcases hge y hy with rfl | hy
    · exact hle x hx
    · exact h.trans (hle x hx) hy
  have hpivot : ∀ y ∈ after, le pivot y := by
    intro y hy
    rcases hge y (List.mem_append_right _ (List.mem_cons_of_mem _ hy)) with rfl | hle'
    · exact hle y (List.mem_append_right _ hy)
    · exact hle'
  have hbefore : before.Pairwise le := List.pairwise_of_forall_mem_list fun x hx y hy =>
    hpair (List.mem_append_left _ hx) (List.mem_append_left _ hy)
  have hafter : after.Pairwise le := List.pairwise_of_forall_mem_list fun x hx y hy =>
    hpair (List.mem_append_right _ hx) (List.mem_append_right _ (List.mem_cons_of_mem _ hy))
  exact List.pairwise_append.mpr ⟨hbefore, List.pairwise_cons.mpr ⟨hpivot, hafter⟩,
    fun x hx y hy => hpair (List.mem_append_left _ hx) (List.mem_append_right _ hy)⟩

section

variable (hc : Compares Q E lt le less)
include hc

/-- A stretch is sorted. -/
theorem meets_quicksort (limit : Nat) {ancestor : Option α} {items : List α}
    (hQ : items.Pairwise Q)
    (hancestor : ∀ a, ancestor = some a → ∀ x ∈ items, Q a x ∧ (x = a ∨ le a x)) :
    Meets (Sorts lt le items) E (quicksort less limit ancestor items) := by
  induction limit generalizing ancestor items with
  | zero =>
    cases items with
    | nil => exact ⟨.refl [], .nil⟩
    | cons x items =>
      rw [quicksort]
      split
      · exact meets_smallSort hc hQ
      · exact meets_drift hc (meets_smallSort hc) true (List.cons_ne_nil x items) hQ
  | succ limit ih =>
    cases items with
    | nil => exact ⟨.refl [], .nil⟩
    | cons x items =>
      rw [quicksort]
      split
      · exact meets_smallSort hc hQ
      refine .bind (meets_choosePivot hc.toTells hQ) fun pivot hpivot => ?_
      obtain ⟨pivot, place⟩ := pivot
      refine .bind (meets_splitLess hc.toTells hQ hpivot hancestor) fun sides hsides => ?_
      obtain ⟨lefts, rights⟩ := sides
      obtain ⟨hQlefts, hQrights, -⟩ := List.pairwise_append.mp
        (hsides.arranges.pairwise hc.toTells hQ)
      cases lefts with
      | nil =>
        -- All items are at least as great as the pivot.
        refine .bind (meets_splitNotGreater hc.toTells hQ hpivot) fun sides' hsides' => ?_
        obtain ⟨hsplits, before, after, hequals, hle⟩ := hsides'
        obtain ⟨equals, rest⟩ := sides'
        have hQrest := (List.pairwise_append.mp (hsplits.arranges.pairwise hc.toTells hQ)).2.1
        have hsort : Meets (Sorts lt le rest) E (quicksort less limit none rest) := ih hQrest nofun
        refine .bind hsort fun sorted hsorted => ?_
        have hpairs : equals.Pairwise le := by
          obtain rfl : equals = before ++ pivot :: after := hequals
          refine pairwise_equals hc.toTells hle fun y hy => ?_
          refine (hsides.right y (hsides.arranges.mem_iff.mpr ?_)).imp id And.right
          exact hsplits.arranges.mem_iff.mp (List.mem_append_left _ hy)
        refine hsplits.arranges.sorts (Sorts.append ⟨.refl equals, hpairs⟩ hsorted ?_)
        intro l hl r hr
        rcases hsplits.left l hl with rfl | hl
        · exact hc.le_of_lt (hsplits.right r hr)
        · exact hc.trans hl (hc.le_of_lt (hsplits.right r hr))
      | cons l lefts =>
        obtain ⟨hQl, hl⟩ := hsides.left l List.mem_cons_self
        refine .bind (ih hQrights ?_) fun rights' hrights' => ?_
        · rintro a ⟨⟩ r hr
          rcases hsides.right r hr with rfl | ⟨hQr, hr⟩
          · exact ⟨hc.self hQl hl, .inl rfl⟩
          · exact ⟨hQr, .inr hr⟩
        refine .bind (ih hQlefts ?_) fun lefts' hlefts' => ?_
        · intro a ha y hy
          exact hancestor a ha y (hsides.arranges.mem_iff.mp (List.mem_append_left _ hy))
        refine hsides.arranges.sorts (hlefts'.append hrights' fun l hl r hr => ?_)
        have hl := hc.le_of_lt (hsides.left l hl).2
        rcases hsides.right r hr with rfl | ⟨-, hr⟩
        · exact hl
        · exact hc.trans hl hr

/-- A list is sorted. -/
theorem meets_sort {items : List α} (hQ : items.Pairwise Q) :
    Meets (Sorts lt le items) E (sort less items) := by
  unfold sort
  split
  · exact meets_insertAll hc.toTells hQ .nil
  · -- A longer list has its runs merged, and what is in no order is sorted by quicksort.
    rename_i hlong
    have hquick {xs : List α} (hQ : xs.Pairwise Q) :
        Meets (Sorts lt le xs) E (quicksort less (2 * xs.length.log2) none xs) :=
      meets_quicksort hc _ hQ nofun
    refine meets_drift hc hquick _ ?_ hQ
    rintro rfl
    exact hlong (Nat.zero_le 20)

end

/-! ## Any comparison -/

section

variable {items : List α}
variable (hless : ∀ a ∈ items, ∀ b ∈ items, Meets (fun _ => True) E (less a b))
include hless

/-- Whatever the comparison answers, it tells nothing wrong of an order in which every item is less
than every other one. -/
private theorem tells_any :
    Tells (fun a b => a ∈ items ∧ b ∈ items) E (fun _ _ => True) (fun _ _ => True) less where
  symm := And.symm
  meets hab := (hless _ hab.1 _ hab.2).mono (fun before _ => by cases before <;> trivial)
    fun _ he => he
  le_of_lt _ := trivial
  trans _ _ := trivial
  lt_of_lt_of_le _ _ := trivial
  lt_of_le_of_lt _ _ := trivial

omit hless in
/-- Any two items are among the items. -/
private theorem pairwise_mem : items.Pairwise fun a b => a ∈ items ∧ b ∈ items :=
  List.pairwise_of_forall_mem_list fun _ ha _ hb => ⟨ha, hb⟩

/-- A short list is sorted by insertion, which does not break off. -/
private theorem perm_of_sort_short (hshort : items.length ≤ 20) :
    Meets (·.Perm items) E (sort less items) := by
  unfold sort
  rw [if_pos hshort]
  exact (meets_insertAll (tells_any hless) pairwise_mem .nil).mono
    (fun _ hsorted => hsorted.perm) fun _ he => he

/-- The sort keeps all items, whatever the comparison answers. It fails where a comparison does, or
breaks off in a list of more than twenty items. -/
theorem perm_of_sort (hcrash : 20 < items.length → E .crash) :
    Meets (·.Perm items) E (sort less items) := by
  by_cases hshort : items.length ≤ 20
  · exact perm_of_sort_short hless hshort
  · have hcrash := hcrash (Nat.lt_of_not_le hshort)
    exact (meets_sort ⟨tells_any hless, fun _ _ => hcrash, fun hab _ => ⟨hab.2, hab.2⟩⟩
      pairwise_mem).mono (fun _ hsorted => hsorted.perm) fun _ he => he

end

end Stencil.Sorting

/-! ## Sorting by keys -/

namespace Stencil.Filter

variable {E : Error → Prop} {entries : List (Value × Value)}

/-- The comparison that a sort goes on with has an answer to every two keys. -/
theorem meets_guessedBefore (a b : Value) : Meets (fun _ => True) E (guessedBefore a b) := by
  unfold guessedBefore
  split <;> trivial

/-- Sorting keeps all entries. It fails where two keys have no order, or breaks off if there are
more than twenty. -/
theorem perm_of_sortedByKey
    (hless : ∀ a ∈ entries, ∀ b ∈ entries, Meets (fun _ => True) E (comesBefore a.1 b.1))
    (hcrash : 20 < entries.length → E .crash) : Meets (·.Perm entries) E (sortedByKey entries) := by
  have hsorted := Sorting.perm_of_sort hless hcrash
  unfold sortedByKey
  split
  · rename_i sorted heq
    rwa [heq] at hsorted
  · -- The keys clash, so the list is sorted once more with guesses to see whether that breaks off.
    rename_i e heq
    rw [heq] at hsorted
    exact (Sorting.perm_of_sort (fun a _ b _ => meets_guessedBefore a.1 b.1) hcrash).bind
      fun _ _ => hsorted

end Stencil.Filter
