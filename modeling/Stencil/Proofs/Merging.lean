import Mathlib.Data.List.Basic
import Stencil.Proofs.Outcome
import Stencil.Sorting.Small

/-!
# Sorting a few items

What a stable sort does is put together from single moves: an item moves past another one only where
a comparison has said that it is less. `Arranges` is what such moves leave unchanged, and is closed
under putting lists together, so each part of the sort is a fact about the lists it is made of.

Nothing is assumed of the comparison but what its answers tell about two of the items, so an order
that leaves some items without an answer will do. Where the answers do not contradict each other the
merge from both ends comes together in the middle.

## Key definitions

- `Tells`, `Compares`: what the answers of a comparison tell
- `Arranges`: the same items, and those that are equal as they were
- `Merging.Underway`: what a merge has done so far

## Key results

- `meets_insertAll`: insertion
- `Merging.Underway.meets_step`: one step of a merge
- `meets_merge`, `meets_mergeBothEnds`: whole merges
- `meets_smallSort`: a list of a few items
-/

namespace Stencil.Sorting

variable {α : Type}

/-! ## Comparisons -/

/-- The answers of a comparison tell of two items that may be compared, which `Q` says, that one is
less than the other, or that it is not. -/
structure Tells (Q : α → α → Prop) (E : Error → Prop) (lt le : α → α → Prop) (less : Less α) :
    Prop where
  symm {a b : α} : Q a b → Q b a
  meets {a b : α} : Q a b → Meets (fun before => if before then lt a b else le b a) E (less a b)
  le_of_lt {a b : α} : lt a b → le a b
  trans {a b c : α} : le a b → le b c → le a c
  lt_of_lt_of_le {a b c : α} : lt a b → le b c → lt a c
  lt_of_le_of_lt {a b c : α} : le a b → lt b c → lt a c

/-- Where two answers contradict each other the sort may break off. An item that another one is less
than may be compared with itself. -/
structure Compares (Q : α → α → Prop) (E : Error → Prop) (lt le : α → α → Prop) (less : Less α) :
    Prop extends Tells Q E lt le less where
  crash {a b : α} : lt a b → le b a → E .crash
  self {a b : α} : Q a b → lt a b → Q b b

variable {Q : α → α → Prop} {E : Error → Prop} {lt le : α → α → Prop} {less : Less α}

/-- The order may be reversed. -/
theorem Tells.flipped (h : Tells Q E lt le less) :
    Tells Q E (fun a b => lt b a) (fun a b => le b a) (flipped less) where
  symm := h.symm
  meets hab := h.meets (h.symm hab)
  le_of_lt := h.le_of_lt
  trans hab hbc := h.trans hbc hab
  lt_of_lt_of_le hab hbc := h.lt_of_le_of_lt hbc hab
  lt_of_le_of_lt hab hbc := h.lt_of_lt_of_le hbc hab

/-! ## Arrangements -/

/-- The second list has the same items as the first one. Any selection of items none of which is
less than another one of them stands in the same order. -/
structure Arranges (lt : α → α → Prop) (xs ys : List α) : Prop where
  perm : ys.Perm xs
  keeps : ∀ p : α → Bool, (∀ a b, p a = true → p b = true → ¬ lt a b) → ys.filter p = xs.filter p

namespace Arranges

variable {xs ys zs xs' ys' : List α}

/-- Nothing is moved. -/
theorem refl (xs : List α) : Arranges lt xs xs :=
  ⟨.refl xs, fun _ _ => rfl⟩

/-- One move after the other. -/
theorem trans (h : Arranges lt xs ys) (h' : Arranges lt ys zs) : Arranges lt xs zs :=
  ⟨h'.perm.trans h.perm, fun p hp => (h'.keeps p hp).trans (h.keeps p hp)⟩

/-- Two lists are arranged side by side. -/
theorem append (h : Arranges lt xs ys) (h' : Arranges lt xs' ys') :
    Arranges lt (xs ++ xs') (ys ++ ys') where
  perm := h.perm.append h'.perm
  keeps p hp := by rw [List.filter_append, List.filter_append, h.keeps p hp, h'.keeps p hp]

/-- The end of a list is arranged. -/
theorem append_left (zs : List α) (h : Arranges lt xs ys) : Arranges lt (zs ++ xs) (zs ++ ys) :=
  (refl zs).append h

/-- The front of a list is arranged. -/
theorem append_right (zs : List α) (h : Arranges lt xs ys) : Arranges lt (xs ++ zs) (ys ++ zs) :=
  h.append (refl zs)

/-- What stands behind an item is arranged. -/
theorem cons (x : α) (h : Arranges lt xs ys) : Arranges lt (x :: xs) (x :: ys) :=
  h.append_left [x]

/-- Items move past others that they are less than. -/
theorem swap (h : ∀ a ∈ xs, ∀ b ∈ ys, lt b a) : Arranges lt (xs ++ ys) (ys ++ xs) where
  perm := List.perm_append_comm
  keeps p hp := by
    rw [List.filter_append, List.filter_append]
    -- The selection has items on one side only.
    cases hx : xs.filter p with
    | nil => rw [List.append_nil, List.nil_append]
    | cons a as =>
      have hy : ys.filter p = [] := by
        refine List.filter_eq_nil_iff.mpr fun b hb hpb => ?_
        obtain ⟨ha, hpa⟩ := List.mem_filter.mp (hx ▸ List.mem_cons_self : a ∈ xs.filter p)
        exact hp b a hpb hpa (h a ha b hb)
      rw [hy, List.append_nil, List.nil_append]

/-- One item moves past another one. -/
theorem exchange {a b : α} (h : lt b a) (xs : List α) :
    Arranges lt (a :: b :: xs) (b :: a :: xs) := by
  have hswap : Arranges lt ([a] ++ [b]) ([b] ++ [a]) :=
    swap (List.forall_mem_singleton.mpr (List.forall_mem_singleton.mpr h))
  exact hswap.append_right xs

/-- Seen from the back the order is reversed. -/
theorem reverse (h : Arranges lt xs ys) : Arranges (fun a b => lt b a) xs.reverse ys.reverse where
  perm := (List.reverse_perm ys).trans (h.perm.trans (List.reverse_perm xs).symm)
  keeps p hp := by
    rw [List.filter_reverse, List.filter_reverse, h.keeps p fun a b ha hb => hp b a hb ha]

/-- Items that stand in descending order are reversed. -/
theorem of_descending (h : xs.Pairwise fun a b => lt b a) : Arranges lt xs xs.reverse := by
  induction xs with
  | nil => exact refl []
  | cons x xs ih =>
    obtain ⟨hx, hxs⟩ := List.pairwise_cons.mp h
    rw [List.reverse_cons]
    have hswap : Arranges lt ([x] ++ xs) (xs ++ [x]) := swap (List.forall_mem_singleton.mpr hx)
    exact hswap.trans ((ih hxs).append_right [x])

/-- The items are the same. -/
theorem mem_iff (h : Arranges lt xs ys) {x : α} : x ∈ ys ↔ x ∈ xs :=
  h.perm.mem_iff

/-- What holds of any two items holds of them wherever they stand. -/
theorem pairwise (h : Arranges lt xs ys) (hc : Tells Q E lt le less) (hQ : xs.Pairwise Q) :
    ys.Pairwise Q :=
  (h.perm.pairwise_iff hc.symm).mpr hQ

end Arranges

/-- The second list has the items of the first one in ascending order. -/
structure Sorts (lt le : α → α → Prop) (xs ys : List α) : Prop extends Arranges lt xs ys where
  sorted : ys.Pairwise le

/-- Items that were moved around before are sorted. -/
theorem Arranges.sorts {xs ys zs : List α} (h : Arranges lt xs ys) (h' : Sorts lt le ys zs) :
    Sorts lt le xs zs :=
  ⟨h.trans h'.toArranges, h'.sorted⟩

/-- Two lists of which the first one has nothing that is behind an item of the second one. -/
theorem Sorts.append {xs ys xs' ys' : List α} (h : Sorts lt le xs ys) (h' : Sorts lt le xs' ys')
    (hle : ∀ a ∈ xs, ∀ b ∈ xs', le a b) : Sorts lt le (xs ++ xs') (ys ++ ys') where
  toArranges := h.toArranges.append h'.toArranges
  sorted := List.pairwise_append.mpr ⟨h.sorted, h'.sorted, fun a ha b hb =>
    hle a (h.mem_iff.mp ha) b (h'.mem_iff.mp hb)⟩

/-- What is sorted the other way round is sorted when it is reversed. -/
theorem Sorts.reverse {xs ys : List α}
    (h : Sorts (fun a b => lt b a) (fun a b => le b a) xs ys) :
    Sorts lt le xs.reverse ys.reverse where
  toArranges := h.toArranges.reverse
  sorted := List.pairwise_reverse.mpr h.sorted

/-- A list without two items is sorted. -/
theorem Sorts.of_length_lt_two {xs : List α} (h : xs.length < 2) : Sorts lt le xs xs where
  toArranges := .refl xs
  sorted := by
    match xs, h with
    | [], _ => exact .nil
    | [x], _ => exact List.pairwise_singleton _ x

/-! ## Insertion -/

section

variable (h : Tells Q E lt le less)
include h

/-- An item is put in front of those that it is less than, and behind the others. The sorted items
are given from the last to the first. -/
theorem meets_insertBack {x : α} {sorted : List α} (hQ : ∀ y ∈ sorted, Q x y)
    (hsorted : sorted.Pairwise fun a b => le b a) :
    Meets
      (fun result => ∃ greater rest, sorted = greater ++ rest ∧ result = greater ++ x :: rest
        ∧ (∀ y ∈ greater, lt x y) ∧ ∀ y ∈ rest, le y x)
      E (insertBack less x sorted) := by
  induction sorted with
  | nil => exact ⟨[], [], rfl, rfl, nofun, nofun⟩
  | cons y sorted ih =>
    obtain ⟨hy, hsorted⟩ := List.pairwise_cons.mp hsorted
    obtain ⟨hxy, hQ⟩ := List.forall_mem_cons.mp hQ
    refine .bind (h.meets hxy) fun before hbefore => ?_
    cases before with
    | true =>
      refine .bind (ih hQ hsorted) fun result hresult => ?_
      obtain ⟨greater, rest, rfl, rfl, hgreater, hrest⟩ := hresult
      exact ⟨y :: greater, rest, rfl, rfl, List.forall_mem_cons.mpr ⟨hbefore, hgreater⟩, hrest⟩
    | false =>
      -- The greatest item stays behind the new one, and so do all others.
      exact ⟨[], y :: sorted, rfl, rfl, nofun,
        List.forall_mem_cons.mpr ⟨hbefore, fun z hz => h.trans (hy z hz) hbefore⟩⟩

/-- Items are inserted one after the other, with those inserted so far given from the last one. -/
private theorem meets_insertEach {given items : List α} (hQ : (given.reverse ++ items).Pairwise Q)
    (hgiven : given.Pairwise fun a b => le b a) :
    Meets (fun result => Sorts lt le (given.reverse ++ items) result.reverse) E
      (items.foldlM (fun sorted x => insertBack less x sorted) given) := by
  induction items generalizing given with
  | nil =>
    rw [List.append_nil]
    exact ⟨.refl _, List.pairwise_reverse.mpr hgiven⟩
  | cons x items ih =>
    rw [List.foldlM_cons]
    have hQx (y : α) (hy : y ∈ given) : Q x y :=
      h.symm ((List.pairwise_append.mp hQ).2.2 y (List.mem_reverse.mpr hy) x List.mem_cons_self)
    refine .bind (meets_insertBack h hQx hgiven) fun inserted hinserted => ?_
    obtain ⟨greater, rest, rfl, rfl, hgreater, hrest⟩ := hinserted
    obtain ⟨hpairs, hpairs', hcross⟩ := List.pairwise_append.mp hgiven
    have hpairwise : (greater ++ x :: rest).Pairwise fun a b => le b a :=
      List.pairwise_append.mpr ⟨hpairs, List.pairwise_cons.mpr ⟨hrest, hpairs'⟩, fun y hy =>
        List.forall_mem_cons.mpr ⟨h.le_of_lt (hgreater y hy), hcross y hy⟩⟩
    -- The new item has moved past the greater ones.
    have hmoved : Arranges lt ((greater ++ rest).reverse ++ x :: items)
        ((greater ++ x :: rest).reverse ++ items) := by
      have hswap : Arranges lt (greater.reverse ++ [x]) ([x] ++ greater.reverse) :=
        .swap fun y hy => List.forall_mem_singleton.mpr (hgreater y (List.mem_reverse.mp hy))
      simpa using (hswap.append_left rest.reverse).append_right items
    exact (ih (hmoved.pairwise h hQ) hpairwise).mono (fun _ hresult => hmoved.sorts hresult)
      fun _ he => he

/-- Items are inserted behind those that are sorted. -/
theorem meets_insertAll {sorted items : List α} (hQ : (sorted ++ items).Pairwise Q)
    (hsorted : sorted.Pairwise le) :
    Meets (Sorts lt le (sorted ++ items)) E (insertAll less sorted items) := by
  have heach : Meets (fun result => Sorts lt le (sorted.reverse.reverse ++ items) result.reverse) E
      (items.foldlM (fun sorted x => insertBack less x sorted) sorted.reverse) :=
    meets_insertEach h (by rwa [List.reverse_reverse]) (List.pairwise_reverse.mpr hsorted)
  rw [List.reverse_reverse] at heach
  exact heach.bind fun result hresult => hresult

end

/-! ## Steps of a merge -/

namespace Merging

/-- A merge of two sorted lists has taken the items `ls` and `rs` from their fronts, in order, and
nothing that is left should have been taken before them. -/
structure Underway (lt le : α → α → Prop) (left right ls rs : List α) (m : Merging α) : Prop where
  left_eq : left = ls ++ m.left
  right_eq : right = rs ++ m.right
  sorts : Sorts lt le (ls ++ rs) m.taken.reverse
  le_right : ∀ a ∈ ls, ∀ b ∈ m.right, le a b
  lt_left : ∀ b ∈ rs, ∀ a ∈ m.left, lt b a

/-- How many items are left. -/
def remaining (m : Merging α) : Nat :=
  m.left.length + m.right.length

namespace Underway

variable {left right ls rs : List α} {m : Merging α}

/-- At first nothing is taken. -/
theorem start (left right : List α) : Underway lt le left right [] [] { left, right } :=
  ⟨rfl, rfl, ⟨.refl [], .nil⟩, nofun, nofun⟩

/-- The next item of the left list is taken. It has to be in front of all of the right one. -/
theorem takeLeft (hle : ∀ {a b}, lt a b → le a b) (h : Underway lt le left right ls rs m)
    (hleft : left.Pairwise le) {l : α} {rest : List α} (hm : m.left = l :: rest)
    (hl : ∀ b ∈ m.right, le l b) : Underway lt le left right (ls ++ [l]) rs m.takeLeft := by
  have htake : m.takeLeft = { taken := l :: m.taken, left := rest, right := m.right } := by
    unfold Merging.takeLeft
    rw [hm]
  have hlt : ∀ b ∈ rs, lt b l := fun b hb => h.lt_left b hb l (hm ▸ List.mem_cons_self)
  rw [htake]
  refine ⟨?_, h.right_eq, ?_, ?_, ?_⟩
  · rw [h.left_eq, hm, List.append_assoc]
    rfl
  · -- The item moves behind those that were taken from the right list.
    have hmoved : Arranges lt (ls ++ [l] ++ rs) (ls ++ rs ++ [l]) := by
      have hswap : Arranges lt ([l] ++ rs) (rs ++ [l]) := .swap (List.forall_mem_singleton.mpr hlt)
      simpa using hswap.append_left ls
    rw [List.reverse_cons]
    refine hmoved.sorts (h.sorts.append ⟨.refl [l], List.pairwise_singleton _ _⟩ fun a ha => ?_)
    rw [List.forall_mem_singleton]
    rcases List.mem_append.mp ha with ha | ha
    · have hpairs := List.pairwise_append.mp (h.left_eq ▸ hleft)
      exact hpairs.2.2 a ha l (hm ▸ List.mem_cons_self)
    · exact hle (hlt a ha)
  · exact List.forall_mem_append.mpr ⟨h.le_right, List.forall_mem_singleton.mpr hl⟩
  · exact fun b hb a ha => h.lt_left b hb a (hm ▸ List.mem_cons_of_mem _ ha)

/-- The next item of the right list is taken. It has to be less than all of the left one. -/
theorem takeRight (h : Underway lt le left right ls rs m) (hright : right.Pairwise le) {r : α}
    {rest : List α} (hm : m.right = r :: rest) (hr : ∀ a ∈ m.left, lt r a) :
    Underway lt le left right ls (rs ++ [r]) m.takeRight := by
  have htake : m.takeRight = { taken := r :: m.taken, left := m.left, right := rest } := by
    unfold Merging.takeRight
    rw [hm]
  rw [htake]
  refine ⟨h.left_eq, ?_, ?_, ?_, ?_⟩
  · rw [h.right_eq, hm, List.append_assoc]
    rfl
  · rw [List.reverse_cons, ← List.append_assoc]
    refine h.sorts.append ⟨.refl [r], List.pairwise_singleton _ _⟩ fun a ha => ?_
    rw [List.forall_mem_singleton]
    -- What was taken from the left list was in front of all of the right one, and what was taken
    -- from the right one stands in order.
    rcases List.mem_append.mp ha with ha | ha
    · exact h.le_right a ha r (hm ▸ List.mem_cons_self)
    · have hpairs := List.pairwise_append.mp (h.right_eq ▸ hright)
      exact hpairs.2.2 a ha r (hm ▸ List.mem_cons_self)
  · exact fun a ha b hb => h.le_right a ha b (hm ▸ List.mem_cons_of_mem _ hb)
  · exact List.forall_mem_append.mpr ⟨h.lt_left, List.forall_mem_singleton.mpr hr⟩

end Underway

variable {left right ls rs : List α} {m : Merging α}

/-- A merge that goes on, with so many items left. -/
abbrev UnderwayWith (lt le : α → α → Prop) (left right : List α) (n : Nat) (m : Merging α) : Prop :=
  (∃ ls rs, Underway lt le left right ls rs m) ∧ m.remaining = n

/-- One item of the left list is taken, and none of the right one. -/
theorem length_takeLeft (m : Merging α) :
    m.takeLeft.left.length = m.left.length - 1 ∧ m.takeLeft.right = m.right := by
  unfold takeLeft
  cases hm : m.left with
  | nil => simp [hm]
  | cons l rest => exact ⟨by simp, rfl⟩

/-- One item of the right list is taken, and none of the left one. -/
theorem length_takeRight (m : Merging α) :
    m.takeRight.right.length = m.right.length - 1 ∧ m.takeRight.left = m.left := by
  unfold takeRight
  cases hm : m.right with
  | nil => simp [hm]
  | cons r rest => exact ⟨by simp, rfl⟩

/-- One item less is left. -/
theorem remaining_takeLeft {l : α} {rest : List α} (hm : m.left = l :: rest) :
    m.takeLeft.remaining = m.remaining - 1 := by
  unfold remaining takeLeft
  rw [hm]
  simp only [List.length_cons]
  omega

/-- So it is on the right, if there is an item or nothing on the left. -/
theorem remaining_takeRight (hm : m.left = [] ∨ ∃ r rest, m.right = r :: rest) :
    m.takeRight.remaining = m.remaining - 1 := by
  unfold remaining takeRight
  cases hr : m.right with
  | nil =>
    rcases hm with hm | ⟨r, rest, hm⟩
    · simp [hm, hr]
    · rw [hr] at hm
      exact nomatch hm
  | cons r rest =>
    simp only [List.length_cons]
    omega

section

variable (hc : Tells Q E lt le less) (hQ : (left ++ right).Pairwise Q)
variable (hleft : left.Pairwise le) (hright : right.Pairwise le)
include hc hQ hleft hright

/-- A step takes the lesser one of the two next items, the left one if they are equal. -/
theorem Underway.meets_step (h : Underway lt le left right ls rs m) :
    Meets (UnderwayWith lt le left right (m.remaining - 1)) E (m.step less) := by
  unfold step
  split
  · rename_i hl
    -- With nothing left in the left list the right one is copied.
    refine ⟨?_, remaining_takeRight (.inl hl)⟩
    cases hr : m.right with
    | nil =>
      have hsame : m.takeRight = m := by
        unfold Merging.takeRight
        rw [hr]
      exact ⟨ls, rs, hsame.symm ▸ h⟩
    | cons r rest => exact ⟨_, _, h.takeRight hright hr (hl ▸ nofun)⟩
  · rename_i hr hne
    cases hl : m.left with
    | nil => exact absurd hl hne
    | cons l rest =>
      exact ⟨⟨_, _, h.takeLeft hc.le_of_lt hleft hl (hr ▸ nofun)⟩, remaining_takeLeft hl⟩
  · rename_i l lrest r rrest hl hr
    have hlr : Q l r := (List.pairwise_append.mp hQ).2.2 l (by rw [h.left_eq, hl]; simp) r
      (by rw [h.right_eq, hr]; simp)
    refine .bind (hc.meets (hc.symm hlr)) fun before hbefore => ?_
    cases before with
    | true =>
      refine ⟨⟨_, _, h.takeRight hright hr ?_⟩, remaining_takeRight (.inr ⟨r, rrest, hr⟩)⟩
      have hpairs := (List.pairwise_append.mp (h.left_eq ▸ hleft)).2.1
      rw [hl] at hpairs ⊢
      exact List.forall_mem_cons.mpr ⟨hbefore, fun a ha =>
        hc.lt_of_lt_of_le hbefore ((List.pairwise_cons.mp hpairs).1 a ha)⟩
    | false =>
      refine ⟨⟨_, _, h.takeLeft hc.le_of_lt hleft hl ?_⟩, remaining_takeLeft hl⟩
      have hpairs := (List.pairwise_append.mp (h.right_eq ▸ hright)).2.1
      rw [hr] at hpairs ⊢
      exact List.forall_mem_cons.mpr ⟨hbefore, fun b hb =>
        hc.trans hbefore ((List.pairwise_cons.mp hpairs).1 b hb)⟩

/-- Several steps. -/
theorem meets_steps (n : Nat) (h : ∃ ls rs, Underway lt le left right ls rs m) :
    Meets (UnderwayWith lt le left right (m.remaining - n)) E (m.steps less n) := by
  induction n generalizing m with
  | zero => exact ⟨h, rfl⟩
  | succ n ih =>
    obtain ⟨ls, rs, h⟩ := h
    refine .bind (h.meets_step hc hQ hleft hright) fun m' hm' => ?_
    obtain ⟨hunderway, hremaining⟩ := hm'
    rw [show m.remaining - (n + 1) = m'.remaining - n by omega]
    exact ih hunderway

end

end Merging

/-! ## Merging from one end -/

section

variable (h : Tells Q E lt le less) {left right : List α}
include h

/-- Both lists seen from the back have the same items. -/
theorem pairwise_reversed (hQ : (left ++ right).Pairwise Q) :
    (right.reverse ++ left.reverse).Pairwise Q := by
  rw [← List.reverse_append, List.pairwise_reverse]
  exact hQ.imp h.symm

/-- A merge from the front takes as many steps as there are items. -/
theorem meets_mergeUp (hQ : (left ++ right).Pairwise Q) (hleft : left.Pairwise le)
    (hright : right.Pairwise le) :
    Meets (Sorts lt le (left ++ right)) E (mergeUp less left right) := by
  refine .bind (Merging.meets_steps h hQ hleft hright _ ⟨_, _, .start left right⟩) fun m hm => ?_
  obtain ⟨⟨ls, rs, hunderway⟩, hremaining⟩ := hm
  -- Nothing is left.
  have hnone : m.left.length + m.right.length = 0 :=
    hremaining.trans (Nat.sub_eq_zero_of_le (Nat.le_refl _))
  have hl : m.left = [] := List.eq_nil_of_length_eq_zero (by omega)
  have hr : m.right = [] := List.eq_nil_of_length_eq_zero (by omega)
  have hsorts := hunderway.sorts
  have hleft' := hunderway.left_eq
  have hright' := hunderway.right_eq
  rw [hl, List.append_nil] at hleft'
  rw [hr, List.append_nil] at hright'
  rw [hleft', hright']
  exact hsorts

/-- Two sorted lists are merged. -/
theorem meets_merge (hQ : (left ++ right).Pairwise Q) (hleft : left.Pairwise le)
    (hright : right.Pairwise le) :
    Meets (Sorts lt le (left ++ right)) E (merge less left right) := by
  unfold merge
  split
  · exact meets_mergeUp h hQ hleft hright
  · refine .map (meets_mergeUp h.flipped (pairwise_reversed h hQ) (List.pairwise_reverse.mpr hright)
      (List.pairwise_reverse.mpr hleft)) fun result hresult => ?_
    have hreversed : Sorts lt le _ _ := hresult.reverse
    rw [← List.reverse_append, List.reverse_reverse] at hreversed
    exact hreversed

end

/-! ## Merging from both ends -/

/-- If one cut of a list lies in front of another one there is an item between them. -/
private theorem exists_between {p q p' q' : List α} (h : p ++ q = p' ++ q')
    (hlength : p.length < p'.length) : ∃ x ∈ q, x ∈ p' := by
  rcases List.append_eq_append_iff.mp h with ⟨between, rfl, rfl⟩ | ⟨between, rfl, rfl⟩
  · cases between with
    | nil => simp at hlength
    | cons x between => exact ⟨x, List.mem_cons_self, List.mem_append_right _ List.mem_cons_self⟩
  · rw [List.length_append] at hlength
    omega

/-- What is known of a merge from both ends: the items `ls` and `rs` were taken from the front, and
`brs` and `bls` from the back, where both lists are seen in reverse order. -/
structure Closing (lt le : α → α → Prop) (left right ls rs brs bls : List α)
    (front back : Merging α) : Prop where
  front : front.Underway lt le left right ls rs
  back : back.Underway (fun a b => lt b a) (fun a b => le b a) right.reverse left.reverse brs bls

namespace Closing

variable {left right ls rs brs bls : List α} {front back : Merging α}

/-- The left list is what the back has left of it, and what it has taken. -/
theorem left_eq (h : Closing lt le left right ls rs brs bls front back) :
    left = back.right.reverse ++ bls.reverse := by
  rw [← List.reverse_append, ← h.back.right_eq, List.reverse_reverse]

/-- So is the right one. -/
theorem right_eq (h : Closing lt le left right ls rs brs bls front back) :
    right = back.left.reverse ++ brs.reverse := by
  rw [← List.reverse_append, ← h.back.left_eq, List.reverse_reverse]

/-- An item that the back has left but the front has taken, and one the other way round: the two
ends contradict each other. -/
theorem contradicts (hc : Compares Q E lt le less)
    (h : Closing lt le left right ls rs brs bls front back) :
    ls.length < back.right.length ∧ back.left.length < rs.length
      ∨ back.right.length < ls.length ∧ rs.length < back.left.length → E .crash := by
  rintro (⟨hl, hr⟩ | ⟨hl, hr⟩)
  · obtain ⟨a, ha, ha'⟩ := exists_between (h.front.left_eq.symm.trans h.left_eq)
      (by rwa [List.length_reverse])
    obtain ⟨b, hb, hb'⟩ := exists_between (h.right_eq.symm.trans h.front.right_eq)
      (by rwa [List.length_reverse])
    exact hc.crash (h.front.lt_left b hb' a ha)
      (h.back.le_right b (List.mem_reverse.mp hb) a (List.mem_reverse.mp ha'))
  · obtain ⟨a, ha, ha'⟩ := exists_between (h.left_eq.symm.trans h.front.left_eq)
      (by rwa [List.length_reverse])
    obtain ⟨b, hb, hb'⟩ := exists_between (h.front.right_eq.symm.trans h.right_eq)
      (by rwa [List.length_reverse])
    exact hc.crash (h.back.lt_left a (List.mem_reverse.mp ha) b (List.mem_reverse.mp hb'))
      (h.front.le_right a ha' b hb)

/-- Where both ends have met the items of both make up the sorted list. -/
theorem sorts (hc : Compares Q E lt le less) (hleft : left.Pairwise le) (hright : right.Pairwise le)
    (h : Closing lt le left right ls rs brs bls front back)
    (hl : front.left.length + back.right.length = left.length)
    (hr : front.right.length + back.left.length = right.length) :
    Sorts lt le (left ++ right) (front.taken.reverse ++ back.taken) := by
  -- What the front has left is what the back has taken.
  have hlength := congrArg List.length h.left_eq
  have hlength' := congrArg List.length h.right_eq
  simp only [List.length_append, List.length_reverse] at hlength hlength'
  obtain ⟨-, hbls⟩ := List.append_inj' (h.front.left_eq.symm.trans h.left_eq)
    (by rw [List.length_reverse]; omega)
  obtain ⟨-, hbrs⟩ := List.append_inj' (h.front.right_eq.symm.trans h.right_eq)
    (by rw [List.length_reverse]; omega)
  have hback : Sorts lt le (front.left ++ front.right) back.taken := by
    have hreversed : Sorts lt le _ _ := h.back.sorts.reverse
    rw [List.reverse_append, List.reverse_reverse, ← hbls, ← hbrs] at hreversed
    exact hreversed
  have hmoved : Arranges lt (left ++ right) (ls ++ rs ++ (front.left ++ front.right)) := by
    have hswap : Arranges lt (front.left ++ rs) (rs ++ front.left) :=
      .swap fun a ha b hb => h.front.lt_left b hb a ha
    rw [h.front.left_eq, h.front.right_eq]
    simpa using (hswap.append_left ls).append_right front.right
  have hpairs := (List.pairwise_append.mp (h.front.left_eq ▸ hleft)).2.2
  have hpairs' := (List.pairwise_append.mp (h.front.right_eq ▸ hright)).2.2
  refine hmoved.sorts (h.front.sorts.append hback fun a ha => List.forall_mem_append.mpr ?_)
  rcases List.mem_append.mp ha with ha | ha
  · exact ⟨hpairs a ha, h.front.le_right a ha⟩
  · exact ⟨fun b hb => hc.le_of_lt (h.front.lt_left a ha b hb), hpairs' a ha⟩

/-- If the single item in the middle is one of the left list, and the ends meet behind it, it
belongs there. -/
theorem takeLeft (hc : Compares Q E lt le less) (hleft : left.Pairwise le)
    (h : Closing lt le left right ls rs brs bls front back)
    (hl : back.right.length = ls.length + 1)
    (hr : front.right.length + back.left.length = right.length) :
    ∃ l, Closing lt le left right (ls ++ [l]) rs brs bls front.takeLeft back := by
  have heq := h.front.left_eq.symm.trans h.left_eq
  obtain ⟨l, hmem, hmem'⟩ := exists_between heq (by rw [List.length_reverse]; omega)
  cases hfront : front.left with
  | nil =>
    rw [hfront] at hmem
    exact nomatch hmem
  | cons l' rest =>
    -- The first item that the front has left is the last one that the back has left.
    rw [hfront] at heq
    rw [List.append_cons] at heq
    obtain ⟨hlast, -⟩ := List.append_inj heq (by simp [hl])
    have hl' : l' ∈ back.right := by
      rw [← List.mem_reverse, ← hlast]
      exact List.mem_append_right _ List.mem_cons_self
    have hlength := congrArg List.length h.right_eq
    simp only [List.length_append, List.length_reverse] at hlength
    obtain ⟨-, hbrs⟩ := List.append_inj' (h.front.right_eq.symm.trans h.right_eq)
      (by rw [List.length_reverse]; omega)
    refine ⟨l', h.front.takeLeft hc.le_of_lt hleft hfront fun b hb => ?_, h.back⟩
    rw [hbrs, List.mem_reverse] at hb
    exact h.back.le_right b hb l' hl'

/-- If the single item in the middle is one of the right list, and the ends meet behind it, it
belongs there. -/
theorem takeRight (hright : right.Pairwise le)
    (h : Closing lt le left right ls rs brs bls front back)
    (hr : back.left.length = rs.length + 1)
    (hl : front.left.length + back.right.length = left.length) :
    ∃ r, Closing lt le left right ls (rs ++ [r]) brs bls front.takeRight back := by
  have heq := h.front.right_eq.symm.trans h.right_eq
  obtain ⟨r, hmem, -⟩ := exists_between heq (by rw [List.length_reverse]; omega)
  cases hfront : front.right with
  | nil =>
    rw [hfront] at hmem
    exact nomatch hmem
  | cons r' rest =>
    rw [hfront] at heq
    rw [List.append_cons] at heq
    -- The front has one item of the right list to go, which is the one the back stopped at.
    obtain ⟨hlast, -⟩ := List.append_inj heq (by simp [hr])
    have hr' : r' ∈ back.left := by
      rw [← List.mem_reverse, ← hlast]
      exact List.mem_append_right _ List.mem_cons_self
    have hlength := congrArg List.length h.left_eq
    simp only [List.length_append, List.length_reverse] at hlength
    -- Of the left list each end has taken what the other one has left.
    obtain ⟨-, hbls⟩ := List.append_inj' (h.front.left_eq.symm.trans h.left_eq)
      (by rw [List.length_reverse]; omega)
    refine ⟨r', h.front.takeRight hright hfront fun a ha => ?_, h.back⟩
    rw [hbls, List.mem_reverse] at ha
    exact h.back.lt_left a ha r' hr'

end Closing

section

variable (hc : Compares Q E lt le less) {left right : List α}
variable (hleft : left.Pairwise le) (hright : right.Pairwise le)
include hc hleft hright

/-- Steps from both ends. -/
theorem meets_stepsBothEnds (hQ : (left ++ right).Pairwise Q) (n : Nat) {front back : Merging α}
    (h : ∃ ls rs brs bls, Closing lt le left right ls rs brs bls front back) :
    Meets
      (fun ends => (∃ ls rs brs bls, Closing lt le left right ls rs brs bls ends.1 ends.2)
        ∧ ends.1.remaining = front.remaining - n ∧ ends.2.remaining = back.remaining - n)
      E (stepsBothEnds less n front back) := by
  induction n generalizing front back with
  | zero => exact ⟨h, rfl, rfl⟩
  | succ n ih =>
    obtain ⟨ls, rs, brs, bls, hfront, hback⟩ := h
    refine .bind (hfront.meets_step hc.toTells hQ hleft hright) fun front' hfront' => ?_
    refine .bind (hback.meets_step hc.toTells.flipped (pairwise_reversed hc.toTells hQ)
      (List.pairwise_reverse.mpr hright) (List.pairwise_reverse.mpr hleft)) fun back' hback' => ?_
    obtain ⟨⟨ls, rs, hfront⟩, hremaining⟩ := hfront'
    obtain ⟨⟨brs, bls, hback⟩, hremaining'⟩ := hback'
    refine (ih ⟨ls, rs, brs, bls, hfront, hback⟩).mono (fun ends hends => ?_) fun _ he => he
    exact ⟨hends.1, by omega, by omega⟩

/-- The two ends come together, unless they contradict each other. -/
theorem Closing.meets_meet {ls rs brs bls : List α} {front back : Merging α}
    (h : Closing lt le left right ls rs brs bls front back)
    (hfront : front.remaining
      = left.length + right.length - (left.length + right.length) / 2)
    (hback : back.remaining = left.length + right.length - (left.length + right.length) / 2) :
    Meets (Sorts lt le (left ++ right)) E (meet left.length right.length front back) := by
  -- How many items there are, taken and left, in either list and from either end.
  have hls := congrArg List.length h.front.left_eq
  have hrs := congrArg List.length h.front.right_eq
  have hbls := congrArg List.length h.left_eq
  have hbrs := congrArg List.length h.right_eq
  simp only [List.length_append, List.length_reverse] at hls hrs hbls hbrs
  simp only [Merging.remaining] at hfront hback
  unfold meet
  by_cases heven : (left.length + right.length) % 2 = 0
  · simp only [if_pos heven]
    split
    · rename_i hmet
      exact h.sorts hc hleft hright hmet.1 hmet.2
    · exact h.contradicts hc (by omega)
  · simp only [if_neg heven]
    by_cases hmore : left.length < front.left.length + back.right.length
    · simp only [if_pos hmore]
      by_cases hone : back.right.length = ls.length + 1
      · obtain ⟨l, hclosing⟩ := h.takeLeft hc hleft hone (by omega)
        have htaken := congrArg List.length hclosing.front.left_eq
        have htaken' := congrArg List.length hclosing.front.right_eq
        simp only [List.length_append, List.length_singleton] at htaken htaken'
        have hmet : front.takeLeft.left.length + back.right.length = left.length
            ∧ front.takeLeft.right.length + back.left.length = right.length := by omega
        rw [if_pos hmet]
        exact hclosing.sorts hc hleft hright hmet.1 hmet.2
      · have htake := Merging.length_takeLeft front
        rw [if_neg (by omega)]
        exact h.contradicts hc (by omega)
    · simp only [if_neg hmore]
      by_cases hone : back.left.length = rs.length + 1
      · obtain ⟨r, hclosing⟩ := h.takeRight hright hone (by omega)
        have htaken := congrArg List.length hclosing.front.left_eq
        have htaken' := congrArg List.length hclosing.front.right_eq
        simp only [List.length_append, List.length_singleton] at htaken htaken'
        have hmet : front.takeRight.left.length + back.right.length = left.length
            ∧ front.takeRight.right.length + back.left.length = right.length := by omega
        rw [if_pos hmet]
        exact hclosing.sorts hc hleft hright hmet.1 hmet.2
      · have htake := Merging.length_takeRight front
        rw [if_neg (by omega)]
        exact h.contradicts hc (by omega)

/-- Two sorted lists are merged from both ends. -/
theorem meets_mergeBothEnds (hQ : (left ++ right).Pairwise Q) :
    Meets (Sorts lt le (left ++ right)) E (mergeBothEnds less left right) := by
  refine .bind (meets_stepsBothEnds hc hleft hright hQ _ ⟨_, _, _, _, .start left right,
    .start right.reverse left.reverse⟩) fun ends hends => ?_
  obtain ⟨⟨ls, rs, brs, bls, hclosing⟩, hfront, hback⟩ := hends
  refine hclosing.meets_meet hc hleft hright hfront ?_
  rw [hback]
  simp only [Merging.remaining, List.length_reverse]
  omega

end

/-! ## Small lists -/

section

variable (h : Tells Q E lt le less)
include h

/-- Two items are put in order. -/
theorem sorts_pair {a b : α} {before : Bool} (hbefore : if before then lt b a else le a b) :
    ∃ x y, (if before then (b, a) else (a, b)) = (x, y) ∧ Sorts lt le [a, b] [x, y] := by
  cases before with
  | true =>
    change lt b a at hbefore
    exact ⟨b, a, rfl, .exchange hbefore [], by simpa using h.le_of_lt hbefore⟩
  | false => exact ⟨a, b, rfl, .refl _, by simpa using hbefore⟩

/-- Two sorted pairs are sorted together. -/
theorem meets_sortPairs {a b c d : α} (hQ : [a, b, c, d].Pairwise Q) (hab : le a b)
    (hcd : le c d) : Meets (Sorts lt le [a, b, c, d]) E (sortPairs less a b c d) := by
  obtain ⟨⟨hQab, hQac, hQad⟩, ⟨hQbc, hQbd⟩, hQcd⟩ :
      (Q a b ∧ Q a c ∧ Q a d) ∧ (Q b c ∧ Q b d) ∧ Q c d := by simpa using hQ
  refine .bind (h.meets (h.symm hQac)) fun low hlow => ?_
  refine .bind (h.meets (h.symm hQbd)) fun high hhigh => ?_
  -- The lesser of the two first items is the least of all, and the greater of the two last ones the
  -- greatest; the two that are left are compared with each other.
  cases low with
  | false =>
    -- The first pair starts.
    change le a c at hlow
    cases high with
    | false =>
      change le b d at hhigh
      refine .bind (h.meets (h.symm hQbc)) fun swapped hswapped => ?_
      cases swapped with
      | true =>
        change lt c b at hswapped
        refine ⟨.cons a (.exchange hswapped [d]), ?_⟩
        simp [hlow, hab, hhigh, hcd, h.le_of_lt hswapped, h.trans hab hhigh]
      | false =>
        change le b c at hswapped
        refine ⟨.refl _, ?_⟩
        simp [hlow, hab, hhigh, hcd, hswapped, h.trans hab hhigh]
    | true =>
      change lt d b at hhigh
      have hcb : lt c b := h.lt_of_le_of_lt hcd hhigh
      -- The second pair lies between the items of the first one.
      have hmoved : Arranges lt [a, b, c, d] [a, c, d, b] :=
        .cons a (.trans (.exchange hcb [d]) (.cons c (.exchange hhigh [])))
      refine .bind (h.meets (h.symm hQcd)) fun swapped hswapped => ?_
      cases swapped with
      | true =>
        change lt d c at hswapped
        refine ⟨hmoved.trans (.cons a (.exchange hswapped [b])), ?_⟩
        simp [hlow, hab, h.trans hlow hcd, h.le_of_lt hswapped, h.le_of_lt hcb, h.le_of_lt hhigh]
      | false =>
        refine ⟨hmoved, ?_⟩
        simp [hlow, hab, hcd, h.trans hlow hcd, h.le_of_lt hcb, h.le_of_lt hhigh]
  | true =>
    -- The second pair starts, so its first item has moved past both of the first pair.
    change lt c a at hlow
    have hcb : lt c b := h.lt_of_lt_of_le hlow hab
    have hmoved : Arranges lt [a, b, c, d] [c, a, b, d] :=
      .trans (.cons a (.exchange hcb [d])) (.exchange hlow [b, d])
    cases high with
    | false =>
      change le b d at hhigh
      refine .bind (h.meets (h.symm hQab)) fun swapped hswapped => ?_
      cases swapped with
      | true =>
        change lt b a at hswapped
        refine ⟨hmoved.trans (.cons c (.exchange hswapped [d])), ?_⟩
        simp [hcd, hhigh, h.le_of_lt hlow, h.le_of_lt hcb, h.trans hab hhigh, h.le_of_lt hswapped]
      | false =>
        refine ⟨hmoved, ?_⟩
        simp [hab, hcd, hhigh, h.le_of_lt hlow, h.le_of_lt hcb, h.trans hab hhigh]
    | true =>
      change lt d b at hhigh
      -- The first pair ends as well, so the pairs have changed places.
      have hmoved' : Arranges lt [a, b, c, d] [c, a, d, b] :=
        hmoved.trans (.cons c (.cons a (.exchange hhigh [])))
      refine .bind (h.meets (h.symm hQad)) fun swapped hswapped => ?_
      cases swapped with
      | true =>
        change lt d a at hswapped
        refine ⟨hmoved'.trans (.cons c (.exchange hswapped [b])), ?_⟩
        simp [hab, hcd, h.le_of_lt hlow, h.le_of_lt hcb, h.le_of_lt hhigh, h.le_of_lt hswapped]
      | false =>
        change le a d at hswapped
        refine ⟨hmoved', ?_⟩
        simp [hab, hcd, h.le_of_lt hlow, h.le_of_lt hcb, h.le_of_lt hhigh, hswapped]

/-- Four items are sorted. -/
theorem meets_sortFour {a b c d : α} (hQ : [a, b, c, d].Pairwise Q) :
    Meets (Sorts lt le [a, b, c, d]) E (sortFour less a b c d) := by
  obtain ⟨⟨hab, -, -⟩, -, hcd⟩ :
      (Q a b ∧ Q a c ∧ Q a d) ∧ (Q b c ∧ Q b d) ∧ Q c d := by simpa using hQ
  unfold sortFour
  refine .bind (h.meets (h.symm hab)) fun first hfirst => ?_
  refine .bind (h.meets (h.symm hcd)) fun second hsecond => ?_
  obtain ⟨a', b', hpair, hsorts⟩ := sorts_pair h hfirst
  obtain ⟨c', d', hpair', hsorts'⟩ := sorts_pair h hsecond
  rw [hpair, hpair']
  have hmoved := hsorts.toArranges.append hsorts'.toArranges
  refine (meets_sortPairs h (hmoved.pairwise h hQ) ?_ ?_).mono
    (fun _ hresult => hmoved.sorts hresult) fun _ he => he
  · simpa using hsorts.sorted
  · simpa using hsorts'.sorted

/-- The first items of a list are sorted before the others are inserted. -/
theorem meets_presorted (four : Bool) {items : List α} (hQ : items.Pairwise Q) :
    Meets (fun start => Sorts lt le (items.take start.length) start) E
      (presorted less four items) := by
  unfold presorted
  split
  · rename_i a b c d rest
    cases four with
    | true =>
      have hfour : [a, b, c, d].Pairwise Q :=
        hQ.sublist (List.sublist_append_left [a, b, c, d] rest)
      refine (meets_sortFour h hfour).mono (fun start hstart => ?_) fun _ he => he
      rw [hstart.perm.length_eq]
      exact hstart
    | false => exact .of_length_lt_two (by simp)
  · -- Less than four items: the first one is sorted by itself.
    have htake : items.take (items.take 1).length = items.take 1 := by
      cases items <;> rfl
    show Sorts lt le (items.take (items.take 1).length) (items.take 1)
    rw [htake]
    exact .of_length_lt_two (Nat.lt_succ_of_le (List.length_take_le 1 items))

end

/-- A list of a few items is sorted. -/
theorem meets_smallSort (hc : Compares Q E lt le less) {items : List α} (hQ : items.Pairwise Q) :
    Meets (Sorts lt le items) E (smallSort less items) := by
  unfold smallSort
  split
  · rename_i hlength
    exact .of_length_lt_two hlength
  · -- Both halves are sorted by insertion and then merged.
    have hQl := hQ.sublist (List.take_sublist (items.length / 2) items)
    have hQr := hQ.sublist (List.drop_sublist (items.length / 2) items)
    refine .bind (meets_presorted hc.toTells _ hQl) fun leftStart hleftStart => ?_
    refine .bind (meets_presorted hc.toTells _ hQr) fun rightStart hrightStart => ?_
    have hmoved := hleftStart.toArranges.append_right
      ((items.take (items.length / 2)).drop leftStart.length)
    have hmoved' := hrightStart.toArranges.append_right
      ((items.drop (items.length / 2)).drop rightStart.length)
    rw [List.take_append_drop] at hmoved hmoved'
    refine .bind (meets_insertAll hc.toTells (hmoved.pairwise hc.toTells hQl) hleftStart.sorted)
      fun left hleft => ?_
    refine .bind (meets_insertAll hc.toTells (hmoved'.pairwise hc.toTells hQr) hrightStart.sorted)
      fun right hright => ?_
    -- All that was moved up to the merge is one arrangement of the items.
    have hhalves := (hmoved.trans hleft.toArranges).append (hmoved'.trans hright.toArranges)
    rw [List.take_append_drop] at hhalves
    exact (meets_mergeBothEnds hc hleft.sorted hright.sorted
      (hhalves.pairwise hc.toTells hQ)).mono (fun _ hresult => hhalves.sorts hresult) fun _ he => he

end Stencil.Sorting
