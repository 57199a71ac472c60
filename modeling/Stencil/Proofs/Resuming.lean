import Mathlib.Data.List.Forall2
import Stencil.Proofs.Positions
import Stencil.Proofs.Turns

/-!
# Loops that go on

A loop with the offset `continue` goes on from where the last loop of its name stopped. So loops of
one name that all go on cut the items of their collection into adjacent stretches, wherever they
stand: in the template or in partials that share the registers, and with any other loops in between.

A range that is too long to be counted has only as many items as can be counted, and its loops
stop there.

## Key definitions

- `LoopEntry.Resumes`: a loop that goes on, with what its limit amounts to
- `stopAfterAll`: where loops with some limits stop, one after the other
- `Adjacent`: loops that run over one stretch after another

## Key results

- `LoopEntry.Resumes.step`: what one loop runs over, and where it stops
- `Moves.adjacent`: loops of one name run over one stretch after another
- `Document.entriesOfAll_resume`: the stretches that the limits say
-/

namespace Stencil

open Render

/-! ## Stretches of a list -/

namespace Slice

variable {α : Type}

/-- A stretch that ends beyond the list ends with it. -/
theorem cut_eq_cut_min (start : Nat) (stop : Option Nat) (xs : List α) :
    cut start stop xs = cut start (some (min (stop.getD xs.length) xs.length)) xs := by
  unfold cut
  rw [Option.getD_some, List.take_eq_take_min]

/-- The stretch of one item. -/
theorem cut_of_getElem? {xs : List α} {i : Nat} {x : α} (h : xs[i]? = some x) :
    cut i (some (i + 1)) xs = [x] := by
  obtain ⟨hi, rfl⟩ := List.getElem?_eq_some_iff.mp h
  rw [cut, Option.getD_some, List.drop_take, Nat.add_sub_cancel_left,
    List.drop_eq_getElem_cons hi, List.take_succ_cons, List.take_zero]

/-- Adjacent stretches are one. -/
theorem cut_append_cut {start middle stop : Nat} (h : start ≤ middle) (h' : middle ≤ stop)
    (xs : List α) :
    cut start (some middle) xs ++ cut middle (some stop) xs = cut start (some stop) xs := by
  have hlength : stop - start = (middle - start) + (stop - middle) := by omega
  have hmiddle : start + (middle - start) = middle := by omega
  simp only [cut, Option.getD_some, List.drop_take]
  rw [hlength, List.take_add, List.drop_drop, hmiddle]

end Slice

/-! ## One loop -/

/-- A loop that goes on from where the last one of its name stopped, over a collection with these
items, and with what its limit amounts to. -/
structure LoopEntry.Resumes (settings : Settings) (items : List Value) (entry : LoopEntry)
    (limit : Option Nat) : Prop where
  offset : entry.header.offset = some .continue
  collection : ∃ v, entry.header.collection.evaluate (settings.view entry.state) = .ok v
    ∧ v.liquid.loopItems = items
  limit : Amounts (settings.view entry.state) entry.header.limit limit

/-- Where a loop stops that starts from `start` in a collection of `n` items. -/
def stopAfter (n start : Nat) (limit : Option Nat) : Nat :=
  min (start + limit.getD n) n

variable {settings : Settings} {items : List Value}

theorem stopAfter_le (n start : Nat) (limit : Option Nat) : stopAfter n start limit ≤ n :=
  Nat.min_le_right ..

/-- A loop that goes on runs over the items that its limit leaves, and stops behind the last of
them. -/
theorem LoopEntry.Resumes.step {entry : LoopEntry} {limit : Option Nat} {start : Nat}
    {t : RenderState} (h : entry.Resumes settings items limit)
    (hslice : loopSlice settings entry.name entry.header entry.state = (.ok entry.slice, t))
    (hstart : (entry.state.positions.get? entry.name).getD 0 = start)
    (hle : start ≤ items.length) :
    entry.slice.toList = Slice.cut start (some (stopAfter items.length start limit)) items
      ∧ t.positions.get? entry.name = some (stopAfter items.length start limit) := by
  obtain ⟨v, hcollection, rfl⟩ := h.collection
  have hcontinue : loopStart settings entry.name entry.header.offset entry.state
      = (.ok start, entry.state) := by
    rw [h.offset, ← hstart]
    rfl
  -- The slice and the state of the entry are those that the attributes amount to.
  rw [Render.loopSlice_eq hcollection hcontinue h.limit] at hslice
  obtain ⟨hentry, rfl⟩ := Prod.mk.inj hslice
  have hentry : Slice.of start (limit.map (start + ·)) v.liquid = entry.slice :=
    Except.ok.inj hentry
  have hstop : min ((limit.map (start + ·)).getD v.liquid.loopItems.length)
      v.liquid.loopItems.length = stopAfter v.liquid.loopItems.length start limit := by
    unfold stopAfter
    cases limit with
    | none => simp
    | some l => rfl
  have hitems : entry.slice.toList
      = Slice.cut start (some (stopAfter v.liquid.loopItems.length start limit))
          v.liquid.loopItems := by
    rw [← hentry, Slice.toList_of, Slice.cut_eq_cut_min, hstop]
  refine ⟨hitems, ?_⟩
  -- So the slice reaches from the start to where the loop is to stop.
  have hlength := congrArg List.length hitems
  rw [Slice.length_toList, Slice.length_cut, ← hentry] at hlength
  have hposition : (setPosition entry.name
        (start + (Slice.of start (limit.map (start + ·)) v.liquid).length) entry.state).2.positions
      = entry.state.positions.put entry.name
          (start + (Slice.of start (limit.map (start + ·)) v.liquid).length) := rfl
  rw [hposition, Assoc.get?_put, if_pos rfl, hlength, Option.getD_some]
  refine congrArg some ?_
  unfold stopAfter
  omega

/-! ### Loops over ranges -/

/-- The ends and the limit of a loop that goes on over a range, if they are written down as
numbers. -/
def LoopHeader.numbers? (header : LoopHeader) : Option (Int64 × Int64 × Option Int64) :=
  match header.offset, header.collection with
  | some .continue, .range (.literal (.int first)) (.literal (.int last)) =>
    match header.limit with
    | none => some (first, last, none)
    | some (.literal (.int limit)) => some (first, last, some limit)
    | some _ => none
  | _, _ => none

/-- Such a loop goes on in every state. -/
theorem LoopEntry.resumes_of_numbers {entry : LoopEntry} {first last : Int64}
    {limit : Option Int64} (h : entry.header.numbers? = some (first, last, limit)) :
    entry.Resumes settings (Value.range first last).loopItems (limit.map (·.toInt.toNat)) := by
  unfold LoopHeader.numbers? at h
  -- Only a loop that goes on, over a literal range, has numbers; its limit is absent or whole.
  split at h
  · rename_i first' last' hoffset hcollection
    have hevaluate : entry.header.collection.evaluate (settings.view entry.state)
        = .ok (.range first' last') := by
      rw [hcollection]
      rfl
    split at h
    · rename_i hlimit
      cases h
      exact ⟨hoffset, ⟨_, hevaluate, rfl⟩, hlimit ▸ .absent⟩
    · rename_i hlimit
      cases h
      exact ⟨hoffset, ⟨_, hevaluate, rfl⟩, hlimit ▸ .whole rfl nofun rfl⟩
    · exact nomatch h
  · exact nomatch h

/-- So do several of them, one after the other. -/
theorem LoopEntry.forall₂_resumes {entries : List LoopEntry} {first last : Int64}
    {limits : List (Option Int64)}
    (h : entries.map (·.header.numbers?) = limits.map fun limit => some (first, last, limit)) :
    List.Forall₂ (LoopEntry.Resumes settings (Value.range first last).loopItems) entries
      (limits.map (Option.map (·.toInt.toNat))) := by
  rw [← List.forall₂_eq_eq_eq, List.forall₂_map_left_iff, List.forall₂_map_right_iff] at h
  rw [List.forall₂_map_right_iff]
  exact h.imp fun _ _ hnumbers => LoopEntry.resumes_of_numbers hnumbers

/-! ## Loops of one name -/

/-- Loops that run over one stretch of the items after another, as far as their limits say. -/
inductive Adjacent (items : List Value) :
    (start : Nat) → List LoopEntry → List (Option Nat) → (stop : Nat) → Prop where
  | nil {start} : Adjacent items start [] [] start
  | cons {start entry entries limit limits stop} :
      entry.slice.toList = Slice.cut start (some (stopAfter items.length start limit)) items →
      Adjacent items (stopAfter items.length start limit) entries limits stop →
      Adjacent items start (entry :: entries) (limit :: limits) stop

/-- Loops of one name that all go on run over one stretch after another, whatever loops of other
names there are in between. -/
theorem Moves.adjacent {p q : Assoc Nat} {entries : List LoopEntry} (h : Moves settings p entries q)
    {name : String} {limits : List (Option Nat)} {start : Nat}
    (hloops : List.Forall₂ (LoopEntry.Resumes settings items)
      (entries.filter (·.name = name)) limits)
    (hstart : (p.get? name).getD 0 = start) (hle : start ≤ items.length) :
    Adjacent items start (entries.filter (·.name = name)) limits ((q.get? name).getD 0) := by
  -- By induction on the loops: one of the name moves the start, any other leaves it where it is.
  induction h generalizing limits start with
  | done =>
    cases hloops
    rw [hstart]
    exact .nil
  | @enter entry entries t q hslice hrest ih =>
    by_cases hname : entry.name = name
    · subst hname
      rw [List.filter_cons_of_pos (by simp)] at hloops ⊢
      cases hloops with
      | @cons _ limit _ limits hentry hloops =>
        obtain ⟨hitems, hposition⟩ := hentry.step hslice hstart hle
        refine .cons hitems (ih hloops ?_ (stopAfter_le ..))
        rw [hposition, Option.getD_some]
    · rw [List.filter_cons_of_neg (by simpa using hname)] at hloops ⊢
      have hputs : Puts entry.name (loopSlice settings entry.name entry.header) :=
        Puts.loopSlice entry.name entry.header
      have ht := hputs entry.state
      rw [hslice] at ht
      obtain ⟨position, ht⟩ := ht
      refine ih hloops ?_ hle
      rw [ht, Assoc.get?_put, if_neg fun h => hname h.symm]
      exact hstart

/-- Where loops with these limits stop, one after the other, if the first of them starts from
`start` in a collection of `n` items. A loop without a limit goes to the end. -/
def stopAfterAll (n start : Nat) (limits : List (Option Nat)) : Nat :=
  min (start + (limits.map (·.getD n)).sum) n

theorem stopAfterAll_nil {n start : Nat} (h : start ≤ n) : stopAfterAll n start [] = start :=
  Nat.min_eq_left h

theorem stopAfterAll_cons (n start : Nat) (limit : Option Nat) (limits : List (Option Nat)) :
    stopAfterAll n start (limit :: limits) = stopAfterAll n (stopAfter n start limit) limits := by
  unfold stopAfterAll stopAfter
  rw [List.map_cons, List.sum_cons]
  omega

theorem le_stopAfterAll {n start : Nat} (h : start ≤ n) (limits : List (Option Nat)) :
    start ≤ stopAfterAll n start limits := by
  unfold stopAfterAll
  omega

namespace Adjacent

variable {start stop : Nat} {entries : List LoopEntry} {limits : List (Option Nat)}

theorem stop_eq (h : Adjacent items start entries limits stop) (hle : start ≤ items.length) :
    stop = stopAfterAll items.length start limits := by
  induction h with
  | nil => exact (stopAfterAll_nil hle).symm
  | cons _ _ ih =>
    rw [stopAfterAll_cons]
    exact ih (stopAfter_le ..)

/-- Which stretch each of the loops runs over. -/
theorem toList_eq (h : Adjacent items start entries limits stop) (hle : start ≤ items.length)
    {i : Nat} {entry : LoopEntry} (hi : entries[i]? = some entry) :
    entry.slice.toList
      = Slice.cut (stopAfterAll items.length start (limits.take i))
          (some (stopAfterAll items.length start (limits.take (i + 1)))) items := by
  induction h generalizing i with
  | nil => exact nomatch hi
  | cons hitems _ ih =>
    -- The first loop starts where the counting starts, any other where the one before stopped.
    cases i with
    | zero =>
      obtain rfl := Option.some.inj hi
      rw [List.take_succ_cons, List.take_zero, List.take_zero, stopAfterAll_cons,
        stopAfterAll_nil hle, stopAfterAll_nil (stopAfter_le ..)]
      exact hitems
    | succ i =>
      rw [List.take_succ_cons, List.take_succ_cons, stopAfterAll_cons, stopAfterAll_cons]
      exact ih (stopAfter_le ..) hi

/-- Together the loops run over one stretch: no item is left out, and none is visited twice. -/
theorem flatMap_toList (h : Adjacent items start entries limits stop)
    (hle : start ≤ items.length) :
    entries.flatMap (·.slice.toList)
      = Slice.cut start (some (stopAfterAll items.length start limits)) items := by
  induction h with
  | nil => simp [Slice.cut, stopAfterAll_nil hle]
  | @cons start entry entries limit limits stop hitems _ ih =>
    have hstop := stopAfter_le items.length start limit
    rw [List.flatMap_cons, hitems, ih hstop, stopAfterAll_cons]
    -- Where one slice stops the next one starts, so together they are one.
    refine Slice.cut_append_cut ?_ (le_stopAfterAll hstop limits) items
    unfold stopAfter
    omega

end Adjacent

/-- The item of the range of all integers at the largest index that there is. -/
private theorem cut_rangeItems_all :
    let items := rangeItems Int64.minValue Int64.maxValue
    let stop := stopAfterAll items.length 0
    Slice.cut (stop [some 9223372036854775807]) (some (stop [some 9223372036854775807, some 1]))
      items = [.int (-1)] := by
  -- The lengths are rewritten first: no list of that size may ever be computed.
  have hlength : (rangeItems Int64.minValue Int64.maxValue).length = 18446744073709551616 := by
    unfold rangeItems
    rw [List.length_map, List.length_range]
    rfl
  have hstart : stopAfterAll 18446744073709551616 0 [some 9223372036854775807]
      = 9223372036854775807 := rfl
  have hstop : stopAfterAll 18446744073709551616 0 [some 9223372036854775807, some 1]
      = 9223372036854775807 + 1 := rfl
  dsimp only
  rw [hlength, hstart, hstop]
  refine Slice.cut_of_getElem? ?_
  unfold rangeItems
  rw [List.getElem?_map, List.getElem?_range (by decide)]
  rfl

/-! ## Renders -/

/-- Documents are rendered one after the other in one context, which holds no position yet under a
name. If all loops of that name that they enter, themselves or in the partials that they call, go on
over the same items, then each loop runs over the items from the sum of the limits before its own up
to the sum with its own, as far as there are any. So the loops run over adjacent stretches that
leave out no item. -/
theorem Document.entriesOfAll_resume {settings : Settings} {documents : List Document}
    {s : RenderState} {name : String} {items : List Value} {limits : List (Option Nat)}
    (hfresh : s.positions.get? name = none)
    (hloops : List.Forall₂ (LoopEntry.Resumes settings items)
      ((entriesOfAll settings documents s).filter (·.name = name)) limits) :
    let loops := (entriesOfAll settings documents s).filter (·.name = name)
    let stop := stopAfterAll items.length 0
    (∀ i entry, loops[i]? = some entry →
        entry.slice.toList
          = Slice.cut (stop (limits.take i)) (some (stop (limits.take (i + 1)))) items)
      ∧ loops.flatMap (·.slice.toList) = items.take (stop limits)
      ∧ ((afterAll settings documents s).positions.get? name).getD 0 = stop limits := by
  intro loops stop
  -- Without a position the first loop starts from the first item.
  have hstart : (s.positions.get? name).getD 0 = 0 := by rw [hfresh, Option.getD_none]
  have hadjacent : Adjacent items 0 loops limits
      (((afterAll settings documents s).positions.get? name).getD 0) :=
    (moves_entriesOfAll documents s).adjacent hloops hstart (Nat.zero_le _)
  refine ⟨fun i entry hi => ?_, ?_, ?_⟩
  · exact hadjacent.toList_eq (Nat.zero_le _) hi
  · exact hadjacent.flatMap_toList (Nat.zero_le _)
  · exact hadjacent.stop_eq (Nat.zero_le _)

/-- Nine integers, cut by a loop of the template, one in a partial that it includes, the same one in
the partial rendered on its own, and one in a second template that has no limit. -/
theorem Document.entriesOfAll_resume_partials :
    let loop (limit : Option Expression) : Node :=
      let header : LoopHeader :=
        { item := "i"
          collection := .range (.literal (.int 1)) (.literal (.int 9))
          offset := some .continue
          limit }
      .tag (.loop "i-(1..9)" header (.mk [] false) none none false)
    let partly : Document := .mk [loop (some (.literal (.int 3)))] false
    let other : Node :=
      .tag (.loop "j-(1..9)"
        { item := "j", collection := .range (.literal (.int 1)) (.literal (.int 9)) }
        (.mk [] false) none none false)
    let call : PartialCall := { template := .literal (.str "p") }
    let document : Document :=
      .mk [loop (some (.literal (.int 2))), .tag (.includePartial call none), other,
        .tag (.renderPartial "p" call none)] false
    let s : RenderState := { progress.registers.partials := [("p", partly)] }
    let documents := [document, .mk [loop none] false]
    let limits := [some 2, some 3, some 3, none]
    let loops := (entriesOfAll {} documents s).filter (·.name = "i-(1..9)")
    s.positions.get? "i-(1..9)" = none
      ∧ List.Forall₂ (LoopEntry.Resumes {} (rangeItems 1 9)) loops limits
      ∧ loops.flatMap (·.slice.toList) = rangeItems 1 9
      ∧ (loops.map (·.slice.length)) = [2, 3, 3, 1] := by
  intro loop partly other call document s documents limits loops
  have hfresh : s.positions.get? "i-(1..9)" = none := rfl
  -- The loops are found by evaluation; what they cover follows from the general statement.
  have hnumbers : loops.map (·.header.numbers?)
      = [some 2, some 3, some 3, none].map fun limit => some (1, 9, limit) := by decide +kernel
  have hitems : (Value.range 1 9).loopItems = rangeItems 1 9 := Value.loopItems_range (by decide)
  have hloops : List.Forall₂ (LoopEntry.Resumes {} (rangeItems 1 9)) loops limits :=
    hitems ▸ LoopEntry.forall₂_resumes hnumbers
  have h := entriesOfAll_resume hfresh hloops
  refine ⟨hfresh, hloops, h.2.1, ?_⟩
  decide +kernel

/-- The range of all integers is too long to be counted: only half of its items have a number. So a
loop that goes on from there finds no item left, where the next one would be -1. -/
theorem Document.not_entriesOfAll_resume_long :
    let first := Int64.minValue
    let last := Int64.maxValue
    let loop (limit : Int64) (body : Body) : Node :=
      let header : LoopHeader :=
        { item := "i"
          collection := .range (.literal (.int first)) (.literal (.int last))
          offset := some .continue
          limit := some (.literal (.int limit)) }
      .tag (.loop "i-all" header body none none false)
    let document : Document :=
      .mk [loop last (.mk [.tag (.interrupt .break none)] false),
        loop 1 (.mk [.output { source := .variable "i", filters := [] }] false)] false
    let loops := entriesOfAll {} [document] {}
    let items := rangeItems first last
    let stop := stopAfterAll items.length 0
    loops.map (·.name) = ["i-all", "i-all"]
      ∧ loops.map (·.header.numbers?) = [some (first, last, some last), some (first, last, some 1)]
      ∧ loops.map (·.slice.length) = [9223372036854775807, 0]
      ∧ Slice.cut (stop [some 9223372036854775807]) (some (stop [some 9223372036854775807, some 1]))
          items = [.int (-1)] := by
  intro first last loop document loops items stop
  -- A length has 64 bits, so the first loop stops one item short and the second finds none.
  exact ⟨by decide +kernel, by decide +kernel, by decide +kernel, cut_rangeItems_all⟩

end Stencil
