import Stencil.Attempt

/-!
# What attempts result in

`Meets Q E r` says of a result that it satisfies `Q`, or `E` if it is an error.
`Attempt.Ensures x Q E` says that `x` results in that whatever state it starts from.
Both are closed under sequencing, so a fact about a long reading or evaluation is put
together from facts about its steps.

## Key results

- `Meets.bind`, `Attempt.Ensures.bind`: the second step may rely on what the first ensures
- `Meets.mapM`, `Meets.foldlM`: steps along a list
-/

namespace Stencil

variable {σ α β : Type} {P Q : α → Prop} {R : β → Prop} {E F : Error → Prop}

/-! ## Results -/

/-- A result satisfies `Q`, an error `E`. -/
def Meets (Q : α → Prop) (E : Error → Prop) : Except Error α → Prop
  | .ok a => Q a
  | .error e => E e

namespace Meets

/-- The conclusions may be weakened. -/
theorem mono {r : Except Error α} (h : Meets P E r) (hq : ∀ a, P a → Q a)
    (he : ∀ e, E e → F e) : Meets Q F r := by
  cases r with
  | ok a => exact hq a h
  | error e => exact he e h

/-- The result may be kept in mind. -/
theorem and_eq {r : Except Error α} (h : Meets P E r) : Meets (fun a => P a ∧ r = .ok a) E r := by
  cases r with
  | ok a => exact ⟨h, rfl⟩
  | error e => exact h

/-- A sequence of two steps. -/
theorem bind {r : Except Error α} {f : α → Except Error β} (hr : Meets P E r)
    (hf : ∀ a, P a → Meets R E (f a)) : Meets R E (r >>= f) := by
  cases r with
  | ok a => exact hf a hr
  | error e => exact hr

/-- A function of the result. -/
theorem map {r : Except Error α} {f : α → β} (hr : Meets P E r) (hf : ∀ a, P a → R (f a)) :
    Meets R E (f <$> r) := by
  cases r with
  | ok a => exact hf a hr
  | error e => exact hr

/-- A step for each item of a list. -/
theorem mapM {f : α → Except Error β} {as : List α} (h : ∀ a ∈ as, Meets R E (f a)) :
    Meets (fun bs => ∀ b ∈ bs, R b) E (as.mapM f) := by
  induction as with
  | nil => exact fun b hb => nomatch hb
  | cons a as ih =>
    rw [List.mapM_cons]
    -- The first item, then the others, then both results together.
    refine bind (h a (List.mem_cons_self ..)) fun b hb => ?_
    refine bind (ih fun a' ha' => h a' (List.mem_cons_of_mem _ ha')) fun bs hbs => ?_
    exact List.forall_mem_cons.mpr ⟨hb, hbs⟩

/-- Such steps give as many results as there are items. -/
theorem length_of_mapM {f : α → Except Error β} {as : List α} {bs : List β}
    (h : as.mapM f = .ok bs) : bs.length = as.length := by
  induction as generalizing bs with
  | nil =>
    cases h
    rfl
  | cons a as ih =>
    rw [List.mapM_cons] at h
    cases hb : f a with
    | error e =>
      rw [hb] at h
      exact nomatch h
    | ok b =>
      cases hrest : as.mapM f with
      | error e =>
        rw [hb, hrest] at h
        exact nomatch h
      | ok rest =>
        rw [hb, hrest] at h
        cases h
        exact congrArg Nat.succ (ih hrest)

/-- A step for each item of a list that goes on from the result of the last one. -/
theorem foldlM {f : β → α → Except Error β} {as : List α} {b : β} (hb : R b)
    (h : ∀ b, R b → ∀ a ∈ as, Meets R E (f b a)) : Meets R E (as.foldlM f b) := by
  induction as generalizing b with
  | nil => exact hb
  | cons a as ih =>
    rw [List.foldlM_cons]
    refine bind (h b hb a (List.mem_cons_self ..)) fun c hc => ?_
    exact ih hc fun d hd a' ha' => h d hd a' (List.mem_cons_of_mem _ ha')

end Meets

/-! ## Attempts -/

namespace Attempt

/-- A sequence of two steps succeeds only if both do. -/
theorem ok_of_bind {x : Attempt σ α} {f : α → Attempt σ β} {s u : σ} {b : β}
    (h : (x >>= f) s = (.ok b, u)) : ∃ a t, x s = (.ok a, t) ∧ f a t = (.ok b, u) := by
  rw [bind_apply] at h
  cases hx : x s with
  | mk r t =>
    rw [hx] at h
    cases r with
    | ok a => exact ⟨a, t, rfl, h⟩
    | error e => exact nomatch (Prod.mk.inj h).1

/-- Something that was computed from the result tells that there is one. -/
theorem ok_of_map_toOption {x : Attempt σ α} {s : σ} {f : α → β} {b : β}
    (h : (x s).1.toOption.map f = some b) : ∃ a, x s = (.ok a, (x s).2) ∧ f a = b := by
  obtain ⟨a, ha, hb⟩ := Option.map_eq_some_iff.mp h
  refine ⟨a, Prod.ext ?_ rfl, hb⟩
  cases hr : (x s).1 with
  | ok a' =>
    rw [hr] at ha
    exact congrArg Except.ok (Option.some.inj ha)
  | error e =>
    rw [hr] at ha
    cases ha

/-- The attempt results in `Q`, or fails with `E`, from every state. -/
def Ensures (x : Attempt σ α) (Q : α → Prop) (E : Error → Prop) : Prop :=
  ∀ s, Meets Q E (x s).1

namespace Ensures

theorem pure {a : α} (h : Q a) : (Pure.pure a : Attempt σ α).Ensures Q E :=
  fun _ => h

theorem fail {e : Error} (h : E e) : (Attempt.fail e : Attempt σ α).Ensures Q E :=
  fun _ => h

theorem modify (f : σ → σ) : (Attempt.modify f).Ensures (fun _ => True) E :=
  fun _ => trivial

theorem get : (Attempt.get : Attempt σ σ).Ensures (fun _ => True) E :=
  fun _ => trivial

/-- The second step may rely on what the first one ensures. -/
theorem bind {x : Attempt σ α} {f : α → Attempt σ β} (hx : x.Ensures P E)
    (hf : ∀ a, P a → (f a).Ensures R E) : (x >>= f).Ensures R E := by
  intro s
  have hr := hx s
  rw [bind_apply]
  cases h : x s with
  | mk r t =>
    rw [h] at hr
    cases r with
    | ok a => exact hf a hr t
    | error e => exact hr

theorem mapError {x : Attempt σ α} {f : Error → Error} (hx : x.Ensures Q E)
    (hf : ∀ e, E e → F (f e)) : (Attempt.mapError f x).Ensures Q F := by
  intro s
  have hr := hx s
  unfold Attempt.mapError
  cases h : x s with
  | mk r t =>
    rw [h] at hr
    cases r with
    | ok a => exact hr
    | error e => exact hf e hr

end Ensures

end Attempt

end Stencil
