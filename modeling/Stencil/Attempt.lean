import Stencil.Error

/-! # Attempts

A computation that changes a state and may fail.  Either way it leaves a state behind, so that
whoever started it can go on from there: reading markup goes on after the piece that could not be
read, and a render goes on after the node that failed.

* `bind_apply`: the next step starts from the state that the first one left, unless that failed.
* `LawfulMonad (Attempt σ)`. -/

namespace Stencil

/-- A computation on a state that may fail and leaves a state behind in any case. -/
def Attempt (σ α : Type) : Type :=
  σ → Except Error α × σ

namespace Attempt

variable {σ α β : Type}

/-- Succeeds and leaves the state alone. -/
@[inline] protected def pure (a : α) : Attempt σ α :=
  fun s => (.ok a, s)

/-- Goes on with the result and the state of the first step, unless it failed. -/
@[inline] protected def bind (x : Attempt σ α) (f : α → Attempt σ β) : Attempt σ β :=
  fun s =>
    match x s with
    | (.ok a, s) => f a s
    | (.error e, s) => (.error e, s)

instance : Monad (Attempt σ) where
  pure := Attempt.pure
  bind := Attempt.bind

/-- Fails and leaves the state alone. -/
@[inline] def fail (e : Error) : Attempt σ α :=
  fun s => (.error e, s)

/-- The state. -/
@[inline] def get : Attempt σ σ :=
  fun s => (.ok s, s)

/-- Changes the state. -/
@[inline] def modify (f : σ → σ) : Attempt σ Unit :=
  fun s => (.ok (), f s)

/-- Succeeds or fails as a computation without a state did. -/
@[inline] def lift (r : Except Error α) : Attempt σ α :=
  fun s => (r, s)

/-- The outcome as a result of its own; this cannot fail. -/
@[inline] def outcome (x : Attempt σ α) : Attempt σ (Except Error α) :=
  fun s =>
    match x s with
    | (r, s) => (.ok r, s)

/-- Changes the error of a failure. -/
@[inline] def mapError (f : Error → Error) (x : Attempt σ α) : Attempt σ α :=
  fun s =>
    match x s with
    | (.ok a, s) => (.ok a, s)
    | (.error e, s) => (.error (f e), s)

theorem pure_apply (a : α) (s : σ) : (pure a : Attempt σ α) s = (.ok a, s) := rfl

/-- The next step starts from the state that the first one left, unless that failed. -/
theorem bind_apply (x : Attempt σ α) (f : α → Attempt σ β) (s : σ) :
    (x >>= f) s =
      match x s with
      | (.ok a, s) => f a s
      | (.error e, s) => (.error e, s) := rfl

theorem bind_of_ok {x : Attempt σ α} {s s' : σ} {a : α} (h : x s = (.ok a, s'))
    (f : α → Attempt σ β) : (x >>= f) s = f a s' := by
  rw [bind_apply, h]

theorem bind_of_error {x : Attempt σ α} {s s' : σ} {e : Error} (h : x s = (.error e, s'))
    (f : α → Attempt σ β) : (x >>= f) s = (.error e, s') := by
  rw [bind_apply, h]

instance : LawfulMonad (Attempt σ) :=
  LawfulMonad.mk' (Attempt σ)
    (fun x => by
      funext s
      show (x >>= fun a => pure a) s = x s
      rw [bind_apply]
      rcases x s with ⟨r, s'⟩
      cases r <;> rfl)
    (fun _ _ => rfl)
    (fun x f g => by
      funext s
      simp only [bind_apply]
      rcases x s with ⟨r, s'⟩
      cases r <;> rfl)

end Attempt

end Stencil
