import Mathlib.Data.Rat.Floor
import Stencil.Filter.Arithmetic

/-!
# Floor division of integers

The quotient of two integers goes to the floor, and the remainder has the sign of the divisor. The
remainder always is a template integer. It is computed from the quotient and the product of quotient
and divisor, though, and where one of them is none, the answer is a floating point number.

## Key results

- `Decimal.fit?_eq_some_iff`: which numbers are template integers
- `Filter.floorQuotient?_eq_fit?`, `Filter.floorRemainder?_eq_some_iff`: where quotient and
  remainder are defined
- `Filter.fits_fmod`: a remainder is a template integer
- `Filter.floor_division`: what the filters for division and remainder answer to two integers
-/

namespace Stencil

/-! ## Template integers -/

namespace Decimal

/-- The number is a template integer. -/
def Fits (n : Int) : Prop :=
  minWhole ≤ n ∧ n ≤ maxWhole

instance (n : Int) : Decidable (Fits n) :=
  inferInstanceAs (Decidable (_ ∧ _))

theorem fits_toInt (w : Int64) : Fits w.toInt := by
  have hle := w.le_toInt
  have hlt := w.toInt_lt
  simp only [Fits, minWhole, maxWhole]
  omega

theorem fit?_eq_some_iff {n : Int} {w : Int64} : fit? n = some w ↔ w.toInt = n :=
  ⟨toInt_of_fit?_eq_some, fun h => h ▸ fit?_toInt w⟩

theorem exists_toInt_eq_iff {n : Int} : (∃ w : Int64, w.toInt = n) ↔ Fits n := by
  constructor
  · rintro ⟨w, rfl⟩
    exact fits_toInt w
  · intro h
    exact ⟨Int64.ofInt n, toInt_of_fit?_eq_some (if_pos h)⟩

end Decimal

open Decimal

namespace Filter

/-! ## Quotient and remainder -/

/-- The quotient is defined where it is a template integer: if cutting off its fraction leads beyond
them, so does rounding to the floor. -/
theorem floorQuotient?_eq_fit? {a b : Int} (hb : b ≠ 0) :
    floorQuotient? a b = fit? (Int.fdiv a b) := by
  refine Option.ext fun w => ?_
  constructor
  · intro h
    exact fit?_eq_some_iff.mpr (floorQuotient?_eq h)
  · intro h
    have hfloor := fit?_eq_some_iff.mp h
    have hfits := fits_toInt w
    rw [fdiv_eq_tdiv_sub hb] at hfloor
    unfold floorQuotient?
    rw [if_neg hb]
    split at hfloor
    · rename_i hround
      -- The quotient is negative, so there is room above the floor.
      have hcut : Int.tdiv a b ≤ 0 := by
        by_cases ha : 0 ≤ a
        · exact Int.tdiv_nonpos_of_nonneg_of_nonpos ha (by omega)
        · have hopposite := Int.tdiv_nonneg (by omega : 0 ≤ -a) (by omega : 0 ≤ b)
          rw [Int.neg_tdiv] at hopposite
          omega
      obtain ⟨quotient, hquotient⟩ : ∃ w : Int64, w.toInt = Int.tdiv a b := by
        refine exists_toInt_eq_iff.mpr ?_
        simp only [Fits, minWhole, maxWhole] at hfits ⊢
        omega
      rw [fit?_eq_some_iff.mpr hquotient, Option.bind_eq_bind, Option.bind_some, if_pos hround]
      exact fit?_eq_some_iff.mpr (by omega)
    · rename_i hround
      rw [fit?_eq_some_iff.mpr (by omega : w.toInt = Int.tdiv a b), Option.bind_eq_bind,
        Option.bind_some, if_neg hround]
      rfl

/-- What is left over is smaller than the divisor, so it is a template integer if the divisor is. -/
theorem fits_fmod {a b : Int} (hb : b ≠ 0) (hfits : Fits b) : Fits (Int.fmod a b) := by
  have hnonneg := Int.emod_nonneg a hb
  have hlt : a % b < b.natAbs := Int.emod_lt a hb
  have hdvd : b ∣ a → a % b = 0 := Int.emod_eq_zero_of_dvd
  rw [Int.fmod_eq_emod]
  simp only [Fits, minWhole, maxWhole] at hfits ⊢
  split
  · omega
  · omega

/-- The remainder is defined where the quotient and its product with the divisor are template
integers. -/
theorem floorRemainder?_eq_some_iff {a b : Int} (hb : b ≠ 0) {r : Int64} :
    floorRemainder? a b = some r
      ↔ r.toInt = Int.fmod a b ∧ Fits (Int.fdiv a b) ∧ Fits (b * Int.fdiv a b) := by
  constructor
  · intro h
    obtain ⟨quotient, hquotient, hproduct⟩ := Option.bind_eq_some_iff.mp h
    obtain ⟨product, hfit, -⟩ := Option.bind_eq_some_iff.mp hproduct
    have hfloor := floorQuotient?_eq hquotient
    -- Quotient and product are computed with 64 bits first, and both have to fit.
    rw [hfloor] at hfit
    exact ⟨floorRemainder?_eq h, exists_toInt_eq_iff.mp ⟨quotient, hfloor⟩,
      exists_toInt_eq_iff.mp ⟨product, fit?_eq_some_iff.mp hfit⟩⟩
  · rintro ⟨hr, hquotient, hproduct⟩
    obtain ⟨quotient, hquotient⟩ := exists_toInt_eq_iff.mpr hquotient
    obtain ⟨product, hproduct⟩ := exists_toInt_eq_iff.mpr hproduct
    rw [floorRemainder?, floorQuotient?_eq_fit? hb, fit?_eq_some_iff.mpr hquotient,
      Option.bind_eq_bind, Option.bind_some, hquotient, fit?_eq_some_iff.mpr hproduct,
      Option.bind_some, hproduct]
    exact fit?_eq_some_iff.mpr (hr.trans (Int.fmod_def a b))

/-- Floor division gives the floor of the quotient. -/
theorem fdiv_eq_floor (a b : Int) : Int.fdiv a b = ⌊(a : ℚ) / b⌋ := by
  obtain ⟨n, rfl | rfl⟩ := b.eq_nat_or_neg
  · rw [Int.fdiv_eq_ediv_of_nonneg a (Int.natCast_nonneg n)]
    exact (Rat.floor_intCast_div_natCast a n).symm
  · -- Numerator and denominator change their signs together.
    rw [← Int.neg_fdiv_neg, Int.neg_neg, Int.fdiv_eq_ediv_of_nonneg _ (Int.natCast_nonneg n),
      ← Rat.floor_intCast_div_natCast]
    push_cast
    rw [neg_div, div_neg]

/-! ## The filters -/

/-- The floor of the quotient of two integers. -/
def floorOf (a b : Int64) : Int :=
  ⌊(a.toInt : ℚ) / b.toInt⌋

/-- What a filter makes of an integer and an integer argument. -/
def onInts (filter : Filter) (view : View) (a b : Int64) : Except Error Value :=
  filter.apply view (.int a) { positional := [.int b] }

variable {op : Int → Int → Option Int64} {onFloats : Float → Float → Float} {a b : Int64}

theorem onInts_dividing (hb : b ≠ 0) (view : View) :
    onInts (dividing op onFloats) view a b
      = .ok (calculate op onFloats (.int a) (.int b)).toValue := by
  have happly : onInts (dividing op onFloats) view a b
      = dividing.quotient op onFloats (.int a) (.int b) := rfl
  rw [happly]
  unfold dividing.quotient
  split
  · rename_i hzero
    exact absurd (Number.int.inj hzero) hb
  · rfl

/-- Where the operation has an integer result, that is the answer. -/
theorem onInts_dividing_of_some {n : Int64} (hb : b ≠ 0) (h : op a.toInt b.toInt = some n)
    (view : View) : onInts (dividing op onFloats) view a b = .ok (.int n) := by
  rw [onInts_dividing hb, calculate, h]
  rfl

/-- Elsewhere the answer is a floating point number. -/
theorem onInts_dividing_of_none (hb : b ≠ 0) (h : op a.toInt b.toInt = none) (view : View) :
    onInts (dividing op onFloats) view a b = .ok (.float (onFloats a.toFloat b.toFloat)) := by
  rw [onInts_dividing hb, calculate, h]
  rfl

theorem onInts_dividing_zero (view : View) :
    onInts (dividing op onFloats) view a 0 = .error .dividedByZero := rfl

/-- The answer is the integer that the operation results in, if any is. -/
theorem onInts_dividing_eq_int_iff {n : Int64} (hb : b ≠ 0) (view : View) :
    onInts (dividing op onFloats) view a b = .ok (.int n) ↔ op a.toInt b.toInt = some n := by
  constructor
  · intro h
    cases hop : op a.toInt b.toInt with
    | some m =>
      rw [onInts_dividing_of_some hb hop] at h
      rw [Value.int.inj (Except.ok.inj h)]
    | none =>
      rw [onInts_dividing_of_none hb hop] at h
      exact nomatch h
  · exact fun h => onInts_dividing_of_some hb h view

/-- By a divisor other than zero, the quotient of two integers is the floor of their quotient
wherever that is a template integer. The remainder `a - b * ⌊a / b⌋` always is one; the filter
answers with it where the floor and its product with the divisor are template integers too, and with
a floating point number elsewhere. By zero there is neither. -/
theorem floor_division (view : View) (a b : Int64) :
    (b ≠ 0 →
      (∀ q : Int64, onInts dividedBy view a b = .ok (.int q) ↔ q.toInt = floorOf a b)
      ∧ ∃ r : Int64, r.toInt = a.toInt - b.toInt * floorOf a b
        ∧ (Fits (floorOf a b) ∧ Fits (b.toInt * floorOf a b) →
          onInts modulo view a b = .ok (.int r))
        ∧ (¬(Fits (floorOf a b) ∧ Fits (b.toInt * floorOf a b)) →
          ∃ x, onInts modulo view a b = .ok (.float x)))
    ∧ (b = 0 →
      onInts dividedBy view a b = .error .dividedByZero
      ∧ onInts modulo view a b = .error .dividedByZero) := by
  constructor
  · intro hb
    have hdivisor : b.toInt ≠ 0 := fun h => hb (Int64.toInt.inj h)
    have hfloor : floorOf a b = Int.fdiv a.toInt b.toInt := (fdiv_eq_floor _ _).symm
    rw [hfloor, ← Int.fmod_def]
    constructor
    · intro q
      rw [dividedBy, onInts_dividing_eq_int_iff hb, floorQuotient?_eq_fit? hdivisor,
        fit?_eq_some_iff]
    · -- The remainder is smaller than the divisor, so it fits in any case.
      obtain ⟨r, hr⟩ := exists_toInt_eq_iff.mpr (fits_fmod (a := a.toInt) hdivisor (fits_toInt b))
      refine ⟨r, hr, fun hfits => ?_, fun hfits => ?_⟩
      · exact onInts_dividing_of_some hb ((floorRemainder?_eq_some_iff hdivisor).mpr ⟨hr, hfits⟩)
          view
      · -- Otherwise the whole numbers give up, and the answer is a float.
        have hnone : floorRemainder? a.toInt b.toInt = none :=
          Option.eq_none_iff_forall_ne_some.mpr fun n hn =>
            hfits ((floorRemainder?_eq_some_iff hdivisor).mp hn).2
        exact ⟨_, onInts_dividing_of_none hb hnone view⟩
  · rintro rfl
    exact ⟨onInts_dividing_zero view, onInts_dividing_zero view⟩

/-- The smallest integer has a quotient by three and, at the other end of the range, the largest one
has a remainder by two. -/
theorem floor_division_ends :
    onInts dividedBy {} Int64.minValue 3 = .ok (.int (-3074457345618258603))
      ∧ onInts modulo {} Int64.maxValue 2 = .ok (.int 1) := by
  have hdown : floorOf Int64.minValue 3 = -3074457345618258603 := by
    rw [floorOf, ← fdiv_eq_floor]
    decide
  have hup : floorOf Int64.maxValue 2 = 4611686018427387903 := by
    rw [floorOf, ← fdiv_eq_floor]
    decide
  obtain ⟨hquotient, -⟩ := (floor_division {} Int64.minValue 3).1 (by decide)
  obtain ⟨-, r, hr, hexact, -⟩ := (floor_division {} Int64.maxValue 2).1 (by decide)
  rw [hup] at hr hexact
  have hone : r = 1 := Int64.toInt.inj (hr.trans (by decide))
  subst hone
  exact ⟨(hquotient _).mpr (by rw [hdown]; decide), hexact (by decide)⟩

/-- The remainder of the smallest integer by three is one, but the product of floor and divisor lies
below all integers, and the answer is no integer. -/
theorem not_modulo_exact :
    ¬ ∀ (view : View) (a b : Int64), b ≠ 0 →
      ∃ r : Int64, r.toInt = a.toInt - b.toInt * floorOf a b
        ∧ onInts modulo view a b = .ok (.int r) := by
  intro h
  obtain ⟨r, -, hr⟩ := h {} Int64.minValue 3 (by decide)
  have hnone : floorRemainder? (Int64.toInt Int64.minValue) (Int64.toInt 3) = none := by decide
  rw [modulo, onInts_dividing_eq_int_iff (by decide), hnone] at hr
  exact nomatch hr

end Filter

end Stencil
