import DrawnPattern.Proofs.Decimal.Interval
import Mathlib.Data.Rat.Cast.Order
import Mathlib.Tactic.FieldSimp
import Mathlib.Tactic.Positivity
set_option autoImplicit false

/-!
# The shortest decimal rounds to its double

Whatever a decimal grid yields rounds to the double (`holds_of_onGrid?`), and
the grid of the seventeenth digit always yields something (`onGrid?_seventeen`):
its step is less than the unit in the last place, and less than half of it at a
power of two.  So `shortest` rounds to the double it is made from
(`shortest_holds`).
-/

namespace DrawnPattern.Decimal

/-- The number that digits and an exponent stand for. -/
def Scientific.value (s : Scientific) : ℚ := s.digits * 10 ^ s.exponent

/-- A number in quarters of `2 ^ -1074`, the measure in which the ends of
intervals are whole numbers. -/
def quarters (v : ℚ) : ℚ := 4 * (v * Double.unitsPerOne)

theorem unitsPerOne_pos : 0 < Double.unitsPerOne := by decide +kernel

/-! ## Quotients -/

/-- The quotient of two powers that a power of ten is. -/
theorem ten_zpow_eq (e : Int) : (10 : ℚ) ^ e = (Nat.pow 10 e.toNat : ℕ) /
    (Nat.pow 10 (-e).toNat : ℕ) := by
  rcases Int.le_total 0 e with h | h
  · obtain ⟨n, rfl⟩ := Int.eq_ofNat_of_zero_le h
    have hneg : (-(n : Int)).toNat = 0 := by omega
    rw [hneg, Int.toNat_natCast, zpow_natCast]
    simp
  · obtain ⟨n, hn⟩ := Int.eq_ofNat_of_zero_le (Int.neg_nonneg_of_nonpos h)
    obtain rfl : e = -(n : Int) := by omega
    have hneg : (-(n : Int)).toNat = 0 := by omega
    rw [hneg, Int.neg_neg, Int.toNat_natCast, zpow_neg, zpow_natCast]
    simp

theorem Interval.holds_iff {i : Interval} {num den : ℕ} (hden : 0 < den) :
    i.holds num den = true ↔ i.Holds (4 * (num / den)) := by
  have hden' : (0 : ℚ) < den := by exact_mod_cast hden
  have hquotient : (4 : ℚ) * (num / den) = (4 * num) / den := by ring
  unfold holds Holds
  rw [hquotient]
  split
  · rw [Bool.and_eq_true, decide_eq_true_eq, decide_eq_true_eq,
      le_div_iff₀ hden', div_le_iff₀ hden']
    norm_cast
  · rw [Bool.and_eq_true, decide_eq_true_eq, decide_eq_true_eq,
      lt_div_iff₀ hden', div_lt_iff₀ hden']
    norm_cast

theorem Interval.holds_of_strict {i : Interval} {v : ℚ}
    (hleast : (i.least : ℚ) < v) (hmost : v < i.most) : i.Holds v := by
  unfold Holds
  split
  · exact ⟨hleast.le, hmost.le⟩
  · exact ⟨hleast, hmost⟩

/-! ## One grid -/

/-- A point of the grid, tested in exact arithmetic. -/
theorem holds_grid_iff {x : Double} {e : Int} {num den : ℕ}
    (hnum : Nat.pow 10 e.toNat * Double.unitsPerOne = num)
    (hden : Nat.pow 10 (-e).toNat = den) (d : ℕ) :
    (Interval.ofDouble x).holds (d * num) den = true ↔
      (Interval.ofDouble x).Holds (quarters (Scientific.value ⟨d, e⟩)) := by
  have hpos : 0 < den := by
    rw [← hden]
    exact Nat.pow_pos (by decide)
  have hvalue : (4 : ℚ) * ((d * num : ℕ) / den) =
      quarters (Scientific.value ⟨d, e⟩) := by
    rw [quarters, Scientific.value, ten_zpow_eq, hden, ← hnum]
    push_cast
    ring
  rw [Interval.holds_iff hpos, hvalue]

/-- What a grid yields rounds to the double. -/
theorem holds_of_onGrid? {tie : Tie} {x : Double} {e : Int} {s : Scientific}
    (h : onGrid? tie x e = some s) :
    (Interval.ofDouble x).Holds (quarters s.value) := by
  unfold onGrid? at h
  generalize hnum : Nat.pow 10 e.toNat * Double.unitsPerOne = num at h
  generalize hden : Nat.pow 10 (-e).toNat = den at h
  dsimp only at h
  generalize hlow : x.magnitude * den / num = low at h
  split at h
  · rename_i hlow' hhigh
    -- whichever of the two is nearer
    have hboth : ∀ upper : Bool, (Interval.ofDouble x).Holds
        (quarters (Scientific.value
          ⟨if upper = true then low + 1 else low, e⟩)) := by
      intro upper
      split
      · exact (holds_grid_iff hnum hden _).1 hhigh
      · exact (holds_grid_iff hnum hden _).1 hlow'
    cases h
    exact hboth _
  · rename_i hlow' _
    cases h
    exact (holds_grid_iff hnum hden _).1 hlow'
  · rename_i _ hhigh
    cases h
    exact (holds_grid_iff hnum hden _).1 hhigh
  · cases h

/-- A grid yields something if a neighbour of the double rounds to it; the other
neighbour then does not matter. -/
theorem onGrid?_isSome {tie : Tie} {x : Double} {e : Int} {num den low : ℕ}
    (hnum : Nat.pow 10 e.toNat * Double.unitsPerOne = num)
    (hden : Nat.pow 10 (-e).toNat = den) (hlow : x.magnitude * den / num = low)
    (h : (Interval.ofDouble x).Holds (quarters (Scientific.value ⟨low, e⟩)) ∨
      (Interval.ofDouble x).Holds (quarters (Scientific.value ⟨low + 1, e⟩))) :
    (onGrid? tie x e).isSome = true := by
  rw [← holds_grid_iff hnum hden, ← holds_grid_iff hnum hden] at h
  unfold onGrid?
  dsimp only
  rw [hnum, hden, hlow]
  split
  · rfl
  · rfl
  · rfl
  · rename_i hlow' hhigh'
    rw [hlow', hhigh'] at h
    simp at h

/-! ## The decade of a number -/

theorem lt_ten_pow_width (n : ℕ) : n < 10 ^ width n :=
  (Nat.length_toDigits_le_iff (by decide) Nat.length_toDigits_pos).1
    (Nat.le_refl _)

theorem ten_pow_width_le {n : ℕ} (h : 0 < n) : 10 ^ (width n - 1) ≤ n := by
  have hpos : 0 < width n := Nat.length_toDigits_pos
  rcases Nat.eq_zero_or_pos (width n - 1) with hone | hmore
  · rw [hone, Nat.pow_zero]
    exact h
  · by_contra hlt
    have hle :=
      (Nat.length_toDigits_le_iff (by decide) hmore).2 (Nat.lt_of_not_le hlt)
    have hwidth : width n ≤ width n - 1 := hle
    omega

/-- The decade of a quotient starts at a power of ten that is not above it. -/
theorem ten_zpow_decade_le {num den : ℕ} (hnum : 0 < num) (hden : 0 < den) :
    (10 : ℚ) ^ decade num den ≤ num / den := by
  have hden' : (0 : ℚ) < den := by exact_mod_cast hden
  unfold decade
  split
  · rename_i hle
    have hfloor := ten_pow_width_le (Nat.div_pos hle hden)
    have hpos : 0 < width (num / den) := Nat.length_toDigits_pos
    have hexponent : (width (num / den) : Int) - 1 =
        ((width (num / den) - 1 : ℕ) : Int) := by omega
    have hmul : 10 ^ (width (num / den) - 1) * den ≤ num :=
      (Nat.mul_le_mul_right den hfloor).trans (Nat.div_mul_le_self num den)
    rw [hexponent, zpow_natCast, le_div_iff₀ hden']
    exact_mod_cast hmul
  · have hlt := lt_ten_pow_width ((den - 1) / num)
    have hmul : den ≤ num * 10 ^ width ((den - 1) / num) := by
      rw [Nat.div_lt_iff_lt_mul hnum, Nat.mul_comm] at hlt
      omega
    have hpow : (0 : ℚ) < 10 ^ width ((den - 1) / num) := by positivity
    rw [zpow_neg, zpow_natCast, inv_le_comm₀ hpow (by positivity),
      inv_div, div_le_iff₀ (by exact_mod_cast hnum), mul_comm]
    exact_mod_cast hmul

/-! ## Seventeen digits -/

/-- On a grid finer than the last place of the double, a neighbour
rounds to it. -/
theorem exists_neighbour_holds {x : Double} {step : ℚ} {low : ℕ}
    (hstep : 0 < step) (hzero : 0 < x.significand)
    (hbelow : low * step ≤ x.magnitude)
    (habove : (x.magnitude : ℚ) < (low + 1) * step)
    (hfine : 10 ^ 16 * step ≤ x.magnitude) :
    (Interval.ofDouble x).Holds (4 * (low * step)) ∨
      (Interval.ofDouble x).Holds (4 * ((low + 1) * step)) := by
  obtain ⟨unit, hunit⟩ : ∃ unit, Nat.pow 2 x.shift = unit := ⟨_, rfl⟩
  have hpos : 0 < unit := by
    rw [← hunit]
    exact Nat.pow_pos (by decide)
  have hmagnitude : x.magnitude = x.significand * unit := by
    rw [← hunit]
    rfl
  have hmost :
      ((Interval.ofDouble x).most : ℚ) = 4 * x.magnitude + 2 * unit := by
    rw [← hunit]
    exact_mod_cast rfl
  have hunit' : (0 : ℚ) < unit := by exact_mod_cast hpos
  have hwide : unit ≤ x.magnitude := by
    rw [hmagnitude]
    exact Nat.le_mul_of_pos_left unit hzero
  by_cases hnarrow : x.significand = Double.leadingBit ∧ 0 < x.shift
  · -- half a unit above is enough for the upper neighbour
    have hleast : ((Interval.ofDouble x).least : ℚ) ≤ 4 * x.magnitude := by
      have hle : (Interval.ofDouble x).least ≤ 4 * x.magnitude := Nat.sub_le _ _
      exact_mod_cast hle
    have hbits : (x.magnitude : ℚ) = 4503599627370496 * unit := by
      rw [hmagnitude, hnarrow.1, Double.leadingBit_eq]
      norm_num
    refine .inr (Interval.holds_of_strict ?_ ?_)
    · linarith
    · linarith
  · -- a whole unit lies between the ends, and less than that between the
    -- neighbours
    have hleast :
        ((Interval.ofDouble x).least : ℚ) = 4 * x.magnitude - 2 * unit := by
      have heq : (Interval.ofDouble x).least = 4 * x.magnitude - 2 * unit := by
        have hdef : (Interval.ofDouble x).least = 4 * x.magnitude -
            (if x.significand == Double.leadingBit && decide (0 < x.shift) then
              Nat.pow 2 x.shift
              else 2 * Nat.pow 2 x.shift) := rfl
        rw [hdef, if_neg (by simpa using hnarrow), hunit]
      rw [heq, Nat.cast_sub (by omega)]
      norm_num
    have hbits : (x.magnitude : ℚ) < 9007199254740992 * unit := by
      have hlt := x.significand_lt
      rw [Double.leadingBit_eq] at hlt
      have hmul : x.significand * unit < 9007199254740992 * unit :=
        Nat.mul_lt_mul_of_pos_right (by omega) hpos
      rw [hmagnitude]
      exact_mod_cast hmul
    by_cases hlow : ((Interval.ofDouble x).least : ℚ) < 4 * (low * step)
    · exact .inl (Interval.holds_of_strict hlow (by linarith))
    · exact .inr (Interval.holds_of_strict (by linarith) (by linarith))

/-- A number lies between two neighbours of a grid. -/
theorem between_neighbours {n num den low : ℕ} (hnum : 0 < num) (hden : 0 < den)
    (hlow : n * den / num = low) :
    (low : ℚ) * (num / den) ≤ n ∧ (n : ℚ) < (low + 1) * (num / den) := by
  have hden' : (0 : ℚ) < den := by exact_mod_cast hden
  constructor
  · have hle : low * num ≤ n * den := hlow ▸ Nat.div_mul_le_self _ _
    rw [← mul_div_assoc, div_le_iff₀ hden']
    exact_mod_cast hle
  · have hlt : n * den < (low + 1) * num := by
      rw [← hlow]
      exact Nat.lt_mul_of_div_lt (Nat.lt_succ_self _) hnum
    rw [← mul_div_assoc, lt_div_iff₀ hden']
    exact_mod_cast hlt

/-- Seventeen digits suffice: on that grid the step is shorter than the interval
of the double, so a point lies inside. -/
theorem onGrid?_seventeen (tie : Tie) {x : Double} (hx : 0 < x.magnitude) :
    (onGrid? tie x (decade x.magnitude Double.unitsPerOne - 16)).isSome =
    true := by
  have hdecade := ten_zpow_decade_le hx unitsPerOne_pos
  have hunits : (0 : ℚ) < Double.unitsPerOne := by
    exact_mod_cast unitsPerOne_pos
  obtain ⟨e, he⟩ : ∃ e, decade x.magnitude Double.unitsPerOne - 16 = e :=
    ⟨_, rfl⟩
  have htop : decade x.magnitude Double.unitsPerOne = 16 + e := by omega
  rw [htop, le_div_iff₀ hunits, zpow_add₀ (by norm_num)] at hdecade
  obtain ⟨num, hnum⟩ : ∃ num, Nat.pow 10 e.toNat * Double.unitsPerOne = num :=
    ⟨_, rfl⟩
  obtain ⟨den, hden⟩ : ∃ den, Nat.pow 10 (-e).toNat = den := ⟨_, rfl⟩
  obtain ⟨low, hlow⟩ : ∃ low, x.magnitude * den / num = low := ⟨_, rfl⟩
  have hnum_pos : 0 < num := by
    rw [← hnum]
    exact Nat.mul_pos (Nat.pow_pos (by decide)) unitsPerOne_pos
  have hden_pos : 0 < den := by
    rw [← hden]
    exact Nat.pow_pos (by decide)
  have hpos : (0 : ℚ) < num / den :=
    div_pos (Nat.cast_pos.2 hnum_pos) (Nat.cast_pos.2 hden_pos)
  have hstep : (10 : ℚ) ^ e * Double.unitsPerOne = num / den := by
    rw [ten_zpow_eq, hden, ← hnum]
    push_cast
    ring
  -- the double lies between two neighbours on the grid; the decade bounds their
  -- distance by the width of the interval, so one of the two is inside
  obtain ⟨hbelow, habove⟩ := between_neighbours hnum_pos hden_pos hlow
  have hzero : 0 < x.significand := by
    have hmagnitude : x.magnitude = x.significand * Nat.pow 2 x.shift := rfl
    exact Nat.pos_of_mul_pos_right (hmagnitude ▸ hx)
  have hpoint : ∀ d : ℕ,
      quarters (Scientific.value ⟨d, e⟩) = 4 * (d * (num / den)) := by
    intro d
    rw [quarters, Scientific.value, ← hstep]
    ring
  rw [he]
  refine onGrid?_isSome hnum hden hlow ?_
  rw [hpoint, hpoint]
  push_cast
  refine exists_neighbour_holds hpos hzero hbelow habove ?_
  rw [← hstep, ← mul_assoc]
  exact_mod_cast hdecade

/-! ## The shortest decimal -/

theorem value_trim (digits : ℕ)
    (e : Int) : (trim digits e).value = Scientific.value ⟨digits, e⟩ := by
  fun_induction trim digits e with
  | case1 digits e h ih =>
    have hdigits : digits = digits / 10 * 10 := by omega
    have hcast : (digits : ℚ) = (digits / 10 : ℕ) * 10 := by
      exact_mod_cast hdigits
    rw [ih, Scientific.value, Scientific.value, hcast, zpow_add₀ (by norm_num),
      zpow_one]
    ring
  | case2 digits e h => rfl

/-- The shortest decimal of a number other than zero rounds to it: the search
ends at seventeen digits at the latest. -/
theorem shortest_holds (tie : Tie) {x : Double} (hx : 0 < x.magnitude) :
    (Interval.ofDouble x).Holds (quarters (shortest tie x).value) := by
  unfold shortest
  dsimp only
  split
  · rename_i found hfound
    obtain ⟨more, -, hgrid⟩ := List.exists_of_findSome?_eq_some hfound
    rw [value_trim]
    exact holds_of_onGrid? hgrid
  · rename_i hnone
    have hsome := onGrid?_seventeen tie hx
    rw [List.findSome?_eq_none_iff] at hnone
    have hgrid := hnone 16 (List.mem_range.2 (by decide))
    rw [show ((16 : ℕ) : Int) = 16 from rfl] at hgrid
    rw [hgrid] at hsome
    exact absurd hsome Bool.false_ne_true

end DrawnPattern.Decimal
