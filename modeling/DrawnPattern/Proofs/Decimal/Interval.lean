import DrawnPattern.Decimal.Shortest
import Mathlib.Algebra.Order.Ring.Rat
import Mathlib.Tactic.Linarith
import Mathlib.Tactic.Ring
set_option autoImplicit false

/-!
# What rounds to a double

The rounding intervals of the doubles of one sign lie end to end: where one
stops the next begins (`least_eq_most`), and of two neighbours exactly one has
the end that they share.  So no number lies in the intervals of two different
payloads (`payload_eq_of_holds`).
-/

namespace DrawnPattern

namespace Double

theorem leadingBit_eq : leadingBit = 4503599627370496 := rfl

theorem signBit_eq : signBit = 9223372036854775808 := rfl

theorem payload_lt (x : Double) : x.payload < signBit :=
  Nat.mod_lt _ (by rw [signBit_eq]; decide)

/-- Every payload is that of some double. -/
theorem exists_payload_eq {payload : Nat} (h : payload < signBit) :
    ∃ x : Double, x.payload = payload := by
  refine ⟨make false payload, ?_⟩
  rw [signBit_eq] at h
  have hbits : (UInt64.ofNat payload).toNat = payload := by
    rw [UInt64.toNat_ofNat']
    exact Nat.mod_eq_of_lt (by omega)
  show (UInt64.ofNat (payload + 0)).toNat % signBit = payload
  rw [Nat.add_zero, hbits, signBit_eq]
  exact Nat.mod_eq_of_lt h

/-- A double is its sign and its payload. -/
theorem eq_of_payload_eq {x y : Double} (hnegative : x.negative = y.negative)
    (hpayload : x.payload = y.payload) : x = y := by
  obtain ⟨a⟩ := x
  obtain ⟨b⟩ := y
  have ha := a.toNat_lt
  have hb := b.toNat_lt
  have hsign := decide_eq_decide.1 hnegative
  simp only [payload, signBit_eq] at hsign hpayload
  have hbits : a.toNat = b.toNat := by omega
  rw [UInt64.toNat_inj.1 hbits]

/-- Half of the significands are even, by turns. -/
theorem significand_mod_two (x : Double) :
    x.significand % 2 = x.payload % 2 := by
  unfold significand
  rw [leadingBit_eq]
  split <;> omega

theorem significand_lt (x : Double) : x.significand < 2 * leadingBit := by
  unfold significand
  rw [leadingBit_eq]
  split <;> omega

/-- Nothing but zero has the magnitude zero. -/
theorem magnitude_pos {x : Double} (h : x.payload ≠ 0) : 0 < x.magnitude := by
  have hsignificand : 0 < x.significand := by
    unfold significand
    rw [leadingBit_eq]
    split <;> omega
  exact Nat.mul_pos hsignificand (Nat.pow_pos (by decide))

end Double

namespace Decimal

namespace Interval

/-- Whether a number of quarters of `2 ^ -1074` lies in the interval.  Rationals
stand in here for what `Interval.holds` compares crosswise. -/
def Holds (i : Interval) (v : ℚ) : Prop :=
  if i.closed = true then (i.least : ℚ) ≤ v ∧ v ≤ i.most
  else (i.least : ℚ) < v ∧ v < i.most

theorem Holds.le {i : Interval} {v : ℚ} (h : i.Holds v) : (i.least : ℚ) ≤ v ∧
    v ≤ i.most := by
  unfold Holds at h
  split at h
  · exact h
  · exact ⟨h.1.le, h.2.le⟩

/-- What lies in an open interval is not an end of it. -/
theorem Holds.lt {i : Interval} {v : ℚ} (h : i.Holds v)
    (hopen : i.closed = false) :
    (i.least : ℚ) < v ∧ v < i.most := by
  unfold Holds at h
  rw [hopen] at h
  exact h

/-- Zero lies in its own interval, which starts there. -/
theorem holds_zero {x : Double} (h : x.payload = 0) : (ofDouble x).Holds 0 := by
  have hsignificand : x.significand = 0 := by
    unfold Double.significand
    rw [h]
    rfl
  have hleast : (ofDouble x).least = 0 := by
    have hmagnitude : x.magnitude = 0 := by
      rw [Double.magnitude, hsignificand, Nat.zero_mul]
    have hle : (ofDouble x).least ≤ 4 * x.magnitude := Nat.sub_le _ _
    omega
  have hclosed : (ofDouble x).closed = true := by
    have hdef : (ofDouble x).closed = (x.significand % 2 == 0) := rfl
    rw [hdef, hsignificand]
    rfl
  rw [Holds, if_pos hclosed, hleast]
  exact ⟨le_of_eq Nat.cast_zero, Nat.cast_nonneg _⟩

/-! ## End to end -/

theorem least_lt_most (x : Double) :
    (ofDouble x).least < (ofDouble x).most := by
  have hunit : 0 < Nat.pow 2 x.shift := Nat.pow_pos (by decide)
  unfold ofDouble
  dsimp only
  split <;> omega

/-- Where the interval of a double stops, that of the next one begins: both ends
lie half way between the two. -/
theorem least_eq_most {x y : Double} (h : y.payload = x.payload + 1) :
    (ofDouble y).least = (ofDouble x).most := by
  have hlead := Double.leadingBit_eq
  -- the next significand has the same unit, or it is the first one with
  -- twice the unit
  have hnext : (y.shift = x.shift ∧ y.significand = x.significand + 1 ∧
        ¬(y.significand = Double.leadingBit ∧ 0 < y.shift)) ∨
      (y.shift = x.shift + 1 ∧ y.significand = Double.leadingBit ∧
        x.significand + 1 = 2 * Double.leadingBit) := by
    unfold Double.shift Double.significand
    rw [h, hlead]
    split <;> split <;> omega
  have hx : (ofDouble x).most = 4 * (x.significand * Nat.pow 2 x.shift) + 2 *
      Nat.pow 2 x.shift := rfl
  have hy : (ofDouble y).least = 4 * (y.significand * Nat.pow 2 y.shift) -
      (if y.significand == Double.leadingBit && decide (0 < y.shift) then
        Nat.pow 2 y.shift
        else 2 * Nat.pow 2 y.shift) := rfl
  rw [hx, hy]
  rcases hnext with
    ⟨hshift, hsignificand, hwide⟩ | ⟨hshift, hsignificand, hlast⟩
  · rw [if_neg (by simpa using hwide), hshift, hsignificand, Nat.add_mul]
    omega
  · have hnarrow :
        (y.significand == Double.leadingBit && decide (0 < y.shift)) =
          true := by
      simp [hsignificand, hshift]
    have hdouble : Double.leadingBit * Nat.pow 2 (x.shift + 1) =
        2 * (Double.leadingBit * Nat.pow 2 x.shift) := by
      rw [show Nat.pow 2 (x.shift + 1) = Nat.pow 2 x.shift * 2 from rfl]
      ring
    have hunit : Nat.pow 2 (x.shift + 1) = Nat.pow 2 x.shift * 2 := rfl
    have hmagnitude : x.significand * Nat.pow 2 x.shift + Nat.pow 2 x.shift =
        2 * (Double.leadingBit * Nat.pow 2 x.shift) := by
      rw [← Nat.succ_mul, Nat.succ_eq_add_one, hlast, Nat.mul_assoc]
    rw [if_pos hnarrow, hshift, hsignificand, hdouble, hunit]
    omega

/-- Of two neighbours one has the end that they share, since one significand is
even and the other is not. -/
theorem closed_eq_not {x y : Double} (h : y.payload = x.payload + 1) :
    (ofDouble y).closed = !(ofDouble x).closed := by
  have hx : (ofDouble x).closed = (x.significand % 2 == 0) := rfl
  have hy : (ofDouble y).closed = (y.significand % 2 == 0) := rfl
  rw [hx, hy, Double.significand_mod_two, Double.significand_mod_two, h]
  rcases Nat.mod_two_eq_zero_or_one x.payload with heven | hodd
  · have hnext : (x.payload + 1) % 2 = 1 := by omega
    rw [heven, hnext]
    rfl
  · have hnext : (x.payload + 1) % 2 = 0 := by omega
    rw [hodd, hnext]
    rfl

/-- Intervals follow each other, with a gap unless their payloads are
neighbours. -/
theorem most_le_least : ∀ (between : Nat) {x y : Double},
    y.payload = x.payload + between + 1 →
    (ofDouble x).most ≤ (ofDouble y).least ∧
      (0 < between → (ofDouble x).most < (ofDouble y).least) := by
  intro between
  induction between with
  | zero =>
    intro x y h
    rw [least_eq_most (x := x) (y := y) h]
    exact ⟨Nat.le_refl _, fun h => absurd h (Nat.lt_irrefl 0)⟩
  | succ between ih =>
    intro x y h
    have hlt := y.payload_lt
    obtain ⟨z, hz⟩ :=
      Double.exists_payload_eq (show x.payload + between + 1 <
        Double.signBit by omega)
    have hbefore := (ih (y := z) hz).1
    have hacross := least_lt_most z
    have hafter := least_eq_most (x := z) (y := y) (by omega)
    omega

theorem not_holds_of_payload_lt {x y : Double} {v : ℚ}
    (h : x.payload < y.payload) (hx : (ofDouble x).Holds v) :
    ¬(ofDouble y).Holds v := by
  intro hy
  obtain ⟨between, hbetween⟩ := Nat.exists_eq_add_of_lt h
  obtain ⟨hle, hgap⟩ := most_le_least between hbetween
  have hle' : ((ofDouble x).most : ℚ) ≤ (ofDouble y).least := by
    exact_mod_cast hle
  cases between with
  | succ between =>
    have hlt : ((ofDouble x).most : ℚ) < (ofDouble y).least := by
      exact_mod_cast hgap (Nat.succ_pos between)
    linarith [hx.le.2, hy.le.1]
  | zero =>
    have hclosed := closed_eq_not (x := x) (y := y) hbetween
    cases hx' : (ofDouble x).closed with
    | false => linarith [(hx.lt hx').2, hy.le.1]
    | true =>
      rw [hx', Bool.not_true] at hclosed
      linarith [hx.le.2, (hy.lt hclosed).1]

/-- No number rounds to two doubles of one sign, so a decimal that rounds to a
double tells which one it is. -/
theorem payload_eq_of_holds {x y : Double} {v : ℚ} (hx : (ofDouble x).Holds v)
    (hy : (ofDouble y).Holds v) : x.payload = y.payload := by
  rcases Nat.lt_trichotomy x.payload y.payload with hlt | heq | hgt
  · exact absurd hy (not_holds_of_payload_lt hlt hx)
  · exact heq
  · exact absurd hx (not_holds_of_payload_lt hgt hy)

end Interval

end Decimal

end DrawnPattern
