import DrawnPattern.Decimal.Reading
import DrawnPattern.Proofs.Decimal.Interval
set_option autoImplicit false

/-!
# Results that are finite

Rounding goes to infinity only where the exact result is above every finite
double (`payloadOfQuotient_lt`).  So the double of an integer of 64 bits is
finite (`isFinite_ofInt`), and so is whatever double is read for a decimal
(`Decimal.isFinite_of_read?`).
-/

namespace DrawnPattern

namespace Double

variable {num den most top payload : Nat} {x y : Double}

/-! ## Fields -/

theorem infinitePayload_lt_signBit : infinitePayload < signBit := by decide

theorem payload_make (negative : Bool) (h : payload < signBit) :
    (make negative payload).payload = payload := by
  rw [signBit_eq] at h
  have hbits : ∀ n : Nat, n < 2 ^ 64 → (UInt64.ofNat n).toNat = n := by
    intro n hn
    rw [UInt64.toNat_ofNat']
    exact Nat.mod_eq_of_lt hn
  cases negative with
  | false =>
    show (UInt64.ofNat (payload + 0)).toNat % signBit = payload
    rw [hbits _ (by omega), signBit_eq]
    omega
  | true =>
    show (UInt64.ofNat (payload + signBit)).toNat % signBit = payload
    rw [signBit_eq, hbits _ (by omega)]
    omega

theorem isFinite_make {negative : Bool} (h : payload < infinitePayload) :
    (make negative payload).isFinite = true := by
  rw [isFinite,
    payload_make negative (Nat.lt_trans h infinitePayload_lt_signBit)]
  exact decide_eq_true h

theorem isFinite_neg (h : x.isFinite = true) : x.neg.isFinite = true :=
  isFinite_make (of_decide_eq_true h)

/-- A payload below the one after some shift has a magnitude with at most
that shift. -/
theorem magnitude_le (h : x.payload < (top + 2) * leadingBit) :
    x.magnitude ≤ (2 * leadingBit - 1) * 2 ^ top := by
  have hsignificand : x.significand ≤ 2 * leadingBit - 1 :=
    Nat.le_pred_of_lt (significand_lt x)
  have hshift : x.shift ≤ top := by
    have hdiv := (Nat.div_lt_iff_lt_mul (by decide)).2 h
    rw [shift]
    omega
  exact Nat.mul_le_mul hsignificand (Nat.pow_le_pow_right (by decide) hshift)

/-- A payload from the first one with some shift on has a magnitude with at
least that shift. -/
theorem le_magnitude {k : Nat} (h : (k + 1) * leadingBit ≤ x.payload) :
    leadingBit * 2 ^ k ≤ x.magnitude := by
  have hshift : k ≤ x.shift := by
    have hdiv := (Nat.le_div_iff_mul_le (by decide)).2 h
    rw [shift]
    omega
  have hsignificand : leadingBit ≤ x.significand := by
    have hnormal : leadingBit ≤ x.payload :=
      Nat.le_trans (Nat.le_mul_of_pos_left _ (by omega)) h
    rw [significand, if_neg (Nat.not_lt.2 hnormal)]
    exact Nat.le_add_right _ _
  exact Nat.mul_le_mul hsignificand (Nat.pow_le_pow_right (by decide) hshift)

/-! ## Rounding -/

/-- No quotient is rounded above a whole number that it does not exceed, so
rounding keeps bounds that are whole. -/
theorem nearestEven_le (hden : 0 < den) (h : num ≤ most * den) :
    nearestEven num den ≤ most := by
  have hquotient : num / den ≤ most :=
    Nat.div_le_of_le_mul (by rwa [Nat.mul_comm])
  have hexact : num / den = most → num % den = 0 := by
    intro heq
    have hsum := Nat.div_add_mod num den
    rw [heq, Nat.mul_comm] at hsum
    omega
  unfold nearestEven
  rcases Nat.lt_or_ge (num / den) most with hlt | hge
  · simp only
    split
    · omega
    · split <;> omega
  · have hrest := hexact (Nat.le_antisymm hquotient hge)
    simp only [hrest]
    rw [if_pos (by omega)]
    exact hquotient

theorem le_nearestEven (num den : Nat) : num / den ≤ nearestEven num den := by
  unfold nearestEven
  simp only
  split
  · exact Nat.le_refl _
  · split <;> omega

/-- A number that 53 bits hold after some shift is not shifted further. -/
theorem log2_sub_le {quotient : Nat}
    (h : quotient ≤ (2 * leadingBit - 1) * 2 ^ top) :
    quotient.log2 - 52 ≤ top := by
  rcases Nat.eq_zero_or_pos quotient with rfl | hpos
  · exact Nat.zero_le _
  · have hsignificand : 2 * leadingBit - 1 < 2 ^ 53 := by decide
    have hlt : quotient < 2 ^ (53 + top) := by
      rw [Nat.pow_add]
      exact Nat.lt_of_le_of_lt h (Nat.mul_lt_mul_of_pos_right hsignificand
        (Nat.two_pow_pos top))
    have hbound := (Nat.log2_lt (Nat.ne_of_gt hpos)).2 hlt
    omega

/-- A quotient that was shifted has 53 bits, or it is rounded up to the next
power of two. -/
theorem nearestEven_shifted_le (num : Nat) (hden : 0 < den) :
    nearestEven num (den * 2 ^ ((num / den).log2 - 52)) ≤ 2 * leadingBit := by
  have hbits : 2 * leadingBit = 2 ^ 53 := rfl
  have hwide :
      2 ^ ((num / den).log2 + 1) ≤ 2 ^ 53 * 2 ^ ((num / den).log2 - 52) := by
    rw [← Nat.pow_add]
    exact Nat.pow_le_pow_right (by decide) (by omega)
  have hnum : num < 2 ^ ((num / den).log2 + 1) * den :=
    (Nat.div_lt_iff_lt_mul hden).1 Nat.lt_log2_self
  apply nearestEven_le (Nat.mul_pos hden (Nat.two_pow_pos _))
  calc num ≤ 2 ^ ((num / den).log2 + 1) * den := Nat.le_of_lt hnum
    _ ≤ 2 ^ 53 * 2 ^ ((num / den).log2 - 52) * den :=
      Nat.mul_le_mul_right _ hwide
    _ = 2 * leadingBit * (den * 2 ^ ((num / den).log2 - 52)) := by
      rw [hbits]; ring

/-- A quotient up to the greatest significand at some shift is rounded to a
payload that has at most this shift. -/
theorem payloadOfQuotient_lt (hden : 0 < den)
    (h : num ≤ (2 * leadingBit - 1) * 2 ^ top * den) :
    payloadOfQuotient num den < (top + 2) * leadingBit := by
  have hquotient : num / den ≤ (2 * leadingBit - 1) * 2 ^ top :=
    Nat.div_le_of_le_mul (by rwa [Nat.mul_comm])
  have htop := log2_sub_le hquotient
  have hnearest := nearestEven_shifted_le num hden
  rw [payloadOfQuotient]
  generalize (num / den).log2 - 52 = shift at htop hnearest
  refine Nat.lt_of_le_of_lt (Nat.min_le_right _ _) ?_
  show shift * leadingBit + nearestEven num (den * 2 ^ shift) < _
  rcases Nat.lt_or_eq_of_le htop with hlt | rfl
  · have hstep :
        shift * leadingBit + 2 * leadingBit ≤ (top + 1) * leadingBit := by
      rw [← Nat.add_mul]
      exact Nat.mul_le_mul_right _ (by omega)
    have hgap : (top + 1) * leadingBit < (top + 2) * leadingBit :=
      Nat.mul_lt_mul_of_pos_right (Nat.lt_succ_self _) (by decide)
    omega
  · have hgreatest :
        nearestEven num (den * 2 ^ shift) ≤ 2 * leadingBit - 1 := by
      apply nearestEven_le (Nat.mul_pos hden (Nat.two_pow_pos shift))
      calc num ≤ (2 * leadingBit - 1) * 2 ^ shift * den := h
        _ = (2 * leadingBit - 1) * (den * 2 ^ shift) := by ring
    have hpositive : 0 < leadingBit := by decide
    rw [Nat.add_mul]
    omega

/-- A quotient from the least significand at some shift on is rounded to a
payload that has at least this shift. -/
theorem le_payloadOfQuotient {k : Nat} (hk : k ≤ 2046)
    (h : 2 ^ (52 + k) ≤ num / den) :
    (k + 1) * leadingBit ≤ payloadOfQuotient num den := by
  have hne : num / den ≠ 0 :=
    Nat.ne_of_gt (Nat.lt_of_lt_of_le (Nat.two_pow_pos _) h)
  have hlog : 52 + k ≤ (num / den).log2 := (Nat.le_log2 hne).2 h
  have hself : 2 ^ (num / den).log2 ≤ num / den := Nat.log2_self_le hne
  rw [payloadOfQuotient]
  generalize hshift : (num / den).log2 - 52 = shift
  have hsplit : (num / den).log2 = 52 + shift := by omega
  rw [hsplit, Nat.pow_add] at hself
  refine Nat.le_min.2 ⟨Nat.mul_le_mul_right _ (by omega), ?_⟩
  show (k + 1) * leadingBit ≤ shift * leadingBit +
    nearestEven num (den * 2 ^ shift)
  have hnearest : leadingBit ≤ nearestEven num (den * 2 ^ shift) := by
    refine Nat.le_trans ?_ (le_nearestEven _ _)
    rw [← Nat.div_div_eq_div_mul]
    exact (Nat.le_div_iff_mul_le (Nat.two_pow_pos shift)).2 hself
  have hscaled : k * leadingBit ≤ shift * leadingBit :=
    Nat.mul_le_mul_right _ (by omega)
  rw [Nat.add_mul, Nat.one_mul]
  omega

/-! ## Finite doubles -/

/-- The magnitude of the greatest finite double, in units of `2 ^ -1074`. -/
def greatestMagnitude : Nat := (2 * leadingBit - 1) * 2 ^ 2045

theorem magnitude_le_greatest (h : x.isFinite = true) :
    x.magnitude ≤ greatestMagnitude :=
  magnitude_le (of_decide_eq_true h)

theorem isFinite_quotient (hden : 0 < den) (h : num ≤ greatestMagnitude * den) :
    (make false (payloadOfQuotient num den)).isFinite = true :=
  isFinite_make (payloadOfQuotient_lt hden h)

theorem payload_quotient (num den : Nat) :
    (make false (payloadOfQuotient num den)).payload =
    payloadOfQuotient num den :=
  payload_make false
    (Nat.lt_of_le_of_lt (Nat.min_le_left _ _) infinitePayload_lt_signBit)

/-- A whole number that is not zero is not rounded below one. -/
theorem unitsPerOne_le_ofNat {n : Nat} (hn : 0 < n) :
    unitsPerOne ≤ (ofNat n).magnitude := by
  have hunits : unitsPerOne = 2 ^ (52 + 1022) := by decide +kernel
  have hquotient : 2 ^ (52 + 1022) ≤ n * unitsPerOne / 1 := by
    rw [Nat.div_one, ← hunits]
    exact Nat.le_mul_of_pos_left _ hn
  rw [hunits, Nat.pow_add]
  apply le_magnitude
  rw [ofNat, payload_quotient]
  exact le_payloadOfQuotient (by omega) hquotient

/-- A number of 64 bits is far from the greatest double. -/
theorem isFinite_ofNat {n : Nat}
    (hn : n ≤ 2 ^ 64) : (ofNat n).isFinite = true := by
  apply isFinite_quotient Nat.one_pos
  have hmost : 2 ^ 64 * unitsPerOne ≤ greatestMagnitude * 1 := by decide +kernel
  exact Nat.le_trans (Nat.mul_le_mul_right _ hn) hmost

/-- The double of an integer of 64 bits is finite. -/
theorem isFinite_ofInt {i : Int}
    (h : i.natAbs ≤ 2 ^ 64) : (ofInt i).isFinite = true := by
  unfold ofInt
  split
  · exact isFinite_neg (isFinite_ofNat h)
  · exact isFinite_ofNat h

theorem isFinite_dividedBy (hx : x.isFinite = true)
    (hy : unitsPerOne ≤ y.magnitude) :
    (x.dividedBy y).isFinite = true := by
  have hunits : 0 < unitsPerOne := by decide +kernel
  apply isFinite_quotient (Nat.lt_of_lt_of_le hunits hy)
  exact Nat.mul_le_mul (magnitude_le_greatest hx) hy

theorem isFinite_times (h : (x.times y).isInfinite = false) :
    (x.times y).isFinite = true := by
  have hpayload : (x.times y).payload ≤ infinitePayload := by
    rw [times, payload_quotient]
    exact Nat.min_le_left _ _
  rw [isInfinite, beq_eq_false_iff_ne] at h
  exact decide_eq_true (Nat.lt_of_le_of_ne hpayload h)

end Double

namespace Decimal

/-- Scaling a finite double never gives infinity: on the way up that is refused,
and on the way down nothing grows. -/
theorem isFinite_of_scale? {x y : Double} {e : Int} (hx : x.isFinite = true)
    (h : scale? x e = some y) : y.isFinite = true := by
  have hpower : ∀ k : Nat, Double.unitsPerOne ≤ (powerOfTen k).magnitude :=
    fun k => Double.unitsPerOne_le_ofNat (Nat.pow_pos (by decide))
  induction x, e using scale?.induct with
  | case1 x e hsmall hzero =>
    rw [scale?, if_pos hsmall, if_pos hzero] at h
    cases h
    exact hx
  | case2 x e hsmall hzero ih =>
    rw [scale?, if_pos hsmall, if_neg hzero] at h
    exact ih (Double.isFinite_dividedBy hx (hpower 308)) h
  | case3 x e hsmall hnegative =>
    rw [scale?, if_neg hsmall, if_pos hnegative] at h
    cases h
    exact Double.isFinite_dividedBy hx (hpower _)
  | case4 x e hsmall hnegative hlarge product hinfinite =>
    rw [scale?, if_neg hsmall, if_neg hnegative, if_pos hlarge] at h
    simp only [product] at hinfinite
    simp [hinfinite] at h
  | case5 x e hsmall hnegative hlarge product hfinite =>
    rw [scale?, if_neg hsmall, if_neg hnegative, if_pos hlarge] at h
    simp only [product, Bool.not_eq_true] at hfinite
    have hy : x.times (powerOfTen e.natAbs) = y := by simpa [hfinite] using h
    exact hy ▸ Double.isFinite_times hfinite
  | case6 x e hsmall hnegative hlarge hzero =>
    rw [scale?, if_neg hsmall, if_neg hnegative, if_neg hlarge,
      if_pos hzero] at h
    cases h
    exact hx
  | case7 x e hsmall hnegative hlarge hzero =>
    rw [scale?, if_neg hsmall, if_neg hnegative, if_neg hlarge,
      if_neg hzero] at h
    cases h

/-- A double that is read for digits of 64 bits is finite. -/
theorem isFinite_of_read? {x : Double} {digits : Nat} {e : Int}
    (hdigits : digits ≤ 2 ^ 64) (h : read? digits e = some x) :
    x.isFinite = true :=
  isFinite_of_scale? (Double.isFinite_ofNat hdigits) h

end Decimal

end DrawnPattern
