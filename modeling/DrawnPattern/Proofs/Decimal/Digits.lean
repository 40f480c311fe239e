import Mathlib.Data.Nat.Notation
set_option autoImplicit false

/-!
# The text of integers

Numbers written in decimal digits are told apart by their texts, which consist
of digits and a sign.
-/

namespace DrawnPattern.Decimal

theorem toDigits_inj {m n : ℕ} (h : Nat.toDigits 10 m = Nat.toDigits 10 n) :
    m = n := by
  rw [← Nat.ofDigitChars_ten_toDigits (n := m), h,
    Nat.ofDigitChars_ten_toDigits]

theorem isDigit_of_mem_toDigits {n : ℕ} {c : Char} (h : c ∈ Nat.toDigits 10 n) :
    c.isDigit = true :=
  Nat.isDigit_of_mem_toDigits (by decide) (by decide) h

/-- A digit is none of the other characters. -/
theorem bne_of_isDigit {c d : Char} (hc : c.isDigit = true)
    (hd : d.isDigit = false) :
    (c != d) = true := by
  rw [bne_iff_ne]
  rintro rfl
  rw [hc] at hd
  cases hd

/-- Digits start with nothing but a digit. -/
theorem toDigits_ne_cons {n : ℕ} {c : Char} {rest : List Char}
    (hc : c.isDigit = false) :
    Nat.toDigits 10 n ≠ c :: rest := by
  intro h
  have hdigit :=
    isDigit_of_mem_toDigits (n := n) (c := c)
      (by rw [h]; exact List.mem_cons_self)
  rw [hc] at hdigit
  cases hdigit

theorem toList_toString_nat (n : ℕ) : (toString n).toList = Nat.toDigits 10 n :=
  Nat.toList_repr

/-- Digits, after a sign if the number is negative. -/
theorem toList_toString_int (i : Int) :
    (toString i).toList = if 0 ≤ i then Nat.toDigits 10 i.toNat
    else '-' :: Nat.toDigits 10 (-i).toNat := by
  rw [Int.toString_eq_repr, Int.repr_eq_if]
  split
  · exact Nat.toList_repr
  · rw [String.toList_append, Nat.toList_repr]
    rfl

theorem mem_toString_int {i : Int} {c : Char} (h : c ∈ (toString i).toList) :
    c.isDigit = true ∨ c = '-' := by
  rw [toList_toString_int] at h
  split at h
  · exact .inl (isDigit_of_mem_toDigits h)
  · rcases List.mem_cons.1 h with rfl | h
    · exact .inr rfl
    · exact .inl (isDigit_of_mem_toDigits h)

theorem toString_int_inj {i j : Int}
    (h : (toString i).toList = (toString j).toList) : i = j := by
  rw [toList_toString_int, toList_toString_int] at h
  split at h <;> split at h
  · have hnat := toDigits_inj h
    omega
  · exact absurd h (toDigits_ne_cons rfl)
  · exact absurd h.symm (toDigits_ne_cons rfl)
  · have hnat := toDigits_inj (List.cons.inj h).2
    omega

end DrawnPattern.Decimal
