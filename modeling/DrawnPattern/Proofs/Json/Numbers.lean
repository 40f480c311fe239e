import DrawnPattern.Proofs.Json.Reading
import Mathlib.Data.List.TakeWhile
set_option autoImplicit false

/-!
# Numbers that are read back

An integer of 64 bits is read back from its digits (`readsBack_int`).  A decimal
is read in steps, each of which rounds, so not every finite double is read back
from the decimal that is printed for it (`exists_not_readsBack`): that one is,
is a property of the double (`Number.ReadsBack`).
-/

namespace DrawnPattern

variable {n : Number} {c : Char} {rest : List Char}

open Json

/-- Whether a number is read back from its text.  Integers are; of doubles it
depends on their decimals. -/
def Number.ReadsBack (n : Number) : Prop := read? (numberText n) = some (.num n)

namespace Json

/-! ## Words -/

theorem tokens_word {word : List Char} (hin : ∀ c ∈ word, boundary? c = none) :
    tokens word = endWord word.reverse := by
  have hword := tokensFrom_word hin [] []
  rw [List.append_nil, List.append_nil] at hword
  rw [tokens, hword, tokensFrom]

/-- A number is read back iff that is what its text stands for as a word, since
the text of a number has no boundary in it. -/
theorem readsBack_iff : n.ReadsBack ↔
    word? (numberText n).toList = some (.num n) := by
  have hin : ∀ c ∈ (numberText n).toList, boundary? c = none :=
    fun c => boundary?_of_mem_numberText
  rw [Number.ReadsBack, read?, tokens_word hin, endWord, List.isEmpty_reverse,
    List.reverse_reverse]
  cases hempty : (numberText n).toList.isEmpty with
  | true =>
    rw [List.isEmpty_iff.1 hempty]
    constructor <;> intro h <;> cases h
  | false =>
    cases word? (numberText n).toList with
    | none => simp
    | some j =>
      have hj : ofTokens? [.scalar j] = some j := rfl
      simp [hj]

theorem numbersSpelled_iff {j : Json} : j.NumbersSpelled ↔
    ∀ n ∈ j.numbers, n.ReadsBack := by
  simp only [NumbersSpelled, readsBack_iff]

/-! ## Integers -/

/-- No number but zero starts with the digit zero. -/
theorem ne_zero_of_toDigits_eq {m : Nat} (hm : 0 < m)
    (h : Nat.toDigits 10 m = c :: rest) :
    c ≠ '0' := by
  induction m using Nat.strongRecOn generalizing c rest with
  | ind m ih =>
    rcases Nat.lt_or_ge m 10 with hsmall | hlarge
    · rw [Nat.toDigits_of_lt_base hsmall] at h
      have hdigit : ∀ m < 10, 0 < m → Nat.digitChar m ≠ '0' := by decide
      exact (List.cons.inj h).1 ▸ hdigit m hsmall hm
    · rw [Nat.toDigits_of_base_le (by decide) hlarge] at h
      cases hfront : Nat.toDigits 10 (m / 10) with
      | nil => exact absurd hfront Nat.toDigits_ne_nil
      | cons d front =>
        rw [hfront, List.cons_append] at h
        exact (List.cons.inj h).1 ▸ ih (m / 10) (by omega) (by omega) hfront

theorem isWhole_toDigits (m : Nat) : isWhole (Nat.toDigits 10 m) = true := by
  rcases Nat.eq_zero_or_pos m with rfl | hm
  · rfl
  · cases h : Nat.toDigits 10 m with
    | nil => exact absurd h Nat.toDigits_ne_nil
    | cons c rest =>
      have hzero := ne_zero_of_toDigits_eq hm h
      have hdigit : ∀ d ∈ c :: rest, d.isDigit = true := by
        rw [← h]
        exact fun d => Decimal.isDigit_of_mem_toDigits
      rw [isWhole]
      · simpa [hzero] using hdigit
      · rintro ⟨rfl, -⟩
        exact absurd rfl hzero

/-- Digits alone are a numeral. -/
theorem magnitude?_toDigits (negative : Bool) (m : Nat) :
    magnitude? negative (Nat.toDigits 10 m) = some ⟨negative, Nat.toDigits 10 m,
      [], none⟩ := by
  have hdigits : ∀ c ∈ Nat.toDigits 10 m, c.isDigit = true :=
    fun c => Decimal.isDigit_of_mem_toDigits
  have htake : (Nat.toDigits 10 m).takeWhile Char.isDigit = Nat.toDigits 10 m :=
    List.takeWhile_eq_self_iff.2 hdigits
  have hdrop : (Nat.toDigits 10 m).dropWhile Char.isDigit = [] :=
    List.dropWhile_eq_nil_iff.2 hdigits
  simp [magnitude?, htake, hdrop, isWhole_toDigits, exponentPart?]

theorem valueOfDigits_toDigits (m : Nat) :
    valueOfDigits (Nat.toDigits 10 m) = m :=
  Nat.ofDigitChars_ten_toDigits

theorem numeral?_toDigits (m : Nat) :
    numeral? (Nat.toDigits 10 m) =
    some ⟨false, Nat.toDigits 10 m, [], none⟩ := by
  rw [numeral?, magnitude?_toDigits]
  intro cs hcs
  exact Decimal.toDigits_ne_cons rfl hcs

theorem numeral?_negative (m : Nat) :
    numeral? ('-' :: Nat.toDigits 10 m) =
    some ⟨true, Nat.toDigits 10 m, [], none⟩ := by
  rw [numeral?, magnitude?_toDigits]

/-- A word without letters is no constant. -/
theorem word?_of_no_letter {word : List Char} (hl : 'l' ∉ word)
    (he : 'e' ∉ word) :
    word? word = (numeral? word).map Numeral.json := by
  rw [word?, if_neg, if_neg, if_neg]
  · rintro rfl
    exact hl (by decide)
  · rintro rfl
    exact he (by decide)
  · rintro rfl
    exact hl (by decide)

/-- The digits of an integer of 64 bits, with a sign or without, are read as
that integer. -/
theorem word?_toString {i : Int} (hleast : -(leastMagnitude : Int) ≤ i)
    (hmost : i ≤ (greatest : Int)) :
    word? (toString i).toList = some (.num (.int i)) := by
  have hletter : ∀ c : Char, c.isDigit = false → c ≠ '-' →
      c ∉ (toString i).toList := by
    intro c hdigit hsign hc
    rcases Decimal.mem_toString_int hc with h | h
    · rw [hdigit] at h
      cases h
    · exact hsign h
  rw [word?_of_no_letter (hletter 'l' rfl (by decide))
    (hletter 'e' rfl (by decide)), Decimal.toList_toString_int]
  split
  · rename_i hsign
    have hsmall : i.toNat ≤ greatest := by omega
    rw [numeral?_toDigits]
    simp [Numeral.json, Numeral.int?, valueOfDigits_toDigits, hsmall, hsign]
  · rename_i hsign
    have hpos : 0 < (-i).toNat := by omega
    have hsmall : (-i).toNat ≤ leastMagnitude := by omega
    have hvalue : -((-i).toNat : Int) = i := by omega
    rw [numeral?_negative, Option.map_some, Numeral.json, Numeral.int?]
    simp only [valueOfDigits_toDigits, hpos, hsmall, hvalue]
    simp

/-- An integer of 64 bits is read back. -/
theorem readsBack_int {i : Int} (hleast : -(leastMagnitude : Int) ≤ i)
    (hmost : i ≤ (greatest : Int)) : (Number.int i).ReadsBack :=
  readsBack_iff.2 (word?_toString hleast hmost)

/-! ## Doubles -/

theorem double?_of_json {numeral : Numeral} {x : Double}
    (h : numeral.json = .num (.float x)) :
    numeral.double? = some x := by
  unfold Numeral.json at h
  split at h
  · cases h
  · split at h
    · rename_i hx
      cases h
      exact hx
    · cases h

/-- The double nearest to `1e-23` is read as its neighbour, since `1e23` is not
a double. -/
theorem exists_not_readsBack : ∃ x : Double, x.isFinite = true ∧
    ¬(Number.float x).ReadsBack := by
  refine ⟨⟨0x3b282db34012b251⟩, by decide, fun h => ?_⟩
  have htext : numberText (.float ⟨0x3b282db34012b251⟩) = "1e-23" := by
    decide +kernel
  have hnumeral : word? "1e-23".toList =
      some (Numeral.json ⟨false, ['1'], [], some (-23)⟩) := rfl
  have hother : Numeral.double? ⟨false, ['1'], [], some (-23)⟩ ≠
      some ⟨0x3b282db34012b251⟩ := by
    decide +kernel
  rw [readsBack_iff, htext, hnumeral, Option.some.injEq] at h
  exact hother (double?_of_json h)

end Json

end DrawnPattern
