import DrawnPattern.Decimal.Layout
import DrawnPattern.Proofs.Decimal.Digits
import DrawnPattern.Proofs.Decimal.Shortest
set_option autoImplicit false

/-!
# Doubles and their texts

A text that a layout makes is a `Numeral`: digits with a point, and maybe an
exponent.  Numerals are told apart by their texts (`Numeral.text_inj`), and the
numeral of a double has a value that rounds to it, so different doubles have
different texts (`Layout.text_injective`).
-/

namespace DrawnPattern.Decimal

/-! ## Numerals -/

/-- A mantissa of digits and at most one point, and an exponent of ten: what
every layout writes, sign apart. -/
structure Numeral where
  mantissa : List Char
  exponent : Option Int

namespace Numeral

/-- The digits of a mantissa as a number, without regard to the point. -/
def digits (n : Numeral) : ℕ :=
  Nat.ofDigitChars 10 (n.mantissa.filter (· != '.')) 0

/-- How many digits stand after the point. -/
def places (n : Numeral) : ℕ := (n.mantissa.dropWhile (· != '.')).length - 1

/-- The number that a numeral stands for. -/
def value (n : Numeral) : ℚ := n.digits * 10 ^ (n.exponent.getD 0 - n.places)

/-- The exponent as it is written. -/
def exponentText (plus : Bool) : Option Int → List Char
  | none => []
  | some k =>
    'e' :: (if plus = true ∧ 0 < k then ['+'] else []) ++ (toString k).toList

def text (plus : Bool) (n : Numeral) : List Char :=
  n.mantissa ++ exponentText plus n.exponent

/-- Whether a numeral is well formed: there is a mantissa, of digits and points
only, and a point unless there is an exponent. -/
structure Plain (n : Numeral) : Prop where
  mantissa_ne_nil : n.mantissa ≠ []
  mem_mantissa : ∀ c ∈ n.mantissa, c.isDigit = true ∨ c = '.'
  point_or_exponent : '.' ∈ n.mantissa ∨ n.exponent ≠ none

/-- A mantissa has no sign. -/
theorem Plain.head?_text_ne {n : Numeral} (h : n.Plain) (plus : Bool) :
    (n.text plus).head? ≠ some '-' := by
  obtain ⟨c, rest, hcons⟩ := List.exists_cons_of_ne_nil h.mantissa_ne_nil
  have hc := h.mem_mantissa c (by rw [hcons]; exact List.mem_cons_self)
  rw [Numeral.text, hcons, List.cons_append, List.head?_cons, Ne,
    Option.some.injEq]
  rintro rfl
  exact absurd hc (by decide)

/-- Nothing but the exponent has the letter that it starts with. -/
theorem Plain.e_not_mem {n : Numeral} (h : n.Plain) : 'e' ∉ n.mantissa := by
  intro he
  rcases h.mem_mantissa 'e' he with hdigit | hpoint
  · exact absurd hdigit (by decide)
  · exact absurd hpoint (by decide)

theorem exponentText_inj {plus : Bool} {j k : Option Int}
    (h : exponentText plus j = exponentText plus k) : j = k := by
  -- a plus sign is written before digits only, so leaving it out does no harm
  have hplain : ∀ i : Int, (((if plus = true ∧ 0 < i then ['+'] else []) ++
      (toString i).toList).filter (· != '+')) = (toString i).toList := by
    intro i
    have hdigits :
        (toString i).toList.filter (· != '+') = (toString i).toList := by
      apply List.filter_eq_self.2
      intro c hc
      rcases mem_toString_int hc with hdigit | rfl
      · exact bne_of_isDigit hdigit rfl
      · decide
    rw [List.filter_append, hdigits]
    split <;> rfl
  cases j with
  | none =>
    cases k with
    | none => rfl
    | some k => cases h
  | some j =>
    cases k with
    | none => cases h
    | some k =>
      have hsigned := congrArg (List.filter (· != '+')) (List.cons.inj h).2
      have hequal := (hplain j).symm.trans (hsigned.trans (hplain k))
      rw [toString_int_inj hequal]

/-- Numerals with one text are one numeral: the exponent is cut off at its
letter, and neither part has that letter in it. -/
theorem text_inj {plus : Bool} {m n : Numeral} (hm : m.Plain) (hn : n.Plain)
    (h : m.text plus = n.text plus) : m = n := by
  have hsplit : ∀ n : Numeral, n.Plain →
      (n.text plus).takeWhile (· != 'e') = n.mantissa ∧
        (n.text plus).dropWhile (· != 'e') = exponentText plus n.exponent := by
    intro n hn
    have hall : ∀ c ∈ n.mantissa, (c != 'e') = true := by
      intro c hc
      rw [bne_iff_ne]
      rintro rfl
      exact hn.e_not_mem hc
    rw [text, List.takeWhile_append_of_pos hall,
      List.dropWhile_append_of_pos hall]
    cases n.exponent with
    | none => exact ⟨List.append_nil _, rfl⟩
    | some k => exact ⟨List.append_nil _, rfl⟩
  obtain ⟨hm₁, hm₂⟩ := hsplit m hm
  obtain ⟨hn₁, hn₂⟩ := hsplit n hn
  rw [h, hn₁] at hm₁
  rw [h, hn₂] at hm₂
  cases m
  cases n
  rw [Numeral.mk.injEq]
  exact ⟨hm₁.symm, exponentText_inj hm₂.symm⟩

end Numeral

/-! ## Layouts -/

theorem filter_point_of_digits {l : List Char} (h : ∀ c ∈ l, c.isDigit = true) :
    l.filter (· != '.') = l := by
  apply List.filter_eq_self.2
  intro c hc
  exact bne_of_isDigit (h c hc) rfl

theorem dropWhile_point_of_digits {l rest : List Char}
    (h : ∀ c ∈ l, c.isDigit = true) :
    (l ++ '.' :: rest).dropWhile (· != '.') = '.' :: rest := by
  have hall : ∀ c ∈ l, (c != '.') = true :=
    fun c hc => bne_of_isDigit (h c hc) rfl
  rw [List.dropWhile_append_of_pos hall]
  rfl

/-- Digits with a point among them: their number, and how many stand after
the point. -/
theorem numeral_of_split {before after : List Char}
    (hbefore : ∀ c ∈ before, c.isDigit = true)
    (hafter : ∀ c ∈ after, c.isDigit = true) (exponent : Option Int) :
    (Numeral.mk (before ++ '.' :: after) exponent).digits =
    Nat.ofDigitChars 10 (before ++ after) 0 ∧
      (Numeral.mk (before ++ '.' :: after) exponent).places = after.length := by
  constructor
  · rw [Numeral.digits, List.filter_append, filter_point_of_digits hbefore]
    show Nat.ofDigitChars 10 (before ++ after.filter (· != '.')) 0 = _
    rw [filter_point_of_digits hafter]
  · rw [Numeral.places, dropWhile_point_of_digits hbefore]
    rfl

/-- Digits with a point among them make a mantissa. -/
theorem plain_of_split {before after : List Char}
    (hbefore : ∀ c ∈ before, c.isDigit = true)
    (hafter : ∀ c ∈ after, c.isDigit = true) (exponent : Option Int) :
    (Numeral.mk (before ++ '.' :: after) exponent).Plain where
  mantissa_ne_nil := by simp
  mem_mantissa c hc := by
    rcases List.mem_append.1 hc with hc | hc
    · exact .inl (hbefore c hc)
    · rcases List.mem_cons.1 hc with rfl | hc
      · exact .inr rfl
      · exact .inl (hafter c hc)
  point_or_exponent := .inl (List.mem_append_right _ List.mem_cons_self)

/-- Positional texts are numerals of the same value. -/
theorem exists_numeral_positional {digits : List Char}
    (hdigits : ∀ c ∈ digits, c.isDigit = true) (point : Int) : ∃ n : Numeral,
    n.Plain ∧ n.exponent = none ∧ n.mantissa = positional digits point ∧
      n.value = Nat.ofDigitChars 10 digits 0 * 10 ^
      (point - digits.length) := by
  have hzeros : ∀ count, ∀ c ∈ List.replicate count '0', c.isDigit = true := by
    intro count c hc
    rw [(List.mem_replicate.1 hc).2]
    decide
  unfold positional
  split
  -- the point stands in front of the digits
  · rename_i hleft
    have hafter : ∀ c ∈ List.replicate (-point).toNat '0' ++ digits,
        c.isDigit = true := by
      intro c hc
      exact (List.mem_append.1 hc).elim (hzeros _ c) (hdigits c)
    have hbefore : ∀ c ∈ ['0'], c.isDigit = true :=
      List.forall_mem_singleton.2 rfl
    obtain ⟨hvalue, hplaces⟩ := numeral_of_split hbefore hafter none
    refine ⟨_, plain_of_split hbefore hafter none, rfl, by simp, ?_⟩
    rw [Numeral.value, hvalue, hplaces, Nat.ofDigitChars_append,
      Nat.ofDigitChars_append, Nat.ofDigitChars_replicate_zero,
      List.length_append, List.length_replicate]
    have hfirst : Nat.ofDigitChars 10 ['0'] 0 = 0 := by decide
    rw [hfirst, Nat.mul_zero]
    congr 2
    simp only [Option.getD_none]
    omega
  · split
    -- the point stands behind the digits
    · rename_i hright
      have hbefore :
          ∀ c ∈ digits ++ List.replicate (point - digits.length).toNat '0',
          c.isDigit = true := by
        intro c hc
        exact (List.mem_append.1 hc).elim (hdigits c) (hzeros _ c)
      have hafter : ∀ c ∈ ['0'], c.isDigit = true :=
        List.forall_mem_singleton.2 rfl
      obtain ⟨hvalue, hplaces⟩ := numeral_of_split hbefore hafter none
      refine ⟨_, plain_of_split hbefore hafter none, rfl, rfl, ?_⟩
      obtain ⟨zeros, hcount⟩ :=
        Int.eq_ofNat_of_zero_le (Int.sub_nonneg_of_le hright)
      have hlast : ∀ k, Nat.ofDigitChars 10 ['0'] k = 10 * k := fun k => by
        simp [Nat.ofDigitChars_cons]
      rw [Numeral.value, hvalue, hplaces, Nat.ofDigitChars_append,
        Nat.ofDigitChars_append, Nat.ofDigitChars_replicate_zero, hlast, hcount,
        Int.toNat_natCast, zpow_natCast]
      push_cast
      simp only [Option.getD_none, List.length_singleton, Nat.cast_one,
        zero_sub, zpow_neg, zpow_one]
      field_simp
    -- the point stands among the digits
    · rename_i hleft hright
      have hbefore : ∀ c ∈ digits.take point.toNat, c.isDigit = true :=
        fun c hc => hdigits c (List.mem_of_mem_take hc)
      have hafter : ∀ c ∈ digits.drop point.toNat, c.isDigit = true :=
        fun c hc => hdigits c (List.mem_of_mem_drop hc)
      obtain ⟨hvalue, hplaces⟩ := numeral_of_split hbefore hafter none
      refine ⟨_, plain_of_split hbefore hafter none, rfl, by simp, ?_⟩
      rw [Numeral.value, hvalue, hplaces, List.take_append_drop,
        List.length_drop]
      congr 2
      simp only [Option.getD_none]
      omega

/-- Texts with an exponent are numerals of the same value. -/
theorem exists_numeral_exponential {digits : List Char}
    (hdigits : ∀ c ∈ digits, c.isDigit = true) (hne : digits ≠ []) (plus : Bool)
    (point : Int) :
    ∃ n : Numeral, n.Plain ∧ n.text plus = exponential plus digits point ∧
      n.value = Nat.ofDigitChars 10 digits 0 * 10 ^
      (point - digits.length) := by
  have hsign : (1 < point) = (0 < point - 1) := propext (by omega)
  unfold exponential
  simp only [hsign]
  split
  · rename_i hone
    obtain ⟨d, rfl⟩ : ∃ d, digits = [d] := by
      rw [← List.length_eq_one_iff]
      have hpos := List.length_pos_of_ne_nil hne
      omega
    have hplaces : (Numeral.mk [d] (some (point - 1))).places = 0 := by
      have hpoint : (d != '.') = true :=
        bne_of_isDigit (hdigits d List.mem_cons_self) rfl
      rw [Numeral.places, List.dropWhile_cons, if_pos hpoint]
      rfl
    refine ⟨⟨[d], some (point - 1)⟩,
      ⟨by simp, fun c hc => .inl (hdigits c hc), .inr (by simp)⟩, ?_, ?_⟩
    · simp [Numeral.text, Numeral.exponentText]
    · rw [Numeral.value, Numeral.digits, filter_point_of_digits hdigits,
        hplaces]
      simp
  · rename_i hmany
    have hbefore : ∀ c ∈ digits.take 1, c.isDigit = true :=
      fun c hc => hdigits c (List.mem_of_mem_take hc)
    have hafter : ∀ c ∈ digits.drop 1, c.isDigit = true :=
      fun c hc => hdigits c (List.mem_of_mem_drop hc)
    obtain ⟨hvalue, hplaces⟩ :=
      numeral_of_split hbefore hafter (some (point - 1))
    refine ⟨_, plain_of_split hbefore hafter (some (point - 1)), ?_, ?_⟩
    · simp [Numeral.text, Numeral.exponentText]
    · rw [Numeral.value, hvalue, hplaces, List.take_append_drop,
        List.length_drop]
      congr 2
      simp only [Option.getD_some]
      omega

/-- The text of a number is a numeral of its value. -/
theorem exists_numeral_magnitude (layout : Layout) (s : Scientific) :
    ∃ n : Numeral, n.Plain ∧ n.text layout.plus = layout.magnitudeText s ∧
    n.value = s.value := by
  have hdigits : ∀ c ∈ Nat.toDigits 10 s.digits, c.isDigit = true :=
    fun c hc => isDigit_of_mem_toDigits hc
  have hvalue : ∀ v : ℚ, v = Nat.ofDigitChars 10 (Nat.toDigits 10 s.digits) 0 *
      10 ^ (((Nat.toDigits 10 s.digits).length : Int) + s.exponent -
        (Nat.toDigits 10 s.digits).length) → v = s.value := by
    intro v hv
    rw [hv, Nat.ofDigitChars_ten_toDigits, add_sub_cancel_left]
    rfl
  unfold Layout.magnitudeText
  dsimp only
  split
  · obtain ⟨n, hplain, hexponent, hmantissa, hn⟩ :=
      exists_numeral_positional hdigits
      (((Nat.toDigits 10 s.digits).length : Int) + s.exponent)
    refine ⟨n, hplain, ?_, hvalue _ hn⟩
    rw [Numeral.text, hexponent, hmantissa]
    exact List.append_nil _
  · obtain ⟨n, hplain, htext, hn⟩ :=
      exists_numeral_exponential hdigits Nat.toDigits_ne_nil
      layout.plus (((Nat.toDigits 10 s.digits).length : Int) + s.exponent)
    exact ⟨n, hplain, htext, hvalue _ hn⟩

/-! ## Doubles -/

/-- The text of a double is a sign and a numeral that rounds to it, in either
way of writing. -/
theorem exists_numeral (layout : Layout) (x : Double) : ∃ n : Numeral, n.Plain ∧
    (layout.text x).toList = (if x.negative = true then ['-'] else []) ++
    n.text layout.plus ∧
    (Interval.ofDouble x).Holds (quarters n.value) := by
  have hsign : ∀ l : List Char, (if x.negative = true then '-' :: l else l) =
      (if x.negative = true then ['-'] else []) ++ l := by
    intro l
    split <;> rfl
  unfold Layout.text
  dsimp only
  rw [String.toList_ofList, hsign]
  by_cases hzero : x.isZero = true
  · -- zero lies in its own interval, which starts at zero
    rw [if_pos hzero]
    have hpayload : x.payload = 0 := by simpa [Double.isZero] using hzero
    have hdigit : ∀ c ∈ ['0'], c.isDigit = true :=
      List.forall_mem_singleton.2 rfl
    refine ⟨⟨['0', '.', '0'], none⟩, plain_of_split hdigit hdigit none,
      by simp [Numeral.text, Numeral.exponentText], ?_⟩
    have hvalue : Numeral.value ⟨['0', '.', '0'], none⟩ = 0 := by
      have hdigits : Numeral.digits ⟨['0', '.', '0'], none⟩ = 0 := by decide
      rw [Numeral.value, hdigits, Nat.cast_zero, zero_mul]
    rw [hvalue, quarters, zero_mul, mul_zero]
    exact Interval.holds_zero hpayload
  · rw [if_neg hzero]
    have hpayload : x.payload ≠ 0 := by simpa [Double.isZero] using hzero
    obtain ⟨n, hplain, htext, hvalue⟩ :=
      exists_numeral_magnitude layout (shortest layout.tie x)
    refine ⟨n, hplain, by rw [htext], ?_⟩
    rw [hvalue]
    exact shortest_holds layout.tie (Double.magnitude_pos hpayload)

/-- The text of a double has digits and the characters of numerals,
no others. -/
theorem mem_text {layout : Layout} {x : Double} {c : Char}
    (h : c ∈ (layout.text x).toList) :
    c.isDigit = true ∨ c ∈ ['.', 'e', '-', '+'] := by
  obtain ⟨n, hn, htext, -⟩ := exists_numeral layout x
  rw [htext, Numeral.text, List.mem_append, List.mem_append] at h
  rcases h with h | h | h
  · split at h
    · rw [List.mem_singleton.1 h]
      exact .inr (by decide)
    · exact absurd h List.not_mem_nil
  · rcases hn.mem_mantissa c h with hdigit | rfl
    · exact .inl hdigit
    · exact .inr (by decide)
  · cases hk : n.exponent with
    | none =>
      rw [hk] at h
      exact absurd h List.not_mem_nil
    | some k =>
      rw [hk, Numeral.exponentText, List.cons_append, List.mem_cons,
        List.mem_append] at h
      rcases h with rfl | h | h
      · exact .inr (by decide)
      · split at h
        · rw [List.mem_singleton.1 h]
          exact .inr (by decide)
        · exact absurd h List.not_mem_nil
      · rcases mem_toString_int h with hdigit | rfl
        · exact .inl hdigit
        · exact .inr (by decide)

/-- The text of a double has a point or an exponent. -/
theorem point_or_e_mem_text (layout : Layout) (x : Double) :
    '.' ∈ (layout.text x).toList ∨ 'e' ∈ (layout.text x).toList := by
  obtain ⟨n, hn, htext, -⟩ := exists_numeral layout x
  rw [htext, Numeral.text, List.mem_append, List.mem_append, List.mem_append,
    List.mem_append]
  rcases hn.point_or_exponent with hpoint | hexponent
  · exact .inl (.inr (.inl hpoint))
  · obtain ⟨k, hk⟩ := Option.ne_none_iff_exists'.1 hexponent
    rw [hk]
    exact .inr (.inr (.inr List.mem_cons_self))

/-- Different doubles have different texts, in every layout: the numeral is read
off the text, and it rounds to one double only. -/
theorem text_injective (layout : Layout) {x y : Double}
    (h : layout.text x = layout.text y) :
    x = y := by
  obtain ⟨m, hm, htext, hx⟩ := exists_numeral layout x
  obtain ⟨n, hn, htext', hy⟩ := exists_numeral layout y
  rw [h, htext'] at htext
  have hsigns : y.negative = x.negative ∧
      n.text layout.plus = m.text layout.plus := by
    cases hxn : x.negative <;> cases hyn : y.negative <;> rw [hxn, hyn] at htext
    · exact ⟨rfl, htext⟩
    · refine absurd ?_ (hm.head?_text_ne layout.plus)
      have hswap : m.text layout.plus = '-' :: n.text layout.plus := htext.symm
      rw [hswap]
      rfl
    · refine absurd ?_ (hn.head?_text_ne layout.plus)
      have hswap : n.text layout.plus = '-' :: m.text layout.plus := htext
      rw [hswap]
      rfl
    · exact ⟨rfl, (List.cons.inj htext).2⟩
  obtain rfl := Numeral.text_inj hn hm hsigns.2
  exact Double.eq_of_payload_eq hsigns.1.symm
    (Interval.payload_eq_of_holds hx hy)

end DrawnPattern.Decimal
