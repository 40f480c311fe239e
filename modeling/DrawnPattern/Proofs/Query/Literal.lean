import DrawnPattern.Proofs.Alike
import DrawnPattern.Proofs.Decimal.Layout
import DrawnPattern.Proofs.Query.Cut
import DrawnPattern.Proofs.Query.Lexeme
set_option autoImplicit false

/-!
# Values and their literals

The literal of a value shows what sort of value it is: a text by its quote, a
truth value by its first letter, a double by a point or an exponent, and a
double without a numeral by a quotient.  So literals tell values apart
(`literal_inj`), and since no literal but a text has a comma or a brace, also
where they end (`cut_literal`).
-/

namespace DrawnPattern.Query

/-! ## Characters of literals -/

/-- The characters of numbers and quotients. -/
def isNumeric (c : Char) : Bool :=
  c.isDigit || ['.', 'e', '-', '+', '/'].contains c

/-- Every character but those that end an entry of a property map or
open a text. -/
def isUnquoted (c : Char) : Bool := not (['\x2c', '\x7d', '\x27'].contains c)

theorem isUnquoted_of_isNumeric {c : Char} (h : isNumeric c = true) :
    isUnquoted c = true := by
  unfold isUnquoted
  rw [Bool.not_eq_true', List.contains_eq_mem, decide_eq_false_iff_not]
  intro hc
  simp only [List.mem_cons, List.not_mem_nil, or_false] at hc
  rcases hc with rfl | rfl | rfl <;> exact absurd h (by decide)

theorem literal_int (i : Int) : literal (.int i) = toString i := rfl

theorem isNumeric_literal_int {i : Int} {c : Char}
    (h : c ∈ (literal (.int i)).toList) :
    isNumeric c = true := by
  rw [literal_int] at h
  rcases Decimal.mem_toString_int h with hdigit | rfl
  · rw [isNumeric, hdigit, Bool.true_or]
  · decide

/-- The literal of a double, by the sort of double. -/
theorem literal_float_cases (x : Double) :
    (x.isNaN = true ∧ literal (.float x) = "0.0/0.0") ∨
      (x.isNaN = false ∧ x.isInfinite = true ∧
        literal (.float x) = if x.negative then "-1.0/0.0" else "1.0/0.0") ∨
      (x.isNaN = false ∧ x.isInfinite = false ∧
        literal (.float x) = Decimal.Layout.display.text x) := by
  cases hnan : x.isNaN <;> cases hinfinite : x.isInfinite <;>
    simp [literal, hnan, hinfinite]

theorem isNumeric_literal_float {x : Double} {c : Char}
    (h : c ∈ (literal (.float x)).toList) :
    isNumeric c = true := by
  rcases literal_float_cases x with ⟨-, heq⟩ | ⟨-, -, heq⟩ | ⟨-, -, heq⟩
  · have hnan : "0.0/0.0".toList.all isNumeric = true := by decide
    rw [heq] at h
    exact List.all_eq_true.1 hnan c h
  · have hinfinite : ∀ b : Bool,
        (if b = true then "-1.0/0.0" else "1.0/0.0").toList.all isNumeric =
        true := by decide
    rw [heq] at h
    exact List.all_eq_true.1 (hinfinite _) c h
  · have hmarks : ['.', 'e', '-', '+'].all isNumeric = true := by decide
    rw [heq] at h
    rcases Decimal.mem_text h with hdigit | hmark
    · rw [isNumeric, hdigit, Bool.true_or]
    · exact List.all_eq_true.1 hmarks c hmark

/-- A double is written with a point or an exponent. -/
theorem point_or_e_mem_literal_float (x : Double) :
    '.' ∈ (literal (.float x)).toList ∨ 'e' ∈ (literal (.float x)).toList := by
  rcases literal_float_cases x with ⟨-, heq⟩ | ⟨-, -, heq⟩ | ⟨-, -, heq⟩
  · rw [heq]
    decide
  · rw [heq]
    split <;> decide
  · rw [heq]
    exact Decimal.point_or_e_mem_text _ x

/-- An integer is not. -/
theorem point_and_e_not_mem_literal_int (i : Int) :
    '.' ∉ (literal (.int i)).toList ∧ 'e' ∉ (literal (.int i)).toList := by
  rw [literal_int]
  constructor
  · intro h
    exact absurd (Decimal.mem_toString_int h) (by decide)
  · intro h
    exact absurd (Decimal.mem_toString_int h) (by decide)

/-! ## Literals tell values apart -/

theorem literal_float_inj {x y : Double}
    (h : literal (.float x) = literal (.float y)) :
    x = y ∨ (x.isNaN = true ∧ y.isNaN = true) := by
  have hslash : ∀ z : Double, '/' ∉ (Decimal.Layout.display.text z).toList :=
    fun z hz => absurd (Decimal.mem_text hz) (by decide)
  have hinfinity : ∀ z : Double,
      (if z.negative then "-1.0/0.0" else "1.0/0.0") ≠ "0.0/0.0" ∧
      '/' ∈ (if z.negative then "-1.0/0.0" else "1.0/0.0").toList := by
    intro z
    split <;> decide
  rcases literal_float_cases x with ⟨hx, heq⟩ | ⟨-, hx, heq⟩ | ⟨-, -, heq⟩ <;>
    rcases literal_float_cases y with
    ⟨hy, heq'⟩ | ⟨-, hy, heq'⟩ | ⟨-, -, heq'⟩ <;>
    rw [heq, heq'] at h
  · exact .inr ⟨hx, hy⟩
  · exact absurd h.symm (hinfinity y).1
  · exact absurd (h ▸ (by decide : '/' ∈ "0.0/0.0".toList)) (hslash y)
  · exact absurd h (hinfinity x).1
  · refine .inl (Double.eq_of_payload_eq ?_ ?_)
    · cases hxn : x.negative <;> cases hyn : y.negative <;> rw [hxn, hyn] at h
      · exact absurd h (by decide)
      · exact absurd h (by decide)
    · rw [Double.isInfinite, beq_iff_eq] at hx hy
      rw [hx, hy]
  · exact absurd (h ▸ (hinfinity x).2) (hslash y)
  · exact absurd (h ▸ (by decide : '/' ∈ "0.0/0.0".toList)) (hslash x)
  · exact absurd (h ▸ (hinfinity y).2) (hslash x)
  · exact .inl (Decimal.text_injective _ h)

/-- The literals of truth values are words. -/
theorem exists_not_isNumeric_literal_bool (b : Bool) :
    ∃ c ∈ (literal (.bool b)).toList, isNumeric c = false := by
  cases b with
  | false => exact ⟨'f', by decide, by decide⟩
  | true => exact ⟨'t', by decide, by decide⟩

/-- Values that are neither missing nor texts have different literals, unless
both are NaN. -/
theorem literal_inj {v w : Value} (hv : v.isNull = false)
    (hw : w.isNull = false) (hv' : ∀ s, v ≠ .string s)
    (hw' : ∀ s, w ≠ .string s) (h : literal v = literal w) : v.Alike w := by
  -- words have letters that no number has, and a double has a point or an `e`,
  -- which integers have not
  have hword : ∀ (b : Bool) (l : List Char), (∀ c ∈ l, isNumeric c = true) →
      (literal (.bool b)).toList ≠ l := by
    rintro b l hl rfl
    obtain ⟨c, hc, hword⟩ := exists_not_isNumeric_literal_bool b
    rw [hl c hc] at hword
    exact Bool.false_ne_true hword.symm
  have hpoint : ∀ i x, literal (.int i) ≠ literal (.float x) := by
    intro i x heq
    obtain ⟨hpoint, he⟩ := point_and_e_not_mem_literal_int i
    rw [heq] at hpoint he
    exact (point_or_e_mem_literal_float x).elim hpoint he
  cases v with
  | null => cases hv
  | string s => exact absurd rfl (hv' s)
  | bool a =>
    cases w with
    | null => cases hw
    | string s => exact absurd rfl (hw' s)
    | bool b =>
      cases a <;> cases b
      · rfl
      · exact absurd h (by decide)
      · exact absurd h (by decide)
      · rfl
    | int i =>
      exact absurd (congrArg String.toList h) (hword a _ fun c hc =>
        isNumeric_literal_int hc)
    | float x =>
      exact absurd (congrArg String.toList h) (hword a _ fun c hc =>
        isNumeric_literal_float hc)
  | int i =>
    cases w with
    | null => cases hw
    | string s => exact absurd rfl (hw' s)
    | bool b =>
      exact absurd (congrArg String.toList h.symm) (hword b _ fun c hc =>
        isNumeric_literal_int hc)
    | int j =>
      rw [literal_int, literal_int] at h
      exact congrArg Value.int
        (Decimal.toString_int_inj (congrArg String.toList h))
    | float x => exact absurd h (hpoint i x)
  | float x =>
    cases w with
    | null => cases hw
    | string s => exact absurd rfl (hw' s)
    | bool b =>
      exact absurd (congrArg String.toList h.symm) (hword b _ fun c hc =>
        isNumeric_literal_float hc)
    | int i => exact absurd h.symm (hpoint i x)
    | float y => exact literal_float_inj h

/-! ## Where literals end -/

theorem literal_string (s : String) :
    (literal (.string s)).toList = textChars s.toList :=
  String.toList_ofList

theorem isUnquoted_literal {v : Value} (hv : ∀ s, v ≠ .string s) :
    ∀ c ∈ (literal v).toList, isUnquoted c = true := by
  intro c hc
  cases v with
  | null =>
    have hnull : (literal .null).toList.all isUnquoted = true := by decide
    exact List.all_eq_true.1 hnull c hc
  | bool b =>
    have hbool : ∀ b, (literal (.bool b)).toList.all isUnquoted = true := by
      decide
    exact List.all_eq_true.1 (hbool b) c hc
  | int i => exact isUnquoted_of_isNumeric (isNumeric_literal_int hc)
  | float x => exact isUnquoted_of_isNumeric (isNumeric_literal_float hc)
  | string s => exact absurd rfl (hv s)

/-- Where an entry of a property map ends. -/
def entryEnds : List Char := ['\x2c', '\x7d']

/-- No literal but a text opens with a quote. -/
theorem literal_append_ne {v : Value} {text r s : List Char}
    (hv : ∀ s, v ≠ .string s) (hr : StartsIn entryEnds r) :
    (literal v).toList ++ r ≠ textChars text ++ s := by
  intro h
  have hquote : textChars text ++ s = '\x27' ::
      (text.flatMap escapedChar ++ ['\x27'] ++ s) := rfl
  rw [hquote] at h
  cases hl : (literal v).toList with
  | nil =>
    obtain ⟨c, hc, t, rfl⟩ := hr
    rw [hl, List.nil_append, List.cons.injEq] at h
    rw [h.1] at hc
    exact absurd hc (by decide)
  | cons c rest =>
    rw [hl, List.cons_append, List.cons.injEq] at h
    have hc := isUnquoted_literal hv c (by rw [hl]; exact List.mem_cons_self)
    rw [h.1] at hc
    exact absurd hc (by decide)

/-- A literal ends at the comma or the brace after it, which stand in literals
only between quotes. -/
theorem cut_literal :
    Cut (fun v => (literal v).toList) Value.Alike (fun v => v.isNull = false)
    (StartsIn entryEnds) := by
  intro v w r s hv hw hr hs h
  dsimp only at h
  by_cases hv' : ∃ a, v = .string a
  · obtain ⟨a, rfl⟩ := hv'
    by_cases hw' : ∃ b, w = .string b
    · obtain ⟨b, rfl⟩ := hw'
      have hscan := scanText_textChars a.toList r
      rw [literal_string, literal_string] at h
      rw [h, scanText_textChars, Option.some.injEq, Prod.mk.injEq] at hscan
      exact ⟨congrArg Value.string (String.toList_inj.1 hscan.1.symm),
        hscan.2.symm⟩
    · push Not at hw'
      rw [literal_string] at h
      exact absurd h.symm (literal_append_ne hw' hs)
  · push Not at hv'
    by_cases hw' : ∃ b, w = .string b
    · obtain ⟨b, rfl⟩ := hw'
      rw [literal_string] at h
      exact absurd h (literal_append_ne hv' hr)
    · push Not at hw'
      obtain ⟨heq, hrs⟩ :=
        cut_word isUnquoted entryEnds (by decide) (isUnquoted_literal hv')
        (isUnquoted_literal hw') hr hs h
      exact ⟨literal_inj hv hw hv' hw' (String.toList_inj.1 heq), hrs⟩

end DrawnPattern.Query
