import DrawnPattern.Proofs.Query.Cut
import DrawnPattern.Query.Literal
set_option autoImplicit false

/-!
# Reading names and texts back

A scanner takes one token from the front of a text and returns what it stands
for with what follows.  The rules for tokens are stated on their own
(`NameToken`, `TextToken`), and the scanners follow them in both directions
(`scanName_eq_some_iff`, `scanText_eq_some_iff`).  Every name is scanned as
itself if neither a backtick nor another character of a name follows
(`scanName_nameChars`), and every text whatever follows (`scanText_textChars`).
-/

namespace DrawnPattern.Query

/-- Adds a character to what was scanned. -/
def push (c : Char) : Option (List Char × List Char) →
    Option (List Char × List Char) :=
  Option.map fun scanned => (c :: scanned.1, scanned.2)

theorem push_eq_some_iff {c : Char} {scanned : Option (List Char × List Char)}
    {text rest : List Char} :
    push c scanned = some (text, rest) ↔
    ∃ tail, scanned = some (tail, rest) ∧ text = c :: tail := by
  cases scanned with
  | none => simp [push]
  | some found =>
    obtain ⟨tail, left⟩ := found
    simp only [push, Option.map_some, Option.some.injEq, Prod.mk.injEq]
    constructor
    · rintro ⟨rfl, rfl⟩
      exact ⟨tail, ⟨rfl, rfl⟩, rfl⟩
    · rintro ⟨_, ⟨rfl, rfl⟩, rfl⟩
      exact ⟨rfl, rfl⟩

/-! ## Names -/

/-- Scans up to a single backtick; two stand for one. -/
def scanQuoted : List Char → Option (List Char × List Char)
  | [] => none
  | '\x60' :: '\x60' :: rest => push '\x60' (scanQuoted rest)
  | '\x60' :: rest => some ([], rest)
  | c :: rest => push c (scanQuoted rest)

/-- Scans one name, plain or between backticks. -/
def scanName : List Char → Option (List Char × List Char)
  | [] => none
  | c :: rest =>
    if c = backtick then scanQuoted rest
    else if startsName c then
      some ((c :: rest).takeWhile continuesName,
        (c :: rest).dropWhile continuesName)
    else none

/-- Whether a token stands for a name, if `rest` follows it: a plain name goes
on as long as its characters do, and a backtick closes a name unless another
backtick follows. -/
inductive NameToken : List Char → List Char → List Char → Prop
  | plain {name rest : List Char} : isPlain name = true →
      (∀ c ∈ rest.head?, continuesName c = false) → NameToken name name rest
  | quoted {name rest : List Char} : (∀ c ∈ rest.head?, c ≠ backtick) →
      NameToken (backtick :: doubleBackticks name ++ [backtick]) name rest

theorem scanQuoted_cons {c : Char} {rest : List Char} (h : c ≠ backtick) :
    scanQuoted (c :: rest) = push c (scanQuoted rest) := by
  rw [scanQuoted.eq_def]
  split
  · contradiction
  · rename_i heq
    exact absurd (List.cons.inj heq).1 h
  · rename_i heq
    exact absurd (List.cons.inj heq).1 h
  · rename_i heq
    obtain ⟨rfl, rfl⟩ := List.cons.inj heq
    rfl

theorem scanQuoted_close {rest : List Char}
    (h : ∀ c ∈ rest.head?, c ≠ backtick) :
    scanQuoted (backtick :: rest) = some ([], rest) := by
  rw [scanQuoted.eq_def]
  split
  · contradiction
  · rename_i heq
    obtain ⟨-, rfl⟩ := List.cons.inj heq
    exact absurd rfl (h '\x60' rfl)
  · rename_i heq
    obtain ⟨-, rfl⟩ := List.cons.inj heq
    rfl
  · rename_i hother heq
    exact absurd (List.cons.inj heq).1.symm hother

theorem doubleBackticks_cons (c : Char) (name : List Char) :
    doubleBackticks (c :: name) =
    (if c = backtick then [c, c] else [c]) ++ doubleBackticks name :=
  rfl

theorem scanQuoted_doubleBackticks {rest : List Char}
    (h : ∀ c ∈ rest.head?, c ≠ backtick)
    (name : List Char) : scanQuoted (doubleBackticks name ++ backtick :: rest) =
      some (name, rest) := by
  induction name with
  | nil => exact scanQuoted_close h
  | cons c name ih =>
    rw [doubleBackticks_cons, List.append_assoc]
    by_cases hc : c = backtick
    · subst hc
      show push backtick
        (scanQuoted (doubleBackticks name ++ backtick :: rest)) = _
      rw [ih]
      rfl
    · rw [if_neg hc, List.singleton_append, scanQuoted_cons hc, ih]
      rfl

/-- What is scanned up to a single backtick had its backticks doubled. -/
theorem eq_of_scanQuoted {input name rest : List Char}
    (h : scanQuoted input = some (name, rest)) :
    input = doubleBackticks name ++ backtick :: rest ∧
    ∀ c ∈ rest.head?, c ≠ backtick := by
  fun_induction scanQuoted input generalizing name with
  | case1 => cases h
  | case2 more ih =>
    obtain ⟨tail, htail, rfl⟩ := push_eq_some_iff.1 h
    obtain ⟨rfl, hends⟩ := ih htail
    exact ⟨rfl, hends⟩
  | case3 more hsingle =>
    cases h
    refine ⟨rfl, ?_⟩
    rintro c hc rfl
    obtain ⟨more, rfl⟩ := List.head?_eq_some_iff.1 hc
    exact hsingle more rfl
  | case4 c more _ hother ih =>
    obtain ⟨tail, htail, rfl⟩ := push_eq_some_iff.1 h
    obtain ⟨rfl, hends⟩ := ih htail
    rw [doubleBackticks_cons, if_neg (show ¬c = backtick from hother)]
    exact ⟨rfl, hends⟩

theorem startsName_backtick : startsName backtick = false := by decide

theorem continuesName_of_startsName {c : Char} (h : startsName c = true) :
    continuesName c = true := by
  rcases Bool.or_eq_true_iff.1 h with halpha | hunderscore
  · simp [continuesName, Char.isAlphanum, halpha]
  · rw [continuesName, hunderscore, Bool.or_true]

theorem startsName_of_isPlain {c : Char} {rest : List Char}
    (h : isPlain (c :: rest) = true) :
    startsName c = true ∧ ∀ d ∈ c :: rest, continuesName d = true := by
  obtain ⟨hc, hrest⟩ := Bool.and_eq_true_iff.1 h
  refine ⟨hc, fun d hd => ?_⟩
  rcases List.mem_cons.1 hd with rfl | hd
  · exact continuesName_of_startsName hc
  · exact List.all_eq_true.1 hrest d hd

/-- The longest plain name at the front of a text. -/
theorem nameToken_takeWhile {c : Char} {more : List Char}
    (h : startsName c = true) :
    NameToken ((c :: more).takeWhile continuesName)
    ((c :: more).takeWhile continuesName)
      ((c :: more).dropWhile continuesName) := by
  have hword : isPlain ((c :: more).takeWhile continuesName) = true := by
    rw [List.takeWhile_cons_of_pos (continuesName_of_startsName h), isPlain, h,
      List.all_takeWhile]
    rfl
  refine .plain hword fun d hd => ?_
  have hends := List.head?_dropWhile_not continuesName (c :: more)
  rw [Option.mem_def.1 hd] at hends
  exact hends

/-- Names are scanned by the rules. -/
theorem scanName_eq_some_iff {input name rest : List Char} :
    scanName input = some (name, rest) ↔
      ∃ token, input = token ++ rest ∧ NameToken token name rest := by
  constructor
  · intro h
    unfold scanName at h
    split at h
    · cases h
    · rename_i c more
      split at h
      · rename_i hquoted
        subst hquoted
        obtain ⟨rfl, hends⟩ := eq_of_scanQuoted h
        exact ⟨backtick :: doubleBackticks name ++ [backtick],
          by simp, .quoted hends⟩
      · split at h
        · rename_i hstarts
          cases h
          exact ⟨_, List.takeWhile_append_dropWhile.symm,
            nameToken_takeWhile hstarts⟩
        · cases h
  · rintro ⟨_, rfl, htoken⟩
    cases htoken with
    | plain hplain hends =>
      cases name with
      | nil => cases hplain
      | cons c name =>
        obtain ⟨hstart, hall⟩ := startsName_of_isPlain hplain
        obtain ⟨htake, hdrop⟩ := takeWhile_append_eq hall hends
        have hc : c ≠ backtick := by
          rintro rfl
          rw [startsName_backtick] at hstart
          exact Bool.false_ne_true hstart
        rw [List.cons_append] at htake hdrop ⊢
        rw [scanName, if_neg hc, if_pos hstart, htake, hdrop]
    | quoted hends =>
      rw [List.cons_append, List.cons_append, List.append_assoc,
        List.singleton_append, scanName, if_pos rfl]
      exact scanQuoted_doubleBackticks hends name

/-- A token at the front of a text is the only one there, as the scan finds
each of them. -/
theorem nameToken_unique {token token' name name' rest rest' : List Char}
    (h : NameToken token name rest) (h' : NameToken token' name' rest')
    (heq : token ++ rest = token' ++ rest') : token = token' ∧ name = name' ∧
    rest = rest' := by
  have hscan := scanName_eq_some_iff.2 ⟨token, rfl, h⟩
  rw [heq, scanName_eq_some_iff.2 ⟨token', rfl, h'⟩, Option.some.injEq,
    Prod.mk.injEq] at hscan
  obtain ⟨rfl, rfl⟩ := hscan
  exact ⟨List.append_cancel_right heq, rfl, rfl⟩

/-- Whether a text that follows a name does not look like more of it: no
backtick and no character of names comes first. -/
def EndsName (rest : List Char) : Prop := ∀ c ∈ rest.head?, c ≠ backtick ∧
    continuesName c = false

/-- A name is written as a token, if what follows does not look like
more of it. -/
theorem nameToken_nameChars (name : List Char) {rest : List Char}
    (h : EndsName rest) :
    NameToken (nameChars name) name rest := by
  unfold nameChars
  split
  · rename_i hplain
    exact .plain hplain fun c hc => (h c hc).2
  · exact .quoted fun c hc => (h c hc).1

/-- A name is scanned as itself, if what follows does not look like
more of it. -/
theorem scanName_nameChars (name : List Char) {rest : List Char}
    (h : EndsName rest) :
    scanName (nameChars name ++ rest) = some (name, rest) :=
  scanName_eq_some_iff.2 ⟨_, rfl, nameToken_nameChars name h⟩

/-- Names that are written alike are one name, be they plain or not. -/
theorem identifier_injective : Function.Injective identifier := by
  intro a b h
  have hchars : nameChars a.toList ++ [] = nameChars b.toList ++ [] := by
    simpa only [identifier, String.toList_ofList, List.append_nil]
      using congrArg String.toList h
  have hends : EndsName [] := by simp [EndsName]
  obtain ⟨-, hname, -⟩ :=
    nameToken_unique (nameToken_nameChars _ hends)
      (nameToken_nameChars _ hends) hchars
  exact String.toList_inj.1 hname

/-! ## Texts -/

/-- The value of a hexadecimal digit in either case. -/
def hexValue? (c : Char) : Option Nat :=
  if '0' ≤ c ∧ c ≤ '9' then some (c.toNat - '0'.toNat)
  else if 'A' ≤ c ∧ c ≤ 'F' then some (c.toNat - 'A'.toNat + 10)
  else if 'a' ≤ c ∧ c ≤ 'f' then some (c.toNat - 'a'.toNat + 10)
  else none

/-- The character with a code point of four hexadecimal digits. -/
def codePoint? (a b c d : Char) : Option Char := do
  let high := 16 * (← hexValue? a) + (← hexValue? b)
  let low := 16 * (← hexValue? c) + (← hexValue? d)
  pure (Char.ofNat (256 * high + low))

/-- Scans up to the closing quote; nothing if there is none, or if something in
between is not spelled as it may be. -/
def scanBody : List Char → Option (List Char × List Char)
  | [] => none
  | '\x27' :: rest => some ([], rest)
  | '\x5c' :: '\x5c' :: rest => push '\x5c' (scanBody rest)
  | '\x5c' :: '\x27' :: rest => push '\x27' (scanBody rest)
  | '\x5c' :: 'n' :: rest => push '\n' (scanBody rest)
  | '\x5c' :: 'r' :: rest => push '\r' (scanBody rest)
  | '\x5c' :: 't' :: rest => push '\t' (scanBody rest)
  | '\x5c' :: 'u' :: a :: b :: c :: d :: rest =>
    match codePoint? a b c d with
    | some point => push point (scanBody rest)
    | none => none
  | '\x5c' :: _ => none
  | c :: rest => push c (scanBody rest)

/-- Scans one text between quotes. -/
def scanText : List Char → Option (List Char × List Char)
  | '\x27' :: rest => scanBody rest
  | _ => none

/-- What is written after a backslash, and what it stands for. -/
def escapes : List (Char × Char) :=
  [('\x5c', '\x5c'), ('\x27', '\x27'), ('n', '\n'), ('r', '\r'), ('t', '\t')]

/-- How one character is spelled between quotes: by itself, by an escape, or by
the four hexadecimal digits of its code point. -/
inductive SpellsChar : List Char → Char → Prop
  | plain {c : Char} : c ≠ '\x27' → c ≠ '\x5c' → SpellsChar [c] c
  | escape {written c : Char} : (written, c) ∈ escapes →
    SpellsChar ['\x5c', written] c
  | codePoint {w x y z c : Char} : codePoint? w x y z = some c →
      SpellsChar ['\x5c', 'u', w, x, y, z] c

/-- How the characters of a text are spelled one after the other. -/
inductive Spells : List Char → List Char → Prop
  | nil : Spells [] []
  | cons {first rest : List Char} {c : Char} {text : List Char} :
      SpellsChar first c → Spells rest text → Spells (first ++ rest) (c :: text)

/-- Whether a token stands for a text: a quote, the spelling of its characters,
and a quote. -/
def TextToken (token text : List Char) : Prop :=
  ∃ written, token = '\x27' :: written ++ ['\x27'] ∧ Spells written text

theorem hexValue?_upperHexDigit :
    ∀ n < 16, hexValue? (upperHexDigit n) = some n := by decide

/-- Four digits are enough for every control character. -/
theorem codePoint?_fourHexDigits {c : Char} (h : c.toNat < 256) :
    ∃ w x y z, fourHexDigits c.toNat = [w, x, y, z] ∧
    codePoint? w x y z = some c := by
  refine ⟨_, _, _, _, rfl, ?_⟩
  have hvalue : ∀ n, hexValue? (upperHexDigit (n % 16)) = some (n % 16) :=
    fun n => hexValue?_upperHexDigit _ (Nat.mod_lt _ (by decide))
  have hpoint : 256 * (16 * (c.toNat / 4096 % 16) + c.toNat / 256 % 16) +
      (16 * (c.toNat / 16 % 16) + c.toNat % 16) = c.toNat := by omega
  simp only [codePoint?, hvalue, Option.bind_eq_bind, Option.bind_some,
    Option.pure_def, hpoint, Char.ofNat_toNat]

theorem scanBody_cons {c : Char} {rest : List Char} (hquote : c ≠ '\x27')
    (hescape : c ≠ '\x5c') :
    scanBody (c :: rest) = push c (scanBody rest) := by
  rw [scanBody.eq_def]
  split <;> simp_all

/-- A character is scanned as it is spelled. -/
theorem scanBody_of_spellsChar {first : List Char} {c : Char}
    (h : SpellsChar first c) (rest : List Char) :
    scanBody (first ++ rest) = push c (scanBody rest) := by
  cases h with
  | plain hquote hescape => exact scanBody_cons hquote hescape
  | escape h =>
    simp only [escapes, List.mem_cons, Prod.mk.injEq, List.not_mem_nil,
      or_false] at h
    rcases h with
      ⟨rfl, rfl⟩ | ⟨rfl, rfl⟩ | ⟨rfl, rfl⟩ | ⟨rfl, rfl⟩ | ⟨rfl, rfl⟩ <;> rfl
  | codePoint h =>
    show scanBody ('\x5c' :: 'u' :: _ :: _ :: _ :: _ :: rest) = _
    rw [scanBody, h]

theorem scanBody_of_spells {written text : List Char} (h : Spells written text)
    (rest : List Char) :
    scanBody (written ++ '\x27' :: rest) = some (text, rest) := by
  induction h with
  | nil => rfl
  | cons hfirst _ ih =>
    rw [List.append_assoc, scanBody_of_spellsChar hfirst, ih]
    rfl

theorem exists_spells_of_push {first more text rest : List Char} {c : Char}
    (hfirst : SpellsChar first c)
    (hmore : ∀ {text}, scanBody more = some (text, rest) →
      ∃ written, more = written ++ '\x27' :: rest ∧ Spells written text)
    (h : push c (scanBody more) = some (text, rest)) :
    ∃ written, first ++ more = written ++ '\x27' :: rest ∧
        Spells written text := by
  obtain ⟨tail, htail, rfl⟩ := push_eq_some_iff.1 h
  obtain ⟨written, rfl, hwritten⟩ := hmore htail
  exact ⟨first ++ written, (List.append_assoc ..).symm, .cons hfirst hwritten⟩

/-- What is scanned up to a quote was spelled there. -/
theorem exists_spells_of_scanBody {input text rest : List Char}
    (h : scanBody input = some (text, rest)) :
    ∃ written, input = written ++ '\x27' :: rest ∧ Spells written text := by
  fun_induction scanBody input generalizing text with
  | case1 => cases h
  | case2 =>
    cases h
    exact ⟨[], rfl, .nil⟩
  | case3 more ih | case4 more ih | case5 more ih | case6 more ih
  | case7 more ih =>
    exact exists_spells_of_push (.escape (by decide)) ih h
  | case8 w x y z more c hpoint ih =>
    exact exists_spells_of_push (.codePoint hpoint) ih h
  | case9 => cases h
  | case10 => cases h
  | case11 c more hquote _ _ _ _ _ _ hescape ih =>
    exact exists_spells_of_push (.plain hquote hescape) ih h

/-- Texts are scanned by the rules. -/
theorem scanText_eq_some_iff {input text rest : List Char} :
    scanText input = some (text, rest) ↔
    ∃ token, input = token ++ rest ∧ TextToken token text := by
  constructor
  · intro h
    unfold scanText at h
    split at h
    · obtain ⟨written, rfl, hwritten⟩ := exists_spells_of_scanBody h
      exact ⟨'\x27' :: written ++ ['\x27'], by simp, written, rfl, hwritten⟩
    · cases h
  · rintro ⟨_, rfl, written, rfl, hwritten⟩
    rw [List.cons_append, List.cons_append, List.append_assoc,
      List.singleton_append, scanText]
    exact scanBody_of_spells hwritten rest

/-- A token at the front of a text is the only one there, as the scan finds
each of them. -/
theorem textToken_unique {token token' text text' rest rest' : List Char}
    (h : TextToken token text) (h' : TextToken token' text')
    (heq : token ++ rest = token' ++ rest') :
    token = token' ∧ text = text' ∧ rest = rest' := by
  have hscan : scanText (token ++ rest) = some (text, rest) :=
    scanText_eq_some_iff.2 ⟨token, rfl, h⟩
  rw [heq, scanText_eq_some_iff.2 ⟨token', rfl, h'⟩, Option.some.injEq,
    Prod.mk.injEq] at hscan
  obtain ⟨rfl, rfl⟩ := hscan
  exact ⟨List.append_cancel_right heq, rfl, rfl⟩

/-- A character is written by an escape, or by its code point if it is another
control character, or else by itself. -/
theorem escapedChar_cases (c : Char) :
    (∃ written, (written, c) ∈ escapes ∧ escapedChar c = ['\x5c', written]) ∨
      (isControl c = true ∧
        escapedChar c = '\x5c' :: 'u' :: fourHexDigits c.toNat) ∨
      (isControl c = false ∧ c ≠ '\x27' ∧ c ≠ '\x5c' ∧
          escapedChar c = [c]) := by
  have hescape : ∀ {written d : Char}, (written, d) ∈ escapes → c = d →
      ∃ written', (written', c) ∈ escapes ∧
      ['\x5c', written] = ['\x5c', written'] := by
    rintro written d h rfl
    exact ⟨written, h, rfl⟩
  unfold escapedChar
  split_ifs with hbackslash hquote hline hreturn htab hcontrol
  · exact .inl (hescape (by decide) hbackslash)
  · exact .inl (hescape (by decide) hquote)
  · exact .inl (hescape (by decide) hline)
  · exact .inl (hescape (by decide) hreturn)
  · exact .inl (hescape (by decide) htab)
  · exact .inr (.inl ⟨hcontrol, rfl⟩)
  · exact .inr (.inr ⟨Bool.eq_false_iff.2 hcontrol, hquote, hbackslash, rfl⟩)

theorem spellsChar_escapedChar (c : Char) : SpellsChar (escapedChar c) c := by
  rcases escapedChar_cases c with
    ⟨written, hmem, heq⟩ | ⟨hcontrol, heq⟩ | ⟨-, hquote, hescape, heq⟩
  · rw [heq]
    exact .escape hmem
  · have hsmall : c.toNat < 256 := by
      have hranges := of_decide_eq_true hcontrol
      omega
    obtain ⟨w, x, y, z, hdigits, hpoint⟩ := codePoint?_fourHexDigits hsmall
    rw [heq, hdigits]
    exact .codePoint hpoint
  · rw [heq]
    exact .plain hquote hescape

/-- A text is written as a token. -/
theorem textToken_textChars (text : List Char) :
    TextToken (textChars text) text := by
  refine ⟨text.flatMap escapedChar, rfl, ?_⟩
  induction text with
  | nil => exact .nil
  | cons c text ih => exact .cons (spellsChar_escapedChar c) ih

/-- A text is scanned as itself, whatever follows. -/
theorem scanText_textChars (text rest : List Char) :
    scanText (textChars text ++ rest) = some (text, rest) :=
  scanText_eq_some_iff.2 ⟨_, rfl, textToken_textChars text⟩

end DrawnPattern.Query
