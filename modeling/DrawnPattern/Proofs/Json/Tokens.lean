import DrawnPattern.Json.Token
import DrawnPattern.Json.Writer
import DrawnPattern.Proofs.Decimal.Layout
import DrawnPattern.Proofs.Json.Parts
import Mathlib.Tactic.SplitIfs
set_option autoImplicit false

/-!
# The tokens of what is written

A value is written as a sequence of tokens (`tokenSequence`), on one line with
nothing between them and over several lines with blanks between some.  Either
text is cut into these tokens again (`tokens_compact`, `tokens_pretty`).  A word
ends only where a boundary follows, so what a text is cut into may depend on
what stands after it; `Cuts` says what has to follow.
-/

namespace DrawnPattern.Json

variable {follows after : List Char → Prop} {text other word rest : List Char}
  {found more : List Token} {c : Char} {j : Json}

/-! ## Texts and what they are cut into -/

/-- Whether a text is cut into some tokens, given what may follow it.  Such
facts are put together along the text, as it was written. -/
def Cuts (follows : List Char → Prop) (text : List Char)
    (found : List Token) : Prop :=
  ∀ rest, follows rest →
    tokensFrom (.outside []) (text ++ rest) = (found ++ ·) <$>
    tokensFrom (.outside []) rest

/-- Anything may follow. -/
def Anything (_ : List Char) : Prop := True

/-- What may follow a word: nothing, or a boundary. -/
def Bounded (rest : List Char) : Prop := ∀ c ∈ rest.head?, boundary? c ≠ none

theorem bounded_nil : Bounded [] := nofun

theorem bounded_cons (h : boundary? c ≠ none) : Bounded (c :: rest) := by
  intro c' hc'
  cases hc'
  exact h

theorem Cuts.mono (h : Cuts follows text found)
    (hsub : ∀ rest, after rest → follows rest) :
    Cuts after text found := fun rest hrest => h rest (hsub rest hrest)

theorem Cuts.bounded (h : Cuts Anything text found) : Cuts Bounded text found :=
  h.mono fun _ _ => trivial

theorem cuts_nil : Cuts follows [] [] := by
  intro rest _
  simp

/-- Two texts are cut one after the other, if the second one may follow
the first. -/
theorem Cuts.append (h : Cuts follows text found) (h' : Cuts after other more)
    (hnext : ∀ rest, after rest → follows (other ++ rest)) :
    Cuts after (text ++ other) (found ++ more) := by
  intro rest hrest
  rw [List.append_assoc, h _ (hnext rest hrest), h' rest hrest]
  simp [Function.comp_def]

/-- What stands before a text that is cut without regard to what follows. -/
theorem Cuts.then (h : Cuts Anything text found) (h' : Cuts after other more) :
    Cuts after (text ++ other) (found ++ more) := h.append h' fun _ _ => trivial

/-- What stands before a boundary. -/
theorem Cuts.before (h : Cuts Bounded text found)
    (h' : Cuts after (c :: other) more) (hc : boundary? c ≠ none) :
    Cuts after (text ++ c :: other) (found ++ more) :=
  h.append h' fun _ _ => bounded_cons hc

/-! ## Words, marks and blanks -/

theorem tokensFrom_word (hin : ∀ c ∈ word, boundary? c = none)
    (before rest : List Char) :
    tokensFrom (.outside before) (word ++ rest) =
      tokensFrom (.outside (word.reverse ++ before)) rest := by
  induction word generalizing before with
  | nil => rfl
  | cons c word ih =>
    rw [List.cons_append, tokensFrom, hin c List.mem_cons_self]
    simp only
    rw [ih (fun d hd => hin d (List.mem_cons_of_mem _ hd)), List.reverse_cons,
      List.append_assoc]
    rfl

theorem endWord_nil : endWord [] = some [] := rfl

/-- A word ends at a boundary. -/
theorem tokensFrom_of_bounded (h : Bounded rest) :
    tokensFrom (.outside word) rest =
      endWord word >>= fun found =>
        (found ++ ·) <$> tokensFrom (.outside []) rest := by
  cases rest with
  | nil =>
    simp only [tokensFrom, endWord_nil]
    cases endWord word <;> simp
  | cons c rest =>
    cases hc : boundary? c with
    | none => exact absurd hc (h c rfl)
    | some boundary =>
      simp only [tokensFrom, hc, endWord_nil]
      cases endWord word with
      | none => cases boundary <;> rfl
      | some found =>
        cases boundary with
        | blank => cases tokensFrom (.outside []) rest <;> rfl
        | quote => cases tokensFrom (.inside []) rest <;> rfl
        | mark token => cases tokensFrom (.outside []) rest <;> rfl

/-- A word that means something is cut off at a boundary. -/
theorem cuts_word (hne : word ≠ []) (hin : ∀ c ∈ word, boundary? c = none)
    (hword : word? word = some j) : Cuts Bounded word [.scalar j] := by
  intro rest hrest
  have hend : endWord word.reverse = some [.scalar j] := by
    rw [endWord, List.isEmpty_reverse, List.isEmpty_eq_false_iff.2 hne,
      List.reverse_reverse, hword]
    rfl
  rw [tokensFrom_word hin, List.append_nil, tokensFrom_of_bounded hrest, hend]
  cases tokensFrom (.outside []) rest <;> rfl

theorem cuts_mark {token : Token} (h : boundary? c = some (.mark token)) :
    Cuts Anything [c] [token] := by
  intro rest _
  rw [List.singleton_append, tokensFrom, h]
  cases tokensFrom (.outside []) rest <;> rfl

theorem cuts_blank (h : boundary? c = some .blank) : Cuts Anything [c] [] := by
  intro rest _
  rw [List.singleton_append, tokensFrom, h]
  cases tokensFrom (.outside []) rest <;> rfl

theorem cuts_blanks (n : Nat) : Cuts Anything (List.replicate n ' ') [] := by
  induction n with
  | zero => exact cuts_nil
  | succ n ih => exact (cuts_blank rfl).then ih

theorem cuts_margin (level : Nat) : Cuts Anything (margin level).toList [] := by
  have htext :
      (margin level).toList = ['\n'] ++ List.replicate (2 * level) ' ' := by
    simp [margin]
  rw [htext]
  exact (cuts_blank rfl).then (cuts_blanks _)

/-! ## Strings -/

/-- What a character between double quotes is read as. -/
def pieceOf (c : Char) : Piece :=
  if c = '\x08' ∨ c = '\t' ∨ c = '\n' ∨ c = '\x0c' ∨ c = '\r' then .char c
  else if c.toNat < 32 then .unit c.toNat
  else .char c

theorem hexValue?_digitChar :
    ∀ d < 16, hexValue? (Nat.digitChar d) = some d := by decide

theorem tokensFrom_shortEscape {c letter : Char}
    (h : shortEscape? letter = some c) (hletter : letter ≠ 'u')
    (pieces : List Piece) (rest : List Char) :
    tokensFrom (.inside pieces) ('\x5c' :: letter :: rest) =
      tokensFrom (.inside (.char c :: pieces)) rest := by
  rw [tokensFrom, if_neg (by decide), if_pos rfl, tokensFrom, if_neg hletter, h]

/-- Two hexadecimal digits after two zeros make a unit. -/
theorem tokensFrom_unit {n : Nat} (h : n < 256) (pieces : List Piece)
    (rest : List Char) :
    tokensFrom (.inside pieces) ('\x5c' :: 'u' :: '0' :: '0' ::
      Nat.digitChar (n / 16) ::
        Nat.digitChar (n % 16) :: rest) =
      tokensFrom (.inside (.unit n :: pieces)) rest := by
  have hhigh := hexValue?_digitChar (n / 16) (by omega)
  have hlow := hexValue?_digitChar (n % 16) (by omega)
  have hvalue : 16 * (n / 16) + n % 16 = n := by omega
  have hzero : hexValue? '0' = some 0 := rfl
  simp only [tokensFrom, hzero, hhigh, hlow]
  simp [hvalue]

/-- What is written for a character is read as one piece. -/
theorem tokensFrom_escapedChar (c : Char) (pieces : List Piece)
    (rest : List Char) :
    tokensFrom (.inside pieces) (escapedChar c ++ rest) =
      tokensFrom (.inside (pieceOf c :: pieces)) rest := by
  unfold escapedChar
  split_ifs with hmark hbackspace htab hline hfeed hreturn hcontrol
  · rcases hmark with rfl | rfl
    · exact tokensFrom_shortEscape rfl (by decide) pieces rest
    · exact tokensFrom_shortEscape rfl (by decide) pieces rest
  · subst hbackspace
    exact tokensFrom_shortEscape rfl (by decide) pieces rest
  · subst htab
    exact tokensFrom_shortEscape rfl (by decide) pieces rest
  · subst hline
    exact tokensFrom_shortEscape rfl (by decide) pieces rest
  · subst hfeed
    exact tokensFrom_shortEscape rfl (by decide) pieces rest
  · subst hreturn
    exact tokensFrom_shortEscape rfl (by decide) pieces rest
  · have hpiece : pieceOf c = .unit c.toNat := by
      simp [pieceOf, hbackspace, htab, hline, hfeed, hreturn, hcontrol]
    rw [hpiece]
    exact tokensFrom_unit (by omega) pieces rest
  · have hpiece : pieceOf c = .char c := by
      simp [pieceOf, hcontrol]
    push Not at hmark
    rw [hpiece, List.singleton_append, tokensFrom, if_neg hmark.1,
      if_neg hmark.2, if_neg hcontrol]

theorem tokensFrom_escaped (cs : List Char) (pieces : List Piece)
    (rest : List Char) :
    tokensFrom (.inside pieces) (cs.flatMap escapedChar ++ rest) =
      tokensFrom (.inside ((cs.map pieceOf).reverse ++ pieces)) rest := by
  induction cs generalizing pieces with
  | nil => rfl
  | cons c cs ih =>
    rw [List.flatMap_cons, List.append_assoc, tokensFrom_escapedChar, ih,
      List.map_cons, List.reverse_cons, List.append_assoc,
      List.singleton_append]

/-- A unit that is no half of a pair is a character of its own. -/
theorem textOfPieces_unit {u : Nat} (h : u < 0xD800) (rest : List Piece) :
    textOfPieces (.unit u :: rest) = (Char.ofNat u :: ·) <$>
    textOfPieces rest := by
  have hhigh : ¬(0xD800 ≤ u ∧ u < 0xDC00) := by omega
  have hlow : ¬(0xDC00 ≤ u ∧ u < 0xE000) := by omega
  have hhalf : ¬(0xD800 ≤ u ∧ u < 0xE000) := by omega
  conv_lhs => unfold textOfPieces
  split
  · cases ‹_ :: _ = []›
  · cases ‹_ :: _ = _›
  · cases ‹_ :: _ = _›
    rw [if_neg hhigh, if_neg hlow]
  · cases ‹_ :: _ = _›
    rw [if_neg hhalf]

/-- The pieces of what is written make up the text again. -/
theorem textOfPieces_map (cs : List Char) :
    textOfPieces (cs.map pieceOf) = some cs := by
  induction cs with
  | nil => rfl
  | cons c cs ih =>
    have hcons : textOfPieces (pieceOf c :: cs.map pieceOf) =
        (c :: ·) <$> textOfPieces (cs.map pieceOf) := by
      unfold pieceOf
      split_ifs with hnamed hcontrol
      · rfl
      · rw [textOfPieces_unit (by omega), Char.ofNat_toNat]
      · rfl
    rw [List.map_cons, hcons, ih]
    rfl

/-- A string is read as it was written, whatever its characters are and whatever
follows it. -/
theorem cuts_stringText (s : String) :
    Cuts Anything (stringText s).toList [.string (some s)] := by
  intro rest _
  have hquote : boundary? '\x22' = some .quote := rfl
  have htext : (stringText s).toList ++ rest =
      '\x22' :: (s.toList.flatMap escapedChar ++ '\x22' :: rest) := by
    simp [stringText]
  have hstring : endString ((s.toList.map pieceOf).reverse ++ []) =
      .string (some s) := by
    rw [endString, List.append_nil, List.reverse_reverse, textOfPieces_map]
    simp
  rw [htext, tokensFrom, hquote]
  simp only [tokensFrom_escaped]
  rw [tokensFrom, if_pos rfl, hstring, endWord_nil]
  cases tokensFrom (.outside []) rest <;> rfl
/-! ## Numbers and constants -/

/-- The text of a number is one word. -/
theorem boundary?_of_mem_numberText {n : Number}
    (h : c ∈ (numberText n).toList) :
    boundary? c = none := by
  have hletter : ∀ c ∈ ['.', 'e', '-', '+'], boundary? c = none := by
    simp [boundary?]
  have hnull : ∀ c ∈ "null".toList, boundary? c = none := by simp [boundary?]
  have hdigit : ∀ {c : Char}, c.isDigit = true → boundary? c = none := by
    intro c hc
    have hne : ∀ d : Char, d.isDigit = false → c ≠ d := fun d hd =>
      bne_iff_ne.1 (Decimal.bne_of_isDigit hc hd)
    simp [boundary?, hne]
  cases n with
  | int i =>
    rcases Decimal.mem_toString_int h with hc | rfl
    · exact hdigit hc
    · exact hletter _ (by decide)
  | float x =>
    rw [numberText] at h
    split at h
    · rcases Decimal.mem_text h with hc | hc
      · exact hdigit hc
      · exact hletter c hc
    · exact hnull c h

theorem cuts_null : Cuts Bounded "null".toList [.scalar null] :=
  cuts_word (by decide) (by simp [boundary?]) rfl

theorem cuts_bool (b : Bool) :
    Cuts Bounded (if b then "true" else "false").toList [.scalar (bool b)] := by
  cases b with
  | false => exact cuts_word (by decide) (by simp [boundary?]) rfl
  | true => exact cuts_word (by decide) (by simp [boundary?]) rfl

theorem cuts_numberText {n : Number}
    (h : word? (numberText n).toList = some (.num n)) :
    Cuts Bounded (numberText n).toList [.scalar (.num n)] := by
  refine cuts_word ?_ (fun c => boundary?_of_mem_numberText) h
  intro hnil
  rw [hnil] at h
  cases h

/-! ## Values -/

mutual

/-- The tokens that a value is written as, on one line or over several. -/
def tokenSequence : Json → List Token
  | str s => [.string (some s)]
  | arr items => .openArray :: itemTokens items ++ [.closeArray]
  | obj members => .openObject :: memberTokens members ++ [.closeObject]
  | unreadable => [.scalar null]
  | scalar => [.scalar scalar]

def itemTokens : List Json → List Token
  | [] => []
  | j :: rest =>
    j.tokenSequence ++ (if rest.isEmpty then [] else [.comma]) ++
      itemTokens rest

def memberTokens : List (String × Json) → List Token
  | [] => []
  | (name, j) :: rest =>
    .string (some name) :: .colon :: j.tokenSequence ++
      (if rest.isEmpty then [] else [.comma]) ++ memberTokens rest

end

/-- Whether every number of a value is the number that its text spells. -/
def NumbersSpelled (j : Json) : Prop :=
  ∀ n ∈ j.numbers, word? (numberText n).toList = some (.num n)

theorem cuts_compactItems {items : List Json}
    (h : ∀ j ∈ items, Cuts Bounded j.compact.toList j.tokenSequence) :
    Cuts Bounded (compactItems items).toList (itemTokens items) := by
  induction items with
  | nil => exact cuts_nil
  | cons j rest ih =>
    have hj := h j List.mem_cons_self
    have hrest := ih fun j' hj' => h j' (List.mem_cons_of_mem _ hj')
    cases rest with
    | nil => simpa [compactItems, itemTokens] using hj
    | cons next rest =>
      have hcomma : Cuts Bounded (',' :: (compactItems (next :: rest)).toList)
          ([.comma] ++ itemTokens (next :: rest)) := (cuts_mark rfl).then hrest
      rw [compactItems, itemTokens]
      simpa using hj.before hcomma (by decide)

theorem cuts_compactMembers {members : List (String × Json)}
    (h : ∀ m ∈ members, Cuts Bounded m.2.compact.toList m.2.tokenSequence) :
    Cuts Bounded (compactMembers members).toList (memberTokens members) := by
  induction members with
  | nil => exact cuts_nil
  | cons m rest ih =>
    obtain ⟨name, j⟩ := m
    have hj : Cuts Bounded j.compact.toList j.tokenSequence :=
      h (name, j) List.mem_cons_self
    have hrest := ih fun m hm => h m (List.mem_cons_of_mem _ hm)
    have hname : Cuts Anything ((stringText name).toList ++ [':'])
        [.string (some name), .colon] :=
      (cuts_stringText name).then (cuts_mark rfl)
    cases rest with
    | nil => simpa [compactMembers, memberTokens] using hname.then hj
    | cons next rest =>
      have hcomma : Cuts Bounded (',' :: (compactMembers (next :: rest)).toList)
          ([.comma] ++ memberTokens (next :: rest)) :=
          (cuts_mark rfl).then hrest
      rw [compactMembers, memberTokens]
      simpa using hname.then (hj.before hcomma (by decide))

/-- The text on one line is cut into the tokens of the value, by induction on
the value. -/
theorem cuts_compact (j : Json) (hj : j.NumbersSpelled) :
    Cuts Bounded j.compact.toList j.tokenSequence := by
  match j with
  | null => exact cuts_null
  | bool b => exact cuts_bool b
  | num n => exact cuts_numberText (hj n List.mem_cons_self)
  | str s => exact (cuts_stringText s).bounded
  | arr items =>
    have hitems := cuts_compactItems fun j hmem =>
      cuts_compact j fun n hn => hj n (mem_numbersItems.2 ⟨j, hmem, hn⟩)
    have hclose := hitems.before (cuts_mark (c := ']') rfl).bounded (by decide)
    simpa [compact, tokenSequence] using (cuts_mark (c := '[') rfl).then hclose
  | obj members =>
    have hmembers := cuts_compactMembers fun m hmem =>
      cuts_compact m.2 fun n hn => hj n (mem_numbersMembers.2 ⟨m, hmem, hn⟩)
    have hclose :=
      hmembers.before (cuts_mark (c := '\x7d') rfl).bounded (by decide)
    simpa [compact, tokenSequence]
      using (cuts_mark (c := '\x7b') rfl).then hclose
  | unreadable => exact cuts_null
termination_by sizeOf j
decreasing_by
  · exact sizeOf_item_lt hmem
  · exact sizeOf_member_lt hmem

/-! ## Over several lines -/

theorem exists_margin_eq (level : Nat) :
    ∃ blanks, (margin level).toList = '\n' :: blanks :=
  ⟨List.replicate (2 * level) ' ', by simp [margin]⟩

/-- A line ends a word. -/
theorem Cuts.beforeMargin {level : Nat} (h : Cuts Bounded text found)
    (h' : Cuts after ((margin level).toList ++ other) more) :
    Cuts after (text ++ ((margin level).toList ++ other)) (found ++ more) := by
  obtain ⟨blanks, hmargin⟩ := exists_margin_eq level
  rw [hmargin] at h' ⊢
  exact h.before h' (by decide)

theorem cuts_prettyItems {level : Nat} {items : List Json}
    (h : ∀ j ∈ items, Cuts Bounded (j.prettyAt level).toList j.tokenSequence) :
    Cuts Bounded (prettyItems level items).toList (itemTokens items) := by
  induction items with
  | nil => exact cuts_nil
  | cons j rest ih =>
    have hj := (cuts_margin level).then (h j List.mem_cons_self)
    have hrest := ih fun j' hj' => h j' (List.mem_cons_of_mem _ hj')
    cases rest with
    | nil => simpa [prettyItems, itemTokens] using hj
    | cons next rest =>
      have hcomma :
          Cuts Bounded (',' :: (prettyItems level (next :: rest)).toList)
          ([.comma] ++ itemTokens (next :: rest)) := (cuts_mark rfl).then hrest
      rw [prettyItems, itemTokens]
      simpa using hj.before hcomma (by decide)

theorem cuts_prettyMembers {level : Nat} {members : List (String × Json)}
    (h : ∀ m ∈ members,
      Cuts Bounded (m.2.prettyAt level).toList m.2.tokenSequence) :
    Cuts Bounded (prettyMembers level members).toList
        (memberTokens members) := by
  induction members with
  | nil => exact cuts_nil
  | cons m rest ih =>
    obtain ⟨name, j⟩ := m
    have hj : Cuts Bounded (j.prettyAt level).toList j.tokenSequence :=
      h (name, j) List.mem_cons_self
    have hrest := ih fun m hm => h m (List.mem_cons_of_mem _ hm)
    have hcolon : Cuts Anything [':', ' '] [.colon] :=
      (cuts_mark rfl).then (cuts_blank rfl)
    have hname :
        Cuts Anything ((margin level).toList ++
          ((stringText name).toList ++ [':', ' ']))
        [.string (some name), .colon] :=
      (cuts_margin level).then ((cuts_stringText name).then hcolon)
    cases rest with
    | nil => simpa [prettyMembers, memberTokens] using hname.then hj
    | cons next rest =>
      have hcomma :
          Cuts Bounded (',' :: (prettyMembers level (next :: rest)).toList)
          ([.comma] ++ memberTokens (next :: rest)) :=
          (cuts_mark rfl).then hrest
      rw [prettyMembers, memberTokens]
      simpa using hname.then (hj.before hcomma (by decide))

/-- The text over several lines is cut into the tokens of the value, at every
level: blanks between tokens do not show in them. -/
theorem cuts_prettyAt (level : Nat) (j : Json) (hj : j.NumbersSpelled) :
    Cuts Bounded (j.prettyAt level).toList j.tokenSequence := by
  match j with
  | null => exact cuts_null
  | bool b => exact cuts_bool b
  | num n => exact cuts_numberText (hj n List.mem_cons_self)
  | str s => exact (cuts_stringText s).bounded
  | arr [] =>
    have hclose :=
      (cuts_mark (c := '[') rfl).then (cuts_mark (c := ']') rfl).bounded
    simpa [prettyAt, tokenSequence, itemTokens] using hclose
  | arr (first :: rest) =>
    have hitems := cuts_prettyItems fun j hmem =>
      cuts_prettyAt (level + 1) j fun n hn =>
        hj n (mem_numbersItems.2 ⟨j, hmem, hn⟩)
    have hclose :=
      hitems.beforeMargin
        ((cuts_margin level).then (cuts_mark (c := ']') rfl)).bounded
    simpa [prettyAt, tokenSequence] using (cuts_mark (c := '[') rfl).then hclose
  | obj [] =>
    have hclose :=
      (cuts_mark (c := '\x7b') rfl).then (cuts_mark (c := '\x7d') rfl).bounded
    simpa [prettyAt, tokenSequence, memberTokens] using hclose
  | obj (first :: rest) =>
    have hmembers := cuts_prettyMembers fun m hmem =>
      cuts_prettyAt (level + 1) m.2 fun n hn =>
        hj n (mem_numbersMembers.2 ⟨m, hmem, hn⟩)
    have hclose :=
      hmembers.beforeMargin
        ((cuts_margin level).then (cuts_mark (c := '\x7d') rfl)).bounded
    simpa [prettyAt, tokenSequence]
      using (cuts_mark (c := '\x7b') rfl).then hclose
  | unreadable => exact cuts_null
termination_by sizeOf j
decreasing_by
  · exact sizeOf_item_lt hmem
  · exact sizeOf_member_lt hmem

/-! ## Whole texts -/

theorem Cuts.tokens_eq (h : Cuts Bounded text found) :
    tokens text = some found := by
  have hall := h [] bounded_nil
  rw [List.append_nil] at hall
  rw [tokens, hall]
  simp [tokensFrom, endWord_nil]

theorem tokens_compact (hj : j.NumbersSpelled) :
    tokens j.compact.toList = some j.tokenSequence :=
  (cuts_compact j hj).tokens_eq

theorem tokens_pretty (hj : j.NumbersSpelled) :
    tokens j.pretty.toList = some j.tokenSequence :=
  (cuts_prettyAt 0 j hj).tokens_eq

end DrawnPattern.Json
