import DrawnPattern.Proofs.Double.Rounding
import DrawnPattern.Proofs.Json.Numbers
set_option autoImplicit false

/-!
# What can be read

Whatever text is read, the value is nested no deeper than the limit, its
integers have 64 bits and its doubles are finite (`sound_of_read?`).  One token
at a time keeps this of everything that is held so far (`sound_step`).
-/

namespace DrawnPattern

open Json

/-- Whether a number has 64 bits, with a sign or without, and is finite if it is
a double. -/
def Number.InRange : Number → Prop
  | .int i => -(leastMagnitude : Int) ≤ i ∧ i ≤ (greatest : Int)
  | .float x => x.isFinite = true

namespace Json

variable {j : Json} {word text : List Char} {found : List Token}

/-! ## Numbers -/

theorem absorb_le {n : Nat} (hn : n ≤ greatest) (digits : List Char) :
    (absorb n digits).1 ≤ greatest := by
  induction digits generalizing n with
  | nil => exact hn
  | cons c rest ih =>
    rw [absorb]
    split
    · rename_i hnext
      exact ih hnext
    · exact hn

theorem isFinite_of_double? {numeral : Numeral} {x : Double}
    (h : numeral.double? = some x) :
    x.isFinite = true := by
  simp only [Numeral.double?, Option.map_eq_some_iff] at h
  obtain ⟨y, hy, hx⟩ := h
  have hwhole := absorb_le (Nat.zero_le greatest) numeral.whole
  have hdigits := absorb_le hwhole numeral.fraction
  have hfinite : y.isFinite = true :=
    Decimal.isFinite_of_read? (Nat.le_trans hdigits (by decide)) hy
  split at hx
  · exact hx ▸ Double.isFinite_neg hfinite
  · exact hx ▸ hfinite

theorem inRange_of_int? {numeral : Numeral} {i : Int}
    (h : numeral.int? = some i) :
    (Number.int i).InRange := by
  unfold Numeral.int? at h
  simp only at h
  rw [Number.InRange]
  split at h
  · cases h
  · split at h
    · split at h
      · cases h
        rw [greatest]
        omega
      · cases h
    · split at h
      · cases h
        omega
      · cases h

/-- Whether a value that is nested so deep can be read, and what numbers it
may have. -/
structure Sound (room : Nat) (j : Json) : Prop where
  depth : j.depth ≤ room
  numbers : ∀ n ∈ j.numbers, n.InRange

theorem Sound.mono {room wider : Nat} (h : j.Sound room) (hle : room ≤ wider) :
    j.Sound wider :=
  ⟨Nat.le_trans h.depth hle, h.numbers⟩

theorem sound_unreadable (room : Nat) : unreadable.Sound room :=
  ⟨Nat.zero_le _, nofun⟩

theorem sound_str (room : Nat) (s : String) : (str s).Sound room :=
  ⟨Nat.zero_le _, nofun⟩

theorem sound_json (numeral : Numeral) : numeral.json.Sound 0 := by
  unfold Numeral.json
  split
  · rename_i i hi
    refine ⟨Nat.le_refl _, fun n hn => ?_⟩
    rw [List.mem_singleton.1 hn]
    exact inRange_of_int? hi
  · split
    · rename_i x hx
      refine ⟨Nat.le_refl _, fun n hn => ?_⟩
      rw [List.mem_singleton.1 hn]
      exact isFinite_of_double? hx
    · exact sound_unreadable 0

theorem sound_of_word? (h : word? word = some j) : j.Sound 0 := by
  unfold word? at h
  split at h
  · cases h
    exact ⟨Nat.le_refl _, nofun⟩
  · split at h
    · cases h
      exact ⟨Nat.le_refl _, nofun⟩
    · split at h
      · cases h
        exact ⟨Nat.le_refl _, nofun⟩
      · obtain ⟨numeral, -, rfl⟩ := Option.map_eq_some_iff.1 h
        exact sound_json numeral

/-! ## Tokens -/

/-- Whether a token holds only what can be read; marks hold nothing. -/
def Token.Sound : Token → Prop
  | .scalar j => j.Sound 0
  | _ => True

theorem Token.sound_of_endWord {token : Token} (h : endWord word = some found)
    (htoken : token ∈ found) : token.Sound := by
  unfold endWord at h
  split at h
  · cases h
    cases htoken
  · obtain ⟨j, hj, rfl⟩ := Option.map_eq_some_iff.1 h
    rw [List.mem_singleton.1 htoken]
    exact sound_of_word? hj

theorem Token.sound_of_boundary? {c : Char} {token : Token}
    (h : boundary? c = some (.mark token)) :
    token.Sound := by
  cases token with
  | scalar j =>
    unfold boundary? at h
    split_ifs at h <;> cases h
  | _ => trivial

/-- What is read of a text from some place on holds only what can be read. -/
theorem Token.sound_of_tokensFrom {place : Place}
    (h : tokensFrom place text = some found) :
    ∀ token ∈ found, token.Sound := by
  -- along the text: only the end of a word can yield a scalar, and what ended
  -- is sound by `sound_of_endWord`
  induction place, text using tokensFrom.induct generalizing found with
  | case1 word =>
    rw [tokensFrom] at h
    exact fun token => Token.sound_of_endWord h
  | case2 word c rest hc ih =>
    simp only [tokensFrom, hc] at h
    exact ih h
  | case3 word c rest hc ih =>
    simp only [tokensFrom, hc, Option.bind_eq_bind, Option.bind_eq_some_iff,
      Option.pure_def, Option.some.injEq] at h
    obtain ⟨ended, hended, more, hmore, rfl⟩ := h
    exact List.forall_mem_append.2 ⟨fun token => Token.sound_of_endWord hended,
      ih hmore⟩
  | case4 word c rest hc ih =>
    simp only [tokensFrom, hc, Option.bind_eq_bind, Option.bind_eq_some_iff,
      Option.pure_def, Option.some.injEq] at h
    obtain ⟨ended, hended, more, hmore, rfl⟩ := h
    exact List.forall_mem_append.2 ⟨fun token => Token.sound_of_endWord hended,
      ih hmore⟩
  | case5 word c rest mark hc ih =>
    simp only [tokensFrom, hc, Option.bind_eq_bind, Option.bind_eq_some_iff,
      Option.pure_def, Option.some.injEq] at h
    obtain ⟨ended, hended, more, hmore, rfl⟩ := h
    exact List.forall_mem_append.2 ⟨fun token => Token.sound_of_endWord hended,
      List.forall_mem_cons.2 ⟨Token.sound_of_boundary? hc, ih hmore⟩⟩
  | case6 pieces rest ih =>
    rw [tokensFrom, if_pos rfl] at h
    obtain ⟨more, hmore, rfl⟩ := Option.map_eq_some_iff.1 h
    exact List.forall_mem_cons.2 ⟨trivial, ih hmore⟩
  | case7 pieces rest hquote ih =>
    rw [tokensFrom, if_neg hquote, if_pos rfl] at h
    exact ih h
  | case8 pieces c rest hquote hescape hcontrol =>
    rw [tokensFrom, if_neg hquote, if_neg hescape, if_pos hcontrol] at h
    cases h
  | case9 pieces c rest hquote hescape hcontrol ih =>
    rw [tokensFrom, if_neg hquote, if_neg hescape, if_neg hcontrol] at h
    exact ih h
  | case10 pieces rest ih =>
    rw [tokensFrom, if_pos rfl] at h
    exact ih h
  | case11 pieces c rest hunit letter hletter ih =>
    simp only [tokensFrom, if_neg hunit, hletter] at h
    exact ih h
  | case12 pieces c rest hunit hletter =>
    simp only [tokensFrom, if_neg hunit, hletter] at h
    cases h
  | case13 pieces missing value c rest hdigit =>
    simp only [tokensFrom, hdigit] at h
    cases h
  | case14 pieces missing value c rest digit hdigit next hmissing =>
    rename_i ih
    simp only [tokensFrom, hdigit, if_pos hmissing] at h
    exact ih h
  | case15 pieces missing value c rest digit hdigit next hmissing =>
    rename_i ih
    simp only [tokensFrom, hdigit, if_neg hmissing] at h
    exact ih h
  | case16 place hplace =>
    cases place with
    | outside word => exact absurd rfl (hplace word)
    | inside pieces => cases h
    | escape pieces => cases h
    | hex pieces missing value => cases h

/-! ## Steps -/

/-- How deep a value may be nested that stands in so many open arrays
and objects. -/
def room (stack : List Frame) : Nat := depthLimit - stack.length

/-- Whether everything that open arrays and objects hold can be read. -/
def StackSound : List Frame → Prop
  | [] => True
  | .array items :: stack =>
    (∀ j ∈ items, j.Sound (room stack - 1)) ∧ StackSound stack
  | .object members _ _ :: stack =>
    (∀ m ∈ members, m.2.Sound (room stack - 1)) ∧ StackSound stack

/-- Whether everything that is held can be read.  Each token that is read keeps
this, from the empty state on. -/
def StateSound : Expected × List Frame → Prop
  | (.name members _, stack) =>
    (∀ m ∈ members, m.2.Sound (room stack - 1)) ∧ StackSound stack
  | (.colon members _ _, stack) =>
    (∀ m ∈ members, m.2.Sound (room stack - 1)) ∧ StackSound stack
  | (.after j, stack) => j.Sound (room stack) ∧ StackSound stack
  | (_, stack) => StackSound stack

theorem room_cons (frame : Frame) (stack : List Frame) :
    room (frame :: stack) = room stack - 1 := by
  rw [room, room, List.length_cons, Nat.sub_add_eq]

theorem sound_atDepth_arr {items : List Json} {stack : List Frame}
    (h : ∀ j ∈ items, j.Sound (room stack - 1)) :
    (atDepth stack.length (.arr items)).Sound (room stack) := by
  unfold atDepth
  split
  · rename_i hroom
    have hone : room stack = room stack - 1 + 1 := by
      rw [room]
      omega
    rw [hone]
    refine ⟨depth_arr_le_iff.2 fun j hj => (h j hj).depth, fun n hn => ?_⟩
    obtain ⟨j, hj, hmem⟩ := mem_numbersItems.1 hn
    exact (h j hj).numbers n hmem
  · exact sound_unreadable _

theorem sound_closeObject {members : List (String × Json)} {stack : List Frame}
    (readable : Bool) (h : ∀ m ∈ members, m.2.Sound (room stack - 1)) :
    (closeObject stack.length members readable).Sound (room stack) := by
  unfold closeObject atDepth
  split
  · split
    · rename_i hroom
      have hone : room stack = room stack - 1 + 1 := by
        rw [room]
        omega
      have hreverse : ∀ m ∈ members.reverse, m.2.Sound (room stack - 1) :=
        fun m hm => h m (List.mem_reverse.1 hm)
      rw [hone]
      refine ⟨depth_obj_le_iff.2 fun m hm => (hreverse m hm).depth,
        fun n hn => ?_⟩
      obtain ⟨m, hm, hmem⟩ := mem_numbersMembers.1 hn
      exact (hreverse m hm).numbers n hmem
    · exact sound_unreadable _
  · exact sound_unreadable _

variable {state next : Expected × List Frame} {token : Token}
  {stack : List Frame}

theorem sound_beginValue (hstack : StackSound stack) (htoken : token.Sound)
    (h : beginValue stack token = some next) : StateSound next := by
  unfold beginValue at h
  split at h <;> cases h
  · exact ⟨htoken.mono (Nat.zero_le _), hstack⟩
  · exact ⟨sound_str _ _, hstack⟩
  · exact ⟨sound_unreadable _, hstack⟩
  · exact hstack
  · exact hstack

theorem sound_beginMember {members : List (String × Json)} {readable : Bool}
    (hmembers : ∀ m ∈ members, m.2.Sound (room stack - 1))
    (hstack : StackSound stack)
    (h : beginMember members readable stack token = some next) :
    StateSound next := by
  unfold beginMember at h
  split at h <;> cases h
  · exact ⟨hmembers, hstack⟩
  · exact ⟨hmembers, hstack⟩

/-- One token keeps everything that is held readable.  What is closed too deep
is not held, so its depth does not count. -/
theorem sound_step (hstate : StateSound state) (htoken : token.Sound)
    (h : step state token = some next) : StateSound next := by
  unfold step at h
  split at h
  · exact sound_beginValue hstate htoken h
  · cases h
    exact ⟨sound_atDepth_arr (List.forall_mem_nil _), hstate⟩
  · have hopen : StackSound (.array [] :: _) := ⟨List.forall_mem_nil _, hstate⟩
    exact sound_beginValue hopen htoken h
  · cases h
    exact ⟨sound_closeObject true (List.forall_mem_nil _), hstate⟩
  · exact sound_beginMember (List.forall_mem_nil _) hstate h
  · exact sound_beginMember hstate.1 hstate.2 h
  · cases h
    exact hstate
  · cases h
    obtain ⟨hj, hitems, hstack⟩ := hstate
    rw [room_cons] at hj
    exact ⟨List.forall_mem_cons.2 ⟨hj, hitems⟩, hstack⟩
  · cases h
    obtain ⟨hj, hitems, hstack⟩ := hstate
    rw [room_cons] at hj
    refine ⟨sound_atDepth_arr fun j' hj' => ?_, hstack⟩
    exact List.forall_mem_cons.2 ⟨hj, hitems⟩ j' (List.mem_reverse.1 hj')
  · cases h
    obtain ⟨hj, hmembers, hstack⟩ := hstate
    rw [room_cons] at hj
    exact ⟨List.forall_mem_cons.2 ⟨hj, hmembers⟩, hstack⟩
  · cases h
    obtain ⟨hj, hmembers, hstack⟩ := hstate
    rw [room_cons] at hj
    exact ⟨sound_closeObject _ (List.forall_mem_cons.2 ⟨hj, hmembers⟩), hstack⟩
  · cases h

/-- So do all tokens of a text. -/
theorem sound_foldlM_step {tokens : List Token}
    (htokens : ∀ token ∈ tokens, token.Sound) (hstate : StateSound state)
    (h : tokens.foldlM step state = some next) : StateSound next := by
  induction tokens generalizing state with
  | nil =>
    cases h
    exact hstate
  | cons token rest ih =>
    rw [List.foldlM_cons] at h
    obtain ⟨between, hstep, hrest⟩ := Option.bind_eq_some_iff.1 h
    obtain ⟨htoken, hrests⟩ := List.forall_mem_cons.1 htokens
    exact ih hrests (sound_step hstate htoken hstep) hrest

/-- Whatever is read is nested within the limit and has only numbers
in range. -/
theorem sound_of_read? {text : String} (h : read? text = some j) :
    j.Sound depthLimit := by
  obtain ⟨found, hfound, hj⟩ := Option.bind_eq_some_iff.1 h
  unfold ofTokens? at hj
  split at hj
  · rename_i j' hrun
    cases hj
    have hstart : StateSound (.value, []) := trivial
    exact (sound_foldlM_step (Token.sound_of_tokensFrom hfound) hstart hrun).1
  · cases hj

end Json

end DrawnPattern
