import DrawnPattern.Json.Reader
import DrawnPattern.Proofs.Json.Tokens
set_option autoImplicit false

/-!
# Reading what was written

A value that is not too deep, has nothing in it that cannot be held and whose
numbers are each read back is read back itself, from its text on one line and
from that over several lines (`read?_compact`, `read?_pretty`).
-/

namespace DrawnPattern.Json

variable {items : List Json} {members : List (String × Json)}
  {stack : List Frame} {j : Json} {token : Token}

/-! ## Steps -/

theorem step_openArray :
    step (.value, stack) .openArray = some (.firstItem, stack) := rfl

theorem step_openObject :
    step (.value, stack) .openObject = some (.firstName, stack) := rfl

theorem step_emptyArray : step (.firstItem, stack) .closeArray =
    some (.after (atDepth stack.length (.arr [])), stack) := rfl

theorem step_emptyObject : step (.firstName, stack) .closeObject =
    some (.after (closeObject stack.length [] true), stack) := rfl

theorem step_itemComma : step (.after j, .array items :: stack) .comma =
    some (.value, .array (j :: items) :: stack) := rfl

theorem step_closeArray : step (.after j, .array items :: stack) .closeArray =
    some (.after (atDepth stack.length (.arr (j :: items).reverse)), stack) :=
  rfl

theorem step_name {name : String} :
    step (.name members true, stack) (.string (some name)) =
    some (.colon members name true, stack) := rfl

theorem step_colon {name : String} :
    step (.colon members name true, stack) .colon =
    some (.value, .object members name true :: stack) := rfl

theorem step_memberComma {name : String} :
    step (.after j, .object members name true :: stack) .comma =
      some (.name ((name, j) :: members) true, stack) := rfl

theorem step_closeObject {name : String} :
    step (.after j, .object members name true :: stack) .closeObject =
      some (.after (closeObject stack.length ((name, j) :: members) true),
        stack) := rfl

/-- No value starts with the end of an array. -/
theorem exists_tokenSequence_eq (j : Json) :
    ∃ token rest, j.tokenSequence = token :: rest ∧ token ≠ .closeArray := by
  cases j with
  | arr items => exact ⟨.openArray, _, rfl, nofun⟩
  | obj members => exact ⟨.openObject, _, rfl, nofun⟩
  | str s => exact ⟨.string (some s), _, rfl, nofun⟩
  | null => exact ⟨.scalar null, _, rfl, nofun⟩
  | bool b => exact ⟨.scalar (bool b), _, rfl, nofun⟩
  | num n => exact ⟨.scalar (num n), _, rfl, nofun⟩
  | unreadable => exact ⟨.scalar null, _, rfl, nofun⟩

/-- The first item of an array is read as any other. -/
theorem step_firstItem (h : token ≠ .closeArray) :
    step (.firstItem, stack) token =
    step (.value, .array [] :: stack) token := by
  cases token <;> first | rfl | exact absurd rfl h

/-! ## Tokens -/

/-- The value is what its tokens make up inside these open arrays and objects,
which they leave as they were. -/
def Reads (stack : List Frame) (j : Json) : Prop :=
  j.tokenSequence.foldlM step (.value, stack) = some (.after j, stack)

/-- The items of an array that is still open are read up to its end, by
induction on the items, as each leaves the array open. -/
theorem foldlM_itemTokens
    (h : ∀ j ∈ items, ∀ done, Reads (.array done :: stack) j) (hne : items ≠ [])
    (done : List Json) (hroom : stack.length < depthLimit) :
    (itemTokens items ++ [Token.closeArray]).foldlM step
    (.value, .array done :: stack) =
      some (.after (.arr (done.reverse ++ items)), stack) := by
  induction items generalizing done with
  | nil => exact absurd rfl hne
  | cons j rest ih =>
    have hj : j.tokenSequence.foldlM step _ = _ := h j List.mem_cons_self done
    cases rest with
    | nil =>
      rw [itemTokens, List.append_assoc, List.append_assoc,
        List.foldlM_append, hj]
      simp [itemTokens, step_closeArray, atDepth, hroom]
    | cons next rest =>
      have hrest := ih (fun j' hj' => h j' (List.mem_cons_of_mem _ hj'))
        (List.cons_ne_nil next rest) (j :: done)
      rw [itemTokens, List.append_assoc, List.append_assoc,
        List.foldlM_append, hj]
      simpa [step_itemComma] using hrest

/-- The members of an object that is still open are read up to its end, by
induction on the members, as each leaves the object open. -/
theorem foldlM_memberTokens
    (h : ∀ m ∈ members, ∀ done name,
      Reads (.object done name true :: stack) m.2)
    (hne : members ≠ []) (done : List (String × Json))
      (hroom : stack.length < depthLimit) :
    (memberTokens members ++ [Token.closeObject]).foldlM step
      (.name done true, stack) =
      some (.after (.obj (done.reverse ++ members)), stack) := by
  induction members generalizing done with
  | nil => exact absurd rfl hne
  | cons m rest ih =>
    obtain ⟨name, j⟩ := m
    have hj : j.tokenSequence.foldlM step _ = _ :=
      h (name, j) List.mem_cons_self done name
    cases rest with
    | nil =>
      simp [memberTokens, step_name, step_colon, step_closeObject,
        List.foldlM_append, hj, closeObject, atDepth, hroom]
    | cons next rest =>
      have hrest := ih (fun m hm => h m (List.mem_cons_of_mem _ hm))
        (List.cons_ne_nil next rest) ((name, j) :: done)
      rw [memberTokens]
      simpa [step_name, step_colon, step_memberComma, List.foldlM_append,
        hj] using hrest

/-- A readable value is what its tokens make up, wherever there is
room for it. -/
theorem reads (j : Json) (hreadable : j.readable = true) (stack : List Frame)
    (hroom : stack.length + j.depth ≤ depthLimit) : Reads stack j := by
  -- by recursion on the value: its parts are read on a stack that is one frame
  -- higher, and they are one level less deep
  match j with
  | null => rfl
  | bool b => rfl
  | num n => rfl
  | str s => rfl
  | unreadable => cases hreadable
  | arr [] =>
    have hdepth : stack.length < depthLimit :=
      Nat.lt_of_lt_of_le (Nat.lt_succ_self _) hroom
    simp [Reads, tokenSequence, itemTokens, step_openArray, step_emptyArray,
      atDepth, hdepth]
  | arr (first :: rest) =>
    have hdepth : stack.length < depthLimit := by
      rw [depth] at hroom
      omega
    have hitems : ∀ j ∈ first :: rest, ∀ done,
        Reads (.array done :: stack) j := by
      intro j hmem done
      have hpart : Part j (arr (first :: rest)) := .item hmem
      have hlt := hpart.depth_lt
      exact reads j (hpart.readable hreadable) _
        (by rw [List.length_cons]; omega)
    obtain ⟨token, more, hfirst, htoken⟩ := exists_tokenSequence_eq first
    have hrun :=
      foldlM_itemTokens hitems (List.cons_ne_nil first rest) [] hdepth
    rw [Reads, tokenSequence]
    simp only [itemTokens, hfirst, List.cons_append, List.foldlM_cons] at hrun ⊢
    rw [← step_firstItem htoken] at hrun
    exact hrun
  | obj [] =>
    have hdepth : stack.length < depthLimit :=
      Nat.lt_of_lt_of_le (Nat.lt_succ_self _) hroom
    simp [Reads, tokenSequence, memberTokens, step_openObject, step_emptyObject,
      closeObject, atDepth, hdepth]
  | obj (first :: rest) =>
    have hdepth : stack.length < depthLimit := by
      rw [depth] at hroom
      omega
    have hmembers : ∀ m ∈ first :: rest, ∀ done name,
        Reads (.object done name true :: stack) m.2 := by
      intro m hmem done name
      have hpart : Part m.2 (obj (first :: rest)) := .member hmem
      have hlt := hpart.depth_lt
      exact reads m.2 (hpart.readable hreadable) _
        (by rw [List.length_cons]; omega)
    have hrun :=
      foldlM_memberTokens hmembers (List.cons_ne_nil first rest) [] hdepth
    rw [Reads, tokenSequence]
    simp only [memberTokens, List.cons_append, List.foldlM_cons] at hrun ⊢
    exact hrun
termination_by sizeOf j
decreasing_by
  · exact sizeOf_item_lt hmem
  · exact sizeOf_member_lt hmem

/-! ## Texts -/

theorem ofTokens?_tokenSequence (hreadable : j.readable = true)
    (hdepth : j.depth ≤ depthLimit) :
    ofTokens? j.tokenSequence = some j := by
  have hreads :
      j.tokenSequence.foldlM step (.value, []) = some (.after j, []) :=
    reads j hreadable [] (by simpa using hdepth)
  rw [ofTokens?, hreads]

/-- A value is read back from its text on one line, if it is not nested too deep
and each of its numbers is read back. -/
theorem read?_compact (hreadable : j.readable = true)
    (hdepth : j.depth ≤ depthLimit) (hspelled : j.NumbersSpelled) :
    read? j.compact = some j := by
  rw [read?, tokens_compact hspelled]
  exact ofTokens?_tokenSequence hreadable hdepth

/-- A value is read back from its text over several lines, under the same
conditions. -/
theorem read?_pretty (hreadable : j.readable = true)
    (hdepth : j.depth ≤ depthLimit) (hspelled : j.NumbersSpelled) :
    read? j.pretty = some j := by
  rw [read?, tokens_pretty hspelled]
  exact ofTokens?_tokenSequence hreadable hdepth

end DrawnPattern.Json
