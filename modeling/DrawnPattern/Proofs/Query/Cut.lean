import Mathlib.Data.List.Forall2
set_option autoImplicit false

/-!
# Texts that can be cut in one way

Texts are written one after the other without any count of their characters, so
what comes next has to show where each one ends.  `Cut` says that it does: given
what may follow, a text is told from every other, and so is the rest.  It passes
from the parts to lists of them (`Cut.flatMap`, `Cut.separated`).
-/

namespace DrawnPattern.Query

variable {α : Type} {write : α → List Char} {alike : α → α → Prop}
  {ok : α → Prop} {follows : List Char → Prop}

/-- Whether what is written is determined, up to `alike`, together with the
rest, by the text that both make. -/
def Cut (write : α → List Char) (alike : α → α → Prop) (ok : α → Prop)
    (follows : List Char → Prop) : Prop :=
  ∀ ⦃a b : α⦄ ⦃r s : List Char⦄, ok a → ok b → follows r → follows s →
    write a ++ r = write b ++ s → alike a b ∧ r = s

/-- Whether a text starts with one of some characters, by which one sees where
the text before it ended. -/
def StartsIn (cs : List Char) (r : List Char) : Prop :=
  ∃ c ∈ cs, ∃ t, r = c :: t

theorem StartsIn.cons {cs : List Char} {c : Char} {t : List Char} (h : c ∈ cs) :
    StartsIn cs (c :: t) :=
  ⟨c, h, t, rfl⟩

theorem StartsIn.mono {cs ds : List Char} {r : List Char} (h : StartsIn cs r)
    (hsub : cs ⊆ ds) :
    StartsIn ds r := by
  obtain ⟨c, hc, t, rfl⟩ := h
  exact .cons (hsub hc)

/-- Texts that start differently are different. -/
theorem StartsIn.ne {cs ds : List Char} {r s : List Char} (h : StartsIn cs r)
    (h' : StartsIn ds s) (hapart : cs.all (fun c => !ds.contains c) = true) :
    r ≠ s := by
  obtain ⟨c, hc, t, rfl⟩ := h
  obtain ⟨d, hd, u, rfl⟩ := h'
  rw [Ne, List.cons.injEq]
  rintro ⟨rfl, -⟩
  have hfree := List.all_eq_true.1 hapart c hc
  simp only [List.contains_eq_mem, Bool.not_eq_true',
    decide_eq_false_iff_not] at hfree
  exact hfree hd

/-! ## Words -/

/-- The longest word at the front of a text, if no character of its
kind follows. -/
theorem takeWhile_append_eq {p : Char → Bool} {word rest : List Char}
    (hword : ∀ c ∈ word, p c = true) (hrest : ∀ c ∈ rest.head?, p c = false) :
    (word ++ rest).takeWhile p = word ∧ (word ++ rest).dropWhile p = rest := by
  rw [List.takeWhile_append_of_pos hword, List.dropWhile_append_of_pos hword]
  cases rest with
  | nil => simp
  | cons c rest =>
    have hc := hrest c rfl
    rw [List.takeWhile_cons_of_neg (by simp [hc]),
      List.dropWhile_cons_of_neg (by simp [hc])]
    exact ⟨List.append_nil _, rfl⟩

/-- A word ends where a character stands that is none of its own, so two texts
that start with words have the same one. -/
theorem cut_word (p : Char → Bool) (cs : List Char)
    (hstop : cs.all (fun c => !p c) = true) :
    Cut id (· = ·) (fun word => ∀ c ∈ word, p c = true) (StartsIn cs) := by
  have htake : ∀ {word r : List Char}, (∀ c ∈ word, p c = true) →
      StartsIn cs r →
      (word ++ r).takeWhile p = word ∧ (word ++ r).dropWhile p = r := by
    intro word r hword hr
    obtain ⟨c, hc, t, rfl⟩ := hr
    refine takeWhile_append_eq hword ?_
    rintro d ⟨⟩
    simpa using List.all_eq_true.1 hstop c hc
  intro a b r s ha hb hr hs h
  obtain ⟨ha₁, ha₂⟩ := htake ha hr
  obtain ⟨hb₁, hb₂⟩ := htake hb hs
  have h' : a ++ r = b ++ s := h
  rw [h', hb₁] at ha₁
  rw [h', hb₂] at ha₂
  exact ⟨ha₁.symm, ha₂.symm⟩

/-! ## Lists -/

/-- Texts one after the other, if the next one shows where the last one ends,
and what comes after all is not the start of another. -/
theorem Cut.flatMap {after : List Char → Prop} (h : Cut write alike ok follows)
    (hnext : ∀ a t, ok a → follows (write a ++ t))
    (hafter : ∀ r, after r → follows r)
    (hapart : ∀ a t, ok a → ¬after (write a ++ t)) :
    Cut (fun items => items.flatMap write) (List.Forall₂ alike)
    (fun items => ∀ a ∈ items, ok a)
      after := by
  intro items
  have hfollows : ∀ (items : List α) (r : List Char), (∀ a ∈ items, ok a) →
      after r →
      follows (items.flatMap write ++ r) := by
    intro items r hitems hr
    cases items with
    | nil => exact hafter r hr
    | cons a rest =>
      rw [List.flatMap_cons, List.append_assoc]
      exact hnext a _ (hitems a List.mem_cons_self)
  -- where one list ends first, what comes after all would start with a text of
  -- the other, which `hapart` rules out
  induction items with
  | nil =>
    intro items' r s _ hitems' hr hs heq
    cases items' with
    | nil => exact ⟨.nil, heq⟩
    | cons b rest' =>
      simp only [List.flatMap_nil, List.nil_append, List.flatMap_cons,
        List.append_assoc] at heq
      rw [heq] at hr
      exact absurd hr (hapart b _ (hitems' b List.mem_cons_self))
  | cons a rest ih =>
    intro items' r s hitems hitems' hr hs heq
    cases items' with
    | nil =>
      simp only [List.flatMap_nil, List.nil_append, List.flatMap_cons,
        List.append_assoc] at heq
      rw [← heq] at hs
      exact absurd hs (hapart a _ (hitems a List.mem_cons_self))
    | cons b rest' =>
      simp only [List.flatMap_cons, List.append_assoc] at heq
      have hrest : ∀ a ∈ rest, ok a :=
        fun c hc => hitems c (List.mem_cons_of_mem _ hc)
      have hrest' : ∀ a ∈ rest', ok a :=
        fun c hc => hitems' c (List.mem_cons_of_mem _ hc)
      obtain ⟨halike, htail⟩ :=
        h (hitems a List.mem_cons_self) (hitems' b List.mem_cons_self)
        (hfollows rest r hrest hr) (hfollows rest' s hrest' hs) heq
      obtain ⟨hall, hrs⟩ := ih hrest hrest' hr hs htail
      exact ⟨.cons halike hall, hrs⟩

/-- A separator stands before each item but the first. -/
theorem intercalate_cons (sep a : List Char) (rest : List (List Char)) :
    sep.intercalate (a :: rest) = a ++ rest.flatMap (sep ++ ·) := by
  induction rest generalizing a with
  | nil => simp [List.intercalate]
  | cons b rest ih =>
    have hrest : (List.intersperse sep (b :: rest)).flatten = b ++
        rest.flatMap (sep ++ ·) := ih b
    rw [List.intercalate, List.intersperse_cons_cons, List.flatten_cons,
      List.flatten_cons, hrest, List.flatMap_cons, List.append_assoc]

/-- Items with separators between them, if a separator shows where an item ends,
and so does what comes after all, which is no separator. -/
theorem Cut.separated {after : List Char → Prop} {sep : List Char}
    (h : Cut write alike ok follows) (hsep : ∀ t, follows (sep ++ t))
    (hafter : ∀ r, after r → follows r) (hapart : ∀ t, ¬after (sep ++ t)) :
    Cut (fun items => sep.intercalate (items.map write)) (List.Forall₂ alike)
      (fun items => items ≠ [] ∧ ∀ a ∈ items, ok a) after := by
  have hitem : Cut (fun a => sep ++ write a) alike ok follows := by
    intro a b r s ha hb hr hs heq
    rw [List.append_assoc, List.append_assoc] at heq
    exact h ha hb hr hs (List.append_cancel_left heq)
  have htail : Cut (fun items => items.flatMap fun a => sep ++ write a)
      (List.Forall₂ alike)
      (fun items => ∀ a ∈ items, ok a) after := by
    refine hitem.flatMap (fun a t _ => ?_) hafter fun a t _ => ?_
    · rw [List.append_assoc]
      exact hsep _
    · rw [List.append_assoc]
      exact hapart _
  have hfollows : ∀ (items : List α) (r : List Char), after r →
      follows (items.flatMap (fun a => sep ++ write a) ++ r) := by
    intro items r hr
    cases items with
    | nil => exact hafter r hr
    | cons a rest =>
      rw [List.flatMap_cons, List.append_assoc, List.append_assoc]
      exact hsep _
  rintro items items' r s ⟨hne, hitems⟩ ⟨hne', hitems'⟩ hr hs heq
  obtain ⟨a, rest, rfl⟩ := List.exists_cons_of_ne_nil hne
  obtain ⟨b, rest', rfl⟩ := List.exists_cons_of_ne_nil hne'
  rw [List.forall_mem_cons] at hitems hitems'
  simp only [List.map_cons, intercalate_cons, List.flatMap_map,
    List.append_assoc] at heq
  obtain ⟨halike, heq'⟩ :=
    h hitems.1 hitems'.1 (hfollows rest r hr) (hfollows rest' s hs) heq
  obtain ⟨hall, hrs⟩ := htail hitems.2 hitems'.2 hr hs heq'
  exact ⟨.cons halike hall, hrs⟩

end DrawnPattern.Query
