import Mathlib.Data.List.Perm.Basic
set_option autoImplicit false

/-!
# Computations that may fail

What a result says about the steps that led to it: each step of a sequence has
succeeded (`bind_eq_ok_iff`) or one was the first to fail (`bind_eq_error_iff`),
and a pass over a list has succeeded for each item (`mapM_eq_ok_iff`) or failed
as the first did that failed (`mapM_eq_error_iff`).
-/

namespace DrawnPattern

variable {α β γ ε ε' : Type}

theorem exists_ok_of_isOk {x : Except ε α} (h : x.isOk = true) :
    ∃ a, x = .ok a := by
  cases x with
  | error fault => cases h
  | ok a => exact ⟨a, rfl⟩

/-- A sequence succeeds iff its steps do.  Everything about code that may fail
is taken apart by this and its counterpart for faults. -/
theorem bind_eq_ok_iff {x : Except ε α} {f : α → Except ε β} {b : β} :
    x >>= f = .ok b ↔ ∃ a, x = .ok a ∧ f a = .ok b := by
  cases x with
  | error fault =>
    constructor
    · intro h
      cases h
    · rintro ⟨a, ha, -⟩
      cases ha
  | ok a =>
    constructor
    · exact fun h => ⟨a, rfl, h⟩
    · rintro ⟨_, ⟨⟩, h⟩
      exact h

theorem exists_bind_eq_ok_iff {x : Except ε α} {f : α → Except ε β} :
    (∃ b, x >>= f = .ok b) ↔ ∃ a, x = .ok a ∧ ∃ b, f a = .ok b := by
  simp only [bind_eq_ok_iff]
  constructor
  · rintro ⟨b, a, ha, hb⟩
    exact ⟨a, ha, b, hb⟩
  · rintro ⟨a, ha, b, hb⟩
    exact ⟨b, a, ha, hb⟩

/-- A sequence fails iff a step does after those before it succeeded. -/
theorem bind_eq_error_iff {x : Except ε α} {f : α → Except ε β} {fault : ε} :
    x >>= f = .error fault ↔ x = .error fault ∨
    ∃ a, x = .ok a ∧ f a = .error fault := by
  cases x with
  | error first =>
    constructor
    · intro h
      cases h
      exact .inl rfl
    · rintro (⟨⟨⟩⟩ | ⟨a, ha, -⟩)
      · rfl
      · cases ha
  | ok a =>
    constructor
    · exact fun h => .inr ⟨a, rfl, h⟩
    · rintro (h | ⟨_, ⟨⟩, h⟩)
      · cases h
      · exact h

/-- Rewording a fault changes no result. -/
theorem mapError_eq_ok_iff {f : ε → ε'} {x : Except ε α} {a : α} :
    x.mapError f = .ok a ↔ x = .ok a := by
  cases x with
  | error fault =>
    constructor
    · intro h
      cases h
    · intro h
      cases h
  | ok b =>
    constructor
    · intro h
      cases h
      rfl
    · intro h
      cases h
      rfl

/-- What is reworded is a fault. -/
theorem mapError_eq_error_iff {f : ε → ε'} {x : Except ε α} {fault : ε'} :
    x.mapError f = .error fault ↔
    ∃ first, x = .error first ∧ f first = fault := by
  cases x with
  | error first =>
    constructor
    · intro h
      cases h
      exact ⟨first, rfl, rfl⟩
    · rintro ⟨_, ⟨⟩, rfl⟩
      rfl
  | ok a =>
    constructor
    · intro h
      cases h
    · rintro ⟨first, h, -⟩
      cases h

/-! ## Results that are left out -/

theorem discard_eq_ok_iff {x : Except ε α} : discard x = .ok () ↔
    ∃ a, x = .ok a := by
  cases x with
  | error fault =>
    exact iff_of_false (fun h => nomatch h) fun ⟨_, h⟩ => nomatch h
  | ok a => exact iff_of_true rfl ⟨a, rfl⟩

theorem discard_eq_error_iff {x : Except ε α} {fault : ε} :
    discard x = .error fault ↔ x = .error fault := by
  cases x with
  | error first =>
    constructor
    · intro h
      cases h
      rfl
    · intro h
      cases h
      rfl
  | ok a => exact iff_of_false (fun h => nomatch h) fun h => nomatch h

theorem discard_bind (x : Except ε α) (next : α → Except ε β) :
    discard (x >>= next) = x >>= fun a => discard (next a) := by
  cases x <;> rfl

theorem bind_discard (x : Except ε α) (next : Except ε β) :
    (discard x >>= fun _ => next) = x >>= fun _ => next := by
  cases x <;> rfl

/-! ## Passes over lists -/

/-- Items that correspond place by place have counterparts on either side. -/
theorem exists_mem_of_forall₂ {R : α → β → Prop} {items : List α}
    {others : List β} (h : List.Forall₂ R items others) :
    (∀ a ∈ items, ∃ b ∈ others, R a b) ∧ ∀ b ∈ others, ∃ a ∈ items, R a b := by
  induction h with
  | nil =>
    exact ⟨fun a ha => absurd ha List.not_mem_nil,
      fun b hb => absurd hb List.not_mem_nil⟩
  | cons hfirst _ ih =>
    constructor
    · intro a ha
      rcases List.mem_cons.1 ha with rfl | hrest
      · exact ⟨_, List.mem_cons_self, hfirst⟩
      · obtain ⟨b, hb, hR⟩ := ih.1 a hrest
        exact ⟨b, List.mem_cons_of_mem _ hb, hR⟩
    · intro b hb
      rcases List.mem_cons.1 hb with rfl | hrest
      · exact ⟨_, List.mem_cons_self, hfirst⟩
      · obtain ⟨a, ha, hR⟩ := ih.2 b hrest
        exact ⟨a, List.mem_cons_of_mem _ ha, hR⟩

/-- A pass succeeds iff it does for each item, in order, with one result
for each. -/
theorem mapM_eq_ok_iff {f : α → Except ε β} {items : List α} :
    ∀ {results : List β},
    items.mapM f = .ok results ↔
    List.Forall₂ (fun a b => f a = .ok b) items results := by
  induction items with
  | nil =>
    intro results
    rw [List.forall₂_nil_left_iff]
    constructor
    · intro h
      cases h
      rfl
    · rintro rfl
      rfl
  | cons a rest ih =>
    intro results
    simp only [List.mapM_cons, bind_eq_ok_iff, ih]
    constructor
    · rintro ⟨b, ha, others, hrest, ⟨⟩⟩
      exact .cons ha hrest
    · intro h
      cases h with
      | cons ha hrest => exact ⟨_, ha, _, hrest, rfl⟩

/-- Passes that do the same for items in the same places have the
same results. -/
theorem mapM_eq_ok_iff_of_forall₂ {f : α → Except ε γ} {g : β → Except ε γ}
    {items : List α} {others : List β}
    (h : List.Forall₂ (fun a b => ∀ c, f a = .ok c ↔ g b = .ok c)
      items others) :
    ∀ {results : List γ}, items.mapM f = .ok results ↔
      others.mapM g = .ok results := by
  induction h with
  | nil =>
    intro results
    rfl
  | cons hfirst _ ih =>
    intro results
    simp only [List.mapM_cons, bind_eq_ok_iff, ih, hfirst]

/-- A pass over the items in another order has its results in another order. -/
theorem exists_perm_of_mapM_eq_ok {f : α → Except ε β} {items others : List α}
    {results : List β} (hperm : others.Perm items)
    (h : items.mapM f = .ok results) :
    ∃ results', others.mapM f = .ok results' ∧ results'.Perm results := by
  obtain ⟨results', hresults, hperm'⟩ :=
    List.perm_comp_forall₂ hperm (mapM_eq_ok_iff.1 h)
  exact ⟨results', mapM_eq_ok_iff.2 hresults, hperm'⟩

/-! ## The first failure -/

/-- Whether this is the fault of a bad item that only good ones precede: what a
pass that stops at the first fault reports. -/
def FirstBad (good : α → Prop) (bad : α → ε → Prop) (items : List α)
    (fault : ε) : Prop :=
  ∃ before a after, items = before ++ a :: after ∧ (∀ b ∈ before, good b) ∧
    bad a fault

variable {good : α → Prop} {bad : α → ε → Prop}

theorem not_firstBad_nil {fault : ε} : ¬FirstBad good bad [] fault := by
  rintro ⟨before, a, after, h, -⟩
  exact List.append_ne_nil_of_right_ne_nil before
    (List.cons_ne_nil a after) h.symm

theorem firstBad_cons_iff {a : α} {rest : List α} {fault : ε} :
    FirstBad good bad (a :: rest) fault ↔ bad a fault ∨
    (good a ∧ FirstBad good bad rest fault) := by
  constructor
  · rintro ⟨before, a', after, h, hbefore, hbad⟩
    rcases List.cons_eq_append_iff.1 h with ⟨rfl, heq⟩ | ⟨before, rfl, rfl⟩
    · obtain ⟨rfl, -⟩ := List.cons.inj heq
      exact .inl hbad
    · obtain ⟨hfirst, hbefore⟩ := List.forall_mem_cons.1 hbefore
      exact .inr ⟨hfirst, before, a', after, rfl, hbefore, hbad⟩
  · rintro (hbad | ⟨hfirst, before, a', after, rfl, hbefore, hbad⟩)
    · exact ⟨[], a, rest, rfl, fun _ h => absurd h List.not_mem_nil, hbad⟩
    · exact ⟨a :: before, a', after, rfl,
        List.forall_mem_cons.2 ⟨hfirst, hbefore⟩, hbad⟩

/-- A pass fails as the first item does that does; the items before it succeed,
and those after it are not looked at. -/
theorem mapM_eq_error_iff {f : α → Except ε β} {items : List α} {fault : ε} :
    items.mapM f = .error fault ↔
      FirstBad (fun a => ∃ b, f a = .ok b) (fun a fault => f a = .error fault)
      items fault := by
  induction items with
  | nil => exact iff_of_false (fun h => nomatch h) not_firstBad_nil
  | cons a rest ih =>
    simp only [List.mapM_cons, bind_eq_error_iff, firstBad_cons_iff, ← ih]
    refine or_congr_right ⟨?_, ?_⟩
    · rintro ⟨b, ha, hrest | ⟨others, -, ⟨⟩⟩⟩
      exact ⟨⟨b, ha⟩, hrest⟩
    · rintro ⟨⟨b, ha⟩, hrest⟩
      exact ⟨b, ha, .inl hrest⟩

/-- A pass that fails fails for some item. -/
theorem exists_of_mapM_eq_error {f : α → Except ε β} {items : List α}
    {fault : ε} (h : items.mapM f = .error fault) :
    ∃ a ∈ items, f a = .error fault := by
  obtain ⟨before, a, after, rfl, -, hfault⟩ := mapM_eq_error_iff.1 h
  exact ⟨a, List.mem_append_right before List.mem_cons_self, hfault⟩

theorem forM_cons (f : α → Except ε Unit) (a : α) (rest : List α) :
    (a :: rest).forM f = f a >>= fun _ => rest.forM f := rfl

/-- A pass for its effects succeeds iff it does for each item. -/
theorem forM_eq_ok_iff {f : α → Except ε Unit} {items : List α} :
    items.forM f = .ok () ↔ ∀ a ∈ items, f a = .ok () := by
  induction items with
  | nil => exact iff_of_true rfl fun _ h => absurd h List.not_mem_nil
  | cons a rest ih =>
    rw [forM_cons, bind_eq_ok_iff, List.forall_mem_cons, ← ih]
    exact ⟨fun ⟨_, hall⟩ => hall, fun hall => ⟨(), hall⟩⟩

theorem forM_eq_error_iff {f : α → Except ε Unit} {items : List α} {fault : ε} :
    items.forM f = .error fault ↔
      FirstBad (fun a => f a = .ok ()) (fun a fault => f a = .error fault)
      items fault := by
  induction items with
  | nil => exact iff_of_false (fun h => nomatch h) not_firstBad_nil
  | cons a rest ih =>
    rw [forM_cons, bind_eq_error_iff, firstBad_cons_iff, ← ih]
    exact or_congr_right ⟨fun ⟨_, hlater⟩ => hlater, fun hlater => ⟨(), hlater⟩⟩

/-- Two passes, one after the other. -/
theorem forM_append (f : α → Except ε Unit) (items others : List α) :
    (items ++ others).forM f = items.forM f >>= fun _ => others.forM f := by
  induction items with
  | nil => rfl
  | cons a rest ih =>
    rw [List.cons_append, forM_cons, forM_cons, ih, bind_assoc]

/-! ## All items of a pass -/

/-- A pass succeeds as soon as it does for each item. -/
theorem exists_mapM_eq_ok_iff {f : α → Except ε β} {items : List α} :
    (∃ results, items.mapM f = .ok results) ↔ ∀ a ∈ items, ∃ b,
    f a = .ok b := by
  induction items with
  | nil => exact iff_of_true ⟨[], rfl⟩ fun a ha => absurd ha List.not_mem_nil
  | cons a rest ih =>
    simp only [List.mapM_cons, bind_eq_ok_iff, List.forall_mem_cons, ← ih]
    constructor
    · rintro ⟨results, b, ha, others, hrest, -⟩
      exact ⟨⟨b, ha⟩, others, hrest⟩
    · rintro ⟨⟨b, ha⟩, others, hrest⟩
      exact ⟨_, b, ha, others, hrest, rfl⟩

/-- The results of a pass are those for its items, and no others; their order is
left out here. -/
theorem mem_iff_of_mapM_eq_ok {f : α → Except ε β} {items : List α} {b : β} :
    ∀ {results : List β}, items.mapM f = .ok results →
      (b ∈ results ↔ ∃ a ∈ items, f a = .ok b) := by
  induction items with
  | nil =>
    intro results h
    cases h
    exact iff_of_false List.not_mem_nil fun ⟨a, ha, _⟩ => List.not_mem_nil ha
  | cons a rest ih =>
    intro results h
    rw [List.mapM_cons, bind_eq_ok_iff] at h
    obtain ⟨first, ha, h⟩ := h
    rw [bind_eq_ok_iff] at h
    obtain ⟨others, hrest, ⟨⟩⟩ := h
    rw [List.mem_cons, ih hrest]
    simp only [List.mem_cons, exists_eq_or_imp, ha, Except.ok.injEq,
      eq_comm (a := b)]

/-- Reading each of some written items yields what was to be read. -/
theorem mapM_map_eq_ok {write : α → β} {read : β → Except ε γ} {f : α → γ}
    {items : List α} (h : ∀ a ∈ items, read (write a) = .ok (f a)) :
    (items.map write).mapM read = .ok (items.map f) := by
  induction items with
  | nil => rfl
  | cons a rest ih =>
    rw [List.map_cons, List.mapM_cons, h a List.mem_cons_self,
      ih fun b hb => h b (List.mem_cons_of_mem _ hb)]
    rfl

/-- Where only what is written and passes a test can be read, a list is read iff
its items are written and pass. -/
theorem mapM_eq_ok_iff_eq_map_and {write : α → β} {read : β → Except ε α}
    {P : α → Prop} (h : ∀ b a, read b = .ok a ↔ b = write a ∧ P a)
    {texts : List β} : ∀ {items : List α},
    texts.mapM read = .ok items ↔ texts = items.map write ∧
    ∀ a ∈ items, P a := by
  intro items
  rw [mapM_eq_ok_iff]
  simp only [h]
  constructor
  · intro hread
    induction hread with
    | nil => simp
    | cons hfirst _ ih =>
      obtain ⟨rfl, hwritten⟩ := hfirst
      obtain ⟨rfl, hall⟩ := ih
      exact ⟨rfl, List.forall_mem_cons.2 ⟨hwritten, hall⟩⟩
  · rintro ⟨rfl, hall⟩
    rw [List.forall₂_map_left_iff, List.forall₂_same]
    exact fun a ha => ⟨rfl, hall a ha⟩

/-- Where only what is written can be read, a list is read iff its items
are written. -/
theorem mapM_eq_ok_iff_eq_map {write : α → β} {read : β → Except ε α}
    (h : ∀ b a, read b = .ok a ↔ b = write a) {texts : List β}
    {items : List α} :
    texts.mapM read = .ok items ↔ texts = items.map write := by
  have h' : ∀ b a, read b = .ok a ↔ b = write a ∧ True := by
    simpa only [and_true] using h
  rw [mapM_eq_ok_iff_eq_map_and h']
  exact and_iff_left fun _ _ => trivial

end DrawnPattern
