set_option autoImplicit false

/-!
# Keyed collections

A `Keyed key` holds at most one item for each key and lists its items in
ascending order of their keys.  Maps (`Map`), sets (`OrderedSet`) and tables of
records that carry their own identity are the same thing with different `key`
functions, so the order in which anything is listed, printed or compared is
fixed here once.

Two collections with the same items are equal, whatever the order of insertion:
the list is the only representation (`Keyed.ext`).
-/

namespace DrawnPattern

/-- Items in strictly ascending order of their keys.  The order is part of the
type, so no two items share a key, and to have the same items is to be equal. -/
structure Keyed {κ α : Type} [Ord κ] (key : α → κ) where
  toList : List α
  ascending : toList.Pairwise fun a b => compare (key a) (key b) = .lt

/-- A map lists pairs by their first component; what is stored twice under a key
is stored once. -/
abbrev Map (κ α : Type) [Ord κ] : Type := Keyed (Prod.fst : κ × α → κ)

/-- A set lists its elements by themselves. -/
abbrev OrderedSet (κ : Type) [Ord κ] : Type := Keyed (id : κ → κ)

namespace Keyed

variable {κ α : Type} [Ord κ] {key : α → κ}

theorem ext {s t : Keyed key} (h : s.toList = t.toList) : s = t := by
  cases s; cases t; cases h; rfl

instance [DecidableEq α] : DecidableEq (Keyed key) := fun s t =>
  if h : s.toList = t.toList then isTrue (ext h) else isFalse fun e =>
    h (congrArg toList e)

/-- The collection without items. -/
def empty : Keyed key := ⟨[], .nil⟩

instance : EmptyCollection (Keyed key) := ⟨empty⟩
instance : Inhabited (Keyed key) := ⟨empty⟩

/-- Number of items. -/
def size (s : Keyed key) : Nat := s.toList.length

def isEmpty (s : Keyed key) : Bool := s.toList.isEmpty

/-- Keys in ascending order. -/
def keys (s : Keyed key) : List κ := s.toList.map key

/-- The item stored under `k`, if there is one.  Keys are compared by their
order, which need not be equality. -/
def find? (s : Keyed key) (k : κ) : Option α :=
  s.toList.find? fun a => compare (key a) k == .eq

/-- Whether some item is stored under `k`. -/
def contains (s : Keyed key) (k : κ) : Bool :=
  s.toList.any fun a => compare (key a) k == .eq

/-! ## Insertion -/

/-- Puts `a` in its place, taking the place of an item with the same key; what
ascends still ascends afterwards. -/
def place (key : α → κ) (a : α) : List α → List α
  | [] => [a]
  | b :: rest =>
    match compare (key a) (key b) with
    | .lt => a :: b :: rest
    | .eq => a :: rest
    | .gt => b :: place key a rest

theorem mem_of_mem_place {a c : α} {l : List α} (h : c ∈ place key a l) :
    c = a ∨ c ∈ l := by
  induction l with
  | nil => simpa [place] using h
  | cons b rest ih =>
    unfold place at h
    split at h
    · simpa using h
    · rcases List.mem_cons.1 h with rfl | h
      · exact .inl rfl
      · exact .inr (List.mem_cons_of_mem _ h)
    · rcases List.mem_cons.1 h with rfl | h
      · exact .inr List.mem_cons_self
      · exact (ih h).imp id (List.mem_cons_of_mem _)

theorem place_ascending [Std.TransOrd κ] (a : α) {l : List α}
    (h : l.Pairwise fun a b => compare (key a) (key b) = .lt) :
    (place key a l).Pairwise fun a b => compare (key a) (key b) = .lt := by
  induction l with
  | nil => simp [place]
  | cons b rest ih =>
    obtain ⟨hb, hrest⟩ := List.pairwise_cons.1 h
    unfold place
    split
    · rename_i hab
      refine List.pairwise_cons.2 ⟨fun c hc => ?_, h⟩
      rcases List.mem_cons.1 hc with rfl | hc
      · exact hab
      · exact Std.TransCmp.lt_trans hab (hb c hc)
    · rename_i hab
      exact List.pairwise_cons.2 ⟨fun c hc =>
        Std.TransCmp.lt_of_eq_of_lt hab (hb c hc), hrest⟩
    · rename_i hab
      refine List.pairwise_cons.2 ⟨fun c hc => ?_, ih hrest⟩
      rcases mem_of_mem_place hc with rfl | hc
      · exact Std.OrientedCmp.lt_of_gt hab
      · exact hb c hc

variable [Std.TransOrd κ]

/-- Stores `a`; an item with the same key makes way for it, so the last one that
is stored stays. -/
def put (s : Keyed key) (a : α) : Keyed key :=
  ⟨place key a s.toList, place_ascending a s.ascending⟩

/-- Stores `a` unless its key is already taken, so the first one that is
stored stays. -/
def putNew (s : Keyed key) (a : α) : Keyed key :=
  if s.contains (key a) then s else s.put a

/-- Stores the items in turn, so the last one with a key stays. -/
def ofList (items : List α) : Keyed key := items.foldl put empty

/-- Stores the items in turn, so the first one with a key stays. -/
def ofListKeepFirst (items : List α) : Keyed key := items.foldl putNew empty

theorem mem_of_mem_put {s : Keyed key} {a c : α} (h : c ∈ (s.put a).toList) :
    c = a ∨ c ∈ s.toList :=
  mem_of_mem_place h

omit [Std.TransOrd κ] in
theorem contains_iff [Std.LawfulEqOrd κ] {s : Keyed key} {k : κ} :
    s.contains k = true ↔ ∃ a ∈ s.toList, key a = k := by
  simp [contains, Std.LawfulEqCmp.compare_eq_iff_eq]

omit [Std.TransOrd κ] in
theorem mem_of_find? [Std.LawfulEqOrd κ] {s : Keyed key} {k : κ} {a : α}
    (h : s.find? k = some a) :
    a ∈ s.toList ∧ key a = k :=
  ⟨List.mem_of_find?_eq_some h,
    by simpa [Std.LawfulEqCmp.compare_eq_iff_eq] using List.find?_some h⟩

omit [Std.TransOrd κ] in
theorem find?_eq_none_iff [Std.LawfulEqOrd κ] {s : Keyed key} {k : κ} :
    s.find? k = none ↔ ∀ a ∈ s.toList, key a ≠ k := by
  simp [find?, Std.LawfulEqCmp.compare_eq_iff_eq]

theorem mem_place_iff {a c : α} {l : List α}
    (h : l.Pairwise fun a b => compare (key a) (key b) = .lt) :
    c ∈ place key a l ↔ c = a ∨ (c ∈ l ∧ compare (key a) (key c) ≠ .eq) := by
  induction l with
  | nil => simp [place]
  | cons b rest ih =>
    obtain ⟨hb, hrest⟩ := List.pairwise_cons.1 h
    unfold place
    split <;> rename_i hab
    · have later : ∀ c ∈ rest, compare (key a) (key c) ≠ .eq := fun c hc => by
        simp [Std.TransCmp.lt_trans hab (hb c hc)]
      constructor
      · intro hc
        rcases List.mem_cons.1 hc with rfl | hc
        · exact .inl rfl
        · refine .inr ⟨hc, ?_⟩
          rcases List.mem_cons.1 hc with rfl | hc
          · simp [hab]
          · exact later c hc
      · rintro (rfl | ⟨hc, -⟩)
        · exact List.mem_cons_self
        · exact List.mem_cons_of_mem _ hc
    · have later : ∀ c ∈ rest, compare (key a) (key c) ≠ .eq := fun c hc => by
        simp [Std.TransCmp.lt_of_eq_of_lt hab (hb c hc)]
      constructor
      · intro hc
        rcases List.mem_cons.1 hc with rfl | hc
        · exact .inl rfl
        · exact .inr ⟨List.mem_cons_of_mem _ hc, later c hc⟩
      · rintro (rfl | ⟨hc, hne⟩)
        · exact List.mem_cons_self
        · rcases List.mem_cons.1 hc with rfl | hc
          · exact absurd hab hne
          · exact List.mem_cons_of_mem _ hc
    · rw [List.mem_cons, ih hrest, List.mem_cons]
      constructor
      · rintro (rfl | rfl | ⟨hc, hne⟩)
        · exact .inr ⟨.inl rfl, by simp [hab]⟩
        · exact .inl rfl
        · exact .inr ⟨.inr hc, hne⟩
      · rintro (rfl | ⟨rfl | hc, hne⟩)
        · exact .inr (.inl rfl)
        · exact .inl rfl
        · exact .inr (.inr ⟨hc, hne⟩)

/-- The new item is in, and so is every old one under another key. -/
theorem mem_put_iff {s : Keyed key} {a c : α} :
    c ∈ (s.put a).toList ↔
    c = a ∨ (c ∈ s.toList ∧ compare (key a) (key c) ≠ .eq) :=
  mem_place_iff s.ascending

/-! ## Changing items in place -/

omit [Std.TransOrd κ] in
theorem map_ascending {s : Keyed key} {f : α → α} (h : ∀ a, key (f a) = key a) :
    (s.toList.map f).Pairwise fun a b => compare (key a) (key b) = .lt := by
  rw [List.pairwise_map]
  exact s.ascending.imp fun hab => by rw [h, h]; exact hab

omit [Std.TransOrd κ] in
/-- Changes every item by a function that leaves its key alone. -/
def map (s : Keyed key) (f : α → α) (h : ∀ a, key (f a) = key a) : Keyed key :=
  ⟨s.toList.map f, map_ascending h⟩

end Keyed

namespace OrderedSet

theorem mem_put_iff {κ : Type} [Ord κ] [Std.TransOrd κ] [Std.LawfulEqOrd κ]
    {s : OrderedSet κ} {a c : κ} :
    c ∈ (s.put a).toList ↔ c = a ∨ c ∈ s.toList := by
  rw [Keyed.mem_put_iff]
  constructor
  · exact Or.imp id And.left
  · rintro (rfl | hc)
    · exact .inl rfl
    · by_cases h : c = a
      · exact .inl h
      · exact .inr ⟨hc, fun e => h (Std.LawfulEqCmp.compare_eq_iff_eq.1 e).symm⟩

end OrderedSet

namespace Map

variable {κ α : Type} [Ord κ]

/-- The value stored under `k`. -/
def get? (m : Map κ α) (k : κ) : Option α := (m.find? k).map Prod.snd

/-- Values in ascending order of their keys. -/
def values (m : Map κ α) : List α := m.toList.map Prod.snd

/-- Stores `v` under `k`, replacing what was there. -/
def insert [Std.TransOrd κ] (m : Map κ α) (k : κ) (v : α) : Map κ α :=
  m.put (k, v)

/-- Stores `v` under `k` unless there is something already. -/
def insertNew [Std.TransOrd κ] (m : Map κ α) (k : κ) (v : α) : Map κ α :=
  m.putNew (k, v)

end Map

end DrawnPattern
