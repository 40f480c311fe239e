import DrawnPattern.Json
set_option autoImplicit false

/-!
# What a value is made of

Whether a value can be written and read back is told by three things: how
deep it is (`depth`), which numbers stand in it (`numbers`) and whether all
of it can be held (`readable`).  Each is had from the values that it holds at
once (`Part`).
-/

namespace DrawnPattern.Json

variable {items : List Json} {members : List (String × Json)} {j c : Json}
  {n : Number} {d : Nat}

/-- Whether a value stands in an array or an object, not deeper.  What holds of
the parts is had by induction on it. -/
inductive Part (c : Json) : Json → Prop where
  | item {items : List Json} (h : c ∈ items) : Part c (arr items)
  | member {members : List (String × Json)} {name : String}
    (h : (name, c) ∈ members) :
    Part c (obj members)

/-! ## Depth -/

mutual

/-- How deep arrays and objects are nested; a value that holds none has
depth zero. -/
def depth : Json → Nat
  | arr items => depthItems items + 1
  | obj members => depthMembers members + 1
  | _ => 0

def depthItems : List Json → Nat
  | [] => 0
  | j :: rest => max j.depth (depthItems rest)

def depthMembers : List (String × Json) → Nat
  | [] => 0
  | (_, j) :: rest => max j.depth (depthMembers rest)

end

theorem depthItems_le_iff : depthItems items ≤ d ↔
    ∀ j ∈ items, j.depth ≤ d := by
  induction items with
  | nil => simp [depthItems]
  | cons j rest ih => rw [depthItems, Nat.max_le, ih, List.forall_mem_cons]

theorem depthMembers_le_iff : depthMembers members ≤ d ↔
    ∀ m ∈ members, m.2.depth ≤ d := by
  induction members with
  | nil => simp [depthMembers]
  | cons m rest ih => rw [depthMembers, Nat.max_le, ih, List.forall_mem_cons]

theorem depth_arr_le_iff : (arr items).depth ≤ d + 1 ↔
    ∀ j ∈ items, j.depth ≤ d := by
  rw [depth, Nat.add_le_add_iff_right, depthItems_le_iff]

theorem depth_obj_le_iff : (obj members).depth ≤ d + 1 ↔
    ∀ m ∈ members, m.2.depth ≤ d := by
  rw [depth, Nat.add_le_add_iff_right, depthMembers_le_iff]

theorem Part.depth_lt (h : Part c j) : c.depth < j.depth := by
  cases h with
  | item h => exact Nat.lt_succ_of_le (depthItems_le_iff.1 (Nat.le_refl _) c h)
  | member h =>
    exact Nat.lt_succ_of_le (depthMembers_le_iff.1 (Nat.le_refl _) _ h)

/-! ## Numbers -/

mutual

/-- The numbers that stand anywhere in a value, in the order of its text. -/
def numbers : Json → List Number
  | num n => [n]
  | arr items => numbersItems items
  | obj members => numbersMembers members
  | _ => []

def numbersItems : List Json → List Number
  | [] => []
  | j :: rest => j.numbers ++ numbersItems rest

def numbersMembers : List (String × Json) → List Number
  | [] => []
  | (_, j) :: rest => j.numbers ++ numbersMembers rest

end

theorem mem_numbersItems : n ∈ numbersItems items ↔
    ∃ j ∈ items, n ∈ j.numbers := by
  induction items with
  | nil => simp [numbersItems]
  | cons j rest ih => simp [numbersItems, ih]

theorem mem_numbersMembers : n ∈ numbersMembers members ↔
    ∃ m ∈ members, n ∈ m.2.numbers := by
  induction members with
  | nil => simp [numbersMembers]
  | cons m rest ih => simp [numbersMembers, ih]

theorem Part.mem_numbers (h : Part c j) (hn : n ∈ c.numbers) :
    n ∈ j.numbers := by
  cases h with
  | item h => exact mem_numbersItems.2 ⟨c, h, hn⟩
  | member h => exact mem_numbersMembers.2 ⟨_, h, hn⟩

/-! ## Readability -/

theorem readableItems_iff : readableItems items = true ↔
    ∀ j ∈ items, j.readable = true := by
  induction items with
  | nil => simp [readableItems]
  | cons j rest ih => simp [readableItems, ih]

theorem readableMembers_iff :
    readableMembers members = true ↔ ∀ m ∈ members, m.2.readable = true := by
  induction members with
  | nil => simp [readableMembers]
  | cons m rest ih => simp [readableMembers, ih]

theorem Part.readable (h : Part c j) (hj : j.readable = true) :
    c.readable = true := by
  cases h with
  | item h => exact readableItems_iff.1 (by simpa [Json.readable] using hj) c h
  | member h =>
    exact readableMembers_iff.1 (by simpa [Json.readable] using hj) _ h

end DrawnPattern.Json
