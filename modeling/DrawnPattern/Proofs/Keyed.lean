import DrawnPattern.Keyed
import Mathlib.Data.List.Induction
import Mathlib.Data.List.Nodup
set_option autoImplicit false

/-!
# Looking things up in keyed collections

Keys are distinct, so an item is found under its key and nothing else is
(`find?_eq_some_iff`).  A list in ascending order is the collection of its items
(`toList_ofList`), and of several items with one key the first stays or the
last, as asked (`mem_ofListKeepFirst`).
-/

namespace DrawnPattern.Keyed

variable {κ α : Type} [Ord κ] [Std.LawfulEqOrd κ] {key : α → κ}

/-! ## Keys -/

omit [Std.LawfulEqOrd κ] in
theorem keys_pairwise_lt (s : Keyed key) : s.keys.Pairwise fun a b =>
    compare a b = .lt :=
  List.pairwise_map.2 s.ascending

theorem keys_nodup (s : Keyed key) : s.keys.Nodup := by
  apply (keys_pairwise_lt s).imp
  intro a b hlt
  rintro rfl
  simp [Std.LawfulEqCmp.compare_eq_iff_eq.2 rfl] at hlt

theorem toList_nodup (s : Keyed key) : s.toList.Nodup :=
  List.Nodup.of_map key (keys_nodup s)

/-- Two items with one key are the same item. -/
theorem eq_of_key_eq {s : Keyed key} {a b : α} (ha : a ∈ s.toList)
    (hb : b ∈ s.toList) (h : key a = key b) : a = b :=
  List.inj_on_of_nodup_map (keys_nodup s) ha hb h

omit [Std.LawfulEqOrd κ] in
theorem mem_keys {s : Keyed key} {k : κ} : k ∈ s.keys ↔
    ∃ a ∈ s.toList, key a = k := by
  simp [keys]

omit [Std.LawfulEqOrd κ] in
theorem key_mem_keys {s : Keyed key} {a : α} (ha : a ∈ s.toList) :
    key a ∈ s.keys :=
  List.mem_map_of_mem ha

omit [Std.LawfulEqOrd κ] in
/-- What holds of earlier and later items holds of items with a lower and a
higher key. -/
theorem rel_of_key_lt [Std.TransOrd κ] {s : Keyed key} {R : α → α → Prop}
    (h : s.toList.Pairwise R) {a b : α} (ha : a ∈ s.toList) (hb : b ∈ s.toList)
    (hlt : compare (key a) (key b) = .lt) : R a b := by
  obtain ⟨i, hi, rfl⟩ := List.getElem_of_mem ha
  obtain ⟨j, hj, rfl⟩ := List.getElem_of_mem hb
  rcases Nat.lt_trichotomy i j with hij | rfl | hji
  · exact List.pairwise_iff_getElem.1 h i j hi hj hij
  · cases Std.ReflCmp.compare_self.symm.trans hlt
  · have hgt := List.pairwise_iff_getElem.1 s.ascending j i hj hi hji
    exact absurd hgt (Std.OrientedCmp.not_lt_of_lt hlt)

/-! ## Finding -/

theorem find?_eq_some_iff {s : Keyed key} {k : κ} {a : α} :
    s.find? k = some a ↔ a ∈ s.toList ∧ key a = k := by
  constructor
  · exact mem_of_find?
  · rintro ⟨ha, rfl⟩
    cases hfind : s.find? (key a) with
    | none => exact absurd rfl (find?_eq_none_iff.1 hfind a ha)
    | some b =>
      obtain ⟨hb, hkey⟩ := mem_of_find? hfind
      rw [eq_of_key_eq hb ha hkey]

theorem find?_key {s : Keyed key} {a : α} (ha : a ∈ s.toList) :
    s.find? (key a) = some a :=
  find?_eq_some_iff.2 ⟨ha, rfl⟩

theorem contains_eq_false_iff {s : Keyed key} {k : κ} :
    s.contains k = false ↔ ∀ a ∈ s.toList, key a ≠ k := by
  rw [← Bool.not_eq_true, contains_iff]
  push Not
  rfl

omit [Std.LawfulEqOrd κ] in
theorem find?_map {s : Keyed key} {f : α → α} (h : ∀ a, key (f a) = key a)
    (k : κ) :
    (s.map f h).find? k = (s.find? k).map f := by
  rw [find?, find?, map, List.find?_map]
  simp only [Function.comp_def, h]

/-- Collections whose items correspond key by key are looked up alike. -/
theorem rel_find? {s t : Keyed key} {R : α → α → Prop}
    (hs : ∀ a ∈ s.toList, ∃ b ∈ t.toList, key a = key b ∧ R a b)
    (ht : ∀ b ∈ t.toList, ∃ a ∈ s.toList, key a = key b) (k : κ) :
    Option.Rel R (s.find? k) (t.find? k) := by
  cases hfind : s.find? k with
  | none =>
    have hnone : t.find? k = none := by
      apply find?_eq_none_iff.2
      intro b hb hkey
      obtain ⟨a, ha, hab⟩ := ht b hb
      exact find?_eq_none_iff.1 hfind a ha (hab.trans hkey)
    rw [hnone]
    exact .none
  | some a =>
    obtain ⟨ha, rfl⟩ := mem_of_find? hfind
    obtain ⟨b, hb, hab, hR⟩ := hs a ha
    rw [hab, find?_key hb]
    exact .some hR

/-- What is found first is found in the item with the least key. -/
theorem findSome?_eq_some_iff {β : Type} {s : Keyed key}
    {f : α → Option β} {b : β} [Std.TransOrd κ] :
    s.toList.findSome? f = some b ↔ ∃ a ∈ s.toList, f a = some b ∧
      ∀ c ∈ s.toList, compare (key c) (key a) = .lt → f c = none := by
  have hfirst : ∀ b, s.toList.findSome? f = some b →
      ∃ a ∈ s.toList, f a = some b ∧
      ∀ c ∈ s.toList, compare (key c) (key a) = .lt → f c = none := by
    intro b h
    obtain ⟨before, a, after, heq, ha, hbefore⟩ :=
      List.findSome?_eq_some_iff.1 h
    have hascending := s.ascending
    rw [heq] at hascending ⊢
    refine ⟨a, List.mem_append_right _ List.mem_cons_self, ha,
      fun c hc hlt => ?_⟩
    rcases List.mem_append.1 hc with hc | hc
    · exact hbefore c hc
    · have hnot : compare (key a) (key c) ≠ .lt := by
        rw [Std.OrientedCmp.gt_of_lt hlt]
        decide
      rcases List.mem_cons.1 hc with rfl | hc
      · exact absurd hlt hnot
      · have hlater :=
          (List.pairwise_cons.1 (List.pairwise_append.1 hascending).2.1).1
        exact absurd (hlater c hc) hnot
  refine ⟨hfirst b, ?_⟩
  rintro ⟨a, ha, hfa, hleast⟩
  cases hfound : s.toList.findSome? f with
  | none =>
    rw [List.findSome?_eq_none_iff.1 hfound a ha] at hfa
    cases hfa
  | some b' =>
    obtain ⟨a', ha', hfa', hleast'⟩ := hfirst b' hfound
    cases horder : compare (key a') (key a) with
    | lt =>
      rw [hleast a' ha' horder] at hfa'
      cases hfa'
    | gt =>
      rw [hleast' a ha (Std.OrientedCmp.lt_of_gt horder)] at hfa
      cases hfa
    | eq =>
      rw [eq_of_key_eq ha' ha (Std.LawfulEqCmp.compare_eq_iff_eq.1 horder),
        hfa] at hfa'
      exact hfa'.symm

/-! ## Storing lists -/

variable [Std.TransOrd κ]

/-- Collections with the same items are equal, since there is one order in which
their keys ascend. -/
theorem ext_mem {s t : Keyed key} (h : ∀ a, a ∈ s.toList ↔ a ∈ t.toList) :
    s = t := by
  have hperm :=
    (List.perm_ext_iff_of_nodup (toList_nodup s) (toList_nodup t)).2 h
  refine ext (hperm.eq_of_pairwise (fun a b _ _ hab hba => ?_) s.ascending
    t.ascending)
  rw [Std.OrientedCmp.gt_of_lt hba] at hab
  cases hab

omit [Std.LawfulEqOrd κ] in
/-- An item above all others goes to the end. -/
theorem place_eq_append {a : α} {l : List α}
    (h : ∀ b ∈ l, compare (key b) (key a) = .lt) :
    place key a l = l ++ [a] := by
  induction l with
  | nil => rfl
  | cons b rest ih =>
    have hgt : compare (key a) (key b) = .gt :=
      Std.OrientedCmp.gt_of_lt (h b List.mem_cons_self)
    rw [place, hgt]
    show b :: place key a rest = _
    rw [ih fun c hc => h c (List.mem_cons_of_mem _ hc)]
    rfl

omit [Std.LawfulEqOrd κ] in
theorem toList_foldl_put {items : List α} :
    ∀ {s : Keyed key},
    (s.toList ++ items).Pairwise (fun a b => compare (key a) (key b) = .lt) →
      (items.foldl put s).toList = s.toList ++ items := by
  induction items with
  | nil => simp
  | cons a rest ih =>
    intro s h
    have hput : (s.put a).toList = s.toList ++ [a] := by
      apply place_eq_append
      intro b hb
      exact (List.pairwise_append.1 h).2.2 b hb a List.mem_cons_self
    rw [List.foldl_cons, ih, hput, List.append_assoc, List.singleton_append]
    rw [hput, List.append_assoc, List.singleton_append]
    exact h

omit [Std.LawfulEqOrd κ] in
/-- Items that ascend are stored as they are. -/
theorem toList_ofList {items : List α}
    (h : items.Pairwise fun a b => compare (key a) (key b) = .lt) :
    (ofList items : Keyed key).toList = items :=
  toList_foldl_put (s := empty) h

omit [Std.LawfulEqOrd κ] in
theorem ofList_toList (s : Keyed key) : ofList s.toList = s :=
  ext (toList_ofList s.ascending)

omit [Std.LawfulEqOrd κ] in
theorem mem_of_mem_foldl_put {items : List α} {a : α} : ∀ {s : Keyed key},
    a ∈ (items.foldl put s).toList → a ∈ s.toList ∨ a ∈ items := by
  induction items with
  | nil => exact fun h => .inl h
  | cons b rest ih =>
    intro s h
    rcases ih h with hs | hrest
    · rcases mem_of_mem_put hs with rfl | hs
      · exact .inr List.mem_cons_self
      · exact .inl hs
    · exact .inr (List.mem_cons_of_mem _ hrest)

/-- What is stored stays if nothing with its key comes later. -/
theorem mem_foldl_put_of_mem {items : List α} {a : α} :
    ∀ {s : Keyed key}, a ∈ s.toList →
    (∀ b ∈ items, key b ≠ key a) → a ∈ (items.foldl put s).toList := by
  induction items with
  | nil => exact fun h _ => h
  | cons b rest ih =>
    intro s ha hfree
    refine ih (mem_put_iff.2 (.inr ⟨ha, fun heq => ?_⟩)) fun c hc =>
      hfree c (List.mem_cons_of_mem _ hc)
    exact hfree b List.mem_cons_self (Std.LawfulEqCmp.compare_eq_iff_eq.1 heq)

omit [Std.LawfulEqOrd κ] in
/-- Storing items yields no others. -/
theorem mem_of_mem_ofList {items : List α} {a : α}
    (h : a ∈ (ofList items : Keyed key).toList) :
    a ∈ items := by
  rcases mem_of_mem_foldl_put h with hs | hitems
  · exact absurd hs List.not_mem_nil
  · exact hitems

/-- Items with distinct keys are all stored, in whatever order they come. -/
theorem mem_ofList_of_nodup {items : List α} {a : α}
    (h : (items.map key).Nodup) :
    a ∈ (ofList items : Keyed key).toList ↔ a ∈ items := by
  refine ⟨mem_of_mem_ofList, fun ha => ?_⟩
  obtain ⟨before, after, rfl⟩ := List.append_of_mem ha
  rw [List.map_append, List.map_cons, List.nodup_append] at h
  rw [ofList, List.foldl_append, List.foldl_cons]
  refine mem_foldl_put_of_mem (mem_put_iff.2 (.inl rfl)) fun b hb heq => ?_
  exact (List.nodup_cons.1 h.2.1).1 (List.mem_map.2 ⟨b, hb, heq⟩)

/-- What was stored last is found under its key, and everything else
as before. -/
theorem find?_put {s : Keyed key} {a : α} {k : κ} [DecidableEq κ] :
    (s.put a).find? k = if key a = k then some a else s.find? k := by
  split
  · rename_i hkey
    exact find?_eq_some_iff.2 ⟨mem_put_iff.2 (.inl rfl), hkey⟩
  · rename_i hkey
    have hother : ∀ b, b ∈ (s.put a).toList ∧ key b = k ↔ b ∈ s.toList ∧
        key b = k := by
      intro b
      rw [mem_put_iff]
      constructor
      · rintro ⟨rfl | hb, hb'⟩
        · exact absurd hb' hkey
        · exact ⟨hb.1, hb'⟩
      · rintro ⟨hb, hb'⟩
        refine ⟨.inr ⟨hb, fun heq => hkey ?_⟩, hb'⟩
        rw [Std.LawfulEqCmp.compare_eq_iff_eq.1 heq, hb']
    apply Option.ext
    intro b
    rw [find?_eq_some_iff, find?_eq_some_iff, hother]

/-- What is stored takes no other key. -/
theorem contains_put_eq_false {s : Keyed key} {a : α} {k : κ}
    (hfree : s.contains k = false) (hkey : key a ≠ k) :
    (s.put a).contains k = false := by
  rw [contains_eq_false_iff]
  intro b hb
  rcases mem_of_mem_put hb with rfl | hb
  · exact hkey
  · exact contains_eq_false_iff.1 hfree b hb

theorem mem_putNew_iff {s : Keyed key} {a c : α} :
    c ∈ (s.putNew a).toList ↔ c ∈ s.toList ∨
    (c = a ∧ ∀ b ∈ s.toList, key b ≠ key a) := by
  unfold putNew
  split
  · rename_i htaken
    obtain ⟨b, hb, hkey⟩ := contains_iff.1 htaken
    constructor
    · exact .inl
    · rintro (hc | ⟨-, hfree⟩)
      · exact hc
      · exact absurd hkey (hfree b hb)
  · rename_i hfree
    rw [Bool.not_eq_true, contains_eq_false_iff] at hfree
    rw [mem_put_iff]
    constructor
    · rintro (rfl | ⟨hc, -⟩)
      · exact .inr ⟨rfl, hfree⟩
      · exact .inl hc
    · rintro (hc | ⟨rfl, -⟩)
      · refine .inr ⟨hc, fun heq => hfree c hc ?_⟩
        exact (Std.LawfulEqCmp.compare_eq_iff_eq.1 heq).symm
      · exact .inl rfl

/-- What was there stays, and of the others the first with its key is added. -/
theorem mem_foldl_putNew {items : List α} {c : α} : ∀ {s : Keyed key},
    c ∈ (items.foldl putNew s).toList ↔ c ∈ s.toList ∨
    ((∀ b ∈ s.toList, key b ≠ key c) ∧
      items.find? (fun a => compare (key a) (key c) == .eq) = some c) := by
  induction items with
  | nil => simp
  | cons a rest ih =>
    intro s
    rw [List.foldl_cons, ih, mem_putNew_iff, List.find?_cons]
    by_cases hkey : key a = key c
    · have heq : (compare (key a) (key c) == .eq) = true := by
        simp [Std.LawfulEqCmp.compare_eq_iff_eq.2 hkey]
      simp only [heq, Option.some.injEq]
      constructor
      · rintro ((hc | ⟨rfl, hfree⟩) | ⟨hfree, -⟩)
        · exact .inl hc
        · exact .inr ⟨hfree, rfl⟩
        · by_cases hs : ∀ b ∈ s.toList, key b ≠ key a
          · exact absurd hkey (hfree a (mem_putNew_iff.2 (.inr ⟨rfl, hs⟩)))
          · push Not at hs
            obtain ⟨b, hb, hba⟩ := hs
            exact absurd (hba.trans hkey) (hfree b (mem_putNew_iff.2 (.inl hb)))
      · rintro (hc | ⟨hfree, rfl⟩)
        · exact .inl (.inl hc)
        · exact .inl (.inr ⟨rfl, hfree⟩)
    · have hne : (compare (key a) (key c) == .eq) = false := by
        simpa [Std.LawfulEqCmp.compare_eq_iff_eq] using hkey
      have hca : c ≠ a := fun h => hkey (congrArg key h.symm)
      have hfree : (∀ b ∈ (s.putNew a).toList, key b ≠ key c) ↔
          ∀ b ∈ s.toList, key b ≠ key c := by
        constructor
        · exact fun h b hb => h b (mem_putNew_iff.2 (.inl hb))
        · rintro h b hb
          rcases mem_putNew_iff.1 hb with hb | ⟨rfl, -⟩
          · exact h b hb
          · exact hkey
      simp only [hne, hfree, hca, false_and, or_false]

/-- Of the items with one key the first is kept, and it is kept as it was. -/
theorem mem_ofListKeepFirst {items : List α} {c : α} :
    c ∈ (ofListKeepFirst items : Keyed key).toList ↔
      items.find? (fun a => compare (key a) (key c) == .eq) = some c := by
  rw [ofListKeepFirst, mem_foldl_putNew]
  constructor
  · rintro (hc | ⟨-, hc⟩)
    · exact absurd hc List.not_mem_nil
    · exact hc
  · exact fun hc => .inr ⟨fun b hb => absurd hb List.not_mem_nil, hc⟩

/-- Under each key the first item with it is found. -/
theorem find?_ofListKeepFirst (items : List α) (k : κ) :
    (ofListKeepFirst items : Keyed key).find? k =
      items.find? fun a => compare (key a) k == .eq := by
  apply Option.ext
  intro c
  rw [find?_eq_some_iff, mem_ofListKeepFirst]
  constructor
  · rintro ⟨hc, rfl⟩
    exact hc
  · intro hc
    have hkey : key c = k := by
      simpa [Std.LawfulEqCmp.compare_eq_iff_eq] using List.find?_some hc
    rw [hkey]
    exact ⟨hc, rfl⟩

theorem contains_ofListKeepFirst {items : List α} {k : κ} :
    (ofListKeepFirst items : Keyed key).contains k = true ↔
    ∃ a ∈ items, key a = k := by
  rw [contains_iff]
  constructor
  · rintro ⟨a, ha, rfl⟩
    exact ⟨a, List.mem_of_find?_eq_some (mem_ofListKeepFirst.1 ha), rfl⟩
  · rintro ⟨a, ha, rfl⟩
    cases hfirst : items.find? (fun b => compare (key b) (key a) == .eq) with
    | none => simpa using List.find?_eq_none.1 hfirst a ha
    | some b =>
      have hkey : key b = key a := by
        simpa [Std.LawfulEqCmp.compare_eq_iff_eq] using List.find?_some hfirst
      refine ⟨b, mem_ofListKeepFirst.2 ?_, hkey⟩
      rw [hkey]
      exact hfirst

/-- Items that do not share keys are all kept. -/
theorem mem_ofListKeepFirst_of_inj {items : List α} {c : α}
    (hinj : ∀ a ∈ items, ∀ b ∈ items, key a = key b → a = b) :
    c ∈ (ofListKeepFirst items : Keyed key).toList ↔ c ∈ items := by
  rw [mem_ofListKeepFirst]
  constructor
  · exact List.mem_of_find?_eq_some
  · intro hc
    have hcontains :
        (ofListKeepFirst items : Keyed key).contains (key c) = true :=
      contains_ofListKeepFirst.2 ⟨c, hc, rfl⟩
    obtain ⟨a, ha, hkey⟩ := contains_iff.1 hcontains
    have hmem := List.mem_of_find?_eq_some (mem_ofListKeepFirst.1 ha)
    rw [← hinj a hmem c hc hkey]
    exact mem_ofListKeepFirst.1 ha

end DrawnPattern.Keyed

namespace DrawnPattern.OrderedSet

/-- A set of items has these and no others. -/
theorem mem_ofList_iff {κ : Type} [Ord κ] [Std.LawfulEqOrd κ] [Std.TransOrd κ]
    {items : List κ} {a : κ} : a ∈ (Keyed.ofList items : OrderedSet κ).toList ↔
    a ∈ items := by
  induction items using List.reverseRecOn with
  | nil => exact iff_of_false List.not_mem_nil List.not_mem_nil
  | append_singleton items b ih =>
    rw [Keyed.ofList, List.foldl_append]
    show a ∈ ((Keyed.ofList items : OrderedSet κ).put b).toList ↔ _
    rw [mem_put_iff, ih, List.mem_append, List.mem_singleton, or_comm]

end DrawnPattern.OrderedSet

namespace DrawnPattern.Map

theorem get?_insert {κ α : Type} [Ord κ] [Std.LawfulEqOrd κ] [Std.TransOrd κ]
    [DecidableEq κ] (m : Map κ α) (k : κ) (v : α) (k' : κ) :
    (m.insert k v).get? k' = if k = k' then some v else m.get? k' := by
  rw [get?, insert, Keyed.find?_put]
  split <;> rfl

/-- A value is found under a key iff the map lists the two together. -/
theorem get?_eq_some_iff {κ α : Type} [Ord κ] [Std.LawfulEqOrd κ] {m : Map κ α}
    {k : κ} {v : α} :
    m.get? k = some v ↔ (k, v) ∈ m.toList := by
  rw [get?, Option.map_eq_some_iff]
  constructor
  · rintro ⟨entry, hfind, rfl⟩
    obtain ⟨hentry, rfl⟩ := Keyed.mem_of_find? hfind
    exact hentry
  · intro hentry
    exact ⟨(k, v), Keyed.find?_eq_some_iff.2 ⟨hentry, rfl⟩, rfl⟩

/-- Maps that find the same are the same, so a map is determined by what
it finds. -/
theorem ext_get? {κ α : Type} [Ord κ] [Std.LawfulEqOrd κ] [Std.TransOrd κ]
    {m m' : Map κ α} (h : ∀ k, m.get? k = m'.get? k) : m = m' := by
  refine Keyed.ext_mem fun entry => ?_
  obtain ⟨k, v⟩ := entry
  rw [← get?_eq_some_iff, ← get?_eq_some_iff, h]

theorem mem_keys_iff {κ α : Type} [Ord κ] [Std.LawfulEqOrd κ]
    {m : Map κ α} {k : κ} :
    k ∈ m.keys ↔ ∃ v, m.get? k = some v := by
  simp only [Keyed.mem_keys, get?_eq_some_iff]
  constructor
  · rintro ⟨entry, hentry, rfl⟩
    exact ⟨entry.2, hentry⟩
  · rintro ⟨v, hentry⟩
    exact ⟨_, hentry, rfl⟩

/-- The keys of a map are the elements of a set iff both have the same ones:
both are listed in ascending order. -/
theorem keys_eq_toList_iff {κ α : Type} [Ord κ] [Std.LawfulEqOrd κ]
    [Std.TransOrd κ] {m : Map κ α} {s : OrderedSet κ} : m.keys = s.toList ↔
    ∀ k, k ∈ m.keys ↔ k ∈ s.toList := by
  constructor
  · intro h k
    rw [h]
  · intro h
    let keys : OrderedSet κ := ⟨m.keys, Keyed.keys_pairwise_lt m⟩
    have hkeys : keys = s := Keyed.ext_mem h
    exact congrArg Keyed.toList hkeys

theorem isSome_get?_iff {κ α : Type} [Ord κ] [Std.LawfulEqOrd κ]
    {m : Map κ α} {k : κ} :
    (m.get? k).isSome = true ↔ m.contains k = true := by
  rw [get?, Option.isSome_map, Keyed.find?, List.find?_isSome, Keyed.contains,
    List.any_eq_true]

/-- What is stored as new is found unless something was there. -/
theorem get?_insertNew {κ α : Type} [Ord κ] [Std.LawfulEqOrd κ] [Std.TransOrd κ]
    [DecidableEq κ] (m : Map κ α) (k : κ) (v : α) (k' : κ) :
    (m.insertNew k v).get? k' =
    (m.get? k').or (if k = k' then some v else none) := by
  rw [insertNew, Keyed.putNew]
  split
  · rename_i htaken
    obtain ⟨found, hfound⟩ :=
      Option.isSome_iff_exists.1 (isSome_get?_iff.2 htaken)
    by_cases hkey : k = k'
    · subst hkey
      rw [hfound]
      rfl
    · rw [if_neg hkey, Option.or_none]
  · rename_i hfree
    have hnone : m.get? k = none := by
      rw [← Option.not_isSome_iff_eq_none, isSome_get?_iff]
      exact hfree
    show (m.insert k v).get? k' = _
    rw [get?_insert]
    by_cases hkey : k = k'
    · subst hkey
      rw [if_pos rfl, if_pos rfl, hnone]
      rfl
    · rw [if_neg hkey, if_neg hkey, Option.or_none]

end DrawnPattern.Map
