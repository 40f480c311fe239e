import DrawnPattern.Graph.Element
import DrawnPattern.Proofs.Decimal.Interval
set_option autoImplicit false

/-!
# The canonical orders

Doubles, values, property maps, traits and links are compared key by key.  Each
comparison is total and transitive and ties on identical arguments only
(`canonical_orders`): `-0.0` is below `0.0`, NaNs are told apart by their bits,
no label is below the empty one, and a property map is below its extensions.  So
a list of links has one canonical order, whatever order it is given in
(`mergeSort_isLE_eq_of_perm`).
-/

namespace DrawnPattern

open Std

/-! ## Comparing by parts -/

/-- Items are compared by a part of them as the parts are. -/
theorem transCmp_on {α β : Type} (f : α → β) (cmp : β → β → Ordering)
    [TransCmp cmp] :
    TransCmp fun a b => cmp (f a) (f b) where
  eq_swap := OrientedCmp.eq_swap
  isLE_trans := TransCmp.isLE_trans

theorem eq_of_compareOn {α β : Type} [Ord β] [LawfulEqOrd β]
    {f : α → β} {a b : α} (h : compareOn f a b = .eq) : f a = f b :=
  LawfulEqCmp.compare_eq_iff_eq.1 h

/-- A list is below the lists that go on after its items. -/
theorem compareLex_append_eq_lt {α : Type} {cmp : α → α → Ordering}
    [ReflCmp cmp] {l rest : List α} (h : rest ≠ []) :
    List.compareLex cmp l (l ++ rest) = .lt := by
  induction l with
  | nil =>
    obtain ⟨a, more, rfl⟩ := List.exists_cons_of_ne_nil h
    rfl
  | cons a l ih =>
    have hself : cmp a a = .eq := ReflCmp.compare_self
    rw [List.cons_append, List.compareLex_cons_cons, hself, ih]
    rfl

/-! ## Doubles -/

namespace Double

/-- A double is its place in the total order, so comparing places never takes
two doubles for one. -/
theorem eq_of_rank_eq {x y : Double} (h : x.rank = y.rank) : x = y := by
  unfold rank at h
  cases hx : x.negative <;> cases hy : y.negative <;> simp only [hx, hy] at h
  · exact eq_of_payload_eq (hx.trans hy.symm) (by simpa using h)
  · simp at h
    omega
  · simp at h
    omega
  · refine eq_of_payload_eq (hx.trans hy.symm) ?_
    simp at h
    omega

instance : TransCmp order := inferInstanceAs (TransCmp (compareOn rank))

instance : LawfulEqCmp order where
  compare_self := compare_self
  eq_of_compare h := eq_of_rank_eq (eq_of_compareOn h)

end Double

/-! ## Values -/

namespace Value

theorem order_swap (a b : Value) : a.order b = (b.order a).swap := by
  cases a <;> cases b <;> simp only [order] <;> exact OrientedCmp.eq_swap

instance : OrientedCmp order where
  eq_swap := order_swap _ _

instance : TransCmp order where
  isLE_trans {a b c} hab hbc := by
    cases a <;> cases b <;> cases c <;> simp only [order, kindRank] at *
    -- within a kind by its own comparison, otherwise by the ranks of the kinds
    all_goals first
      | exact TransCmp.isLE_trans hab hbc
      | contradiction
      | rfl

instance : LawfulEqCmp order where
  compare_self {a} := by cases a <;> simp [order]
  eq_of_compare {a b} h := by cases a <;> cases b <;> simp_all [order, kindRank]

end Value

/-! ## Properties and traits -/

namespace Properties

/-- Entries of property maps are compared by name, then by value. -/
def entryOrder : String × Value → String × Value → Ordering :=
  compareLex (compareOn Prod.fst) fun p q => p.2.order q.2

instance : TransCmp entryOrder :=
  have := transCmp_on (Prod.snd : String × Value → Value) Value.order
  inferInstanceAs (TransCmp (compareLex _ _))

instance : LawfulEqCmp entryOrder where
  compare_self := by simp [entryOrder, compareLex, compareOn]
  eq_of_compare h := by
    obtain ⟨hname, hvalue⟩ := compareLex_eq_eq.1 h
    exact Prod.ext (eq_of_compareOn hname) (LawfulEqCmp.eq_of_compare hvalue)

/-- A property map is below its extensions, as the entries before theirs tie. -/
theorem order_eq_lt_of_prefix {a b : Properties} (h : a.toList <+: b.toList)
    (hne : a ≠ b) :
    order a b = .lt := by
  obtain ⟨rest, hrest⟩ := h
  have hmore : rest ≠ [] := by
    rintro rfl
    exact hne (Keyed.ext ((List.append_nil _).symm.trans hrest))
  show List.compareLex entryOrder a.toList b.toList = .lt
  rw [← hrest]
  exact compareLex_append_eq_lt hmore

instance : TransCmp order :=
  transCmp_on Keyed.toList (List.compareLex entryOrder)

instance : LawfulEqCmp order where
  compare_self {a} := by
    show List.compareLex entryOrder a.toList a.toList = .eq
    exact ReflCmp.compare_self
  eq_of_compare {a b} h := by
    have hlists : List.compareLex entryOrder a.toList b.toList = .eq := h
    exact Keyed.ext (LawfulEqCmp.eq_of_compare hlists)

end Properties

namespace Traits

instance : TransCmp order :=
  have := transCmp_on properties Properties.order
  inferInstanceAs (TransCmp (compareLex _ _))

instance : LawfulEqCmp order where
  compare_self := by simp [order, compareLex, compareOn]
  eq_of_compare {a b} h := by
    obtain ⟨hlabel, hproperties⟩ := compareLex_eq_eq.1 h
    obtain ⟨label, properties⟩ := a
    obtain rfl : label = b.label := eq_of_compareOn hlabel
    obtain rfl : properties = b.properties :=
      LawfulEqCmp.eq_of_compare hproperties
    rfl

end Traits

/-! ## Links -/

namespace Link

instance : TransCmp order :=
  have := transCmp_on traits Traits.order
  inferInstanceAs (TransCmp (compareLex _ _))

instance : LawfulEqCmp order where
  compare_self := by simp [order, compareLex, compareOn]
  eq_of_compare {l m} h := by
    obtain ⟨hsource, h⟩ := compareLex_eq_eq.1 h
    obtain ⟨htarget, h⟩ := compareLex_eq_eq.1 h
    obtain ⟨hdirected, htraits⟩ := compareLex_eq_eq.1 h
    obtain ⟨source, target, directed, traits⟩ := l
    obtain rfl : source = m.source := eq_of_compareOn hsource
    obtain rfl : target = m.target := eq_of_compareOn htarget
    obtain rfl : directed = m.directed := eq_of_compareOn hdirected
    obtain rfl : traits = m.traits := LawfulEqCmp.eq_of_compare htraits
    rfl

end Link

/-! ## Total orders -/

/-- Whether a comparison is a total order in which items tie with
themselves only. -/
structure TotallyOrders {α : Type} (cmp : α → α → Ordering) : Prop where
  total : ∀ a b, (cmp a b).isLE = true ∨ (cmp b a).isLE = true
  trans : ∀ a b c, (cmp a b).isLE = true → (cmp b c).isLE = true →
    (cmp a c).isLE = true
  lt_trans : ∀ a b c, cmp a b = .lt → cmp b c = .lt → cmp a c = .lt
  swap : ∀ a b, cmp b a = (cmp a b).swap
  tie_iff : ∀ a b, cmp a b = .eq ↔ a = b

theorem isLE_or_isLE {α : Type} {cmp : α → α → Ordering} [OrientedCmp cmp]
    (a b : α) :
    ((cmp a b).isLE || (cmp b a).isLE) = true := by
  have hswap : cmp b a = (cmp a b).swap := OrientedCmp.eq_swap
  rw [hswap]
  cases cmp a b <;> rfl

theorem totallyOrders {α : Type} (cmp : α → α → Ordering) [TransCmp cmp]
    [LawfulEqCmp cmp] :
    TotallyOrders cmp where
  total a b := Bool.or_eq_true_iff.1 (isLE_or_isLE a b)
  trans _ _ _ := TransCmp.isLE_trans
  lt_trans _ _ _ := TransCmp.lt_trans
  swap _ _ := OrientedCmp.eq_swap
  tie_iff _ _ := LawfulEqCmp.compare_eq_iff_eq

/-- What the canonical comparisons of values, property maps and
links come to. -/
structure CanonicalOrders : Prop where
  values : TotallyOrders Value.order
  properties : TotallyOrders Properties.order
  links : TotallyOrders Link.order
  /-- doubles are compared bit for bit, not as numbers -/
  doubles_tie_iff : ∀ x y : Double, (Value.float x).order (.float y) = .eq ↔
    x.bits = y.bits
  /-- a property map is below those that go on after its entries -/
  extensions_later : ∀ a b : Properties, a.toList <+: b.toList → a ≠ b →
    Properties.order a b = .lt
  /-- a link without a label is below the links between its ends that have one,
  whatever the properties -/
  unlabelled_first : ∀ l m : Link, l.source = m.source → l.target = m.target →
    l.directed = m.directed → l.traits.label = none → m.traits.label ≠ none →
    l.order m = .lt

/-- The canonical comparisons are total orders in which only identical arguments
tie, so that sorting by them leaves nothing to chance. -/
theorem canonical_orders : CanonicalOrders where
  values := totallyOrders Value.order
  properties := totallyOrders Properties.order
  links := totallyOrders Link.order
  doubles_tie_iff x y := by
    rw [LawfulEqCmp.compare_eq_iff_eq, Value.float.injEq, Double.mk.injEq]
  extensions_later _ _ := Properties.order_eq_lt_of_prefix
  unlabelled_first l m hsource htarget hdirected hnone hsome := by
    obtain ⟨label, hlabel⟩ := Option.ne_none_iff_exists'.1 hsome
    have hlabels : compare l.traits.label m.traits.label = .lt := by
      rw [hnone, hlabel]
      rfl
    simp [Link.order, Traits.order, compareLex, compareOn, hsource, htarget,
      hdirected, hlabels]

/-! ## Sorting -/

/-- Under an order that ties on identical items only, sorting forgets how a list
was ordered. -/
theorem mergeSort_eq_of_perm {α : Type} {le : α → α → Bool}
    (trans : ∀ a b c, le a b = true → le b c = true → le a c = true)
    (total : ∀ a b, (le a b || le b a) = true)
    (antisymm : ∀ a b, le a b = true → le b a = true → a = b) {l m : List α}
    (h : l.Perm m) :
    l.mergeSort le = m.mergeSort le :=
  List.Perm.eq_of_pairwise (fun a b _ _ => antisymm a b)
    (List.pairwise_mergeSort trans total l)
    (List.pairwise_mergeSort trans total m)
    (((List.mergeSort_perm l le).trans h).trans (List.mergeSort_perm m le).symm)

theorem pairwise_mergeSort_isLE {α : Type} {cmp : α → α → Ordering}
    [TransCmp cmp] (l : List α) :
    (l.mergeSort fun a b => (cmp a b).isLE).Pairwise
      fun a b => (cmp a b).isLE = true :=
  List.pairwise_mergeSort (fun _ _ _ => TransCmp.isLE_trans) isLE_or_isLE l

theorem mergeSort_isLE_eq_of_perm {α : Type} {cmp : α → α → Ordering}
    [TransCmp cmp] [LawfulEqCmp cmp] {l m : List α} (h : l.Perm m) :
    l.mergeSort (fun a b => (cmp a b).isLE) =
      m.mergeSort fun a b => (cmp a b).isLE :=
  mergeSort_eq_of_perm (fun _ _ _ => TransCmp.isLE_trans) isLE_or_isLE
    (fun _ _ hab hba =>
      LawfulEqCmp.eq_of_compare (OrientedCmp.isLE_antisymm hab hba)) h

end DrawnPattern
