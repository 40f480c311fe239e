import DrawnPattern.Catalog.Queries
import DrawnPattern.Proofs.Query.Lexeme
import Mathlib.Data.List.Nodup
set_option autoImplicit false

/-!
# Catalog queries are told apart

The rows behind a catalog are found under the texts of their queries, so no two
of these may be one text, whatever the labels and types are called
(`queriesApart`).  The two families of count queries start differently, from
each other and from the fixed queries, and within a family what is written for a
name can be read back.
-/

namespace DrawnPattern.Catalog

open Query

/-- The queries that do not depend on a name; they are sent once, before or
after those that do. -/
def fixedQueries : List String :=
  [labelsQuery, relationTypesQuery, totalNodesQuery, totalRelationsQuery,
    nodePropertiesQuery, relationPropertiesQuery, schemaQuery]

/-- Whether different queries have different texts, so that a fixture can hold
the rows of each under its text. -/
structure QueriesApart : Prop where
  fixed_nodup : fixedQueries.Nodup
  nodeCount_injective : Function.Injective nodeCountQuery
  relationCount_injective : Function.Injective relationCountQuery
  nodeCount_ne_relationCount :
    ∀ label type, nodeCountQuery label ≠ relationCountQuery type
  nodeCount_not_fixed : ∀ label, nodeCountQuery label ∉ fixedQueries
  relationCount_not_fixed : ∀ type, relationCountQuery type ∉ fixedQueries

/-! ## How count queries start -/

theorem nodeCountQuery_injective : Function.Injective nodeCountQuery := by
  intro a b h
  rw [nodeCountQuery, nodeCountQuery, String.append_left_inj,
    String.append_right_inj] at h
  exact identifier_injective h

theorem relationCountQuery_injective :
    Function.Injective relationCountQuery := by
  intro a b h
  rw [relationCountQuery, relationCountQuery, String.append_left_inj,
    String.append_right_inj] at h
  exact identifier_injective h

theorem take_nodeCountQuery (label : String) :
    (nodeCountQuery label).toList.take 9 = "MATCH (n:".toList := by
  rw [nodeCountQuery, String.append_assoc, String.toList_append]
  exact List.take_left' rfl

theorem take_relationCountQuery (type : String) :
    (relationCountQuery type).toList.take 12 = "MATCH ()-[r:".toList := by
  rw [relationCountQuery, String.append_assoc, String.toList_append]
  exact List.take_left' rfl

theorem nodeCountQuery_ne_relationCountQuery (label type : String) :
    nodeCountQuery label ≠ relationCountQuery type := by
  intro h
  have hstart :=
    congrArg (fun query : String => (query.toList.take 12).take 9) h
  simp only [take_relationCountQuery, List.take_take] at hstart
  rw [Nat.min_eq_left (by decide), take_nodeCountQuery] at hstart
  exact absurd hstart (by decide)

/-- Whether a query starts as those that count the nodes with a label or the
relationships of a type. -/
def StartsAsCount (query : String) : Prop :=
  query.toList.take 9 = "MATCH (n:".toList ∨
    query.toList.take 12 = "MATCH ()-[r:".toList

instance (query : String) : Decidable (StartsAsCount query) :=
  inferInstanceAs (Decidable (_ ∨ _))

/-- A text starts as its first part does, if that is long enough, so that only
the first part of a long query has to be read. -/
theorem startsAsCount_append {first rest : String}
    (h : 12 ≤ first.toList.length) :
    StartsAsCount (first ++ rest) ↔ StartsAsCount first := by
  rw [StartsAsCount, StartsAsCount, String.toList_append,
    List.take_append_of_le_length (Nat.le_trans (by decide) h),
    List.take_append_of_le_length h]

/-- The characters of a literal need not be decoded to see how it starts. -/
theorem not_startsAsCount_ofList {chars : List Char}
    (h : ¬(chars.take 9 = "MATCH (n:".toList ∨
      chars.take 12 = "MATCH ()-[r:".toList)) :
    ¬StartsAsCount (String.ofList chars) := by
  rwa [StartsAsCount, String.toList_ofList]

theorem length_le_toList_ofList {chars : List Char} {n : Nat}
    (h : n ≤ chars.length) :
    n ≤ (String.ofList chars).toList.length := by
  rwa [String.toList_ofList]

/-- No fixed query starts as a count query does. -/
theorem not_startsAsCount_of_fixed : ∀ query ∈ fixedQueries,
    ¬StartsAsCount query := by
  have hlong : ∀ {first second third : String}, 12 ≤ first.toList.length →
      ¬StartsAsCount first →
      ¬StartsAsCount (first ++ second ++ third) := by
    intro first second third hlength hfirst h
    rw [String.append_assoc, startsAsCount_append hlength] at h
    exact hfirst h
  have hnodes : ¬StartsAsCount nodePropertiesQuery :=
    hlong (length_le_toList_ofList (by decide))
      (not_startsAsCount_ofList (by decide +kernel))
  have hrelations : ¬StartsAsCount relationPropertiesQuery :=
    hlong (length_le_toList_ofList (by decide))
      (not_startsAsCount_ofList (by decide +kernel))
  simp only [fixedQueries, List.forall_mem_cons]
  refine ⟨?_, ?_, ?_, ?_, hnodes, hrelations, ?_,
    fun _ h => absurd h List.not_mem_nil⟩
  all_goals exact not_startsAsCount_ofList (by decide +kernel)

/-- The characters of a literal need not be decoded to see that one is not
among them. -/
theorem not_mem_toList_ofList {c : Char} {chars : List Char} (h : c ∉ chars) :
    c ∉ (String.ofList chars).toList := by
  rwa [String.toList_ofList]

/-- Every fixed query is one line. -/
theorem line_feed_not_mem_of_fixed : ∀ query ∈ fixedQueries,
    '\n' ∉ query.toList := by
  have hjoined : ∀ {first second third : String}, '\n' ∉ first.toList →
      '\n' ∉ second.toList →
      '\n' ∉ third.toList → '\n' ∉ (first ++ second ++ third).toList := by
    intro first second third hfirst hsecond hthird
    simp [hfirst, hsecond, hthird]
  have hnodes : '\n' ∉ nodePropertiesQuery.toList := by
    refine hjoined ?_ ?_ ?_ <;> exact not_mem_toList_ofList (by decide)
  have hrelations : '\n' ∉ relationPropertiesQuery.toList := by
    refine hjoined ?_ ?_ ?_ <;> exact not_mem_toList_ofList (by decide)
  simp only [fixedQueries, List.forall_mem_cons]
  refine ⟨?_, ?_, ?_, ?_, hnodes, hrelations, ?_,
    fun _ h => absurd h List.not_mem_nil⟩
  all_goals exact not_mem_toList_ofList (by decide)

theorem nodeCountQuery_not_mem_fixedQueries (label : String) :
    nodeCountQuery label ∉ fixedQueries :=
  fun h => not_startsAsCount_of_fixed _ h (.inl (take_nodeCountQuery label))

theorem relationCountQuery_not_mem_fixedQueries (type : String) :
    relationCountQuery type ∉ fixedQueries :=
  fun h => not_startsAsCount_of_fixed _ h (.inr (take_relationCountQuery type))

/-- All catalog queries are told apart, whatever the names in them are: how a
query starts tells its kind, and the rest tells the name. -/
theorem queriesApart : QueriesApart where
  fixed_nodup := by decide
  nodeCount_injective := nodeCountQuery_injective
  relationCount_injective := relationCountQuery_injective
  nodeCount_ne_relationCount := nodeCountQuery_ne_relationCountQuery
  nodeCount_not_fixed := nodeCountQuery_not_mem_fixedQueries
  relationCount_not_fixed := relationCountQuery_not_mem_fixedQueries

/-- The queries behind a catalog have different texts. -/
theorem nodup_queries {labels types : List String} (hlabels : labels.Nodup)
    (htypes : types.Nodup) :
    (fixedQueries ++ labels.map nodeCountQuery ++
      types.map relationCountQuery).Nodup := by
  refine List.nodup_append.2 ⟨List.nodup_append.2 ⟨queriesApart.fixed_nodup,
    hlabels.map nodeCountQuery_injective, ?_⟩,
    htypes.map relationCountQuery_injective, ?_⟩
  · rintro _ hfixed _ hcount rfl
    obtain ⟨label, -, rfl⟩ := List.mem_map.1 hcount
    exact nodeCountQuery_not_mem_fixedQueries label hfixed
  · rintro _ hother _ hcount rfl
    obtain ⟨type, -, rfl⟩ := List.mem_map.1 hcount
    rcases List.mem_append.1 hother with hfixed | hlabel
    · exact relationCountQuery_not_mem_fixedQueries type hfixed
    · obtain ⟨label, -, heq⟩ := List.mem_map.1 hlabel
      exact nodeCountQuery_ne_relationCountQuery label type heq

/-! ## Decorated names -/

/-- A name with the decoration that schema procedures put around it. -/
def decorate (name : String) : String := ":\x60" ++ name ++ "\x60"

/-- What is decorated is found inside, whatever characters it has, backticks and
colons of its own included. -/
theorem undecorate_decorate (name : String) :
    undecorate (decorate name) = name := by
  have hchars : undecoratedChars (decorate name).toList = name.toList := by
    have hdecorated : (decorate name).toList = '\x3a' :: backtick ::
        (name.toList ++ [backtick]) := by
      rw [decorate, String.toList_append, String.toList_append]
      rfl
    rw [hdecorated, undecoratedChars]
    simp
  rw [undecorate, hchars, String.ofList_toList]

end DrawnPattern.Catalog
