import DrawnPattern.Catalog.Queries
import DrawnPattern.Proofs.Query.Grammar
set_option autoImplicit false

/-!
# Nothing escapes from its token

Labels, types, property names and texts come from drawings and from databases,
so a query has to hold them whatever characters they have.  What is written for
one of them is the only token that the rules allow at its place, and stands for
it (`tokens_hold`).  A text ends at its closing quote whatever follows.  A name
ends where no character follows that could be more of it, and every place that a
query has for a name goes on with a character that ends it (`HoldsName`).
-/

namespace DrawnPattern.Query

/-! ## What is written -/

theorem isControl_fourHexDigits {n : Nat} {c : Char} (h : c ∈ fourHexDigits n) :
    isControl c = false := by
  have hdigit : ∀ n < 16, isControl (upperHexDigit n) = false := by decide
  obtain ⟨m, hm, rfl⟩ := List.mem_map.1 h
  refine hdigit m ?_
  simp only [List.mem_cons, List.not_mem_nil, or_false] at hm
  omega

/-- No character of a text literal is a control character. -/
theorem isControl_textChars {text : List Char} {c : Char}
    (h : c ∈ textChars text) :
    isControl c = false := by
  have hmarks : isControl '\x27' = false ∧ isControl '\x5c' = false ∧
      isControl 'u' = false := by
    decide
  have hletters : ∀ p ∈ escapes, isControl p.1 = false := by decide
  simp only [textChars, List.cons_append, List.mem_cons, List.mem_append,
    List.mem_flatMap, List.not_mem_nil, or_false] at h
  rcases h with rfl | ⟨d, -, hd⟩ | rfl
  · exact hmarks.1
  · rcases escapedChar_cases d with
      ⟨written, hmem, heq⟩ | ⟨-, heq⟩ | ⟨hd', -, -, heq⟩ <;> rw [heq] at hd
    · simp only [List.mem_cons, List.not_mem_nil, or_false] at hd
      rcases hd with rfl | rfl
      · exact hmarks.2.1
      · exact hletters _ hmem
    · rcases List.mem_cons.1 hd with rfl | hd
      · exact hmarks.2.1
      · rcases List.mem_cons.1 hd with rfl | hd
        · exact hmarks.2.2
        · exact isControl_fourHexDigits hd
    · rw [List.mem_singleton.1 hd]
      exact hd'
  · exact hmarks.1

/-! ## Where names stand -/

/-- What comes after the names in a query; none of it could be more of a plain
name or of one between backticks. -/
def nameEnds : List Char := [' ', ')', ']', '\x3a']

/-- Whether a text is a name, as it is written in queries, with something before
and something after it that ends the name, whatever follows the text. -/
structure HoldsName (before name after text : String) : Prop where
  text_eq : text = before ++ identifier name ++ after
  scan : ∀ rest, scanName ((identifier name ++ after).toList ++ rest) =
    some (name.toList, after.toList ++ rest)

theorem holdsName {before name after text : String}
    (heq : text = before ++ identifier name ++ after)
    (h : StartsIn nameEnds after.toList) :
    HoldsName before name after text where
  text_eq := heq
  scan rest := by
    obtain ⟨c, hc, more, hafter⟩ := h
    have hends : StartsIn nameEnds (after.toList ++ rest) :=
      ⟨c, hc, more ++ rest, by rw [hafter]; rfl⟩
    rw [String.toList_append, List.append_assoc, identifier,
      String.toList_ofList]
    exact scanName_nameChars name.toList
      (endsName_of_startsIn (by decide) hends)

/-- A label or a type stands behind a colon and before the properties or the end
of its slot. -/
theorem exists_holdsName_slot (name label : String) (properties : Properties)
    {close : String} (h : close = ")" ∨ close = "]") :
    ∃ after, HoldsName (name ++ ":") label after
      (Compiler.slot name (some label) properties ++ close) := by
  cases hmap : propertyMap? properties with
  | none =>
    refine ⟨close, holdsName ?_ ?_⟩
    · simp [Compiler.slot, hmap, String.append_assoc]
    · rcases h with rfl | rfl <;> exact .cons (by decide)
  | some map =>
    refine ⟨" " ++ map ++ close, holdsName ?_ ?_⟩
    · simp [Compiler.slot, hmap, String.append_assoc]
    · rw [String.append_assoc, String.toList_append]
      exact .cons (by decide)

/-- A property name stands before a colon. -/
theorem holdsName_propertyEntry (name : String) (value : Value) :
    HoldsName "" name (": " ++ literal value)
    (propertyEntry (name, value)) := by
  refine holdsName ?_ ?_
  · simp [propertyEntry, String.append_assoc]
  · rw [String.toList_append]
    exact .cons (by decide)

/-- Whether names and texts keep to the tokens they are written in, whatever
characters they have. -/
structure TokensHold : Prop where
  text_scanned : ∀ (s : String) (rest : List Char),
    scanText ((literal (.string s)).toList ++ rest) = some (s.toList, rest)
  /-- by the rules nothing else can be read where a text stands -/
  text_only : ∀ (s : String) (rest token text rest' : List Char),
    TextToken token text ∧
    token ++ rest' = (literal (.string s)).toList ++ rest ↔
      token = (literal (.string s)).toList ∧ text = s.toList ∧ rest' = rest
  text_visible : ∀ (s : String), ∀ c ∈ (literal (.string s)).toList,
    isControl c = false
  text_injective : Function.Injective fun s => literal (.string s)
  name_scanned : ∀ (s : String) (rest : List Char), EndsName rest →
    scanName ((identifier s).toList ++ rest) = some (s.toList, rest)
  /-- nor where a name stands, if what follows ends it -/
  name_only : ∀ (s : String) (rest token name rest' : List Char),
    EndsName rest →
    (NameToken token name rest' ∧
      token ++ rest' = (identifier s).toList ++ rest ↔
      token = (identifier s).toList ∧ name = s.toList ∧ rest' = rest)
  name_injective : Function.Injective identifier
  /-- labels of nodes and types of relations -/
  label_held :
    ∀ (name label : String) (properties : Properties) (close : String),
    close = ")" ∨ close = "]" → ∃ after, HoldsName (name ++ ":") label after
      (Compiler.slot name (some label) properties ++ close)
  property_held : ∀ (name : String) (value : Value),
    HoldsName "" name (": " ++ literal value) (propertyEntry (name, value))
  node_property_held : ∀ (o : Options) (node : NodeId) (name : String),
    HoldsName (o.nodeVariable node ++ ".") name " IS NULL"
    ((Predicate.nodeLacks node name).text o)
  relation_property_held :
    ∀ (o : Options) (relation : RelationId) (name : String),
    HoldsName (o.relationVariable relation ++ ".") name " IS NULL"
      ((Predicate.relationLacks relation name).text o)
  counted_label_held : ∀ label,
    HoldsName "MATCH (n:" label ") RETURN count(n) AS count"
    (Catalog.nodeCountQuery label)
  counted_type_held : ∀ type,
    HoldsName "MATCH ()-[r:" type "]->() RETURN count(r) AS count"
    (Catalog.relationCountQuery type)

theorem textToken_literal (s : String) :
    TextToken (literal (.string s)).toList s.toList := by
  rw [literal_string]
  exact textToken_textChars s.toList

theorem nameToken_identifier (s : String) {rest : List Char}
    (h : EndsName rest) :
    NameToken (identifier s).toList s.toList rest := by
  rw [identifier, String.toList_ofList]
  exact nameToken_nameChars s.toList h

/-- No name and no text ends its token early or goes on beyond it, so what a
drawing says stays within its tokens. -/
theorem tokens_hold : TokensHold where
  text_scanned s rest := scanText_eq_some_iff.2 ⟨_, rfl, textToken_literal s⟩
  text_only s rest token text rest' := by
    constructor
    · rintro ⟨htoken, heq⟩
      exact textToken_unique htoken (textToken_literal s) heq
    · rintro ⟨rfl, rfl, rfl⟩
      exact ⟨textToken_literal s, rfl⟩
  text_visible s c hc := by
    rw [literal_string] at hc
    exact isControl_textChars hc
  text_injective s t h := by
    have hchars : (literal (.string s)).toList ++ [] =
        (literal (.string t)).toList ++ [] :=
      congrArg (fun written : String => written.toList ++ []) h
    obtain ⟨-, htext, -⟩ :=
      textToken_unique (textToken_literal s) (textToken_literal t) hchars
    exact String.toList_inj.1 htext
  name_scanned s rest h :=
    scanName_eq_some_iff.2 ⟨_, rfl, nameToken_identifier s h⟩
  name_only s rest token name rest' h := by
    constructor
    · rintro ⟨htoken, heq⟩
      exact nameToken_unique htoken (nameToken_identifier s h) heq
    · rintro ⟨rfl, rfl, rfl⟩
      exact ⟨nameToken_identifier s h, rfl⟩
  name_injective := identifier_injective
  label_held name label properties _ h :=
    exists_holdsName_slot name label properties h
  property_held := holdsName_propertyEntry
  node_property_held _ _ _ := holdsName rfl (.cons (by decide))
  relation_property_held _ _ _ := holdsName rfl (.cons (by decide))
  counted_label_held _ := holdsName rfl (.cons (by decide))
  counted_type_held _ := holdsName rfl (.cons (by decide))

end DrawnPattern.Query
