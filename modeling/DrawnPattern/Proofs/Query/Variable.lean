import DrawnPattern.Config
import DrawnPattern.Proofs.Decimal.Digits
import DrawnPattern.Proofs.Failing
import DrawnPattern.Proofs.Query.Lexeme
import Mathlib.Data.List.Infix
set_option autoImplicit false

/-!
# Variables

A stem that is accepted has letters and underscores only, and neither stem
starts with the other.  So every variable is a word, numbers are told apart by
their variables (`variableName_inj`), and no node variable is a relation
variable (`nodeVariable_ne_relationVariable`).
-/

namespace DrawnPattern.Query

/-- Whether the beginnings of variables are accepted: words without digits, of
which neither starts with the other. -/
structure Options.Accepted (o : Options) : Prop where
  node : Config.checkStem .node o.nodeStem = .ok ()
  relation : Config.checkStem .relation o.relationStem = .ok ()
  apart : Config.oneExtendsOther o.nodeStem o.relationStem = false

/-- The options that a configuration gives are accepted. -/
theorem accepted_of_options {t : Config.CompilerTable} {o : Options}
    (h : Config.options t = .ok o) :
    o.Accepted := by
  obtain ⟨policy, -, h⟩ := bind_eq_ok_iff.1 h
  obtain ⟨⟨⟩, hnode, h⟩ := bind_eq_ok_iff.1 h
  obtain ⟨⟨⟩, hrelation, h⟩ := bind_eq_ok_iff.1 h
  split at h
  · obtain ⟨_, hthrow, -⟩ := bind_eq_ok_iff.1 h
    cases hthrow
  · rename_i hapart
    cases h
    exact ⟨hnode, hrelation, Bool.eq_false_iff.2 hapart⟩

theorem stemFault?_of_checkStem {key : StemKey} {stem : String}
    (h : Config.checkStem key stem = .ok ()) :
    Config.stemFault? stem.toList = none := by
  unfold Config.checkStem at h
  split at h
  · cases h
  · assumption

/-- An accepted stem has letters and underscores only. -/
theorem startsName_of_checkStem {key : StemKey} {stem : String}
    (h : Config.checkStem key stem = .ok ()) : ∀ c ∈ stem.toList,
    startsName c = true := by
  have hfault := stemFault?_of_checkStem h
  unfold Config.stemFault? at hfault
  split at hfault
  · cases hfault
  · rename_i c rest hstem
    rw [hstem, List.forall_mem_cons]
    split at hfault
    · cases hfault
    · rename_i hc
      split at hfault
      · cases hfault
      · rename_i hrest
        simp only [Bool.not_eq_true', Bool.not_eq_false] at hc hrest
        exact ⟨hc, List.all_eq_true.1 hrest⟩

theorem continuesName_of_isDigit {c : Char} (h : c.isDigit = true) :
    continuesName c = true := by
  simp [continuesName, Char.isAlphanum, h]

/-! ## What a variable consists of -/

/-- What follows the stem. -/
def numberChars (id : Int) : List Char :=
  if id < 0 then '_' :: Nat.toDigits 10 id.natAbs else Nat.toDigits 10 id.natAbs

theorem toList_variableName (stem : String) (id : Int) :
    (variableName stem id).toList = stem.toList ++ numberChars id := by
  unfold variableName numberChars
  split
  · rw [String.toList_append, String.toList_append, Decimal.toList_toString_nat,
      List.append_assoc]
    rfl
  · rw [String.toList_append, Decimal.toList_toString_nat]

theorem numberChars_inj {i j : Int} (h : numberChars i = numberChars j) :
    i = j := by
  unfold numberChars at h
  split at h <;> split at h
  · have hnat := Decimal.toDigits_inj (List.cons.inj h).2
    omega
  · exact absurd h.symm (Decimal.toDigits_ne_cons rfl)
  · exact absurd h (Decimal.toDigits_ne_cons rfl)
  · have hnat := Decimal.toDigits_inj h
    omega

/-- Numbers are told apart by their variables, as a stem has no digit and a
minus becomes an underscore. -/
theorem variableName_inj {stem : String} {i j : Int}
    (h : variableName stem i = variableName stem j) :
    i = j := by
  have hchars := congrArg String.toList h
  rw [toList_variableName, toList_variableName] at hchars
  exact numberChars_inj (List.append_cancel_left hchars)

theorem continuesName_of_mem_variableName {key : StemKey} {stem : String}
    (h : Config.checkStem key stem = .ok ()) (id : Int) :
    ∀ c ∈ (variableName stem id).toList, continuesName c = true := by
  intro c hc
  rw [toList_variableName, List.mem_append] at hc
  rcases hc with hc | hc
  · exact continuesName_of_startsName (startsName_of_checkStem h c hc)
  · unfold numberChars at hc
    split at hc
    · rcases List.mem_cons.1 hc with rfl | hc
      · decide
      · exact continuesName_of_isDigit (Decimal.isDigit_of_mem_toDigits hc)
    · exact continuesName_of_isDigit (Decimal.isDigit_of_mem_toDigits hc)

namespace Options.Accepted

variable {o : Options}

theorem nodeVariable_word (h : o.Accepted) (id : NodeId) :
    ∀ c ∈ (o.nodeVariable id).toList, continuesName c = true :=
  continuesName_of_mem_variableName h.node id

theorem relationVariable_word (h : o.Accepted) (id : RelationId) :
    ∀ c ∈ (o.relationVariable id).toList, continuesName c = true :=
  continuesName_of_mem_variableName h.relation id

/-- No node variable is a relation variable, since neither stem starts with
the other. -/
theorem nodeVariable_ne_relationVariable (h : o.Accepted) (node : NodeId)
    (relation : RelationId) :
    o.nodeVariable node ≠ o.relationVariable relation := by
  intro heq
  have hchars := congrArg String.toList heq
  rw [nodeVariable, relationVariable, toList_variableName,
    toList_variableName] at hchars
  obtain ⟨hnode, hrelation⟩ := Bool.or_eq_false_iff.1 h.apart
  -- of two beginnings of one text, one starts with the other
  rcases List.append_eq_append_iff.1 hchars with
    ⟨more, hmore, -⟩ | ⟨more, hmore, -⟩
  · rw [List.isPrefixOf_iff_prefix.2 ⟨more, hmore.symm⟩] at hnode
    exact Bool.false_ne_true hnode.symm
  · rw [List.isPrefixOf_iff_prefix.2 ⟨more, hmore.symm⟩] at hrelation
    exact Bool.false_ne_true hrelation.symm

end Options.Accepted

end DrawnPattern.Query
