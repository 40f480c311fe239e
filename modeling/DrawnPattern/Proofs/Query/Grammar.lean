import DrawnPattern.Proofs.Query.Literal
import DrawnPattern.Proofs.Query.Walk
set_option autoImplicit false

/-!
# The grammar of patterns

What a query draws, without the graph behind it: a `Slot` is what stands between
the parentheses of a node or the brackets of a relation, a `Hop` is a relation
with the node it leads to, and a `Line` is a chain.  The text of each can be cut
in one way, from the parts up to the list of all chains (`cut_lines`).
-/

namespace DrawnPattern.Query

/-! ## Names -/

/-- Characters that are neither backticks nor characters of names end a name. -/
theorem endsName_of_startsIn {cs r : List Char}
    (hcs : cs.all (fun c => c != backtick && !continuesName c) = true)
    (h : StartsIn cs r) :
    EndsName r := by
  obtain ⟨c, hc, t, rfl⟩ := h
  rintro d ⟨⟩
  simpa using List.all_eq_true.1 hcs c hc

/-- A name ends where neither a backtick nor another character of a
name follows. -/
theorem cut_identifier (cs : List Char)
    (hcs : cs.all (fun c => c != backtick && !continuesName c) = true) :
    Cut (fun name => (identifier name).toList) (· = ·) (fun _ => True)
    (StartsIn cs) := by
  intro a b r s _ _ hr hs h
  simp only [identifier, String.toList_ofList] at h
  obtain ⟨-, hname, hrs⟩ :=
    nameToken_unique (nameToken_nameChars _ (endsName_of_startsIn hcs hr))
    (nameToken_nameChars _ (endsName_of_startsIn hcs hs)) h
  exact ⟨String.toList_inj.1 hname, hrs⟩

/-! ## Property maps -/

/-- Whether two properties have one name and alike values. -/
def EntryAlike (p q : String × Value) : Prop := p.1 = q.1 ∧ p.2.Alike q.2

theorem toList_propertyEntry (entry : String × Value) :
    (propertyEntry entry).toList =
    (identifier entry.1).toList ++ '\x3a' :: ' ' ::
    (literal entry.2).toList := by
  rw [propertyEntry, String.toList_append, String.toList_append,
    List.append_assoc]
  rfl

/-- An entry ends at the comma or the brace after it. -/
theorem cut_propertyEntry :
    Cut (fun entry => (propertyEntry entry).toList) EntryAlike
    (fun entry => entry.2.isNull = false) (StartsIn entryEnds) := by
  have hname := cut_identifier ['\x3a'] (by decide)
  intro p q r s hp hq hr hs h
  simp only [toList_propertyEntry, List.append_assoc, List.cons_append] at h
  obtain ⟨hpq, htail⟩ := hname trivial trivial (.cons List.mem_cons_self)
    (.cons List.mem_cons_self) h
  simp only [List.cons.injEq, true_and] at htail
  obtain ⟨halike, hrs⟩ := cut_literal hp hq hr hs htail
  exact ⟨⟨hpq, halike⟩, hrs⟩

/-- The properties asked for, between braces if there are any. -/
def askedChars (asked : List (String × Value)) : List Char :=
  if asked = [] then []
  else ' ' :: '\x7b' ::
    ([',', ' '].intercalate
      (asked.map fun entry => (propertyEntry entry).toList) ++ ['\x7d'])

/-- Where a slot ends. -/
def slotEnds : List Char := [')', ']']

/-- The properties asked for end where the slot ends. -/
theorem cut_askedChars : Cut askedChars (List.Forall₂ EntryAlike)
    (fun asked => ∀ entry ∈ asked, entry.2.isNull = false)
    (StartsIn slotEnds) := by
  have hentries : Cut (fun asked => [',', ' '].intercalate
      (asked.map fun entry => (propertyEntry entry).toList))
      (List.Forall₂ EntryAlike)
      (fun asked => asked ≠ [] ∧ ∀ entry ∈ asked, entry.2.isNull = false)
      (StartsIn ['\x7d']) := by
    refine cut_propertyEntry.separated (fun t => .cons (by decide))
      (fun r hr => hr.mono (by decide))
      fun t ht => ?_
    exact absurd rfl
      (ht.ne (.cons (t := ' ' :: t) (List.mem_singleton_self ',')) (by decide))
  have hopen : ∀ {asked : List (String × Value)} {r s : List Char}, asked ≠ [] →
      StartsIn slotEnds r →
      r ≠ askedChars asked ++ s := by
    intro asked r s hne hr
    rw [askedChars, if_neg hne]
    exact hr.ne (.cons (List.mem_singleton_self ' ')) (by decide)
  intro asked asked' r s hok hok' hr hs h
  by_cases hnil : asked = [] <;> by_cases hnil' : asked' = []
  · subst hnil
    subst hnil'
    exact ⟨.nil, h⟩
  · subst hnil
    exact absurd h (hopen hnil' hr)
  · subst hnil'
    exact absurd h.symm (hopen hnil hs)
  · rw [askedChars, askedChars, if_neg hnil, if_neg hnil'] at h
    simp only [List.cons_append, List.append_assoc, List.nil_append,
      List.cons.injEq, true_and] at h
    obtain ⟨halike, hrs⟩ :=
      hentries ⟨hnil, hok⟩ ⟨hnil', hok'⟩ (.cons List.mem_cons_self)
      (.cons List.mem_cons_self) h
    exact ⟨halike, (List.cons.inj hrs).2⟩

/-! ## Slots -/

/-- A variable, the label that is written, and the properties asked for: what
stands between parentheses or brackets. -/
structure Slot where
  name : String
  label : Option String
  asked : List (String × Value)

def labelChars : Option String → List Char
  | some label => '\x3a' :: (identifier label).toList
  | none => []

def Slot.chars (s : Slot) : List Char :=
  (slotText s.name s.label s.asked).toList

theorem Slot.chars_eq (s : Slot) :
    s.chars = s.name.toList ++ (labelChars s.label ++ askedChars s.asked) := by
  have hasked : (if s.asked = [] then ""
      else " \x7b" ++ ", ".intercalate (s.asked.map fun entry =>
        identifier entry.1 ++ ": " ++ literal entry.2) ++ "\x7d").toList =
      askedChars s.asked := by
    unfold askedChars
    split
    · rfl
    · rw [String.toList_append, String.toList_append, String.toList_intercalate,
        List.map_map, List.append_assoc]
      rfl
  unfold chars slotText
  rw [String.toList_append, String.toList_append, hasked, List.append_assoc]
  cases s.label with
  | none => rfl
  | some label =>
    rw [String.toList_append]
    rfl

/-- Whether the name is a word and every property asked for has a value, as in
the query of any graph under accepted options. -/
structure Slot.Proper (s : Slot) : Prop where
  name_word : ∀ c ∈ s.name.toList, continuesName c = true
  asked_present : ∀ entry ∈ s.asked, entry.2.isNull = false

structure Slot.Alike (s t : Slot) : Prop where
  name : s.name = t.name
  label : s.label = t.label
  asked : List.Forall₂ EntryAlike s.asked t.asked

theorem startsIn_askedChars {asked : List (String × Value)} {r : List Char}
    (hr : StartsIn slotEnds r) :
    StartsIn [' ', ')', ']'] (askedChars asked ++ r) := by
  unfold askedChars
  split
  · exact hr.mono (by decide)
  · exact .cons List.mem_cons_self

theorem startsIn_labelChars {label : Option String} {r : List Char}
    (hr : StartsIn [' ', ')', ']'] r) :
    StartsIn ['\x3a', ' ', ')', ']'] (labelChars label ++ r) := by
  cases label with
  | none => exact hr.mono (by decide)
  | some label => exact .cons List.mem_cons_self

/-- A label ends where the properties or the end of the slot follow. -/
theorem cut_labelChars :
    Cut labelChars (· = ·) (fun _ => True) (StartsIn [' ', ')', ']']) := by
  have hname := cut_identifier [' ', ')', ']'] (by decide)
  have hopen : ∀ {label : String} {r s : List Char},
      StartsIn [' ', ')', ']'] r →
      r ≠ labelChars (some label) ++ s := fun hr =>
    hr.ne (.cons (List.mem_singleton_self '\x3a')) (by decide)
  intro a b r s _ _ hr hs h
  cases a with
  | none =>
    cases b with
    | none => exact ⟨rfl, h⟩
    | some b => exact absurd h (hopen hr)
  | some a =>
    cases b with
    | none => exact absurd h.symm (hopen hs)
    | some b =>
      obtain ⟨hab, hrs⟩ := hname trivial trivial hr hs (List.cons.inj h).2
      exact ⟨congrArg some hab, hrs⟩

/-- A slot ends at the parenthesis or the bracket that closes it; its name, its
label and its properties are cut off one by one. -/
theorem cut_slot :
    Cut Slot.chars Slot.Alike Slot.Proper (StartsIn slotEnds) := by
  have hword := cut_word continuesName ['\x3a', ' ', ')', ']'] (by decide)
  intro s t r u hs ht hr hu h
  simp only [Slot.chars_eq, List.append_assoc] at h
  obtain ⟨hname, h⟩ := hword hs.name_word ht.name_word
    (startsIn_labelChars (startsIn_askedChars hr))
    (startsIn_labelChars (startsIn_askedChars hu)) h
  obtain ⟨hlabel, h⟩ := cut_labelChars trivial trivial (startsIn_askedChars hr)
    (startsIn_askedChars hu) h
  obtain ⟨hasked, hru⟩ :=
    cut_askedChars hs.asked_present ht.asked_present hr hu h
  exact ⟨⟨String.toList_inj.1 hname, hlabel, hasked⟩, hru⟩

/-! ## Nodes, relations and chains -/

/-- A node between its parentheses. -/
def nodeChars (s : Slot) : List Char := '(' :: (s.chars ++ [')'])

theorem cut_nodeChars : Cut nodeChars Slot.Alike Slot.Proper fun _ => True := by
  intro s t r u hs ht _ _ h
  simp only [nodeChars, List.cons_append, List.append_assoc, List.nil_append,
    List.cons.injEq, true_and] at h
  obtain ⟨halike, hru⟩ :=
    cut_slot hs ht (.cons List.mem_cons_self) (.cons List.mem_cons_self) h
  exact ⟨halike, (List.cons.inj hru).2⟩

/-- A relation as it is passed, and the node that it leads to: one step
of a line. -/
structure Hop where
  arrow : Arrow
  relation : Slot
  node : Slot

/-- What opens and what closes the brackets of a relation. -/
def Arrow.opening : Arrow → List Char
  | .backward => ['<', '-', '[']
  | .plain | .forward => ['-', '[']

def Arrow.closing : Arrow → List Char
  | .forward => [']', '-', '>']
  | .plain | .backward => [']', '-']

def Hop.chars (h : Hop) : List Char :=
  h.arrow.opening ++ (h.relation.chars ++ (h.arrow.closing ++ nodeChars h.node))

structure Hop.Proper (h : Hop) : Prop where
  relation : h.relation.Proper
  node : h.node.Proper

structure Hop.Alike (h k : Hop) : Prop where
  arrow : h.arrow = k.arrow
  relation : h.relation.Alike k.relation
  node : h.node.Alike k.node

theorem startsIn_closing (a : Arrow) (r : List Char) :
    StartsIn slotEnds (a.closing ++ r) := by
  cases a <;> exact .cons (by decide)

theorem cut_hop : Cut Hop.chars Hop.Alike Hop.Proper fun _ => True := by
  intro h k r s hh hk _ _ heq
  obtain ⟨a, relation, node⟩ := h
  obtain ⟨b, relation', node'⟩ := k
  simp only [Hop.chars, List.append_assoc] at heq
  -- the opening is read off the first character, and the slot follows it
  have hopening : a.opening = b.opening ∧
      relation.chars ++ (a.closing ++ (nodeChars node ++ r)) =
        relation'.chars ++ (b.closing ++ (nodeChars node' ++ s)) := by
    cases a <;> cases b <;> simp_all [Arrow.opening]
  obtain ⟨hrelation, htail⟩ :=
    cut_slot hh.relation hk.relation (startsIn_closing a _)
    (startsIn_closing b _) hopening.2
  -- then the closing, since no node starts like an arrow head
  have hclosing : a = b ∧ nodeChars node ++ r = nodeChars node' ++ s := by
    cases a <;> cases b <;> simp_all [Arrow.opening, Arrow.closing, nodeChars]
  obtain ⟨hnode, hrs⟩ :=
    cut_nodeChars hh.node hk.node trivial trivial hclosing.2
  exact ⟨⟨hclosing.1, hrelation, hnode⟩, hrs⟩

/-- A node and the hops from it: a chain as it is written. -/
structure Line where
  start : Slot
  hops : List Hop

def Line.chars (l : Line) : List Char :=
  nodeChars l.start ++ l.hops.flatMap Hop.chars

structure Line.Proper (l : Line) : Prop where
  start : l.start.Proper
  hops : ∀ h ∈ l.hops, h.Proper

structure Line.Alike (l m : Line) : Prop where
  start : l.start.Alike m.start
  hops : List.Forall₂ Hop.Alike l.hops m.hops

/-- Where a chain ends. -/
def lineEnds : List Char := [',', '\n']

theorem startsIn_hop (h : Hop) (r : List Char) :
    StartsIn ['<', '-'] (h.chars ++ r) := by
  obtain ⟨a, relation, node⟩ := h
  cases a <;> exact .cons (by decide)

theorem cut_line :
    Cut Line.chars Line.Alike Line.Proper (StartsIn lineEnds) := by
  have hhops : Cut (fun hops => hops.flatMap Hop.chars) (List.Forall₂ Hop.Alike)
      (fun hops => ∀ h ∈ hops, h.Proper) (StartsIn lineEnds) := by
    apply cut_hop.flatMap (fun _ _ _ => trivial) (fun _ _ => trivial)
    intro h t _ hafter
    exact absurd rfl (hafter.ne (startsIn_hop h t) (by decide))
  intro l m r s hl hm hr hs h
  simp only [Line.chars, List.append_assoc] at h
  obtain ⟨hstart, h⟩ := cut_nodeChars hl.start hm.start trivial trivial h
  obtain ⟨hhops, hrs⟩ := hhops hl.hops hm.hops hr hs h
  exact ⟨⟨hstart, hhops⟩, hrs⟩

/-- The lines of a pattern, up to the line feed, which stands in
none of them. -/
theorem cut_lines :
    Cut (fun lines => [',', ' '].intercalate (lines.map Line.chars))
    (List.Forall₂ Line.Alike) (fun lines => lines ≠ [] ∧ ∀ l ∈ lines, l.Proper)
    (StartsIn ['\n']) := by
  refine cut_line.separated (fun t => .cons (by decide))
    (fun r hr => hr.mono (by decide))
    fun t ht => ?_
  exact absurd rfl (ht.ne (.cons (t := ' ' :: t) (List.mem_singleton_self ','))
    (by decide))

end DrawnPattern.Query
