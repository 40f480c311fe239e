import DrawnPattern.Proofs.Query.Grammar
import DrawnPattern.Proofs.Query.Variable
set_option autoImplicit false

/-!
# The grammar of predicates

A predicate starts with a variable before a point, or with a function before a
parenthesis, so what it is shows before anything is quoted in it.  Under
accepted stems a predicate is determined by its text (`cut_predicate`), and all
predicates of a query by their lines (`cut_linesChars`).
-/

namespace DrawnPattern.Query

variable {o : Options}

/-! ## One predicate -/

/-- The condition that a property is missing. -/
def lackChars (name property : String) : List Char :=
  name.toList ++ '.' :: ((identifier property).toList ++
    [' ', 'I', 'S', ' ', 'N', 'U', 'L', 'L'])

/-- The condition that two ids ascend, with the characters of the comparison. -/
def ascendChars (comparison : List Char) (lower upper : String) : List Char :=
  'i' :: 'd' :: '(' ::
    (lower.toList ++ ')' :: ' ' :: (comparison ++ ' ' :: 'i' :: 'd' :: '(' ::
    (upper.toList ++ [')'])))

/-- The characters of a predicate. -/
def Predicate.chars (o : Options) : Predicate → List Char
  | nodeLacks node property => lackChars (o.nodeVariable node) property
  | relationLacks relation property =>
    lackChars (o.relationVariable relation) property
  | nodesAscend lower upper =>
    ascendChars ['<', '='] (o.nodeVariable lower) (o.nodeVariable upper)
  | relationsAscend lower upper =>
    ascendChars ['<'] (o.relationVariable lower) (o.relationVariable upper)

theorem toList_text (p : Predicate) : (p.text o).toList = p.chars o := by
  cases p <;>
    simp [Predicate.text, Predicate.chars, lackChars, ascendChars,
      String.toList_append]

theorem cut_lackChars {v w p q : String} {r s : List Char}
    (hv : ∀ c ∈ v.toList, continuesName c = true)
    (hw : ∀ c ∈ w.toList, continuesName c = true)
    (h : lackChars v p ++ r = lackChars w q ++ s) : v = w ∧ p = q ∧ r = s := by
  have hword := cut_word continuesName ['.'] (by decide)
  have hname := cut_identifier [' '] (by decide)
  simp only [lackChars, List.append_assoc, List.cons_append,
    List.nil_append] at h
  obtain ⟨hvw, h⟩ :=
    hword hv hw (.cons List.mem_cons_self) (.cons List.mem_cons_self) h
  obtain ⟨hpq, h⟩ :=
    hname trivial trivial (.cons List.mem_cons_self) (.cons List.mem_cons_self)
    (List.cons.inj h).2
  simp only [List.cons.injEq, true_and] at h
  exact ⟨String.toList_inj.1 hvw, hpq, h⟩

/-- The comparison shows after the first variable. -/
theorem cut_ascendChars (strict strict' : Bool) {v w v' w' : String}
    {r s : List Char} (hv : ∀ c ∈ v.toList, continuesName c = true)
    (hw : ∀ c ∈ w.toList, continuesName c = true)
    (hv' : ∀ c ∈ v'.toList, continuesName c = true)
    (hw' : ∀ c ∈ w'.toList, continuesName c = true)
    (h : ascendChars (if strict = true then ['<'] else ['<', '=']) v w ++ r =
      ascendChars (if strict' = true then ['<'] else ['<', '=']) v' w' ++ s) :
    strict = strict' ∧ v = v' ∧ w = w' ∧ r = s := by
  have hword := cut_word continuesName [')'] (by decide)
  simp only [ascendChars, List.append_assoc, List.cons_append, List.nil_append,
    List.cons.injEq, true_and] at h
  obtain ⟨hvv, h⟩ :=
    hword hv hv' (.cons List.mem_cons_self) (.cons List.mem_cons_self) h
  have hcomparison : strict = strict' ∧
      w.toList ++ ')' :: r = w'.toList ++ ')' :: s := by
    cases strict <;> cases strict' <;> simp_all
  obtain ⟨hww, h⟩ :=
    hword hw hw' (.cons List.mem_cons_self) (.cons List.mem_cons_self)
    hcomparison.2
  exact ⟨hcomparison.1, String.toList_inj.1 hvv, String.toList_inj.1 hww,
    (List.cons.inj h).2⟩

/-- A condition on properties is none on ids. -/
theorem lackChars_append_ne {comparison : List Char} {v p lower upper : String}
    {r s : List Char} (hv : ∀ c ∈ v.toList, continuesName c = true) :
    lackChars v p ++ r ≠ ascendChars comparison lower upper ++ s := by
  intro h
  have hword := cut_word continuesName ['.', '('] (by decide)
  have hid : ['i', 'd'].all continuesName = true := by decide
  have hsplit : ascendChars comparison lower upper ++ s =
      ['i', 'd'] ++ '(' :: (lower.toList ++ ')' :: ' ' ::
        (comparison ++ ' ' :: 'i' :: 'd' :: '(' ::
          (upper.toList ++ ')' :: s))) := by
    simp [ascendChars]
  rw [hsplit, lackChars, List.append_assoc] at h
  obtain ⟨-, htail⟩ :=
    hword hv (List.all_eq_true.1 hid) (.cons (by decide)) (.cons (by decide)) h
  exact absurd (List.cons.inj htail).1 (by decide)

/-- A predicate is determined by its text, whatever follows: how it starts tells
its kind, and then its tokens are cut off in turn. -/
theorem cut_predicate (ho : o.Accepted) :
    Cut (Predicate.chars o) (· = ·) (fun _ => True) fun _ => True := by
  have hn := ho.nodeVariable_word
  have hr := ho.relationVariable_word
  have hapart := ho.nodeVariable_ne_relationVariable
  intro p q r s _ _ _ _ h
  -- two predicates of one kind are cut token by token; two of different kinds
  -- differ in a variable or in the word after it
  cases p with
  | nodeLacks a property =>
    cases q with
    | nodeLacks b property' =>
      obtain ⟨hab, rfl, hrs⟩ := cut_lackChars (hn a) (hn b) h
      rw [variableName_inj hab]
      exact ⟨rfl, hrs⟩
    | relationLacks b property' =>
      exact absurd (cut_lackChars (hn a) (hr b) h).1 (hapart a b)
    | nodesAscend lower upper => exact absurd h (lackChars_append_ne (hn a))
    | relationsAscend lower upper => exact absurd h (lackChars_append_ne (hn a))
  | relationLacks a property =>
    cases q with
    | nodeLacks b property' =>
      exact absurd (cut_lackChars (hr a) (hn b) h).1.symm (hapart b a)
    | relationLacks b property' =>
      obtain ⟨hab, rfl, hrs⟩ := cut_lackChars (hr a) (hr b) h
      rw [variableName_inj hab]
      exact ⟨rfl, hrs⟩
    | nodesAscend lower upper => exact absurd h (lackChars_append_ne (hr a))
    | relationsAscend lower upper => exact absurd h (lackChars_append_ne (hr a))
  | nodesAscend lower upper =>
    cases q with
    | nodeLacks b property' => exact absurd h.symm (lackChars_append_ne (hn b))
    | relationLacks b property' =>
      exact absurd h.symm (lackChars_append_ne (hr b))
    | nodesAscend lower' upper' =>
      obtain ⟨-, hlower, hupper, hrs⟩ := cut_ascendChars false false
        (hn lower) (hn upper) (hn lower') (hn upper') h
      rw [variableName_inj hlower, variableName_inj hupper]
      exact ⟨rfl, hrs⟩
    | relationsAscend lower' upper' =>
      exact absurd (cut_ascendChars false true
        (hn lower) (hn upper) (hr lower') (hr upper') h).1 (by decide)
  | relationsAscend lower upper =>
    cases q with
    | nodeLacks b property' => exact absurd h.symm (lackChars_append_ne (hn b))
    | relationLacks b property' =>
      exact absurd h.symm (lackChars_append_ne (hr b))
    | nodesAscend lower' upper' =>
      exact absurd (cut_ascendChars true false
        (hr lower) (hr upper) (hn lower') (hn upper') h).1 (by decide)
    | relationsAscend lower' upper' =>
      obtain ⟨-, hlower, hupper, hrs⟩ := cut_ascendChars true true
        (hr lower) (hr upper) (hr lower') (hr upper') h
      rw [variableName_inj hlower, variableName_inj hupper]
      exact ⟨rfl, hrs⟩

/-! ## All predicates -/

/-- A line that adds a predicate. -/
def andChars (o : Options) (p : Predicate) : List Char :=
  ' ' :: ' ' :: 'A' :: 'N' :: 'D' :: ' ' :: (p.chars o ++ ['\n'])

/-- The lines of the predicates, as characters: what can be cut into the
predicates again. -/
def linesChars (o : Options) : List Predicate → List Char
  | [] => []
  | p :: rest =>
    'W' :: 'H' :: 'E' :: 'R' :: 'E' :: ' ' ::
      (p.chars o ++ '\n' :: rest.flatMap (andChars o))

theorem toList_predicateLines (ps : List Predicate) :
    (predicateLines o ps).toList = linesChars o ps := by
  cases ps with
  | nil => rfl
  | cons p rest =>
    have hline : ∀ q : Predicate,
        ("  AND " ++ q.text o ++ "\n").toList = andChars o q := by
      intro q
      rw [String.toList_append, String.toList_append, toList_text]
      rfl
    rw [predicateLines, String.toList_append, String.toList_append,
      String.toList_append, toList_text, String.toList_join, List.flatMap_map]
    simp only [hline, List.append_assoc]
    rfl

/-- The lines of the predicates end where the projection starts, which no
predicate starts like. -/
theorem cut_linesChars (ho : o.Accepted) :
    Cut (linesChars o) (· = ·) (fun _ => True) fun r => ∃ t,
    r = 'W' :: 'I' :: t := by
  have hand : Cut (fun ps => ps.flatMap (andChars o)) (List.Forall₂ (· = ·))
      (fun _ => True)
      (StartsIn ['W']) := by
    have hone : Cut (andChars o) (· = ·) (fun _ => True) fun _ => True := by
      intro p q r s _ _ _ _ h
      simp only [andChars, List.cons_append, List.append_assoc, List.nil_append,
        List.cons.injEq, true_and] at h
      obtain ⟨hpq, hrs⟩ := cut_predicate ho trivial trivial trivial trivial h
      exact ⟨hpq, (List.cons.inj hrs).2⟩
    intro ps qs r s _ _ hr hs h
    refine hone.flatMap (fun _ _ _ => trivial) (fun _ _ => trivial)
      (fun p t _ hafter => ?_)
      (fun _ _ => trivial) (fun _ _ => trivial) hr hs h
    exact absurd rfl (hafter.ne (.cons (List.mem_singleton_self ' '))
      (by decide))
  intro ps qs r s _ _ hr hs h
  have hnil : ∀ {p : Predicate} {rest : List Predicate} {r s : List Char},
      (∃ t, r = 'W' :: 'I' :: t) → r ≠ linesChars o (p :: rest) ++ s := by
    rintro p rest _ s ⟨t, rfl⟩ h
    simp [linesChars] at h
  cases ps with
  | nil =>
    cases qs with
    | nil => exact ⟨rfl, h⟩
    | cons q qs => exact absurd h (hnil hr)
  | cons p ps =>
    cases qs with
    | nil => exact absurd h.symm (hnil hs)
    | cons q qs =>
      simp only [linesChars, List.cons_append, List.append_assoc,
        List.cons.injEq, true_and] at h
      obtain ⟨hpq, h⟩ := cut_predicate ho trivial trivial trivial trivial h
      obtain ⟨t, rfl⟩ := hr
      obtain ⟨u, rfl⟩ := hs
      obtain ⟨hrest, hrs⟩ := hand trivial trivial (.cons List.mem_cons_self)
        (.cons List.mem_cons_self) (List.cons.inj h).2
      rw [List.forall₂_eq_eq_eq] at hrest
      rw [hpq, hrest]
      exact ⟨rfl, hrs⟩

end DrawnPattern.Query
