import DrawnPattern.Proofs.Document.Faithful
import DrawnPattern.Proofs.Json.Nesting
set_option autoImplicit false

/-!
# Writing what was read

What is read may be written longer than it was: fields that were left out are
written with their defaults, which are nested one level deeper where a node or a
relationship was given without its lists.  Cells stand at odd levels, however,
and so does the limit, so a fixture that was read is never written beyond it
(`fits_fixture`), and its numbers can all be given back.
-/

namespace DrawnPattern

namespace Json

variable {c j : Json} {room : Nat}

/-- A part of a value has one level less. -/
theorem Sound.part (h : j.Sound room) (hpart : Part c j) :
    0 < room ∧ c.Sound (room - 1) := by
  have hlt := hpart.depth_lt
  have hdepth := h.depth
  exact ⟨by omega, by omega, fun n hn => h.numbers n (hpart.mem_numbers hn)⟩

end Json

namespace Document

variable {α : Type} {decode : Decoder α} {encode : α → Json}
  {a : α} {c j : Json} {names : List String} {members : List (String × Json)}
  {reading inner : Reading} {room : Nat} {f : Nat → Nat}

/-- Whether what is read from a value that is nested so deep is written with
numbers that can be given back, and nested within a bound that depends on
the depth. -/
def Fits (decode : Decoder α) (encode : α → Json) (bound : Nat → Nat) : Prop :=
  ∀ ⦃room : Nat⦄ ⦃j : Json⦄ ⦃a : α⦄, j.Sound room → decode j = some a →
    Plain (encode a) ∧ (encode a).depth ≤ bound room

/-! ## Parts -/

theorem plain_arr {items : List Json} (h : ∀ j ∈ items, Plain j) :
    Plain (.arr items) := by
  intro n hn
  obtain ⟨j, hj, hmem⟩ := Json.mem_numbersItems.1 hn
  exact h j hj n hmem

theorem plain_obj (h : ∀ m ∈ members, Plain m.2) : Plain (.obj members) := by
  intro n hn
  obtain ⟨m, hm, hmem⟩ := Json.mem_numbersMembers.1 hn
  exact h m hm n hmem

/-- Every item that is read is read from an item of the document. -/
theorem exists_of_mem_of_mapM_eq_some {β γ : Type} {read : β → Option γ}
    {items : List β} {results : List γ} (h : items.mapM read = some results) :
    ∀ c ∈ results, ∃ b ∈ items, read b = some c := by
  induction items generalizing results with
  | nil =>
    cases h
    nofun
  | cons b rest ih =>
    rw [List.mapM_cons] at h
    obtain ⟨first, hfirst, h⟩ := Option.bind_eq_some_iff.1 h
    obtain ⟨others, hothers, h⟩ := Option.bind_eq_some_iff.1 h
    cases h
    refine List.forall_mem_cons.2 ⟨⟨b, List.mem_cons_self, hfirst⟩,
      fun c hc => ?_⟩
    obtain ⟨b', hb', hread⟩ := ih hothers c hc
    exact ⟨b', List.mem_cons_of_mem _ hb', hread⟩

theorem Fits.list (h : Fits decode encode f) :
    Fits (list? decode) (ofList encode) fun room => f (room - 1) + 1 := by
  intro room j as hsound has
  cases j with
  | arr items =>
    have hitems : ∀ a ∈ as, Plain (encode a) ∧
        (encode a).depth ≤ f (room - 1) := by
      intro a ha
      obtain ⟨item, hitem, hread⟩ := exists_of_mem_of_mapM_eq_some has a ha
      exact h (hsound.part (.item hitem)).2 hread
    exact ⟨plain_arr (List.forall_mem_map.2 fun a ha => (hitems a ha).1),
      Json.depth_arr_le_iff.2 (List.forall_mem_map.2 fun a ha =>
        (hitems a ha).2)⟩
  | _ => cases has

theorem Fits.map (h : Fits decode encode f) :
    Fits (map? decode) (ofMap encode) fun room => f (room - 1) + 1 := by
  intro room j m hsound hm
  cases j with
  | obj members =>
    have hentries : ∀ entry ∈ m.toList,
        Plain (encode entry.2) ∧ (encode entry.2).depth ≤ f (room - 1) := by
      intro entry hentry
      obtain ⟨entries, hread, hstored⟩ := Option.bind_eq_some_iff.1 hm
      cases hstored
      obtain ⟨member, hmember, hpair⟩ :=
        exists_of_mem_of_mapM_eq_some hread entry
          (Keyed.mem_of_mem_ofList hentry)
      obtain ⟨value, hvalue, hpair⟩ := Option.bind_eq_some_iff.1 hpair
      cases hpair
      exact h (hsound.part (.member hmember)).2 hvalue
    exact ⟨plain_obj
        (List.forall_mem_map.2 fun entry hentry => (hentries entry hentry).1),
      Json.depth_obj_le_iff.2
        (List.forall_mem_map.2 fun entry hentry => (hentries entry hentry).2)⟩
  | _ => cases hm

/-- The content of a choice is a part of it. -/
theorem part_of_tagged? {tag : String}
    (h : tagged? reading names j = some ⟨tag, some c, inner⟩) :
    Json.Part c j := by
  unfold tagged? at h
  split at h
  · rename_i members
    have hinside : ∀ name, (name, c) ∈ members.filter isTagged →
        Json.Part c (.obj members) :=
      fun name hmem => .member (List.mem_filter.1 hmem).1
    split at h
    · obtain ⟨name, -, heq⟩ := Option.bind_eq_some_iff.1 h
      cases heq
    · rename_i hmembers
      obtain ⟨name, -, heq⟩ := Option.bind_eq_some_iff.1 h
      cases heq
      exact hinside "v" (by simp [hmembers])
    · rename_i hmembers
      split at h
      · obtain ⟨name, -, heq⟩ := Option.bind_eq_some_iff.1 h
        cases heq
        exact hinside "v" (by simp [hmembers])
      · cases h
    · cases h
  · obtain ⟨name, -, heq⟩ := Option.bind_eq_some_iff.1 h
    cases heq
    exact .item (List.mem_cons_of_mem _ List.mem_cons_self)
  · cases h

/-- A field of a structure is a part of the document. -/
theorem part_of_fields? {fields : Fields} {name : String}
    (h : fields? names j = some fields) (hfield : fields.lookup name = some c) :
    Json.Part c j := by
  have hmem : ∀ {fields : Fields}, fields.lookup name = some c →
      (name, c) ∈ fields := by
    intro fields hlookup
    obtain ⟨before, after, rfl, -⟩ := List.lookup_eq_some_iff.1 hlookup
    exact List.mem_append_right _ List.mem_cons_self
  cases j with
  | obj members =>
    simp only [fields?, select?] at h
    split at h
    · cases h
      exact .member (List.mem_filter.1 (hmem hfield)).1
    · cases h
  | arr items =>
    simp only [fields?] at h
    split at h
    · cases h
      exact .item (List.of_mem_zip (hmem hfield)).2
    · cases h
  | _ => cases h

/-! ## Values -/

theorem plain_of_int? {i : Int}
    (h : int? j = some i) : (Number.int i).Plain := by
  unfold int? at h
  split at h
  · split at h
    · rename_i hrange
      cases h
      exact hrange
    · cases h
  · cases h

theorem plain_of_double? {x : Double} (hnumbers : ∀ n ∈ j.numbers, n.InRange)
    (h : double? j = some x) : (Number.float x).Plain := by
  unfold double? at h
  split at h
  · rename_i i
    cases h
    have hrange : (Number.int i).InRange := hnumbers _ List.mem_cons_self
    simp only [Number.InRange, Json.leastMagnitude, Json.greatest] at hrange
    exact Double.isFinite_ofInt (by omega)
  · cases h
    exact hnumbers _ List.mem_cons_self
  · cases h

theorem plain_ofInt {i : Int} (h : (Number.int i).Plain) : Plain (ofInt i) := by
  intro n hn
  rw [List.mem_singleton.1 hn]
  exact h

theorem depth_ofValue (v : Value) : (ofValue v).depth = 1 := by
  cases v <;> rfl

/-- A scalar that is read has a number that can be given back, if any. -/
theorem plain_of_scalar? {tag : String} {content : Option Json} {v : Value}
    (hnumbers : ∀ c ∈ content, ∀ n ∈ c.numbers, n.InRange)
    (h : scalar? tag content = some v) :
    Plain (ofValue v) := by
  have hone : ∀ {v : Value} {n : Number}, (ofValue v).numbers = [n] → n.Plain →
      Plain (ofValue v) := by
    intro v n heq hn m hm
    rw [heq, List.mem_singleton] at hm
    exact hm ▸ hn
  unfold scalar? at h
  split at h
  · cases h
    nofun
  · cases h
    nofun
  · obtain ⟨b, -, rfl⟩ := Option.map_eq_some_iff.1 h
    nofun
  · obtain ⟨i, hi, rfl⟩ := Option.map_eq_some_iff.1 h
    exact hone rfl (plain_of_int? hi)
  · obtain ⟨x, hx, rfl⟩ := Option.map_eq_some_iff.1 h
    exact hone rfl (plain_of_double? (hnumbers _ rfl) hx)
  · obtain ⟨s, -, rfl⟩ := Option.map_eq_some_iff.1 h
    nofun
  · cases h

theorem room_pos_of_tagged? {found : Tagged} (hsound : j.Sound room)
    (h : tagged? reading names j = some found) : 0 < room := by
  have hdepth : 0 < j.depth := by
    cases j with
    | arr items => exact Nat.succ_pos _
    | obj members => exact Nat.succ_pos _
    | _ => cases h
  exact Nat.lt_of_lt_of_le hdepth hsound.depth

theorem fits_value (reading : Reading) :
    Fits (value? reading) ofValue fun room => room := by
  intro room j v hsound hv
  obtain ⟨⟨tag, content, inner⟩, hfound, hv⟩ := Option.bind_eq_some_iff.1 hv
  refine ⟨plain_of_scalar? ?_ hv, ?_⟩
  · rintro c rfl
    exact (hsound.part (part_of_tagged? hfound)).2.numbers
  · rw [depth_ofValue]
    exact room_pos_of_tagged? hsound hfound

theorem fits_properties (reading : Reading) :
    Fits (properties? reading) ofProperties fun room => room - 1 + 1 :=
  (fits_value reading).map

/-! ## Fields -/

theorem fits_int : Fits int? ofInt fun _ => 0 :=
  fun _ _ _ _ h => ⟨plain_ofInt (plain_of_int? h), Nat.le_refl _⟩

theorem fits_string : Fits string? .str fun _ => 0 :=
  fun _ _ _ _ _ => ⟨nofun, Nat.le_refl _⟩

/-- A field that has to be there stands one level below the structure. -/
theorem Fits.required {fields : Fields} {name : String}
    (h : Fits decode encode f) (hsound : j.Sound room)
    (hfields : fields? names j = some fields)
    (ha : required fields name decode = some a) :
    Plain (encode a) ∧ (encode a).depth ≤ f (room - 1) := by
  obtain ⟨c, hc, hread⟩ := Option.bind_eq_some_iff.1 ha
  exact h (hsound.part (part_of_fields? hfields hc)).2 hread

/-- So does a field with a default, unless the field is missing and what is read
is the default. -/
theorem Fits.withDefault {fields : Fields} {name : String} {default : α}
    (h : Fits decode encode f) (hsound : j.Sound room)
    (hfields : fields? names j = some fields)
    (ha : withDefault fields name default decode = some a)
    (hplain : Plain (encode default)) :
    Plain (encode a) ∧
    (encode a).depth ≤ max (f (room - 1)) (encode default).depth := by
  unfold Document.withDefault at ha
  split at ha
  · rename_i c hc
    obtain ⟨hread, hdepth⟩ := h (hsound.part (part_of_fields? hfields hc)).2 ha
    exact ⟨hread, Nat.le_trans hdepth (Nat.le_max_left _ _)⟩
  · cases ha
    exact ⟨hplain, Nat.le_max_right _ _⟩

/-! ## Rows -/

/-- An element is written with its lists, be they empty, so it is nested at
least twice. -/
theorem fits_storedNode (reading : Reading) :
    Fits (storedNode? reading) ofStoredNode fun room => max 2 room := by
  intro room j n hsound h
  obtain ⟨fields, hfields, h⟩ := Option.bind_eq_some_iff.1 h
  obtain ⟨id, hid, h⟩ := Option.bind_eq_some_iff.1 h
  obtain ⟨labels, hlabels, h⟩ := Option.bind_eq_some_iff.1 h
  obtain ⟨properties, hproperties, h⟩ := Option.bind_eq_some_iff.1 h
  cases h
  obtain ⟨hidPlain, hidDepth⟩ := fits_int.required hsound hfields hid
  obtain ⟨hlabelsPlain, hlabelsDepth⟩ :=
    fits_string.list.withDefault hsound hfields hlabels nofun
  obtain ⟨hpropertiesPlain, hpropertiesDepth⟩ :=
    (fits_properties reading).withDefault hsound hfields hproperties nofun
  have hnoLabels : (ofList .str []).depth = 1 := rfl
  have hnoProperties : (ofProperties ∅).depth = 1 := rfl
  have hroom : max 1 (room - 1) + 1 ≤ max 2 room := by omega
  refine ⟨plain_obj ?_, Nat.le_trans (Json.depth_obj_le_iff.2 ?_) hroom⟩
  · simp [hidPlain, hlabelsPlain, hpropertiesPlain]
  · simp only [List.forall_mem_cons]
    exact ⟨by omega, by omega, by omega, List.forall_mem_nil _⟩

theorem fits_storedRelationship (reading : Reading) :
    Fits (storedRelationship? reading) ofStoredRelationship
      fun room => max 2 room := by
  intro room j r hsound h
  obtain ⟨fields, hfields, h⟩ := Option.bind_eq_some_iff.1 h
  obtain ⟨id, hid, h⟩ := Option.bind_eq_some_iff.1 h
  obtain ⟨source, hsource, h⟩ := Option.bind_eq_some_iff.1 h
  obtain ⟨target, htarget, h⟩ := Option.bind_eq_some_iff.1 h
  obtain ⟨type, htype, h⟩ := Option.bind_eq_some_iff.1 h
  obtain ⟨properties, hproperties, h⟩ := Option.bind_eq_some_iff.1 h
  cases h
  obtain ⟨hidPlain, hidDepth⟩ := fits_int.required hsound hfields hid
  obtain ⟨hsourcePlain, hsourceDepth⟩ :=
    fits_int.required hsound hfields hsource
  obtain ⟨htargetPlain, htargetDepth⟩ :=
    fits_int.required hsound hfields htarget
  obtain ⟨htypePlain, htypeDepth⟩ := fits_string.required hsound hfields htype
  obtain ⟨hpropertiesPlain, hpropertiesDepth⟩ :=
    (fits_properties reading).withDefault hsound hfields hproperties nofun
  have hnoProperties : (ofProperties ∅).depth = 1 := rfl
  have hroom : max 1 (room - 1) + 1 ≤ max 2 room := by omega
  refine ⟨plain_obj ?_, Nat.le_trans (Json.depth_obj_le_iff.2 ?_) hroom⟩
  · simp [hidPlain, hsourcePlain, htargetPlain, htypePlain, hpropertiesPlain]
  · simp only [List.forall_mem_cons]
    exact ⟨by omega, by omega, by omega, by omega, by
      omega, List.forall_mem_nil _⟩

/-- What a cell may be read as. -/
theorem cell?_cases {cell : Cell} (h : cell? reading j = some cell) :
    ∃ tag content inner,
    tagged? reading cellNames j = some ⟨tag, content, inner⟩ ∧
      ((∃ items cells, content = some (.arr items) ∧
        items.mapM (cell? inner) = some cells ∧
          cell = .list cells) ∨
        (∃ c n, content = some c ∧ storedNode? inner c = some n ∧
          cell = .node n) ∨
        (∃ c r, content = some c ∧ storedRelationship? inner c = some r ∧
          cell = .relationship r) ∨
        ∃ v, scalar? tag content = some v ∧ cell = cellOfValue v) := by
  rw [cell?] at h
  split at h
  · rename_i items inner hfound
    obtain ⟨cells, hcells, rfl⟩ := Option.map_eq_some_iff.1 h
    exact ⟨_, _, _, hfound,
      .inl ⟨items, cells, rfl, by simpa using hcells, rfl⟩⟩
  · rename_i content inner hfound
    obtain ⟨n, hn, rfl⟩ := Option.map_eq_some_iff.1 h
    exact ⟨_, _, _, hfound, .inr (.inl ⟨content, n, rfl, hn, rfl⟩)⟩
  · rename_i content inner hfound
    obtain ⟨r, hr, rfl⟩ := Option.map_eq_some_iff.1 h
    exact ⟨_, _, _, hfound, .inr (.inr (.inl ⟨content, r, rfl, hr, rfl⟩))⟩
  · rename_i tag content inner _ _ _ hfound
    obtain ⟨v, hv, rfl⟩ := Option.map_eq_some_iff.1 h
    exact ⟨_, _, _, hfound, .inr (.inr (.inr ⟨v, hv, rfl⟩))⟩
  · cases h

theorem plain_ofTagged {tag : String} (h : Plain c) :
    Plain (ofTagged tag c) := by
  apply plain_obj
  simp only [List.forall_mem_cons]
  exact ⟨nofun, h, List.forall_mem_nil _⟩

theorem depth_ofTagged (tag : String)
    (c : Json) : (ofTagged tag c).depth = c.depth + 1 := by
  simp [ofTagged, Json.depth, Json.depthMembers]

theorem room_pos_of_fields? {fields : Fields} (hsound : j.Sound room)
    (h : fields? names j = some fields) : 0 < room := by
  have hdepth : 0 < j.depth := by
    cases j with
    | arr items => exact Nat.succ_pos _
    | obj members => exact Nat.succ_pos _
    | _ => cases h
  exact Nat.lt_of_lt_of_le hdepth hsound.depth

/-- The least odd number that is not below the number.  A list of cells takes
two levels of a document, and what it holds may take one more. -/
def oddBound (room : Nat) : Nat := 2 * (room / 2) + 1

/-- An element in a cell stands one level below it. -/
theorem fits_element (tag : String) (hroom : 0 < room - 1) (hplain : Plain c)
    (hdepth : c.depth ≤ max 2 (room - 1)) :
    Plain (ofTagged tag c) ∧ (ofTagged tag c).depth ≤ oddBound room := by
  refine ⟨plain_ofTagged hplain, ?_⟩
  rw [depth_ofTagged, oddBound]
  omega

/-- A cell that is filled in is nested at most up to the next odd depth, since a
list is written in two levels and a scalar in one. -/
theorem fits_cell (reading : Reading) :
    Fits (cell? reading) ofCell oddBound := by
  intro room
  -- on the room that is left: the items of a list have two levels less
  induction room using Nat.strongRecOn generalizing reading with
  | ind room ih =>
    intro j cell hsound h
    obtain ⟨tag, content, inner, hfound, hcases⟩ := cell?_cases h
    have hroom := room_pos_of_tagged? hsound hfound
    have hpart : ∀ c, content = some c → c.Sound (room - 1) := by
      rintro c rfl
      exact (hsound.part (part_of_tagged? hfound)).2
    rcases hcases with
      ⟨items, cells, hcontent, hcells, rfl⟩ | ⟨c, n, hcontent, hn, rfl⟩ |
      ⟨c, r, hcontent, hr, rfl⟩ | ⟨v, hv, rfl⟩
    · have harray := hpart _ hcontent
      have hitems : ∀ c ∈ cells, Plain (ofCell c) ∧
          (ofCell c).depth ≤ oddBound (room - 1 - 1) := by
        intro c hc
        obtain ⟨item, hitem, hread⟩ := exists_of_mem_of_mapM_eq_some hcells c hc
        exact ih _ (by omega) inner (harray.part (.item hitem)).2 hread
      have hdepth :
          (Json.arr (cells.map ofCell)).depth ≤ oddBound (room - 1 - 1) + 1 :=
        Json.depth_arr_le_iff.2 (List.forall_mem_map.2 fun c hc =>
          (hitems c hc).2)
      have htwo : 0 < room - 1 :=
        Nat.lt_of_lt_of_le (Nat.succ_pos _) harray.depth
      rw [ofCell, ofCells_eq_map]
      refine ⟨plain_ofTagged
        (plain_arr (List.forall_mem_map.2 fun c hc => (hitems c hc).1)), ?_⟩
      rw [depth_ofTagged]
      unfold oddBound at hdepth ⊢
      omega
    · obtain ⟨hplain, hdepth⟩ := fits_storedNode inner (hpart c hcontent) hn
      obtain ⟨fields, hfields, -⟩ := Option.bind_eq_some_iff.1 hn
      have hroom := room_pos_of_fields? (hpart c hcontent) hfields
      exact fits_element "Node" hroom hplain hdepth
    · obtain ⟨hplain, hdepth⟩ :=
        fits_storedRelationship inner (hpart c hcontent) hr
      obtain ⟨fields, hfields, -⟩ := Option.bind_eq_some_iff.1 hr
      have hroom := room_pos_of_fields? (hpart c hcontent) hfields
      exact fits_element "Relationship" hroom hplain hdepth
    · rw [ofCell_cellOfValue, depth_ofValue, oddBound]
      exact ⟨plain_of_scalar? (fun c hc => (hpart c hc).numbers) hv, by omega⟩

/-! ## Fixtures -/

theorem fits_bool : Fits bool? .bool fun _ => 0 :=
  fun _ _ _ _ _ => ⟨nofun, Nat.le_refl _⟩

theorem fits_row : Fits row? ofRow fun room => oddBound (room - 1) + 1 :=
  (fits_cell .direct).map

/-- A fixture that is read is written within the limit: its cells stand four
levels below it, which leaves an odd number of them. -/
theorem fits_fixture {fixture : Fixture} (hsound : j.Sound Json.depthLimit)
    (h : fixture? j = some fixture) :
    Plain (ofFixture fixture) ∧
    (ofFixture fixture).depth ≤ Json.depthLimit := by
  obtain ⟨fields, hfields, h⟩ := Option.bind_eq_some_iff.1 h
  obtain ⟨unreachable, hunreachable, h⟩ := Option.bind_eq_some_iff.1 h
  obtain ⟨responses, hresponses, h⟩ := Option.bind_eq_some_iff.1 h
  cases h
  obtain ⟨hflagPlain, hflagDepth⟩ :=
    fits_bool.withDefault hsound hfields hunreachable nofun
  obtain ⟨hrowsPlain, hrowsDepth⟩ :=
    fits_row.list.map.withDefault hsound hfields hresponses nofun
  have hnoRows : (ofMap (ofList ofRow) ∅).depth = 1 := rfl
  have hnoFlag : (Json.bool false).depth = 0 := rfl
  have hmost : oddBound (Json.depthLimit - 1 - 1 - 1 - 1) = 123 := rfl
  refine ⟨plain_obj ?_, Json.depth_obj_le_iff.2 ?_⟩
  · simp [hflagPlain, hrowsPlain]
  · simp only [List.forall_mem_cons]
    exact ⟨by omega, by omega, List.forall_mem_nil _⟩

end Document

end DrawnPattern
