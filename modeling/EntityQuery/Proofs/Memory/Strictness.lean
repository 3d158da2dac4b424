import EntityQuery.Entity.Directory
import EntityQuery.Proofs.Memory.Order
/-!
# Where comparing entities is a strict order

Sorting relies on a strict total order. Comparing two entities the other way round gives the
reverse, and entities with different identifiers are told apart, whatever their fields hold.
Transitivity is another matter. A not-a-number ties with every number, so where it stands
between two of them the identifiers decide, and they know nothing of the two numbers.

So entities whose values are comparable are ordered strictly. For a declared type the keys
tell whether all its entities are: as soon as a column of doubles is a key in front of the
identifier, every entity of the type has copies that come one behind the other in a circle.
-/

namespace EntityQuery

/-! ## Reversal -/

theorem Binary64.compare?_swap (x y : Binary64) : y.compare? x = (x.compare? y).map .swap := by
  simp only [compare?, Bool.or_comm y.isNaN]
  split
  · rfl
  · exact congrArg some Std.OrientedCmp.eq_swap

namespace FieldValue

theorem compare?_swap (a b : FieldValue) : b.compare? a = (a.compare? b).map .swap := by
  cases a <;> cases b
  case decimal.decimal | integer.decimal | decimal.integer => exact Binary64.compare?_swap ..
  case date.date => simp [compare?, Date.compare_eq_cmp_epochDay]
  case dateTime.dateTime => simp [compare?, Instant.compare_eq_cmp_tick]
  case text.text | enum.enum | integer.integer | boolean.boolean =>
    exact congrArg some Std.OrientedCmp.eq_swap
  all_goals rfl

theorem compareNullsLast_swap (a b : FieldValue) :
    b.compareNullsLast a = (a.compareNullsLast b).swap := by
  simp only [compareNullsLast]
  cases a.isNull <;> cases b.isNull
  case false.false =>
    rw [compare?_swap a b]
    cases a.compare? b <;> rfl
  all_goals rfl

theorem compareNullsLast_self (a : FieldValue) : a.compareNullsLast a = .eq := by
  have hswap := compareNullsLast_swap a a
  cases horder : a.compareNullsLast a with
  | eq => rfl
  | lt | gt =>
      rw [horder] at hswap
      cases hswap

/-- A not-a-number ties with every double. -/
theorem compareNullsLast_decimal {x y : Binary64} (h : x.isNaN = true ∨ y.isNaN = true) :
    (decimal x).compareNullsLast (decimal y) = .eq := by
  have hnone : x.compare? y = none := by
    obtain h | h := h <;> simp [Binary64.compare?, h]
  simp [compareNullsLast, isNull, compare?, hnone]

end FieldValue

section Entities

variable {α : Type} [Resource α]

theorem keyDifference_swap (a b : α) (key : SortKey) :
    keyDifference b a key = (keyDifference a b key).swap := by
  simp only [keyDifference, FieldValue.compareNullsLast_swap (sortValue a key.field)]
  cases key.direction <;> rfl

theorem compareEntities_swap (a b : α) (keys : List SortKey) :
    compareEntities b a keys = (compareEntities a b keys).swap := by
  induction keys with
  | nil =>
      have hids : compare (Resource.id b).value (Resource.id a).value =
        (compare (Resource.id a).value (Resource.id b).value).swap := Std.OrientedCmp.eq_swap
      exact hids
  | cons key rest ih =>
      have hcons (a b : α) : compareEntities a b (key :: rest) =
        (keyDifference a b key).then (compareEntities a b rest) := rfl
      rw [hcons, hcons, Ordering.swap_then, ih, keyDifference_swap a b]

/-- Entities with different identifiers are told apart. -/
theorem compareEntities_ne_eq {a b : α} (h : Resource.id a ≠ Resource.id b) (keys : List SortKey) :
    compareEntities a b keys ≠ .eq := by
  intro heq
  rw [compareEntities_eq, Ordering.then_eq_eq] at heq
  exact h (Uuid.eq_of_compare heq.2)

theorem compareEntities_trans {among : α → Prop} {keys : List SortKey}
    (h : AreComparable among keys) {a b c : α} (ha : among a) (hb : among b) (hc : among c)
    (hab : compareEntities a b keys = .lt) (hbc : compareEntities b c keys = .lt) :
    compareEntities a c keys = .lt := by
  obtain ⟨R, _, rank, hrank, _⟩ := exists_rank_of_comparable h
  rw [hrank a b ha hb, cmp_eq_lt_iff] at hab
  rw [hrank b c hb hc, cmp_eq_lt_iff] at hbc
  rw [hrank a c ha hc, cmp_eq_lt_iff]
  exact hab.trans hbc

end Entities

/-! ## The identifier among the keys -/

section Identifier

variable {s : Schema} {a b : Entity s}

/-- A key on the identifier compares the identifiers. -/
theorem keyDifference_id (a b : Entity s) (direction : Direction) :
    keyDifference a b ⟨"id", direction⟩ = direction.apply (compare a.id b.id) := by
  have htexts : compare a.id.toText b.id.toText = compare a.id b.id := by
    rw [Uuid.compare_eq_cmp_toText, Text.cmp_encodeUtf8]
  rw [← htexts]
  rfl

theorem keyDifference_id_ne_eq (h : a.id ≠ b.id) (direction : Direction) :
    keyDifference a b ⟨"id", direction⟩ ≠ .eq := by
  rw [keyDifference_id]
  have hne : compare a.id b.id ≠ .eq := fun heq => h (Uuid.eq_of_compare heq)
  cases direction <;> cases horder : compare a.id b.id <;> simp_all [Direction.apply]

/-- Keys behind the identifier make no difference. -/
theorem compareEntities_of_id (h : a.id ≠ b.id) (before after : List SortKey)
    (direction : Direction) :
    compareEntities a b (before ++ ⟨"id", direction⟩ :: after) =
      compareEntities a b (before ++ [⟨"id", direction⟩]) := by
  have hne := keyDifference_id_ne_eq h direction
  rw [compareEntities_eq, compareEntities_eq, List.map_append, List.map_append, List.map_cons,
    List.map_cons, firstDifference_append, firstDifference_append, firstDifference_cons,
    firstDifference_cons]
  cases horder : keyDifference a b ⟨"id", direction⟩ with
  | eq => exact absurd horder hne
  | lt | gt => cases firstDifference (before.map (keyDifference a b)) <;> rfl

/-- The direction of the first key on the identifier; without one it ascends. -/
def identifierDirection : List SortKey → Direction
  | [] => .ascending
  | key :: rest => if key.field = "id" then key.direction else identifierDirection rest

/-- Entities that no other key tells apart are ordered by their identifiers. -/
theorem compareEntities_of_ties (hid : a.id ≠ b.id) {keys : List SortKey}
    (h : ∀ key ∈ keys, key.field ≠ "id" → keyDifference a b key = .eq) :
    compareEntities a b keys = (identifierDirection keys).apply (compare a.id b.id) := by
  induction keys with
  | nil => rfl
  | cons key rest ih =>
      obtain ⟨field, direction⟩ := key
      rw [identifierDirection]
      split
      · next hfield =>
          subst hfield
          have hnone : AgreeOn a b [] := nofun
          rw [← keyDifference_id]
          exact compareEntities_of_differ rest hnone (keyDifference_id_ne_eq hid direction)
      · next hfield =>
          have hcons : compareEntities a b (⟨field, direction⟩ :: rest) =
            (keyDifference a b ⟨field, direction⟩).then (compareEntities a b rest) := rfl
          rw [hcons, h _ List.mem_cons_self hfield, Ordering.eq_then]
          exact ih fun key hkey => h key (List.mem_cons_of_mem _ hkey)

end Identifier

/-! ## Copies with other numbers -/

/-- The schema has a column of doubles with the name. -/
def Schema.HasDoubles (s : Schema) (name : String) : Prop :=
  ∃ c ∈ s.columns, c.name = name ∧ c.shape = .double

instance (s : Schema) (name : String) : Decidable (s.HasDoubles name) :=
  inferInstanceAs (Decidable (∃ c ∈ s.columns, c.name = name ∧ c.shape = .double))

/-- What the column holds, or the number in its place if it is a column of doubles. -/
def Cell.withNumber (x : Binary64) : {c : Column} → Cell c → Cell c
  | ⟨_, .double, _, _⟩, _ => .value x
  | _, cell => cell

def Cells.withNumber (x : Binary64) : {columns : List Column} → Cells columns → Cells columns
  | _, nil => nil
  | _, cons cell cells => cons (cell.withNumber x) (cells.withNumber x)

/-- The entity under an identifier, with a number in all columns of doubles. -/
def Entity.withNumber {s : Schema} (e : Entity s) (id : Uuid) (x : Binary64) : Entity s :=
  { e with id := id, cells := e.cells.withNumber x }

theorem Cell.withNumber_of_ne_double (x : Binary64) {c : Column} (h : c.shape ≠ .double)
    (cell : Cell c) : cell.withNumber x = cell := by
  obtain ⟨name, shape, options, type⟩ := c
  cases shape
  case double => exact absurd rfl h
  all_goals rfl

theorem Cell.fieldValue_withNumber (x : Binary64) {c : Column} (h : c.shape = .double)
    (cell : Cell c) : (cell.withNumber x).fieldValue = .decimal x := by
  obtain ⟨name, shape, options, type⟩ := c
  cases h
  rfl

theorem Cells.value?_withNumber_of_ne_double (x : Binary64) {columns : List Column}
    (cells : Cells columns) {name : String} (h : ∀ c ∈ columns, c.name = name → c.shape ≠ .double) :
    (cells.withNumber x).value? name = cells.value? name := by
  induction cells with
  | nil => rfl
  | @cons c rest cell cells ih =>
      rw [withNumber, value?, value?]
      split
      · next hname => rw [cell.withNumber_of_ne_double x (h c List.mem_cons_self hname)]
      · exact ih fun c' hc' => h c' (List.mem_cons_of_mem c hc')

theorem Cells.value?_withNumber_of_double (x : Binary64) {columns : List Column}
    (cells : Cells columns) (hnodup : (columns.map Column.name).Nodup) {c : Column}
    (hmem : c ∈ columns) (h : c.shape = .double) :
    (cells.withNumber x).value? c.name = some (.decimal x) := by
  induction cells with
  | nil => cases hmem
  | @cons c' rest cell cells ih =>
      rw [List.map_cons, List.nodup_cons] at hnodup
      rw [withNumber, value?]
      obtain rfl | hrest := List.mem_cons.1 hmem
      · rw [if_pos rfl, cell.fieldValue_withNumber x h]
      · have hne : c'.name ≠ c.name := by
          intro hname
          exact hnodup.1 (hname ▸ List.mem_map_of_mem hrest)
        rw [if_neg hne]
        exact ih hnodup.2 hrest

namespace Entity

variable {s : Schema} (e : Entity s) {key : SortKey}

theorem sortValue_withNumber (id : Uuid) (x : Binary64) {name : String} (h : s.HasDoubles name) :
    sortValue (e.withNumber id x) name = .decimal x := by
  obtain ⟨c, hmem, rfl, hshape⟩ := h
  have hvalue : (e.withNumber id x).value? c.name = some (.decimal x) := by
    rw [(e.withNumber id x).value?_column hmem]
    exact e.cells.value?_withNumber_of_double x s.nodup_columns hmem hshape
  exact congrArg (Option.getD · .null) hvalue

/-- Copies differ in their identifiers and in the columns of doubles alone. -/
theorem sortValue_withNumber_of_not (id : Uuid) (x : Binary64) {name : String} (hid : name ≠ "id")
    (h : ¬s.HasDoubles name) : sortValue (e.withNumber id x) name = sortValue e name := by
  have hcells : (e.cells.withNumber x).value? name = e.cells.value? name := by
    apply e.cells.value?_withNumber_of_ne_double
    intro c hmem hname hshape
    exact h ⟨c, hmem, hname, hshape⟩
  have hvalue : (e.withNumber id x).value? name = e.value? name := by
    rw [value?, value?, if_neg hid, if_neg hid, ← hcells]
    rfl
  exact congrArg (Option.getD · .null) hvalue

variable {i j : Uuid} {x y : Binary64}

theorem keyDifference_withNumber_of_not (hid : key.field ≠ "id") (h : ¬s.HasDoubles key.field) :
    keyDifference (e.withNumber i x) (e.withNumber j y) key = .eq := by
  rw [keyDifference, sortValue_withNumber_of_not e i x hid h,
    sortValue_withNumber_of_not e j y hid h, FieldValue.compareNullsLast_self]
  cases key.direction <;> rfl

/-- A copy with a not-a-number comes before or after the other copies by its identifier. -/
theorem compareEntities_withNumber (hij : i ≠ j) (hnan : x.isNaN = true ∨ y.isNaN = true)
    (keys : List SortKey) :
    compareEntities (e.withNumber i x) (e.withNumber j y) keys =
      (identifierDirection keys).apply (compare i j) := by
  refine compareEntities_of_ties hij ?_
  intro key _ hid
  by_cases h : s.HasDoubles key.field
  · rw [keyDifference, sortValue_withNumber e i x h, sortValue_withNumber e j y h,
      FieldValue.compareNullsLast_decimal hnan]
    cases key.direction <;> rfl
  · exact e.keyDifference_withNumber_of_not hid h

end Entity

/-! ## Keys in front of the identifier -/

section Keys

variable {s : Schema}

/-- No column has the name of the identifier. -/
theorem Schema.not_hasDoubles_id (s : Schema) : ¬s.HasDoubles "id" := by
  rintro ⟨c, hmem, hname, _⟩
  have hbase := s.name_not_mem_baseFields hmem
  rw [hname] at hbase
  exact hbase (by decide)

theorem Entity.isNaN_sortValue (e : Entity s) {name : String} (h : ¬s.HasDoubles name) :
    (sortValue e name).isNaN = false := by
  rw [sortValue]
  cases hv : Resource.value? e name with
  | none => rfl
  | some v =>
      obtain ⟨_, _, _, hdecimal⟩ | ⟨c, hmem, hname, cell, rfl⟩ := e.value?_cases hv
      · cases v with
        | decimal x => exact absurd rfl (hdecimal x)
        | _ => rfl
      · exact cell.isNaN_fieldValue fun hshape => h ⟨c, hmem, hname, hshape⟩

theorem areComparable_of_not_hasDoubles {keys : List SortKey}
    (h : ∀ key ∈ keys, ¬s.HasDoubles key.field) : AreComparable (fun _ : Entity s => True) keys := by
  intro key hkey
  obtain ⟨type, htype⟩ := Entity.exists_sortValue_form s key.field
  refine ⟨type, ?_⟩
  intro e _
  exact ⟨htype e, e.isNaN_sortValue (h key hkey)⟩

/-- Only the keys up to the first one on the identifier take part in comparing. -/
theorem exists_keys_upto_id (keys : List SortKey) :
    ∃ deciding : List SortKey,
      (∀ key ∈ deciding, key.field = "id" ∨
        key ∈ keys.takeWhile fun key => key.field ≠ "id") ∧
      ∀ a b : Entity s, a.id ≠ b.id →
        compareEntities a b keys = compareEntities a b deciding := by
  have hsplit := List.takeWhile_append_dropWhile (p := fun key : SortKey => key.field ≠ "id")
    (l := keys)
  cases hrest : keys.dropWhile fun key => key.field ≠ "id" with
  | nil =>
      rw [hrest, List.append_nil] at hsplit
      refine ⟨keys, ?_, fun a b _ => rfl⟩
      intro key hkey
      rw [hsplit]
      exact .inr hkey
  | cons first after =>
      have hfirst : first.field = "id" := by
        have hhead := List.head?_dropWhile_not (fun key : SortKey => key.field ≠ "id") keys
        rw [hrest] at hhead
        simpa using hhead
      obtain ⟨field, direction⟩ := first
      subst hfirst
      refine ⟨keys.takeWhile (fun key => key.field ≠ "id") ++ [⟨"id", direction⟩], ?_, ?_⟩
      · intro key hkey
        obtain hkey | hkey := List.mem_append.1 hkey
        · exact .inr hkey
        · exact .inl (List.mem_singleton.1 hkey ▸ rfl)
      · intro a b hid
        have hcut := compareEntities_of_id hid
          (keys.takeWhile fun key => key.field ≠ "id") after direction
        rw [hrest] at hsplit
        rw [hsplit] at hcut
        exact hcut

/-- The first key that is a column of doubles, if it stands in front of the identifier. -/
theorem exists_first_double {keys : List SortKey}
    (h : ∃ key ∈ keys.takeWhile fun key => key.field ≠ "id", s.HasDoubles key.field) :
    ∃ before key after, keys = before ++ key :: after ∧ s.HasDoubles key.field ∧
      ∀ other ∈ before, other.field ≠ "id" ∧ ¬s.HasDoubles other.field := by
  induction keys with
  | nil => simp at h
  | cons first rest ih =>
      by_cases hid : first.field = "id"
      · simp [hid] at h
      · by_cases hdouble : s.HasDoubles first.field
        · exact ⟨[], first, rest, rfl, hdouble, nofun⟩
        · obtain ⟨key, hkey, hkeyDouble⟩ := h
          rw [List.takeWhile_cons_of_pos (by simpa using hid)] at hkey
          have hrest : key ∈ rest.takeWhile fun key => key.field ≠ "id" :=
            (List.mem_cons.1 hkey).resolve_left fun heq => hdouble (heq ▸ hkeyDouble)
          obtain ⟨before, key, after, rfl, hdoubles, hbefore⟩ := ih ⟨key, hrest, hkeyDouble⟩
          exact ⟨first :: before, key, after, rfl, hdoubles,
            List.forall_mem_cons.2 ⟨⟨hid, hdouble⟩, hbefore⟩⟩

theorem exists_identifiers (direction : Direction) :
    ∃ p m q : Uuid, p ≠ m ∧ m ≠ q ∧ p ≠ q ∧ direction.apply (compare p m) = .lt ∧
      direction.apply (compare m q) = .lt := by
  cases direction with
  | ascending => exact ⟨.ofNat 1, .ofNat 2, .ofNat 3, by decide⟩
  | descending => exact ⟨.ofNat 3, .ofNat 2, .ofNat 1, by decide⟩

theorem exists_numbers (direction : Direction) :
    ∃ x y : Binary64, direction.apply
      ((FieldValue.decimal x).compareNullsLast (.decimal y)) = .lt := by
  cases direction with
  | ascending => exact ⟨.zero false, ⟨false, 1023, 0⟩, by decide⟩
  | descending => exact ⟨⟨false, 1023, 0⟩, .zero false, by decide⟩

/-- With a column of doubles in front of the identifier, three copies of any entity come one
behind the other in a circle. -/
theorem exists_circle (e : Entity s) {keys : List SortKey}
    (h : ∃ key ∈ keys.takeWhile fun key => key.field ≠ "id", s.HasDoubles key.field) :
    ∃ a b c : Entity s, a.id ≠ b.id ∧ b.id ≠ c.id ∧ a.id ≠ c.id ∧
      compareEntities a b keys = .lt ∧ compareEntities b c keys = .lt ∧
        compareEntities c a keys = .lt := by
  obtain ⟨before, key, after, rfl, hdouble, hbefore⟩ := exists_first_double h
  obtain ⟨p, m, q, hpm, hmq, hpq, hfirst, hsecond⟩ :=
    exists_identifiers (identifierDirection (before ++ key :: after))
  obtain ⟨y, x, hnumbers⟩ := exists_numbers key.direction
  have hnan : (Binary64.notANumber false).isNaN = true := by decide
  refine ⟨e.withNumber p x, e.withNumber m (.notANumber false), e.withNumber q y, hpm, hmq, hpq,
    ?_, ?_, ?_⟩
  · rw [e.compareEntities_withNumber hpm (.inr hnan), hfirst]
  · rw [e.compareEntities_withNumber hmq (.inl hnan), hsecond]
  · -- The keys in front tie, as they are neither doubles nor the identifier.
    have hagree : AgreeOn (e.withNumber q y) (e.withNumber p x) before := by
      intro other hother
      exact e.keyDifference_withNumber_of_not (hbefore other hother).1 (hbefore other hother).2
    have hkey : keyDifference (e.withNumber q y) (e.withNumber p x) key = .lt := by
      rw [keyDifference, e.sortValue_withNumber q y hdouble, e.sortValue_withNumber p x hdouble,
        hnumbers]
    rw [compareEntities_of_differ after hagree (by simp [hkey]), hkey]

end Keys

/-- Comparing two entities the other way round gives the reverse, and entities with different
identifiers are never equal, whatever their fields hold. Comparing is transitive on entities
whose values have one form in every key and are numbers if they are doubles. It is
transitive on all entities of a declared type exactly if no column of doubles is a key in
front of the identifier. -/
theorem compares_strictly_iff (keys : List SortKey) :
    (∀ {α : Type} [Resource α] (a b : α),
      compareEntities b a keys = (compareEntities a b keys).swap ∧
        (Resource.id a ≠ Resource.id b → compareEntities a b keys ≠ .eq)) ∧
    (∀ {α : Type} [Resource α] (a b c : α),
      AreComparable (fun e => e = a ∨ e = b ∨ e = c) keys →
        compareEntities a b keys = .lt → compareEntities b c keys = .lt →
          compareEntities a c keys = .lt) ∧
    ∀ s : Schema, Nonempty (Entity s) →
      ((∀ a b c : Entity s, a.id ≠ b.id → b.id ≠ c.id → a.id ≠ c.id →
          compareEntities a b keys = .lt → compareEntities b c keys = .lt →
            compareEntities a c keys = .lt) ↔
        ∀ key ∈ keys.takeWhile fun key => key.field ≠ "id", ¬s.HasDoubles key.field) := by
  refine ⟨?_, ?_, ?_⟩
  · intro α _ a b
    exact ⟨compareEntities_swap a b keys, fun h => compareEntities_ne_eq h keys⟩
  · intro α _ a b c h hab hbc
    exact compareEntities_trans h (.inl rfl) (.inr (.inl rfl)) (.inr (.inr rfl)) hab hbc
  · rintro s ⟨e⟩
    constructor
    · intro htrans key hkey hdouble
      obtain ⟨a, b, c, hidab, hidbc, hidac, hab, hbc, hca⟩ := exists_circle e ⟨key, hkey, hdouble⟩
      have hac := htrans a b c hidab hidbc hidac hab hbc
      rw [compareEntities_swap, hac] at hca
      cases hca
    · intro h a b c hidab hidbc hidac hab hbc
      obtain ⟨deciding, hdeciding, hcompare⟩ := exists_keys_upto_id (s := s) keys
      have hcomparable : AreComparable (fun _ : Entity s => True) deciding := by
        apply areComparable_of_not_hasDoubles
        intro key hkey
        obtain hid | hfront := hdeciding key hkey
        · exact hid ▸ s.not_hasDoubles_id
        · exact h key hfront
      rw [hcompare a b hidab] at hab
      rw [hcompare b c hidbc] at hbc
      rw [hcompare a c hidac]
      exact compareEntities_trans hcomparable trivial trivial trivial hab hbc

/-! ## People by their heights -/

/-- Somebody of whom little but the height is known. -/
def personOfHeight (id : Nat) (height : Cell (Directory.optional "height" .double .decimal)) :
    Entity Directory.person :=
  note id (.cons (.value "Ann") (.cons (.value "Lee") (.cons (.value "ann@example.com")
    (.cons (.unset 0 (by decide)) (.cons (.unset 0 (by decide)) (.cons height
      (.cons (.value true) (.cons (.value (0 : Int64)) .nil))))))))

/-- Comparing by height is not transitive when one of the heights is a not-a-number. -/
theorem heights_in_circle :
    let a := personOfHeight 1 (.value (⟨false, 1024, 0⟩ : Binary64))
    let b := personOfHeight 2 (.value (Binary64.notANumber false))
    let c := personOfHeight 3 (.value (⟨false, 1023, 0⟩ : Binary64))
    let keys := [⟨"height", .ascending⟩]
    (a.id ≠ b.id ∧ b.id ≠ c.id ∧ a.id ≠ c.id) ∧ compareEntities a b keys = .lt ∧
      compareEntities b c keys = .lt ∧ compareEntities c a keys = .lt := by
  decide

/-- People of known and of unknown height are comparable by height. -/
theorem heights_in_order :
    let a := personOfHeight 3 (.value (⟨false, 1023, 0⟩ : Binary64))
    let b := personOfHeight 2 (.value (⟨false, 1024, 0⟩ : Binary64))
    let c := personOfHeight 1 (.unset 0 (by decide))
    let keys := [⟨"height", .ascending⟩]
    AreComparable (fun e => e = a ∨ e = b ∨ e = c) keys ∧ compareEntities a c keys = .lt := by
  intro a b c keys
  have hcomparable : AreComparable (fun e => e = a ∨ e = b ∨ e = c) keys := by
    intro key hkey
    obtain rfl := List.mem_singleton.1 hkey
    refine ⟨.decimal, ?_⟩
    rintro e (rfl | rfl | rfl)
    · decide
    · decide
    · decide
  refine ⟨hcomparable, ?_⟩
  exact (compares_strictly_iff keys).2.1 a b c hcomparable (by decide) (by decide)

/-! ## Values of several forms -/

/-- An entity of a type that is not declared by columns: its amount has any form. -/
structure Remark where
  id : Uuid
  amount : FieldValue
  deriving DecidableEq

instance : Resource Remark where
  singular := "remark"
  plural := "remarks"
  descriptor := .ofDeclarations "remark" "id" [("id", .text), ("amount", .integer)]
  id := Remark.id
  createdAt _ := morning
  updatedAt _ := morning
  value? e name :=
    if name = "id" then some (.text e.id.toText)
    else if name = "amount" then some e.amount
    else none
  encode e := .obj [("id", .str e.id.toText), ("amount", e.amount.toJson)]
  decode? _ := none

/-- Two numbers, and a text with an identifier between theirs. -/
def remarks : List Remark :=
  [⟨.ofNat 1, .integer 2⟩, ⟨.ofNat 2, .text "a"⟩, ⟨.ofNat 3, .integer 1⟩]

theorem hasNumbers_of_mem_remarks {e : Remark} (h : e ∈ remarks) : HasNumbers e := by
  intro field v hv
  have hvalue : (if field = "id" then some (.text e.id.toText)
      else if field = "amount" then some e.amount else none) = some v := hv
  simp only [remarks, List.mem_cons, List.not_mem_nil, or_false] at h
  obtain rfl | rfl | rfl := h <;> split_ifs at hvalue <;> cases hvalue <;> rfl

/-- A text ties with every number, so the identifiers decide between the text and the numbers. -/
theorem remarks_in_circle :
    let keys := [⟨"amount", .ascending⟩]
    compareEntities remarks[0] remarks[1] keys = .lt ∧
      compareEntities remarks[1] remarks[2] keys = .lt ∧
      compareEntities remarks[2] remarks[0] keys = .lt := by
  decide

end EntityQuery
