import EntityQuery.Entity.Directory
import EntityQuery.Proofs.IdentifierOrder
import EntityQuery.Proofs.Memory.Order
import EntityQuery.Proofs.Relational.Columns
import EntityQuery.Proofs.Relational.History
/-!
# The order of rows

A database that sorts by the clause of a page puts the rows of two entities in the order in
which the program puts the entities. What the columns make of two values is compared as the
values are, nulls have the place that the program gives them, and the identifier is the last key.

The declared type of a column decides what its texts are cast to. Where it does not fit the shape
of the values, their order can be lost: whole numbers that are declared as texts are sorted as
texts.
-/

namespace EntityQuery.Relational

/-! ## The order of a key -/

section Keys

variable {form type : FieldType} {a b : FieldValue} {p q : Param}

theorem isNaN_of_represents (h : Represents type a p) : a.isNaN = false := by
  cases h with
  | decimal x y _ hfinite _ => exact Binary64.not_isNaN_of_isFinite hfinite
  | _ => rfl

theorem order?_text {collation : Option String} (h : collation = some "C") (s t : String) :
    (Param.text s).order? collation (.text t) = some (compare s t) := by
  rw [Param.order?, if_pos h, Text.cmp_encodeUtf8]

theorem compare_word (b b' : Bool) :
    compare (if b then "true" else "false") (if b' then "true" else "false") = compare b b' := by
  cases b <;> cases b' <;> decide

theorem order?_of_represents (hform : form.accepts a = true) (hform' : form.accepts b = true)
    (ha : Represents type a p) (hb : Represents type b q) (hanull : a ≠ .null)
    (hbnull : b ≠ .null) :
    p.order? (if isBytewise type then some "C" else none) q = a.compare? b := by
  cases ha <;> cases hb <;>
    try first
      | exact absurd rfl hanull
      | exact absurd rfl hbnull
      | (cases form <;> simp [FieldType.accepts] at hform hform'; done)
  case text.text s htype t _ => exact order?_text (if_pos htype) s t
  case enum.enum s htype t _ => exact order?_text (if_pos htype) s t
  case integer.integer m _ n _ => exact congrArg some (FieldValue.compare_eq_cmp_toInt m n).symm
  case integer.double htype _ _ htype' _ => cases htype.symm.trans htype'
  case double.integer htype _ _ htype' => cases htype.symm.trans htype'
  case double.double m x _ hx n y _ hy =>
    rw [Param.order?, Binary64.compare?_of_value_eq hx hy, Int.cast_strictMono.cmp_map_eq,
      ← FieldValue.compare_eq_cmp_toInt]
    rfl
  case decimal.decimal x x' _ hx hvalue y y' _ hy hvalue' =>
    have hx' := Binary64.value_of_isFinite hx
    have hy' := Binary64.value_of_isFinite hy
    rw [Param.order?, FieldValue.compare?, Binary64.compare?_of_value_eq hx' hy',
      Binary64.compare?_of_value_eq (hvalue.trans hx') (hvalue'.trans hy')]
  case boolean.boolean b _ b' _ => exact congrArg some (cmp_eq_compare b b')
  case boolean.word htype _ htype' => cases htype ▸ htype'
  case word.boolean htype _ htype' => cases htype' ▸ htype
  case word.word b htype b' _ =>
    rw [order?_text (if_pos htype), compare_word]
    rfl
  case date.date d _ d' _ => exact congrArg some (Date.compare_eq_cmp_epochDay d d').symm
  case date.written htype _ htype' _ => cases htype ▸ htype'
  case written.date htype _ _ htype' => cases htype' ▸ htype
  case written.written d htype hyear d' _ hyear' =>
    rw [Param.order?, if_pos (if_pos htype), Text.cmp_encodeUtf8_ofList,
      Date.cmp_write hyear hyear']
    rfl
  case dateTime.dateTime ht _ _ hu => exact congrArg some (Instant.cmp_nearestMicros ht hu)

theorem order?_of_ne_null {key : OrderKey} (hp : p ≠ .null) (hq : q ≠ .null) :
    key.order? p q = (p.order? key.collation q).map key.direction.apply := by
  cases p <;> cases q <;> first | rfl | exact absurd rfl hp | exact absurd rfl hq

theorem ne_null_of_represents (h : Represents type a p) (ha : a ≠ .null) : p ≠ .null := by
  rintro rfl
  cases h
  exact ha rfl

theorem compareNullsLast_of_ne_null (ha : a ≠ .null) (hb : b ≠ .null) :
    a.compareNullsLast b = (a.compare? b).getD .eq := by
  cases a <;> cases b <;> first | rfl | exact absurd rfl ha | exact absurd rfl hb

/-- The key of a field puts what represents two values of one form in the order of the values,
with null in its place. -/
theorem order?_fieldKey (hform : form.accepts a = true) (hform' : form.accepts b = true)
    (ha : Represents type a p) (hb : Represents type b q) (field : String)
    (direction : Direction) :
    (fieldKey field type direction).order? p q =
      some (direction.apply (a.compareNullsLast b)) := by
  by_cases hanull : a = .null <;> by_cases hbnull : b = .null
  · subst hanull hbnull
    cases ha
    cases hb
    cases direction <;> rfl
  · subst hanull
    cases ha
    cases hb <;> first | exact absurd rfl hbnull | (cases direction <;> rfl)
  · subst hbnull
    cases hb
    cases ha <;> first | exact absurd rfl hanull | (cases direction <;> rfl)
  · have hnumber := isNaN_of_represents ha
    have hnumber' := isNaN_of_represents hb
    obtain ⟨order, horder⟩ :=
      FieldValue.exists_order? hform hform' hnumber hnumber' hanull hbnull
    rw [← FieldValue.compare?_eq_order? hform hform' hnumber hnumber'] at horder
    have hvalues := order?_of_represents hform hform' ha hb hanull hbnull
    rw [order?_of_ne_null (ne_null_of_represents ha hanull) (ne_null_of_represents hb hbnull),
      fieldKey, hvalues, compareNullsLast_of_ne_null hanull hbnull, horder]
    rfl

end Keys

/-! ## Rows -/

/-- The row has the identifier and the JSON of the entity. -/
structure Row.Holds {α : Type} [Resource α] (row : Row) (e : α) : Prop where
  id : Assoc.lookup "id" row = some (.uuid (Resource.id e))
  data : Assoc.lookup "data" row = some (.jsonb (Resource.encode e))

theorem Record.holds_row {α : Type} [Resource α] {r : Record} {e : α} (hid : r.id = Resource.id e)
    (hdata : r.data = Resource.encode e) : r.row.Holds e where
  id := congrArg (some ∘ Param.uuid) hid
  data := congrArg (some ∘ Param.jsonb) hdata

section Rows

variable {s : Schema} {a b e : Entity s} {row row' : Row} {key : SortKey} {keys : List SortKey}

/-- The keys have the names under which the fields are stored, and their columns keep the order of
the values of the entity. -/
def SortsBy (keys : List SortKey) (e : Entity s) : Prop :=
  ∀ key ∈ keys, storedName key.field = key.field ∧ ∀ type,
    s.descriptor.type? key.field = some type → (sortValue e key.field).SortsAs type

def pageKey (d : Descriptor) (key : SortKey) : OrderKey :=
  fieldKey key.field ((d.type? key.field).getD .text) key.direction

theorem exists_represents_sortValue {type : FieldType} (hrow : row.Holds e)
    (htype : s.descriptor.type? key.field = some type) (hstored : storedName key.field = key.field)
    (hsorts : (sortValue e key.field).SortsAs type) :
    ∃ p, (pageKey s.descriptor key).expression.evaluate? row = some p ∧
      Represents type (sortValue e key.field) p := by
  obtain ⟨v, hv⟩ := e.exists_value_of_type? htype
  have hsort : sortValue e key.field = v := congrArg (Option.getD · FieldValue.null) hv
  have hmember : e.encode.member? key.field = some (sortValue e key.field).toJson := by
    have hmember := e.member?_encode hv
    rw [hstored] at hmember
    rw [hmember, hsort]
  have hkey : (pageKey s.descriptor key).expression = columnExpression key.field type := by
    rw [pageKey, htype]
    rfl
  rw [hkey]
  exact exists_represents hrow.data hmember hsorts

theorem rowOrder?_identifier (hrow : row.Holds a) (hrow' : row'.Holds b) :
    rowOrder? [identifierKey] row row' = some (compare a.id b.id) := by
  have hid : identifierKey.order? (.uuid a.id) (.uuid b.id) = some (compare a.id b.id) := by
    rw [Uuid.compare_eq_cmp_bytes]
    rfl
  have ha : identifierKey.expression.evaluate? row = some (.uuid a.id) := hrow.id
  have hb : identifierKey.expression.evaluate? row' = some (.uuid b.id) := hrow'.id
  simp only [rowOrder?, ha, hb, hid, Option.bind_eq_bind, Option.bind_some, Ordering.then_eq]

/-- One key more, in front of the others. -/
theorem rowOrder?_pageKey {rest : List OrderKey} {others : Ordering}
    (hdeclared : s.descriptor.contains key.field = true) (hrow : row.Holds a)
    (hrow' : row'.Holds b) (ha : SortsBy [key] a) (hb : SortsBy [key] b)
    (hrest : rowOrder? rest row row' = some others) :
    rowOrder? (pageKey s.descriptor key :: rest) row row' =
      some ((keyDifference a b key).then others) := by
  obtain ⟨type, htype⟩ : ∃ type, s.descriptor.type? key.field = some type :=
    Option.isSome_iff_exists.1 hdeclared
  obtain ⟨form, hform⟩ := Entity.exists_sortValue_form s key.field
  obtain ⟨hstored, hasorts⟩ := ha key List.mem_cons_self
  obtain ⟨-, hbsorts⟩ := hb key List.mem_cons_self
  obtain ⟨p, hp, hrepresents⟩ := exists_represents_sortValue hrow htype hstored (hasorts type htype)
  obtain ⟨q, hq, hrepresents'⟩ :=
    exists_represents_sortValue hrow' htype hstored (hbsorts type htype)
  have horder : (pageKey s.descriptor key).order? p q = some (keyDifference a b key) := by
    rw [pageKey, htype]
    exact order?_fieldKey (hform a) (hform b) hrepresents hrepresents' key.field key.direction
  simp only [rowOrder?, hp, hq, horder, hrest, Option.bind_eq_bind, Option.bind_some]

theorem rowOrder?_pageKeys (hdeclared : ∀ key ∈ keys, s.descriptor.contains key.field = true)
    (hrow : row.Holds a) (hrow' : row'.Holds b) (ha : SortsBy keys a) (hb : SortsBy keys b) :
    rowOrder? (keys.map (pageKey s.descriptor) ++ [identifierKey]) row row' =
      some (compareEntities a b keys) := by
  induction keys with
  | nil => exact rowOrder?_identifier hrow hrow'
  | cons key rest ih =>
      have hhead {e : Entity s} (h : SortsBy (key :: rest) e) : SortsBy [key] e := fun key' hkey' =>
        h key' (List.mem_singleton.1 hkey' ▸ List.mem_cons_self)
      have htail {e : Entity s} (h : SortsBy (key :: rest) e) : SortsBy rest e := fun key' hkey' =>
        h key' (List.mem_cons_of_mem key hkey')
      have hrest := ih (fun key' hkey' => hdeclared key' (List.mem_cons_of_mem key hkey'))
        (htail ha) (htail hb)
      exact rowOrder?_pageKey (hdeclared key List.mem_cons_self) hrow hrow' (hhead ha) (hhead hb)
        hrest

end Rows

/-! ## Clauses -/

/-- The clause of declared sort fields reads as their keys and the identifier. -/
theorem readOrder?_terms (d : Descriptor) (keys : List SortKey) :
    readOrder? (orderText ((keys.map fun key =>
      .field key.field ((d.type? key.field).getD .text) key.direction) ++ [.identifier])) =
        some (keys.map (pageKey d) ++ [identifierKey]) := by
  rw [readOrder?_orderText (by simp), List.map_append, List.map_map]
  rfl

/-- By the clause of a page with declared sort fields, the rows of two entities are in the order
of the entities, if the columns of the sort fields keep the order of their values. The clause
reads as one key for each sort field, in its direction and with null as the greatest value, and
the identifier. A key that is not cast from a text has the collation of bytes. Entities on which
all sort fields agree are in the order of their identifiers in either direction. -/
theorem rowOrder?_eq_compareEntities {s : Schema} {page : PageSpec}
    (hdeclared : ∀ key ∈ page.keys, s.descriptor.contains key.field = true) :
    ∃ terms keys, orderTerms s.descriptor page.keys = .ok terms ∧
      readOrder? (orderText terms) = some (keys ++ [identifierKey]) ∧
      (keys.map fun key => (key.direction, key.nulls)) =
        (page.keys.map fun key => (key.direction, nullsPlace key.direction)) ∧
      (∀ key ∈ keys, key.collation = some "C" ∨
        ∃ source type, key.expression = .cast source type) ∧
      ∀ (a b : Entity s) (row row' : Row), row.Holds a → row'.Holds b →
        SortsBy page.keys a → SortsBy page.keys b →
          rowOrder? (keys ++ [identifierKey]) row row' = some (compareEntities a b page.keys) ∧
          (AgreeOn a b page.keys →
            rowOrder? (keys ++ [identifierKey]) row row' = some (compare a.id b.id)) := by
  refine ⟨_, page.keys.map (pageKey s.descriptor), orderTerms_of_declared hdeclared,
    readOrder?_terms s.descriptor page.keys, ?places, ?collations, ?order⟩
  case places => simp [pageKey, fieldKey]
  case collations =>
    intro orderKey horderKey
    obtain ⟨key, -, rfl⟩ := List.mem_map.1 horderKey
    cases htype : (s.descriptor.type? key.field).getD .text with
    | text | enum _ => exact .inl (by rw [pageKey, htype]; rfl)
    | _ => exact .inr ⟨_, _, by rw [pageKey, htype]; rfl⟩
  case order =>
    intro a b row row' hrow hrow' ha hb
    have horder := rowOrder?_pageKeys hdeclared hrow hrow' ha hb
    refine ⟨horder, fun hagree => ?_⟩
    rw [horder, compareEntities_of_agree hagree]
    rfl

/-- In the descending direction a person whose height is not known comes first, and two people of
one height and name are still in the order of their identifiers. -/
theorem rowOrder?_of_people :
    let clause := "(data->>'height')::double precision DESC NULLS FIRST, " ++
      "(data->>'name') COLLATE \"C\" DESC NULLS FIRST, id ASC"
    let person (id : Nat)
        (height : EntityQuery.Cell (Directory.optional "height" .double .decimal)) :
        Entity Directory.person :=
      .create (.ofNat id) morning (.cons (.value "Ann") (.cons (.value "Lee")
        (.cons (.value "a@b.c") (.cons (.unset 0 (by decide)) (.cons (.unset 0 (by decide))
          (.cons height (.cons (.value true) (.cons (.value (0 : Int64)) .nil))))))))
    let row (p : Entity Directory.person) : Row := (Record.ofEntity p).row
    let tall : EntityQuery.Cell (Directory.optional "height" .double .decimal) := .value (.ofInt 2)
    ∃ keys, readOrder? clause = some keys ∧
      rowOrder? keys (row (person 1 tall)) (row (person 2 tall)) = some .lt ∧
      rowOrder? keys (row (person 3 (.unset 0 (by decide)))) (row (person 1 tall)) = some .lt := by
  intro clause person row tall
  let page : PageSpec := ⟨0, 20, [⟨"height", .descending⟩, ⟨"name", .descending⟩]⟩
  have hdeclared : ∀ key ∈ page.keys, Directory.person.descriptor.contains key.field = true := by
    decide
  obtain ⟨terms, keys, hterms, hread, -, -, horder⟩ := rowOrder?_eq_compareEntities hdeclared
  have hsorts (id : Nat) (height : EntityQuery.Cell (Directory.optional "height" .double .decimal))
      (haccepts : FieldType.decimal.accepts height.fieldValue = true)
      (hkept : height.fieldValue.IsKept) (hcounted : height.fieldValue.IsCounted) :
      SortsBy page.keys (person id height) := by
    intro key hkey
    simp only [page, List.mem_cons, List.not_mem_nil, or_false] at hkey
    obtain rfl | rfl := hkey
    · refine ⟨rfl, fun type htype => ?_⟩
      obtain rfl : FieldType.decimal = type := Option.some.inj htype
      exact FieldValue.sortsAs_of_accepts haccepts hkept hcounted
    · refine ⟨rfl, fun type htype => ?_⟩
      obtain rfl : FieldType.text = type := Option.some.inj htype
      exact rfl
  have hholds (p : Entity Directory.person) : (row p).Holds p := Record.holds_row rfl rfl
  have hclause : orderText terms = clause := by
    cases hterms
    rfl
  have hfinite : (Binary64.ofInt 2).isFinite = true := by decide
  have htall (id : Nat) := hsorts id tall rfl hfinite trivial
  obtain ⟨-, hagree⟩ := horder (person 1 tall) (person 2 tall) _ _ (hholds _) (hholds _) (htall 1)
    (htall 2)
  obtain ⟨hdiffer, -⟩ := horder (person 3 (.unset 0 (by decide))) (person 1 tall) _ _ (hholds _)
    (hholds _) (hsorts 3 _ rfl trivial trivial) (htall 1)
  refine ⟨_, hclause ▸ hread, ?_, ?_⟩
  · exact hagree (by decide +kernel)
  · rw [hdiffer]
    decide +kernel

/-! ## Misleading columns -/

/-- Notes with a whole number that is declared as a text. -/
def countedNote : Schema where
  singular := "note"
  plural := "notes"
  columns := [⟨"pages", .int64, 0, .text⟩]

/-- Notes with a whole number that is declared as a double. -/
def weighedNote : Schema where
  singular := "note"
  plural := "notes"
  columns := [⟨"weight", .int64, 0, .decimal⟩]

/-- Notes with a text that is declared as a whole number. -/
def numberedNote : Schema where
  singular := "note"
  plural := "notes"
  columns := [⟨"number", .text, 0, .integer⟩]

/-- The database keeps the values of the entity. -/
def IsKept {s : Schema} (e : Entity s) : Prop :=
  ∀ name v, e.value? name = some v → v.IsKept

theorem isKept_note {s : Schema} {id : Nat} {cells : Cells s.columns}
    (h : ∀ field ∈ cells.values, field.2.IsKept) : IsKept (note id cells) := by
  have hnow : (FieldValue.dateTime morning).IsKept := ⟨by decide, by decide⟩
  intro name v hv
  exact Entity.of_values (P := FieldValue.IsKept) trivial hnow hnow h hv

/-- Two entities that have different identifiers and whose values the database keeps do not have
their rows in their order, by the clause of an assembled page with one declared field. -/
def Missorted {s : Schema} (a b : Entity s) (field : String) : Prop :=
  a.id ≠ b.id ∧ IsKept a ∧ IsKept b ∧ ∃ page terms keys,
    PageSpec.assemble s.descriptor 0 20 none (some [field]) = .ok page ∧
    page.validateSort s.descriptor = .ok () ∧ orderTerms s.descriptor page.keys = .ok terms ∧
    readOrder? (orderText terms) = some keys ∧
    rowOrder? keys (Record.ofEntity a).row (Record.ofEntity b).row ≠
      some (compareEntities a b page.keys)

/-- A declared field whose key puts the rows of two entities in another order missorts them. -/
theorem missorted_of_pageKey {s : Schema} {a b : Entity s} {field : String}
    (hdeclared : s.descriptor.contains field = true) (hid : a.id ≠ b.id) (ha : IsKept a)
    (hb : IsKept b)
    (hrows : rowOrder? [pageKey s.descriptor ⟨field, .ascending⟩, identifierKey]
      (Record.ofEntity a).row (Record.ofEntity b).row ≠
        some (compareEntities a b [⟨field, .ascending⟩])) :
    Missorted a b field := by
  let page : PageSpec := ⟨0, 20, [⟨field, .ascending⟩]⟩
  have hkeys : ∀ key ∈ page.keys, s.descriptor.contains key.field = true :=
    List.forall_mem_singleton.2 hdeclared
  exact ⟨hid, ha, hb, page, _, _, rfl, PageSpec.validateSort_of_declared hkeys,
    orderTerms_of_declared hkeys, readOrder?_terms s.descriptor page.keys, hrows⟩

/-- By each of these columns two notes are missorted. -/
theorem missorted_notes :
    Missorted (note 1 (.cons (.value (10 : Int64)) .nil) : Entity countedNote)
      (note 2 (.cons (.value (9 : Int64)) .nil)) "pages" ∧
    Missorted (note 2 (.cons (.value (9007199254740992 : Int64)) .nil) : Entity weighedNote)
      (note 1 (.cons (.value (9007199254740993 : Int64)) .nil)) "weight" ∧
    Missorted (note 1 (.cons (.value fullSecond) .nil) : Entity timedNote)
      (note 2 (.cons (.value halfSecond) .nil)) "taken" ∧
    Missorted (note 1 (.cons (.value "a") .nil) : Entity numberedNote)
      (note 2 (.cons (.value "b") .nil)) "number" ∧
    Missorted
      (note 2 (.cons (.value ⟨0, 1, 1, by decide⟩) .nil) : Entity dayNote)
      (note 1 (.cons (.value ⟨10000, 1, 1, by decide⟩) .nil)) "day" ∧
    Missorted (note 2 (.cons (.value "a") .nil) : Entity markedNote)
      (note 1 (.cons (.value "b") .nil)) "r#type" := by
  refine ⟨?_, ?_, ?_, ?_, ?_, ?_⟩
  · refine missorted_of_pageKey rfl (by decide) (isKept_note ?_) (isKept_note ?_)
      (by decide +kernel) <;> exact List.forall_mem_singleton.2 trivial
  · refine missorted_of_pageKey rfl (by decide) (isKept_note ?_) (isKept_note ?_)
      (by decide +kernel) <;> exact List.forall_mem_singleton.2 trivial
  · refine missorted_of_pageKey rfl (by decide) (isKept_note ?_) (isKept_note ?_)
      (by decide +kernel) <;> exact List.forall_mem_singleton.2 ⟨by decide, by decide⟩
  · refine missorted_of_pageKey rfl (by decide) (isKept_note ?_) (isKept_note ?_)
      (by decide +kernel) <;> exact List.forall_mem_singleton.2 trivial
  · refine missorted_of_pageKey rfl (by decide) (isKept_note ?_) (isKept_note ?_)
      (by decide +kernel) <;> exact List.forall_mem_singleton.2 trivial
  · refine missorted_of_pageKey rfl (by decide) (isKept_note ?_) (isKept_note ?_)
      (by decide +kernel) <;> exact List.forall_mem_singleton.2 trivial

end EntityQuery.Relational
