import Mathlib.Data.Prod.Lex
import EntityQuery.Proofs.Entity.Fields
import EntityQuery.Proofs.FieldOrder
import EntityQuery.Proofs.IdentifierOrder
import EntityQuery.Store.Memory
/-!
# The order of a listing

Entities are compared key by key and then by identifier. Comparing two values of one
field is a matter of the field's type, and null comes after all of them. So there is a
linear order in which every entity has a rank, and comparing entities is comparing their
ranks. Only entities with one identifier have one rank.

This holds as long as no field has a not-a-number, and as long as the values of one field
have one form, which is true of every declared type of entities. Nothing else makes it so.
-/

namespace EntityQuery

/-! ## Values -/

namespace FieldValue

variable {type : FieldType}

theorem exists_rank_of_key {K : Type} [LinearOrder K] (key : FieldValue → K)
    (h : ∀ a b : FieldValue, type.accepts a = true → type.accepts b = true →
      a.isNaN = false → b.isNaN = false → a ≠ null → b ≠ null →
        a.order? b = some (cmp (key a) (key b))) :
    ∃ (R : Type) (_ : LinearOrder R) (rank : FieldValue → R), ∀ a b : FieldValue,
      type.accepts a = true → type.accepts b = true → a.isNaN = false → b.isNaN = false →
        a.compareNullsLast b = cmp (rank a) (rank b) := by
  have hnull (v : FieldValue) : v.isNull = true ↔ v = null := by cases v <;> simp [isNull]
  refine ⟨WithTop K, inferInstance, fun v => if v = null then ⊤ else key v, ?_⟩
  intro a b ha hb hna hnb
  simp only [compareNullsLast, ← hnull]
  cases hanull : a.isNull <;> cases hbnull : b.isNull
  case false.false =>
    rw [compare?_eq_order? ha hb hna hnb,
      h a b ha hb hna hnb (by simp [← hnull, hanull]) (by simp [← hnull, hbnull])]
    exact (WithTop.coe_strictMono.cmp_map_eq (key a) (key b)).symm
  case false.true => exact (WithTop.coe_lt_top (key a)).cmp_eq_lt.symm
  case true.false => exact (WithTop.coe_lt_top (key b)).cmp_eq_gt.symm
  case true.true => exact (cmp_self_eq_eq ⊤).symm

def number : FieldValue → WithBot (WithTop ℚ)
  | decimal x => x.value
  | _ => ⊥

/-- What counts up to a whole number, a date or an instant. -/
def count : FieldValue → Int
  | integer n => n.toInt
  | date d => d.epochDay
  | dateTime t => t.tick
  | _ => 0

theorem exists_rank (type : FieldType) :
    ∃ (R : Type) (_ : LinearOrder R) (rank : FieldValue → R), ∀ a b : FieldValue,
      type.accepts a = true → type.accepts b = true → a.isNaN = false → b.isNaN = false →
        a.compareNullsLast b = cmp (rank a) (rank b) := by
  cases type with
  | text | enum constants =>
      apply exists_rank_of_key (fun v => v.text?.getD "")
      intro a b ha hb _ _ hanull hbnull
      cases a <;> cases ha <;> cases b <;> cases hb <;>
        simp_all [order?, text?, Text.cmp_encodeUtf8, cmp_eq_compare]
  | decimal =>
      apply exists_rank_of_key number
      intro a b ha hb hna hnb hanull hbnull
      cases a <;> cases ha <;> cases b <;> cases hb <;> simp_all [order?, number, isNaN]
  | boolean =>
      apply exists_rank_of_key (fun v => decide (v = boolean true))
      intro a b ha hb _ _ hanull hbnull
      cases a <;> cases ha <;> cases b <;> cases hb <;> simp_all [order?]
  | integer | date | dateTime =>
      apply exists_rank_of_key count
      intro a b ha hb _ _ hanull hbnull
      cases a <;> cases ha <;> cases b <;> cases hb <;> simp_all [order?, count]

end FieldValue

/-! ## Entities -/

/-- Pairs compare by their first parts and then by their second parts. -/
theorem cmp_toLex {K L : Type} [LinearOrder K] [LinearOrder L] (a a' : K) (b b' : L) :
    cmp (toLex (a, b)) (toLex (a', b')) = (cmp a a').then (cmp b b') := by
  obtain h | rfl | h := lt_trichotomy a a'
  · have hlt : toLex (a, b) < toLex (a', b') := Prod.Lex.toLex_lt_toLex.2 (.inl h)
    rw [h.cmp_eq_lt, hlt.cmp_eq_lt]
    rfl
  · have hmono : StrictMono fun b : L => toLex (a, b) := fun b b' hb =>
      Prod.Lex.toLex_lt_toLex.2 (.inr ⟨rfl, hb⟩)
    rw [cmp_self_eq_eq, Ordering.eq_then]
    exact hmono.cmp_map_eq b b'
  · have hlt : toLex (a', b') < toLex (a, b) := Prod.Lex.toLex_lt_toLex.2 (.inl h)
    rw [h.cmp_eq_gt, hlt.cmp_eq_gt]
    rfl

/-- No field of the entity has a not-a-number. -/
def HasNumbers {α : Type} [Resource α] (e : α) : Prop :=
  ∀ field v, Resource.value? e field = some v → v.isNaN = false

/-- In every key the values of the entities have one form, and none of them is a not-a-number. -/
def AreComparable {α : Type} [Resource α] (among : α → Prop) (keys : List SortKey) : Prop :=
  ∀ key ∈ keys, ∃ type : FieldType, ∀ e, among e →
    type.accepts (sortValue e key.field) = true ∧ (sortValue e key.field).isNaN = false

theorem AreComparable.mono {α : Type} [Resource α] {among among' : α → Prop}
    {keys : List SortKey} (h : AreComparable among keys) (hamong : ∀ e, among' e → among e) :
    AreComparable among' keys := by
  intro key hkey
  obtain ⟨type, htype⟩ := h key hkey
  exact ⟨type, fun e he => htype e (hamong e he)⟩

section Ranks

variable {α : Type} [Resource α]

theorem exists_key_rank {among : α → Prop} {key : SortKey} {type : FieldType}
    (h : ∀ e, among e →
      type.accepts (sortValue e key.field) = true ∧ (sortValue e key.field).isNaN = false) :
    ∃ (R : Type) (_ : LinearOrder R) (rank : α → R), ∀ a b : α, among a → among b →
      key.direction.apply ((sortValue a key.field).compareNullsLast (sortValue b key.field)) =
        cmp (rank a) (rank b) := by
  obtain ⟨R, _, rank, hrank⟩ := FieldValue.exists_rank type
  have hvalues : ∀ a b : α, among a → among b →
      (sortValue a key.field).compareNullsLast (sortValue b key.field) =
        cmp (rank (sortValue a key.field)) (rank (sortValue b key.field)) := by
    intro a b ha hb
    exact hrank _ _ (h a ha).1 (h b hb).1 (h a ha).2 (h b hb).2
  cases hdirection : key.direction with
  | ascending => exact ⟨R, inferInstance, fun e => rank (sortValue e key.field), hvalues⟩
  | descending =>
      refine ⟨Rᵒᵈ, inferInstance, fun e => .toDual (rank (sortValue e key.field)), ?_⟩
      intro a b ha hb
      rw [hvalues a b ha hb, cmp_toDual]
      exact cmp_swap _ _

theorem exists_rank_of_comparable {among : α → Prop} {keys : List SortKey}
    (h : AreComparable among keys) :
    ∃ (R : Type) (_ : LinearOrder R) (rank : α → R),
      (∀ a b : α, among a → among b → compareEntities a b keys = cmp (rank a) (rank b)) ∧
      ∀ a b : α, rank a = rank b → Resource.id a = Resource.id b := by
  induction keys with
  | nil =>
      refine ⟨Nat, inferInstance, fun e => (Resource.id e).value, ?_, fun a b => Uuid.eq_of_value⟩
      intro a b _ _
      rw [cmp_eq_compare]
      rfl
  | cons key keys ih =>
      obtain ⟨type, hform⟩ := h key List.mem_cons_self
      obtain ⟨R, _, first, hfirst⟩ := exists_key_rank hform
      obtain ⟨S, _, rest, hrest, hid⟩ := ih fun key' hkey' => h key' (List.mem_cons_of_mem key hkey')
      refine ⟨R ×ₗ S, inferInstance, fun e => toLex (first e, rest e), ?_, ?_⟩
      · intro a b ha hb
        rw [compareEntities, cmp_toLex, hfirst a b ha hb, hrest a b ha hb]
      · intro a b h
        exact hid a b (congrArg (fun r => (ofLex r).2) h)

end Ranks

/-! ## One key after the other -/

/-- The first of some orders that tells two things apart. -/
def firstDifference (orders : List Ordering) : Ordering :=
  orders.foldr Ordering.then .eq

@[simp] theorem firstDifference_nil : firstDifference [] = .eq := rfl

@[simp] theorem firstDifference_cons (order : Ordering) (rest : List Ordering) :
    firstDifference (order :: rest) = order.then (firstDifference rest) := rfl

theorem firstDifference_append (before after : List Ordering) :
    firstDifference (before ++ after) = (firstDifference before).then (firstDifference after) := by
  induction before with
  | nil => rw [List.nil_append, firstDifference_nil, Ordering.eq_then]
  | cons order before ih =>
      rw [List.cons_append, firstDifference_cons, firstDifference_cons, ih, Ordering.then_assoc]

theorem firstDifference_eq_eq {orders : List Ordering} :
    firstDifference orders = .eq ↔ ∀ order ∈ orders, order = .eq := by
  induction orders with
  | nil => simp
  | cons order orders ih =>
      rw [firstDifference_cons, Ordering.then_eq_eq, ih, List.forall_mem_cons]

/-- An order that tells nothing apart where those before it do not makes no difference. -/
theorem firstDifference_skip {before : List Ordering} {order : Ordering} (after : List Ordering)
    (h : firstDifference before = .eq → order = .eq) :
    firstDifference (before ++ order :: after) = firstDifference (before ++ after) := by
  rw [firstDifference_append, firstDifference_append, firstDifference_cons]
  cases hbefore : firstDifference before with
  | eq => rw [h hbefore, Ordering.eq_then]
  | lt | gt => rfl

section Keys

variable {α : Type} [Resource α]

def keyDifference (a b : α) (key : SortKey) : Ordering :=
  key.direction.apply ((sortValue a key.field).compareNullsLast (sortValue b key.field))

/-- No key tells the entities apart. -/
def AgreeOn (a b : α) (keys : List SortKey) : Prop :=
  ∀ key ∈ keys, keyDifference a b key = .eq

instance (a b : α) (keys : List SortKey) : Decidable (AgreeOn a b keys) :=
  inferInstanceAs (Decidable (∀ key ∈ keys, keyDifference a b key = .eq))

theorem compareEntities_eq (a b : α) (keys : List SortKey) :
    compareEntities a b keys = (firstDifference (keys.map (keyDifference a b))).then
      (compare (Resource.id a) (Resource.id b)) := by
  induction keys with
  | nil => exact Ordering.eq_then.symm
  | cons key rest ih =>
      rw [List.map_cons, firstDifference_cons, Ordering.then_assoc, ← ih]
      rfl

theorem AgreeOn.firstDifference {a b : α} {keys : List SortKey} (h : AgreeOn a b keys) :
    firstDifference (keys.map (keyDifference a b)) = .eq := by
  rw [firstDifference_eq_eq]
  intro order horder
  obtain ⟨key, hkey, rfl⟩ := List.mem_map.1 horder
  exact h key hkey

theorem compareEntities_of_agree {a b : α} {keys : List SortKey} (h : AgreeOn a b keys) :
    compareEntities a b keys = compare (Resource.id a) (Resource.id b) := by
  rw [compareEntities_eq, h.firstDifference, Ordering.eq_then]

/-- The first key that tells entities apart gives their order. -/
theorem compareEntities_of_differ {a b : α} {before : List SortKey} {key : SortKey}
    (after : List SortKey) (h : AgreeOn a b before) (hkey : keyDifference a b key ≠ .eq) :
    compareEntities a b (before ++ key :: after) = keyDifference a b key := by
  rw [compareEntities_eq, List.map_append, firstDifference_append, h.firstDifference,
    Ordering.eq_then, List.map_cons, firstDifference_cons]
  cases horder : keyDifference a b key with
  | eq => exact absurd horder hkey
  | lt | gt => rfl

/-- Null comes after every other value in the ascending direction. -/
theorem keyDifference_of_null {a b : α} {key : SortKey} (ha : sortValue a key.field = .null)
    (hb : sortValue b key.field ≠ .null) : keyDifference a b key = key.direction.apply .gt := by
  rw [keyDifference, ha]
  cases hvalue : sortValue b key.field with
  | null => exact absurd hvalue hb
  | _ => rfl

/-- A key that comes a second time makes no difference. -/
theorem compareEntities_repeated (a b : α) {before : List SortKey} {key : SortKey}
    (after : List SortKey) (h : key ∈ before) :
    compareEntities a b (before ++ key :: after) = compareEntities a b (before ++ after) := by
  rw [compareEntities_eq, compareEntities_eq, List.map_append, List.map_cons, List.map_append,
    firstDifference_skip]
  intro hequal
  exact firstDifference_eq_eq.1 hequal _ (List.mem_map_of_mem h)

end Keys

/-! ## Declared types -/

/-- The type whose form the values of a shape have. -/
def Shape.form : Shape → FieldType
  | text | uuid => .text
  | int32 | int64 => .integer
  | double => .decimal
  | boolean => .boolean
  | date => .date
  | instant => .dateTime
  | choice constants => .enum constants

theorem Shape.form_accepts (shape : Shape) (v : shape.Carrier) :
    shape.form.accepts (shape.fieldValue v) = true := by
  cases shape <;> rfl

theorem Cell.form_accepts {c : Column} (cell : Cell c) :
    c.shape.form.accepts cell.fieldValue = true := by
  cases cell with
  | value v => exact c.shape.form_accepts v
  | unset => cases c.shape <;> rfl

/-- Only a column of doubles can hold a not-a-number. -/
theorem Cell.isNaN_fieldValue {c : Column} (h : c.shape ≠ .double) (cell : Cell c) :
    cell.fieldValue.isNaN = false := by
  obtain ⟨name, shape, options, type⟩ := c
  cases cell with
  | unset => rfl
  | value v =>
      cases shape
      case double => exact absurd rfl h
      all_goals rfl

theorem Entity.hasNumbers {s : Schema} (h : ∀ c ∈ s.columns, c.shape ≠ .double) (e : Entity s) :
    HasNumbers e := by
  intro field v hv
  obtain ⟨_, _, _, hdouble⟩ | ⟨c, hmem, _, cell, rfl⟩ := e.value?_cases hv
  · cases v with
    | decimal x => exact absurd rfl (hdouble x)
    | _ => rfl
  · exact cell.isNaN_fieldValue (h c hmem)

/-- The form of every field, whatever type it is declared with. -/
def Schema.forms (s : Schema) : List (String × FieldType) :=
  baseFields ++ s.columns.map fun c => (c.name, c.shape.form)

theorem Schema.nodup_keys_forms (s : Schema) : (Assoc.keys s.forms).Nodup := by
  have hkeys : Assoc.keys s.forms = baseFields.map Prod.fst ++ s.columns.map Column.name := by
    simp [forms, Assoc.keys]
  exact hkeys ▸ s.names_nodup

theorem Entity.exists_form (s : Schema) (field : String) :
    ∃ type : FieldType, ∀ (e : Entity s) v, e.value? field = some v → type.accepts v = true := by
  refine ⟨(Assoc.lookup field s.forms).getD .text, ?_⟩
  intro e v hv
  have hform {type : FieldType} (h : (field, type) ∈ s.forms) :
      Assoc.lookup field s.forms = some type :=
    Assoc.lookup_of_mem s.nodup_keys_forms h
  obtain ⟨type, hbase, haccepts, _⟩ | ⟨c, hmem, rfl, cell, rfl⟩ := e.value?_cases hv
  · rw [hform (List.mem_append_left _ hbase)]
    exact haccepts
  · have hcolumn : (c.name, c.shape.form) ∈ s.forms :=
      List.mem_append_right _ (List.mem_map_of_mem (f := fun c => (c.name, c.shape.form)) hmem)
    rw [hform hcolumn]
    exact cell.form_accepts

theorem Entity.exists_sortValue_form (s : Schema) (field : String) :
    ∃ type : FieldType, ∀ e : Entity s, type.accepts (sortValue e field) = true := by
  obtain ⟨type, htype⟩ := exists_form s field
  refine ⟨type, fun e => ?_⟩
  rw [sortValue]
  cases h : Resource.value? e field with
  | none => cases type <;> rfl
  | some v => exact htype e v h

theorem Entity.areComparable {s : Schema} {among : Entity s → Prop}
    (h : ∀ e, among e → HasNumbers e) (keys : List SortKey) : AreComparable among keys := by
  intro key _
  obtain ⟨type, htype⟩ := exists_sortValue_form s key.field
  refine ⟨type, fun e he => ⟨htype e, ?_⟩⟩
  rw [sortValue]
  cases hv : Resource.value? e key.field with
  | none => rfl
  | some v => exact h e he key.field v hv

end EntityQuery
