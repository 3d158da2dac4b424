import Mathlib.Data.List.Induction
import Mathlib.Data.List.Nodup
import EntityQuery.Entity.Codec
/-!
# The fields of a declared type

The descriptor of a schema lists the fields that every entity has and then the columns,
as they were declared. Every entity has a value for each of them: the identifier, one of
the two instants, or what the cell of a column holds.
-/

namespace EntityQuery

/-! ## Tables -/

namespace Assoc

variable {κ : Type u} {α : Type v} [DecidableEq κ] {key : κ} {value : α} {table : List (κ × α)}

theorem mem_of_lookup (h : lookup key table = some value) : (key, value) ∈ table := by
  obtain ⟨before, rest, rfl, -⟩ := List.lookup_eq_some_iff.1 h
  exact List.mem_append_right before List.mem_cons_self

/-- In a table with different keys every pair is found by its key. -/
theorem lookup_of_mem (hnodup : (keys table).Nodup) (h : (key, value) ∈ table) :
    lookup key table = some value := by
  induction table with
  | nil => cases h
  | cons pair rest ih =>
      obtain ⟨k, a⟩ := pair
      simp only [keys, List.map_cons, List.nodup_cons] at hnodup
      rw [lookup_cons]
      obtain heq | hrest := List.mem_cons.1 h
      · cases heq
        rw [if_pos rfl]
      · have hne : k ≠ key := fun hk => hnodup.1 (hk ▸ List.mem_map_of_mem hrest)
        rw [if_neg hne]
        exact ih hnodup.2 hrest

theorem lookup_of_not_mem (h : key ∉ keys table) : lookup key table = none := by
  cases hlookup : lookup key table with
  | none => rfl
  | some value => exact absurd (List.mem_map_of_mem (mem_of_lookup hlookup)) h

theorem exists_lookup (h : key ∈ keys table) : ∃ value, lookup key table = some value := by
  obtain ⟨pair, hmem, rfl⟩ := List.mem_map.1 h
  exact Option.isSome_iff_exists.1 (List.lookup_isSome_iff.2 ⟨pair, hmem, BEq.rfl⟩)

theorem lookup_map {β : Type w} (f : α → β) (key : κ) (table : List (κ × α)) :
    lookup key (table.map fun pair => (pair.1, f pair.2)) = (lookup key table).map f := by
  induction table with
  | nil => rfl
  | cons pair rest ih =>
      obtain ⟨k, a⟩ := pair
      rw [List.map_cons, lookup_cons, lookup_cons]
      split
      · rfl
      · exact ih

theorem lookup_erase (key key' : κ) (table : List (κ × α)) :
    lookup key' (erase key table) = if key = key' then none else lookup key' table := by
  induction table with
  | nil => simp [erase]
  | cons pair rest ih =>
      obtain ⟨k, a⟩ := pair
      by_cases hk : k = key
      · subst hk
        have herase : erase k ((k, a) :: rest) = erase k rest := by simp [erase]
        rw [herase, ih, lookup_cons]
        by_cases hk' : k = key' <;> simp [hk']
      · have herase : erase key ((k, a) :: rest) = (k, a) :: erase key rest := by
          simp [erase, hk]
        rw [herase, lookup_cons, lookup_cons, ih]
        by_cases hk' : k = key'
        · subst hk'
          simp [Ne.symm hk]
        · simp [hk']

theorem insert_of_not_mem (h : key ∉ keys table) :
    insert key value table = table ++ [(key, value)] := by
  induction table with
  | nil => rfl
  | cons pair rest ih =>
      obtain ⟨k, a⟩ := pair
      simp only [keys, List.map_cons, List.mem_cons, not_or] at h
      rw [insert, if_neg (Ne.symm h.1), ih h.2, List.cons_append]

/-- Writing what is there already changes nothing. -/
theorem insert_of_lookup (h : lookup key table = some value) : insert key value table = table := by
  induction table with
  | nil => cases h
  | cons pair rest ih =>
      obtain ⟨k, a⟩ := pair
      rw [lookup_cons] at h
      rw [insert]
      split
      · next hk =>
          rw [if_pos hk] at h
          cases h
          rfl
      · next hk =>
          rw [if_neg hk] at h
          rw [ih h]

theorem insert_map {β : Type w} (f : α → β) (key : κ) (value : α) (table : List (κ × α)) :
    insert key (f value) (table.map fun pair => (pair.1, f pair.2)) =
      (insert key value table).map fun pair => (pair.1, f pair.2) := by
  induction table with
  | nil => rfl
  | cons pair rest ih =>
      obtain ⟨k, a⟩ := pair
      rw [List.map_cons, insert, insert]
      split
      · rfl
      · rw [ih, List.map_cons]

theorem ofList_concat (pairs : List (κ × α)) (pair : κ × α) :
    ofList (pairs ++ [pair]) = insert pair.1 pair.2 (ofList pairs) := by
  simp [ofList]

theorem ofList_map {β : Type w} (f : α → β) (pairs : List (κ × α)) :
    ofList (pairs.map fun pair => (pair.1, f pair.2)) =
      (ofList pairs).map fun pair => (pair.1, f pair.2) := by
  induction pairs using List.reverseRecOn with
  | nil => rfl
  | append_singleton pairs pair ih =>
      rw [List.map_append, List.map_singleton, ofList_concat, ofList_concat, ih]
      exact insert_map f pair.1 pair.2 (ofList pairs)

theorem mem_of_mem_insert {pair : κ × α} (h : pair ∈ insert key value table) :
    pair = (key, value) ∨ pair ∈ table := by
  induction table with
  | nil => exact .inl (List.mem_singleton.1 h)
  | cons first rest ih =>
      rw [insert] at h
      split at h
      · next hk =>
          obtain heq | hrest := List.mem_cons.1 h
          · exact .inl (hk ▸ heq)
          · exact .inr (List.mem_cons_of_mem first hrest)
      · obtain heq | hrest := List.mem_cons.1 h
        · exact .inr (heq ▸ List.mem_cons_self)
        · exact (ih hrest).imp id (List.mem_cons_of_mem first)

/-- A write puts its own pair into the table and leaves the pairs with other keys. -/
theorem mem_insert_iff (hnodup : (keys table).Nodup) {pair : κ × α} :
    pair ∈ insert key value table ↔ pair = (key, value) ∨ pair ∈ table ∧ pair.1 ≠ key := by
  obtain ⟨key', value'⟩ := pair
  have hlookup {table : List (κ × α)} (hnodup : (keys table).Nodup) :
      (key', value') ∈ table ↔ lookup key' table = some value' :=
    ⟨lookup_of_mem hnodup, mem_of_lookup⟩
  rw [hlookup (nodup_keys_insert key value hnodup), hlookup hnodup, lookup_insert]
  split
  · next heq =>
      subst heq
      simp [eq_comm]
  · next hne => simp [Ne.symm hne]

theorem mem_of_mem_ofList {pairs : List (κ × α)} {pair : κ × α} (h : pair ∈ ofList pairs) :
    pair ∈ pairs := by
  induction pairs using List.reverseRecOn with
  | nil => cases h
  | append_singleton pairs last ih =>
      rw [ofList_concat] at h
      obtain heq | hmem := mem_of_mem_insert h
      · exact List.mem_append_right pairs (List.mem_singleton.2 heq)
      · exact List.mem_append_left [last] (ih hmem)

/-- Where equal keys have equal values, a pair comes at the end of the table unless it has been
written before. -/
theorem ofList_concat_cases {pairs : List (κ × α)} {pair : κ × α}
    (h : ∀ other ∈ pairs, other.1 = pair.1 → other = pair) :
    pair ∈ pairs ∧ ofList (pairs ++ [pair]) = ofList pairs ∨
      ofList (pairs ++ [pair]) = ofList pairs ++ [pair] := by
  rw [ofList_concat]
  by_cases hkey : pair.1 ∈ keys (ofList pairs)
  · obtain ⟨value, hvalue⟩ := exists_lookup hkey
    have hmem := mem_of_mem_ofList (mem_of_lookup hvalue)
    have heq := h _ hmem rfl
    refine .inl ⟨heq ▸ hmem, ?_⟩
    rw [← heq]
    exact insert_of_lookup hvalue
  · exact .inr (insert_of_not_mem hkey)

end Assoc

/-! ## Descriptors -/

/-- Different names are declared one behind the other. -/
theorem Descriptor.fields_foldl_declare (d : Descriptor) (declarations : List (String × FieldType))
    (h : (Assoc.keys (d.fields ++ declarations)).Nodup) :
    (declarations.foldl (fun d field => d.declare field.1 field.2) d).fields =
      d.fields ++ declarations := by
  induction declarations generalizing d with
  | nil => exact (List.append_nil _).symm
  | cons field rest ih =>
      obtain ⟨name, type⟩ := field
      have hnew : name ∉ Assoc.keys d.fields := by
        intro hmem
        simp only [Assoc.keys, List.map_append, List.map_cons] at h hmem
        exact (List.nodup_append.1 h).2.2 name hmem name List.mem_cons_self rfl
      have hdeclared : (d.declare name type).fields = d.fields ++ [(name, type)] :=
        Assoc.insert_of_not_mem hnew
      have hsplit : d.fields ++ (name, type) :: rest = (d.declare name type).fields ++ rest := by
        rw [hdeclared, List.append_assoc, List.singleton_append]
      rw [List.foldl_cons, ih _ (hsplit ▸ h), hsplit]

theorem Descriptor.identity_foldl_declare (d : Descriptor)
    (declarations : List (String × FieldType)) :
    (declarations.foldl (fun d field => d.declare field.1 field.2) d).identity = d.identity := by
  induction declarations generalizing d with
  | nil => rfl
  | cons field rest ih => exact ih (d.declare field.1 field.2)

theorem Descriptor.contains_iff {d : Descriptor} {field : String} :
    d.contains field = true ↔ field ∈ Assoc.keys d.fields := by
  rw [contains, Assoc.contains, Option.isSome_iff_exists]
  constructor
  · rintro ⟨type, htype⟩
    exact List.mem_map_of_mem (Assoc.mem_of_lookup htype)
  · exact Assoc.exists_lookup

theorem Descriptor.resolve_eq_ok_iff {d : Descriptor} {field : String} {type : FieldType} :
    d.resolve field = .ok type ↔ d.type? field = some type := by
  unfold resolve
  cases d.type? field <;> simp

@[simp] theorem storedName_id : storedName "id" = "id" := rfl

@[simp] theorem storedName_created_at : storedName "created_at" = "created_at" := rfl

@[simp] theorem storedName_updated_at : storedName "updated_at" = "updated_at" := rfl

namespace Schema

/-- The declared fields of a schema, those of every entity first. -/
def fields (s : Schema) : List (String × FieldType) :=
  baseFields ++ s.columns.map fun c => (c.name, c.type)

variable (s : Schema)

theorem keys_fields :
    Assoc.keys s.fields = baseFields.map Prod.fst ++ s.columns.map Column.name := by
  simp [fields, Assoc.keys]

theorem map_storedName_keys_fields :
    (Assoc.keys s.fields).map storedName =
      baseFields.map Prod.fst ++ s.columns.map Column.key := by
  rw [s.keys_fields, List.map_append, List.map_map]
  simp [baseFields, Column.key]

theorem nodup_storedNames : ((Assoc.keys s.fields).map storedName).Nodup :=
  s.map_storedName_keys_fields ▸ s.keys_nodup

/-- Names are different if the names under which they are stored are. -/
theorem nodup_keys_fields : (Assoc.keys s.fields).Nodup :=
  .of_map storedName s.nodup_storedNames

theorem names_nodup : (baseFields.map Prod.fst ++ s.columns.map Column.name).Nodup :=
  s.keys_fields ▸ s.nodup_keys_fields

theorem storedName_storedName {name : String} (h : name ∈ Assoc.keys s.fields) :
    storedName (storedName name) = storedName name := by
  rw [s.keys_fields, List.mem_append] at h
  obtain hbase | hcolumn := h
  · simp only [baseFields, List.map_cons, List.map_nil, List.mem_cons, List.not_mem_nil,
      or_false] at hbase
    obtain rfl | rfl | rfl := hbase <;> rfl
  · obtain ⟨c, hc, rfl⟩ := List.mem_map.1 hcolumn
    exact s.keys_unmarked c hc

theorem eq_of_storedName {name name' : String} (h : name ∈ Assoc.keys s.fields)
    (h' : name' ∈ Assoc.keys s.fields) (heq : storedName name = storedName name') : name = name' :=
  List.inj_on_of_nodup_map s.nodup_storedNames h h' heq

@[simp] theorem identity_descriptor : s.descriptor.identity = "id" :=
  Descriptor.identity_foldl_declare (.empty s.singular "id") s.fields

theorem nodup_columns : (s.columns.map Column.name).Nodup :=
  (List.nodup_append.1 s.names_nodup).2.1

theorem eq_of_name {c c' : Column} (h : c ∈ s.columns) (h' : c' ∈ s.columns)
    (hname : c.name = c'.name) : c = c' :=
  List.inj_on_of_nodup_map s.nodup_columns h h' hname

theorem name_not_mem_baseFields {c : Column} (h : c ∈ s.columns) :
    c.name ∉ baseFields.map Prod.fst := by
  intro hname
  exact (List.nodup_append.1 s.names_nodup).2.2 _ hname _ (List.mem_map_of_mem h) rfl

@[simp] theorem fields_descriptor : s.descriptor.fields = s.fields :=
  Descriptor.fields_foldl_declare (.empty s.singular "id") s.fields s.nodup_keys_fields

theorem type?_descriptor (name : String) :
    s.descriptor.type? name = Assoc.lookup name s.fields := by
  rw [Descriptor.type?, fields_descriptor]

end Schema

/-! ## Values -/

/-- The values of the columns, each behind the column's name. -/
def Cells.values : {columns : List Column} → Cells columns → List (String × FieldValue)
  | _, nil => []
  | c :: _, cons cell cells => (c.name, cell.fieldValue) :: cells.values

theorem Cells.value?_eq_lookup (name : String) {columns : List Column} (cells : Cells columns) :
    cells.value? name = Assoc.lookup name cells.values := by
  induction cells with
  | nil => rfl
  | cons cell cells ih => rw [value?, values, Assoc.lookup_cons, ih]

theorem Cells.keys_values {columns : List Column} (cells : Cells columns) :
    Assoc.keys cells.values = columns.map Column.name := by
  induction cells with
  | nil => rfl
  | cons cell cells ih => exact congrArg (_ :: ·) ih

theorem Cells.exists_cell {columns : List Column} (cells : Cells columns) {name : String}
    {v : FieldValue} (h : (name, v) ∈ cells.values) :
    ∃ c ∈ columns, c.name = name ∧ ∃ cell : Cell c, v = cell.fieldValue := by
  induction cells with
  | nil => cases h
  | @cons c rest cell cells ih =>
      obtain heq | hrest := List.mem_cons.1 h
      · cases heq
        exact ⟨c, List.mem_cons_self, rfl, cell, rfl⟩
      · obtain ⟨c', hmem, hname, hcell⟩ := ih hrest
        exact ⟨c', List.mem_cons_of_mem c hmem, hname, hcell⟩

inductive Cells.Has : {columns : List Column} → Cells columns → {c : Column} → Cell c → Prop
  | head {c : Column} {rest : List Column} {cell : Cell c} {cells : Cells rest} :
    Has (cons cell cells) cell
  | tail {c c' : Column} {rest : List Column} {cell : Cell c} {other : Cell c'}
    {cells : Cells rest} (h : Has cells cell) : Has (cons other cells) cell

theorem Cells.Has.mem {columns : List Column} {cells : Cells columns} {c : Column} {cell : Cell c}
    (h : cells.Has cell) : c ∈ columns := by
  induction h with
  | head => exact List.mem_cons_self
  | tail _ ih => exact List.mem_cons_of_mem _ ih

theorem Cells.value?_eq_some_iff {columns : List Column} {cells : Cells columns} {name : String}
    {v : FieldValue} (hnodup : (columns.map Column.name).Nodup) :
    cells.value? name = some v ↔
      ∃ c, ∃ cell : Cell c, cells.Has cell ∧ c.name = name ∧ cell.fieldValue = v := by
  constructor
  · intro h
    clear hnodup
    induction cells with
    | nil => cases h
    | @cons c rest cell cells ih =>
        rw [value?] at h
        split at h
        · next hname => exact ⟨c, cell, .head, hname, Option.some.inj h⟩
        · obtain ⟨c', cell', hcell, hname, hv⟩ := ih h
          exact ⟨c', cell', .tail hcell, hname, hv⟩
  · rintro ⟨c, cell, hcell, rfl, rfl⟩
    induction hcell with
    | head => exact if_pos rfl
    | @tail c c' rest cell other cells hcell ih =>
        obtain ⟨hnew, hrest⟩ := List.nodup_cons.1 hnodup
        have hne : c'.name ≠ c.name := fun heq => hnew (heq ▸ List.mem_map_of_mem hcell.mem)
        rw [value?, if_neg hne]
        exact ih hrest

theorem Shape.encode_eq (shape : Shape) (v : shape.Carrier) :
    shape.encode v = (shape.fieldValue v).toJson := by
  cases shape
  case int32 =>
    have hlow := Int32.le_toInt v
    have hhigh := Int32.toInt_lt v
    have hint : (Int64.ofInt (Int32.toInt v)).toInt = Int32.toInt v :=
      Int64.toInt_ofInt_of_le (by omega) (by omega)
    exact congrArg Json.int hint.symm
  all_goals rfl

theorem Cell.encode_eq {c : Column} (cell : Cell c) : cell.encode = cell.fieldValue.toJson := by
  cases cell with
  | value v => exact c.shape.encode_eq v
  | unset => rfl

theorem Cells.encode_eq {columns : List Column} (cells : Cells columns) :
    cells.encode = cells.values.map fun field => (storedName field.1, field.2.toJson) := by
  induction cells with
  | nil => rfl
  | @cons c rest cell cells ih =>
      rw [encode, values, List.map_cons, cell.encode_eq, ih]
      rfl

namespace Entity

variable {s : Schema} (e : Entity s)

/-- The values of all fields in the order of declaration. -/
def values : List (String × FieldValue) :=
  ("id", .text e.id.toText) :: ("created_at", .dateTime e.createdAt) ::
    ("updated_at", .dateTime e.updatedAt) :: e.cells.values

theorem value?_eq_lookup (name : String) : e.value? name = Assoc.lookup name e.values := by
  simp only [value?, values, Assoc.lookup_cons, Cells.value?_eq_lookup, eq_comm]

theorem value?_column {c : Column} (h : c ∈ s.columns) :
    e.value? c.name = e.cells.value? c.name := by
  have hbase := s.name_not_mem_baseFields h
  simp only [baseFields, List.map_cons, List.map_nil, List.mem_cons, List.not_mem_nil, or_false,
    not_or] at hbase
  rw [value?, if_neg hbase.1, if_neg hbase.2.1, if_neg hbase.2.2]

theorem keys_values : Assoc.keys e.values = Assoc.keys s.fields := by
  rw [s.keys_fields, ← e.cells.keys_values]
  rfl

theorem exists_value {name : String} (h : name ∈ Assoc.keys s.fields) :
    ∃ v, e.value? name = some v := by
  rw [← e.keys_values] at h
  rw [value?_eq_lookup]
  exact Assoc.exists_lookup h

theorem exists_value_of_type? {name : String} {type : FieldType}
    (h : s.descriptor.type? name = some type) : ∃ v, e.value? name = some v := by
  rw [s.type?_descriptor] at h
  exact e.exists_value (List.mem_map_of_mem (Assoc.mem_of_lookup h))

theorem value?_cases {name : String} {v : FieldValue} (h : e.value? name = some v) :
    (∃ type, (name, type) ∈ baseFields ∧ type.accepts v = true ∧ ∀ x, v ≠ .decimal x) ∨
      ∃ c ∈ s.columns, c.name = name ∧ ∃ cell : Cell c, v = cell.fieldValue := by
  rw [value?_eq_lookup] at h
  have hmem := Assoc.mem_of_lookup h
  simp only [values, List.mem_cons, Prod.mk.injEq] at hmem
  obtain ⟨rfl, rfl⟩ | ⟨rfl, rfl⟩ | ⟨rfl, rfl⟩ | hcell := hmem
  · exact .inl ⟨.text, by decide, rfl, nofun⟩
  · exact .inl ⟨.dateTime, by decide, rfl, nofun⟩
  · exact .inl ⟨.dateTime, by decide, rfl, nofun⟩
  · exact .inr (e.cells.exists_cell hcell)

/-- What is true of the values that every entity has and of those of the columns, is true of every
value. -/
theorem of_values {e : Entity s} {P : FieldValue → Prop} (hid : P (.text e.id.toText))
    (hcreated : P (.dateTime e.createdAt)) (hupdated : P (.dateTime e.updatedAt))
    (hcells : ∀ field ∈ e.cells.values, P field.2) {name : String} {v : FieldValue}
    (hv : e.value? name = some v) : P v := by
  rw [value?_eq_lookup] at hv
  have hmem := Assoc.mem_of_lookup hv
  simp only [values, List.mem_cons, Prod.mk.injEq] at hmem
  obtain ⟨_, rfl⟩ | ⟨_, rfl⟩ | ⟨_, rfl⟩ | hcell := hmem
  · exact hid
  · exact hcreated
  · exact hupdated
  · exact hcells (name, v) hcell

theorem declared_cases {name : String} {type : FieldType} {v : FieldValue}
    (htype : s.descriptor.type? name = some type) (hv : e.value? name = some v) :
    type.accepts v = true ∨
      ∃ c ∈ s.columns, c.name = name ∧ c.type = type ∧ ∃ cell : Cell c, v = cell.fieldValue := by
  have hdeclared {type' : FieldType} (h : (name, type') ∈ s.fields) : type' = type := by
    rw [s.type?_descriptor, Assoc.lookup_of_mem s.nodup_keys_fields h] at htype
    exact Option.some.inj htype
  obtain ⟨type', hbase, haccepts, _⟩ | ⟨c, hmem, rfl, cell, rfl⟩ := e.value?_cases hv
  · exact .inl (hdeclared (List.mem_append_left _ hbase) ▸ haccepts)
  · have hfield : (c.name, c.type) ∈ s.fields :=
      List.mem_append_right _ (List.mem_map_of_mem (f := fun c => (c.name, c.type)) hmem)
    exact .inr ⟨c, hmem, rfl, hdeclared hfield, cell, rfl⟩

theorem encode_eq :
    e.encode = .obj (e.values.map fun field => (storedName field.1, field.2.toJson)) := by
  simp only [encode, values, Cells.encode_eq, List.map_cons, storedName_id, storedName_created_at,
    storedName_updated_at]
  rfl

theorem nodup_keys_stored {β : Type} (f : FieldValue → β) :
    (Assoc.keys (e.values.map fun field => (storedName field.1, f field.2))).Nodup := by
  have hkeys := s.nodup_storedNames
  rw [← e.keys_values, Assoc.keys, List.map_map] at hkeys
  rw [Assoc.keys, List.map_map]
  exact hkeys

theorem lookup_storedName {β : Type} (f : FieldValue → β) {name : String} {v : FieldValue}
    (hv : e.value? name = some v) :
    Assoc.lookup (storedName name)
      (e.values.map fun field => (storedName field.1, f field.2)) = some (f v) := by
  rw [value?_eq_lookup] at hv
  exact Assoc.lookup_of_mem (e.nodup_keys_stored f) (List.mem_map_of_mem (Assoc.mem_of_lookup hv))

/-- A raw identifier is not the name of a member. -/
theorem lookup_of_marked {β : Type} (f : FieldValue → β) {name : String}
    (hmarked : storedName name ≠ name) :
    Assoc.lookup name (e.values.map fun field => (storedName field.1, f field.2)) = none := by
  apply Assoc.lookup_of_not_mem
  intro hname
  rw [Assoc.keys, List.map_map] at hname
  obtain ⟨field, hfield, rfl⟩ := List.mem_map.1 hname
  have hdeclared : field.1 ∈ Assoc.keys s.fields := e.keys_values ▸ List.mem_map_of_mem hfield
  exact hmarked (s.storedName_storedName hdeclared)

theorem member?_encode {name : String} {v : FieldValue} (hv : e.value? name = some v) :
    e.encode.member? (storedName name) = some v.toJson := by
  rw [encode_eq]
  exact e.lookup_storedName FieldValue.toJson hv

end Entity

/-! ## Notes

Notes are entities with one column. What a store makes of a column whose declaration does not fit
it can be seen on them.
-/

/-- 10:15:30 on 23 November 2010. -/
def morning : Instant :=
  (Instant.ofCivil? ⟨2010, 11, 23, by decide⟩ 10 15 30 0).get rfl

def fullSecond : Instant :=
  (Instant.ofCivil? ⟨2024, 1, 1, by decide⟩ 0 0 0 0).get rfl

def halfSecond : Instant :=
  (Instant.ofCivil? ⟨2024, 1, 1, by decide⟩ 0 0 0 500000000).get rfl

/-- Notes with an instant that is declared as a text. -/
def timedNote : Schema where
  singular := "note"
  plural := "notes"
  columns := [⟨"taken", .instant, 0, .text⟩]

def dayNote : Schema where
  singular := "note"
  plural := "notes"
  columns := [⟨"day", .date, 0, .date⟩]

/-- Notes with a column that has the name of the identifier's member in a document. -/
def labelledNote : Schema where
  singular := "note"
  plural := "notes"
  columns := [⟨"_id", .text, 0, .text⟩]

def markedNote : Schema where
  singular := "note"
  plural := "notes"
  columns := [⟨"r#type", .text, 0, .text⟩]

/-- A note with the given columns, made at a fixed instant. -/
def note {s : Schema} (id : Nat) (cells : Cells s.columns) : Entity s :=
  .create (.ofNat id) morning cells

end EntityQuery
