import EntityQuery.Entity.Directory
import EntityQuery.Proofs.Entity.Finding
import EntityQuery.Proofs.IdentifierText
/-!
# Values and declared types

The fields that an entity type declares are those that its entities have values for. A value is null
if a column that may be unset is unset, and nowhere else.

The type of a column is declared next to the shape of its values. If it has the form of the shape
and lists all constants that the column can hold, what the column holds is a value of the type. A
type of another form accepts nothing but null. Every column of the directory has a type that fits
it.
-/

namespace EntityQuery

/-! ## Types and forms -/

theorem FieldType.accepts_iff_of_has {form type : FieldType} {v : FieldValue} (h : form.Has v) :
    type.accepts v = true ↔ type.name = form.name := by
  cases h <;> cases type <;> simp [accepts, name]

theorem FieldType.Has.ne_null {type : FieldType} {v : FieldValue} (h : type.Has v) : v ≠ .null := by
  cases h <;> nofun

theorem FieldType.Has.accepts {type : FieldType} {v : FieldValue} (h : type.Has v) :
    type.accepts v = true :=
  (FieldType.accepts_iff_of_has h).2 rfl

theorem Shape.form_has (shape : Shape) (v : shape.Carrier) :
    shape.form.Has (shape.fieldValue v) := by
  cases shape with
  | choice constants => exact .enum v.property
  | _ => constructor

/-- Whether the values of a shape are values of a type: they have its form, and all constants are
listed. -/
def Shape.isOf : Shape → FieldType → Bool
  | text, .text | uuid, .text | int32, .integer | int64, .integer | double, .decimal
  | boolean, .boolean | date, .date | instant, .dateTime => true
  | choice constants, .enum listed => constants.all (· ∈ listed)
  | _, _ => false

theorem Shape.has_of_isOf {shape : Shape} {type : FieldType} (h : shape.isOf type = true)
    (v : shape.Carrier) : type.Has (shape.fieldValue v) := by
  cases shape with
  | choice constants =>
      cases type with
      | enum listed => exact .enum (of_decide_eq_true (List.all_eq_true.1 h v.val v.property))
      | _ => cases h
  | _ =>
      cases type <;> cases h
      constructor

/-! ## Cells -/

theorem Cell.fieldValue_eq_null_iff {c : Column} {cell : Cell c} :
    cell.fieldValue = .null ↔ ∃ level allowed, cell = .unset level allowed := by
  cases cell with
  | value v =>
      have hvalue := (c.shape.form_has v).ne_null
      simpa [fieldValue] using hvalue
  | unset level allowed => exact ⟨fun _ => ⟨level, allowed, rfl⟩, fun _ => rfl⟩

/-! ## Fields -/

namespace Entity

variable {s : Schema} {e : Entity s} {name : String} {type : FieldType} {v : FieldValue}

theorem exists_value_iff :
    (∃ v, e.value? name = some v) ↔ ∃ type, s.descriptor.resolve name = .ok type := by
  simp only [Descriptor.resolve_eq_ok_iff, s.type?_descriptor]
  constructor
  · rintro ⟨v, hv⟩
    rw [value?_eq_lookup] at hv
    have hname := List.mem_map_of_mem (f := Prod.fst) (Assoc.mem_of_lookup hv)
    exact Assoc.exists_lookup (e.keys_values ▸ hname)
  · rintro ⟨type, htype⟩
    exact e.exists_value (List.mem_map_of_mem (Assoc.mem_of_lookup htype))

/-- A declared field is one that every entity has, and no column has its name, or the value is that
of a cell in the column of this name and type. -/
theorem cell_cases (htype : s.descriptor.resolve name = .ok type) (hv : e.value? name = some v) :
    (type.Has v ∧ ∀ c ∈ s.columns, c.name ≠ name) ∨
      ∃ c, ∃ cell : Cell c, e.cells.Has cell ∧ c.name = name ∧ c.type = type ∧
        cell.fieldValue = v := by
  rw [Descriptor.resolve_eq_ok_iff, s.type?_descriptor] at htype
  obtain hbase | hcolumn := List.mem_append.1 (Assoc.mem_of_lookup htype)
  · left
    constructor
    · simp only [baseFields, List.mem_cons, Prod.mk.injEq, List.not_mem_nil, or_false] at hbase
      obtain ⟨rfl, rfl⟩ | ⟨rfl, rfl⟩ | ⟨rfl, rfl⟩ := hbase <;> cases hv <;> constructor
    · rintro c hc rfl
      exact s.name_not_mem_baseFields hc (List.mem_map_of_mem hbase)
  · right
    obtain ⟨c, hc, hcolumn⟩ := List.mem_map.1 hcolumn
    cases hcolumn
    rw [e.value?_column hc] at hv
    obtain ⟨c', cell, hcell, hname, hvalue⟩ := (Cells.value?_eq_some_iff s.nodup_columns).1 hv
    obtain rfl := s.eq_of_name hcell.mem hc hname
    exact ⟨c', cell, hcell, rfl, rfl, hvalue⟩

theorem eq_null_iff (htype : s.descriptor.resolve name = .ok type) (hv : e.value? name = some v) :
    v = .null ↔ ∃ (c : Column) (level : Nat) (allowed : level < c.options), c.name = name ∧
      e.cells.Has (Cell.unset level allowed : Cell c) := by
  constructor
  · rintro rfl
    obtain ⟨hhas, -⟩ | ⟨c, cell, hcell, hname, -, hnull⟩ := cell_cases htype hv
    · exact absurd rfl hhas.ne_null
    · obtain ⟨level, allowed, rfl⟩ := Cell.fieldValue_eq_null_iff.1 hnull
      exact ⟨c, level, allowed, hname, hcell⟩
  · rintro ⟨c, level, allowed, rfl, hcell⟩
    have hunset := (Cells.value?_eq_some_iff s.nodup_columns).2 ⟨c, _, hcell, rfl, rfl⟩
    rw [e.value?_column hcell.mem, hunset] at hv
    exact (Option.some.inj hv).symm

/-- The type of a field accepts a value other than null exactly if it is declared with the form of
the column of the name. -/
theorem accepts_iff (htype : s.descriptor.resolve name = .ok type) (hv : e.value? name = some v)
    (hnull : v ≠ .null) :
    type.accepts v = true ↔ ∀ c ∈ s.columns, c.name = name → c.type.name = c.shape.form.name := by
  obtain ⟨hhas, hnone⟩ | ⟨c, cell, hcell, rfl, rfl, rfl⟩ := cell_cases htype hv
  · exact iff_of_true hhas.accepts fun c hc hname => absurd hname (hnone c hc)
  · cases cell with
    | unset => exact absurd rfl hnull
    | value x =>
        rw [Cell.fieldValue, FieldType.accepts_iff_of_has (c.shape.form_has x)]
        constructor
        · intro hform c' hc' hname
          rw [s.eq_of_name hc' hcell.mem hname]
          exact hform
        · intro hforms
          exact hforms c hcell.mem rfl

theorem has_of_isOf (htype : s.descriptor.resolve name = .ok type) (hv : e.value? name = some v)
    (hnull : v ≠ .null)
    (hcolumns : ∀ c ∈ s.columns, c.name = name → c.shape.isOf c.type = true) : type.Has v := by
  obtain ⟨hhas, -⟩ | ⟨c, cell, hcell, rfl, rfl, rfl⟩ := cell_cases htype hv
  · exact hhas
  · cases cell with
    | unset => exact absurd rfl hnull
    | value x => exact Shape.has_of_isOf (hcolumns c hcell.mem rfl) x

/-- The identifier field holds the identifier as a text in groups of lower-case digits. -/
theorem value?_id (e : Entity s) :
    ∃ text, e.value? "id" = some (.text text) ∧
      Uuid.readHyphenated? text.toList = some (Resource.id e) ∧
      ∀ c ∈ text.toList, c.toLower = c := by
  refine ⟨e.id.toText, rfl, ?_, ?_⟩
  · rw [Uuid.toText, String.toList_ofList]
    exact e.id.readHyphenated?_write
  · rw [Uuid.toText, String.toList_ofList]
    intro c hc
    exact Uuid.toLower_of_mem_write hc

/-- An entity has values for the fields that are declared and for no other names. A value is null
exactly if the column of the name is unset. Any other value is accepted by the type of the field
exactly if the column is declared with the form of its values; where all constants of the column are
listed too, it is one of those listed, and is read from its text. The fields that every entity has
hold the identifier and the two instants. The columns of the directory are all declared in this
way. -/
theorem values_as_declared :
    (∀ (s : Schema) (e : Entity s) (name : String),
      ((∃ v, e.value? name = some v) ↔ ∃ type, s.descriptor.resolve name = .ok type) ∧
      ∀ v type, e.value? name = some v → s.descriptor.resolve name = .ok type →
        (v = .null ↔ ∃ (c : Column) (level : Nat) (allowed : level < c.options), c.name = name ∧
          e.cells.Has (Cell.unset level allowed : Cell c)) ∧
        (v ≠ .null →
          (type.accepts v = true ↔
            ∀ c ∈ s.columns, c.name = name → c.type.name = c.shape.form.name) ∧
          ((∀ c ∈ s.columns, c.name = name → c.shape.isOf c.type = true) →
            type.accepts v = true ∧ ∀ constants, type = .enum constants →
              ∃ constant ∈ constants, v = .enum constant ∧
                FieldValue.coerce name constant type = .ok v))) ∧
    (∀ (s : Schema) (e : Entity s),
      (∃ text, e.value? "id" = some (.text text) ∧
        Uuid.readHyphenated? text.toList = some (Resource.id e) ∧
        ∀ c ∈ text.toList, c.toLower = c) ∧
      e.value? "created_at" = some (.dateTime (Resource.createdAt e)) ∧
      e.value? "updated_at" = some (.dateTime (Resource.updatedAt e))) ∧
    ∀ s ∈ Directory.schemas, ∀ c ∈ s.columns, c.shape.isOf c.type = true := by
  refine ⟨?fields, fun s e => ⟨e.value?_id, rfl, rfl⟩, by decide⟩
  case fields =>
    intro s e name
    refine ⟨exists_value_iff, ?_⟩
    intro v type hv htype
    refine ⟨eq_null_iff htype hv, fun hnull => ⟨accepts_iff htype hv hnull, ?_⟩⟩
    intro hcolumns
    have hhas := has_of_isOf htype hv hnull hcolumns
    refine ⟨hhas.accepts, ?_⟩
    rintro constants rfl
    cases hhas with
    | @enum _ constant hmem =>
        refine ⟨constant, hmem, rfl, ?_⟩
        exact FieldValue.coerce_eq_ok_iff.2 (FieldValue.ofRaw?_enum_eq_some_iff.2 ⟨hmem, rfl⟩)

/-- Of a person with a gender, the gender is one of those listed. -/
theorem values_as_declared_person :
    let person : Entity Directory.person := note 1 (.cons (.value "Ann") (.cons (.value "Lee")
      (.cons (.value "ann@example.com") (.cons (.unset 0 (by decide))
        (.cons (.value ⟨"FEMALE", by decide⟩) (.cons (.unset 0 (by decide)) (.cons (.value true)
          (.cons (.value (0 : Int64)) .nil))))))))
    (∃ constant ∈ Directory.genders, person.value? "gender" = some (.enum constant) ∧
      FieldValue.coerce "gender" constant (.enum Directory.genders) = .ok (.enum constant)) ∧
    person.value? "birthday" = some .null ∧
      ∃ (c : Column) (level : Nat) (allowed : level < c.options),
        c.name = "birthday" ∧ person.cells.Has (Cell.unset level allowed : Cell c) := by
  intro person
  obtain ⟨hfields, -, hdirectory⟩ := values_as_declared
  obtain ⟨-, hgender⟩ := hfields Directory.person person "gender"
  obtain ⟨-, hbirthday⟩ := hfields Directory.person person "birthday"
  have hvalue : person.value? "gender" = some (.enum "FEMALE") := rfl
  obtain ⟨-, hdeclared⟩ := hgender _ (.enum Directory.genders) hvalue (by decide)
  obtain ⟨-, hlisted⟩ := (hdeclared nofun).2 fun c hc _ =>
    hdirectory Directory.person List.mem_cons_self c hc
  obtain ⟨constant, hmem, heq, hcoerce⟩ := hlisted _ rfl
  obtain ⟨hnull, -⟩ := hbirthday .null .date rfl (by decide)
  exact ⟨⟨constant, hmem, heq ▸ hvalue, heq ▸ hcoerce⟩, rfl, hnull.1 rfl⟩

/-- Notes with a level, of which the declaration leaves out a constant. -/
def gradedNote : Schema where
  singular := "note"
  plural := "notes"
  columns := [⟨"level", .choice ["LOW", "HIGH"], 0, .enum ["LOW"]⟩]

/-- An instant is not accepted by the type of a field that is declared as a text, and a constant
that the declaration leaves out is accepted but not read. -/
theorem undeclared_values :
    (takenNote.value? "taken" = some (.dateTime morning) ∧
      timedNote.descriptor.resolve "taken" = .ok .text ∧
      FieldType.text.accepts (.dateTime morning) = false) ∧
    ((note 1 (.cons (.value ⟨"HIGH", by decide⟩) .nil) : Entity gradedNote).value? "level" =
        some (.enum "HIGH") ∧
      gradedNote.descriptor.resolve "level" = .ok (.enum ["LOW"]) ∧
      FieldValue.coerce "level" "HIGH" (.enum ["LOW"]) =
        .error (.invalidValue "level" "HIGH" "one of [LOW]")) := by
  exact ⟨⟨rfl, by decide, rfl⟩, rfl, by decide, rfl⟩

end Entity

end EntityQuery
