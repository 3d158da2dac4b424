import EntityQuery.Proofs.Number.Shortest
import EntityQuery.Proofs.Relational.Micros
/-!
# What a column makes of a value

A field is read out of the JSON of an entity as a text and cast to the type that is declared for
it. A value whose type is declared comes back as it was, except that a zero may lose its sign.
The declared type is not derived from the shape of the values, so a value may also be a text that
is not cast, or a whole number that is cast to a double. Then its column keeps the order of the
values only in some cases.
-/

namespace EntityQuery

open Relational

/-- A column of a type keeps the order of the value. A truth value or a date may also be declared
as a text, and a whole number as a double if it is one. -/
def FieldValue.SortsAs (type : FieldType) : FieldValue → Prop
  | text _ | enum _ => isBytewise type = true
  | integer n => type = .integer ∨ type = .decimal ∧ IsDouble n
  | decimal x => type = .decimal ∧ x.isFinite = true
  | boolean _ => type = .boolean ∨ isBytewise type = true
  | date d => type = .date ∧ IsCountedYear d.year ∨ isBytewise type = true ∧ IsFourDigitYear d.year
  | dateTime t => type = .dateTime ∧ t.IsWholeMicro ∧ IsCountedYear t.date.year
  | null => True

/-- The database keeps the value: doubles are finite, and instants are whole microseconds. -/
def FieldValue.IsKept : FieldValue → Prop
  | decimal x => x.isFinite = true
  | dateTime t => t.IsWholeMicro
  | _ => True

/-- The database counts the year of a date or of an instant. -/
def FieldValue.IsCounted : FieldValue → Prop
  | date d => IsCountedYear d.year
  | dateTime t => IsCountedYear t.date.year
  | _ => True

theorem FieldValue.sortsAs_of_accepts {type : FieldType} {v : FieldValue}
    (haccepts : type.accepts v = true) (hkept : v.IsKept) (hcounted : v.IsCounted) :
    v.SortsAs type := by
  cases type <;> cases v <;> cases haccepts
  case integer.integer => exact .inl rfl
  case decimal.decimal => exact ⟨rfl, hkept⟩
  case boolean.boolean => exact .inl rfl
  case date.date => exact .inl ⟨rfl, hcounted⟩
  case dateTime.dateTime => exact ⟨rfl, hkept, hcounted⟩
  case text.text => rfl
  case enum.enum => rfl
  all_goals trivial

namespace Relational

/-! ## Values of keys -/

/-- What the column of a type makes of a value. -/
inductive Represents (type : FieldType) : FieldValue → Param → Prop
  | null : Represents type .null .null
  | text (s : String) (h : isBytewise type = true) : Represents type (.text s) (.text s)
  | enum (s : String) (h : isBytewise type = true) : Represents type (.enum s) (.text s)
  | integer (n : Int64) (h : type = .integer) : Represents type (.integer n) (.int8 n)
  | double (n : Int64) (x : Binary64) (h : type = .decimal)
    (hvalue : x.value = ((n.toInt : ℚ) : WithTop ℚ)) : Represents type (.integer n) (.float8 x)
  | decimal (x y : Binary64) (h : type = .decimal) (hfinite : x.isFinite = true)
    (hvalue : y.value = x.value) : Represents type (.decimal x) (.float8 y)
  | boolean (b : Bool) (h : type = .boolean) : Represents type (.boolean b) (.bool b)
  | word (b : Bool) (h : isBytewise type = true) :
    Represents type (.boolean b) (.text (if b then "true" else "false"))
  | date (d : Date) (h : type = .date) : Represents type (.date d) (.date d)
  | written (d : Date) (h : isBytewise type = true) (hyear : IsFourDigitYear d.year) :
    Represents type (.date d) (.text (String.ofList d.write))
  | dateTime (t : Instant) (h : type = .dateTime) (hmicro : t.IsWholeMicro) :
    Represents type (.dateTime t) (.timestamptz (nearestMicros t))

section Columns

variable {row : Row} {field : String} {type : FieldType} {v : FieldValue} {s : String}
  {source : Expression}

theorem evaluate?_cast (cast : CastType) (h : source.evaluate? row = some (.text s)) :
    (Expression.cast source cast).evaluate? row = cast.read? s.toList := by
  rw [Expression.evaluate?, h]
  rfl

/-- Null stays null, whatever it is cast to. -/
theorem evaluate?_null (h : (Expression.member "data" field).evaluate? row = some .null) :
    (columnExpression field type).evaluate? row = some .null := by
  have hcast {source : Expression} (cast : CastType) (h : source.evaluate? row = some .null) :
      (Expression.cast source cast).evaluate? row = some .null := by
    rw [Expression.evaluate?, h]
    rfl
  cases type with
  | text | enum _ => exact h
  | integer | decimal | boolean | date => exact hcast _ h
  | dateTime =>
      apply hcast
      rw [sourceExpression, Expression.evaluate?, h]
      rfl

theorem columnExpression_of_isBytewise (h : isBytewise type = true) :
    columnExpression field type = .member "data" field := by
  cases type <;> first | rfl | cases h

/-- A number that is finite, and is zero only if the decimal is, is in range. -/
theorem doubleOf?_eq {d : Decimal} (hfinite : d.toBinary64.isFinite = true)
    (hzero : d.toBinary64.magnitude = 0 → d.coefficient = 0) :
    doubleOf? d = some d.toBinary64 := by
  have hrange : (d.coefficient = 0 || !d.toBinary64.isZero) = true := by
    by_cases hd : d.coefficient = 0
    · simp [hd]
    · simp [hd, Binary64.isZero, mt hzero hd]
  rw [doubleOf?, hfinite, Bool.true_and, if_pos hrange]

theorem exists_read?_integer {n : Int64} (h : FieldValue.IsDouble n) :
    ∃ x, CastType.doublePrecision.read? (Integer.write n.toInt) = some (.float8 x) ∧
      x.value = ((n.toInt : ℚ) : WithTop ℚ) := by
  refine ⟨.ofInt n.toInt, ?_, h⟩
  have hvalue : (Decimal.toBinary64 ⟨n.toInt < 0, n.toInt.natAbs, 0⟩).value =
      (((n.toInt : ℚ) : WithTop ℚ) : WithBot (WithTop ℚ)) := by
    rw [Decimal.toBinary64_integer]
    exact h
  have hdouble : doubleOf? ⟨n.toInt < 0, n.toInt.natAbs, 0⟩ = some (.ofInt n.toInt) := by
    rw [doubleOf?_eq (Binary64.isFinite_of_value_eq hvalue), Decimal.toBinary64_integer]
    intro hzero
    rw [Binary64.value_of_magnitude_eq_zero hzero] at hvalue
    have hcast : (0 : ℚ) = n.toInt := WithTop.coe_injective (WithBot.coe_injective hvalue)
    simpa [eq_comm] using hcast
  rw [CastType.read?, Decimal.read?_integer, Option.bind_some, hdouble, Option.map_some]

theorem exists_read?_jsonText {x : Binary64} (hfinite : x.isFinite = true) :
    ∃ s y, jsonText? (.float x) = some s ∧
      CastType.doublePrecision.read? s.toList = some (.float8 y) ∧ y.value = x.value := by
  obtain ⟨d, hd, hrounds⟩ := Binary64.exists_read?_write NumberStyle.isReadable_json hfinite
  obtain ⟨r, hr, -, -⟩ := d.exists_read?_plainText
  obtain ⟨hfinite', hvalue, hzero⟩ := Binary64.value_of_plainText hfinite hrounds hr
  refine ⟨String.ofList d.plainText, r.toBinary64, ?_, ?_, hvalue⟩
  · rw [jsonText?, hd, Option.map_some]
  · rw [CastType.read?, String.toList_ofList, hr, Option.bind_some, doubleOf?_eq hfinite' hzero,
      Option.map_some]

theorem evaluate?_member {data value : Json} (hdata : Assoc.lookup "data" row = some (.jsonb data))
    (hmember : data.member? field = some value) (htext : jsonText? value = some s) :
    (Expression.member "data" field).evaluate? row = some (.text s) := by
  rw [Expression.evaluate?, hdata]
  simp only [memberText?, hmember]
  cases value with
  | null | arr _ | obj _ => cases htext
  | _ => simp only [htext, Option.map_some]

theorem read?_write_date (d : Date) :
    CastType.date.read? d.write = if IsCountedYear d.year then some (.date d) else none := by
  rw [CastType.read?]
  by_cases hyear : IsFourDigitYear d.year
  · rw [Date.readFixed?_write hyear]
    by_cases hcounted : IsCountedYear d.year <;> simp [hcounted]
  · have hcounted : ¬ IsCountedYear d.year := fun h => hyear ⟨by have := h.1; omega, h.2⟩
    rw [Date.readFixed?_write_of_signed hyear, if_neg hcounted]
    rfl

/-- The text of an instant that was cut is cast to the instant rounded down, if the database counts
its year. -/
theorem read?_cutFraction_write (t : Instant) :
    CastType.timestamptz.read? (cutFraction (t.write .shortest)) =
      if IsCountedYear t.date.year then some (.timestamptz (nearestMicros t.floorMicro))
      else none := by
  rw [CastType.read?, if_pos t.getLast?_cutFraction_write]
  by_cases hyear : IsFourDigitYear t.date.year
  · rw [Instant.readStrict?_cutFraction_write hyear]
    by_cases hcounted : IsCountedYear t.date.year <;> simp [hcounted]
  · have hcounted : ¬ IsCountedYear t.date.year := fun h => hyear ⟨by have := h.1; omega, h.2⟩
    rw [Instant.readStrict?_cutFraction_write_of_signed hyear, if_neg hcounted]
    rfl

theorem evaluate?_dateTime {t : Instant}
    (h : (Expression.member "data" field).evaluate? row =
      some (.text (String.ofList (t.write .shortest)))) :
    (columnExpression field .dateTime).evaluate? row =
      if IsCountedYear t.date.year then some (.timestamptz (nearestMicros t.floorMicro))
      else none := by
  have hcut : (sourceExpression field .dateTime).evaluate? row =
      some (.text (String.ofList (cutFraction (t.write .shortest)))) := by
    rw [sourceExpression, Expression.evaluate?, h, Option.bind_some, Param.bindText?,
      String.toList_ofList, replaceFirst?, if_pos ⟨rfl, rfl⟩, Option.map_some]
  have hcast := evaluate?_cast .timestamptz hcut
  rw [String.toList_ofList, read?_cutFraction_write] at hcast
  exact hcast

/-- The column of a type represents a value that it keeps the order of. -/
theorem exists_represents {data : Json} (hdata : Assoc.lookup "data" row = some (.jsonb data))
    (hmember : data.member? field = some v.toJson) (hv : v.SortsAs type) :
    ∃ p, (columnExpression field type).evaluate? row = some p ∧ Represents type v p := by
  have hsource {s : String} (htext : jsonText? v.toJson = some s) :=
    evaluate?_member hdata hmember htext
  have hbytewise (h : isBytewise type = true) {s : String} (htext : jsonText? v.toJson = some s) :
      (columnExpression field type).evaluate? row = some (.text s) := by
    rw [columnExpression_of_isBytewise h]
    exact hsource htext
  have hcast (cast : CastType) {s : String} (htext : jsonText? v.toJson = some s) :=
    evaluate?_cast cast (hsource htext)
  cases v with
  | null =>
      have hnull : (Expression.member "data" field).evaluate? row = some .null := by
        rw [Expression.evaluate?, hdata]
        simp only [memberText?, hmember]
        rfl
      exact ⟨.null, evaluate?_null hnull, .null⟩
  | text s => exact ⟨.text s, hbytewise hv rfl, .text s hv⟩
  | enum s => exact ⟨.text s, hbytewise hv rfl, .enum s hv⟩
  | integer n =>
      obtain rfl | ⟨rfl, hn⟩ := hv
      · have hread := hcast .bigint rfl
        rw [CastType.read?, String.toList_ofList, Integer.read_write] at hread
        exact ⟨.int8 n, hread, .integer n rfl⟩
      · obtain ⟨x, hx, hvalue⟩ := exists_read?_integer hn
        have hread := hcast .doublePrecision rfl
        rw [String.toList_ofList, hx] at hread
        exact ⟨.float8 x, hread, .double n x rfl hvalue⟩
  | decimal x =>
      obtain ⟨rfl, hfinite⟩ := hv
      obtain ⟨s, y, htext, hy, hvalue⟩ := exists_read?_jsonText hfinite
      have hjson : (FieldValue.decimal x).toJson = .float x := if_pos hfinite
      have hread := hcast .doublePrecision (hjson ▸ htext)
      rw [hy] at hread
      exact ⟨.float8 y, hread, .decimal x y rfl hfinite hvalue⟩
  | boolean b =>
      obtain rfl | h := hv
      · have hread := hcast .boolean rfl
        refine ⟨.bool b, ?_, .boolean b rfl⟩
        cases b <;> exact hread
      · exact ⟨_, hbytewise h rfl, .word b h⟩
  | date d =>
      obtain ⟨rfl, hcounted⟩ | ⟨h, hyear⟩ := hv
      · have hread := hcast .date rfl
        rw [String.toList_ofList, read?_write_date, if_pos hcounted] at hread
        exact ⟨.date d, hread, .date d rfl⟩
      · exact ⟨_, hbytewise h rfl, .written d h hyear⟩
  | dateTime t =>
      obtain ⟨rfl, hmicro, hcounted⟩ := hv
      have hcolumn := evaluate?_dateTime (hsource rfl)
      rw [if_pos hcounted, Instant.floorMicro_eq_self hmicro] at hcolumn
      exact ⟨_, hcolumn, .dateTime t rfl hmicro⟩

end Columns

end Relational

end EntityQuery
