import EntityQuery.Entity.Directory
import EntityQuery.Proofs.Coercion
import EntityQuery.Proofs.Compilation
import EntityQuery.Proofs.Memory.Order
/-!
# Finding entities by the values that they show

What is shown of a value is read back as the value, if the field has a type that has the value. So
an entity is found by its own value: a filter for equality with what is shown finds the entities
with this value in the field, and a filter for inequality those with another one. A field whose
declared type does not have the value shows a text that is refused, or that is read as a value of
another form, which nothing in the field equals.
-/

namespace EntityQuery

/-! ## Values of a type -/

/-- The value is one of the type: it has its form, and a constant is one of those listed. -/
inductive FieldType.Has : FieldType → FieldValue → Prop
  | text (s : String) : Has .text (.text s)
  | integer (n : Int64) : Has .integer (.integer n)
  | decimal (x : Binary64) : Has .decimal (.decimal x)
  | boolean (b : Bool) : Has .boolean (.boolean b)
  | enum {constants : List String} {constant : String} (h : constant ∈ constants) :
    Has (.enum constants) (.enum constant)
  | date (d : Date) : Has .date (.date d)
  | dateTime (t : Instant) : Has .dateTime (.dateTime t)

theorem FieldType.Has.ne_decimal {type : FieldType} {v : FieldValue} (h : type.Has v)
    (htype : type ≠ .decimal) (x : Binary64) : v ≠ .decimal x := by
  rintro rfl
  cases h
  exact htype rfl

namespace FieldValue

variable {type : FieldType} {v : FieldValue}

theorem has_of_ofRaw? {raw : String} (h : ofRaw? type raw = some v) : type.Has v := by
  cases type with
  | text =>
      cases h
      exact .text raw
  | enum constants =>
      obtain ⟨hmem, rfl⟩ := ofRaw?_enum_eq_some_iff.1 h
      exact .enum hmem
  | integer | decimal | boolean | date | dateTime =>
      obtain ⟨_, _, rfl⟩ := Option.map_eq_some_iff.1 h
      constructor

/-- Nothing is left out in what is shown: a year has four digits, and a second no fraction. -/
def IsShownInFull : FieldValue → Prop
  | date d => IsFourDigitYear d.year
  | dateTime t => IsFourDigitYear t.date.year ∧ t.nano = 0
  | _ => True

/-- What is shown of a value is read back as the value. -/
theorem ofRaw?_display (h : type.Has v) (hdecimal : ∀ x, v ≠ .decimal x)
    (hshown : v.IsShownInFull) : ofRaw? type v.display = some v := by
  have hraw : v.display.toList = v.write := String.toList_ofList
  cases h with
  | text s => simp [ofRaw?, display, write]
  | integer n => simp [ofRaw?, hraw, write, Integer.read_write, Except.toOption]
  | decimal x => exact absurd rfl (hdecimal x)
  | boolean b =>
      refine ofRaw?_boolean_eq_some_iff.2 ⟨b, ?_, rfl⟩
      rw [hraw]
      exact List.forall₂_same.2 fun _ _ => .inl rfl
  | enum hmem => simp [ofRaw?, display, write, hmem]
  | date d =>
      refine ofRaw?_date_eq_some_iff.2 ⟨d, ?_, rfl⟩
      rw [hraw]
      exact Date.readFixed?_eq_some_iff.2 ⟨hshown, rfl⟩
  | dateTime t =>
      obtain ⟨hyear, hnano⟩ := hshown
      have hwrite : t.write .none = t.write .shortest := by
        simp [Instant.write, Instant.writeTime, FractionStyle.write, Instant.nanoOfSecond, hnano]
      have hwhole : t.wholeSecond = t := by
        obtain ⟨date, second, nano, _, _⟩ := t
        obtain rfl : nano = 0 := hnano
        rfl
      have hread := Instant.readFilter?_write hyear
      rw [hwhole, ← hwrite] at hread
      rw [ofRaw?, hraw]
      exact congrArg (Option.map dateTime) hread

/-- Doubles apart, values compare as equal exactly if they are the same. -/
theorem compare?_eq_eq_iff {a b : FieldValue} (ha : ∀ x, a ≠ .decimal x)
    (hb : ∀ x, b ≠ .decimal x) : a.compare? b = some .eq ↔ a = b ∧ a ≠ .null := by
  cases a with
  | decimal x => exact absurd rfl (ha x)
  | null => simp [compare?]
  | _ =>
      cases b with
      | decimal y => exact absurd rfl (hb y)
      | _ => simp [compare?, Date.compare_eq_eq_iff, Instant.compare_eq_eq_iff]

theorem isNaN_of_ne_decimal (h : ∀ x, v ≠ .decimal x) : v.isNaN = false := by
  cases v with
  | decimal x => exact absurd rfl (h x)
  | _ => rfl

/-- Among values of one form, doubles are compared with doubles only. -/
theorem ne_decimal_of_accepts {form : FieldType} {a b : FieldValue} (ha : form.accepts a = true)
    (hb : form.accepts b = true) (hnull : b ≠ .null) (hdecimal : ∀ x, b ≠ .decimal x) (x : Binary64) :
    a ≠ .decimal x := by
  rintro rfl
  cases form <;> cases ha
  cases b <;> cases hb
  · exact hdecimal _ rfl
  · exact hnull rfl

end FieldValue

/-! ## Equality of values -/

namespace Operator

variable {form : FieldType} {a b : FieldValue}

theorem holds_equal (a b : FieldValue) : equal.holds a b = (a.compare? b == some .eq) := by
  cases hcompare : a.compare? b <;> simp [holds, isTextual, hcompare]

theorem holds_notEqual (a b : FieldValue) :
    notEqual.holds a b = ((a.compare? b).isSome && a.compare? b != some .eq) := by
  cases hcompare : a.compare? b <;> simp [holds, isTextual, hcompare, bne]

theorem holds_equal_iff (ha : ∀ x, a ≠ .decimal x) (hb : ∀ x, b ≠ .decimal x) :
    equal.holds a b = true ↔ a = b ∧ a ≠ .null := by
  rw [holds_equal, beq_iff_eq, FieldValue.compare?_eq_eq_iff ha hb]

/-- Values of one form are unequal exactly if they are different. -/
theorem holds_notEqual_iff (ha : form.accepts a = true) (hb : form.accepts b = true)
    (hda : ∀ x, a ≠ .decimal x) (hdb : ∀ x, b ≠ .decimal x) (hna : a ≠ .null) (hnb : b ≠ .null) :
    notEqual.holds a b = true ↔ a ≠ b := by
  have hnan := FieldValue.isNaN_of_ne_decimal hda
  have hnan' := FieldValue.isNaN_of_ne_decimal hdb
  obtain ⟨order, horder⟩ := FieldValue.exists_order? ha hb hnan hnan' hna hnb
  rw [← FieldValue.compare?_eq_order? ha hb hnan hnan'] at horder
  have hequal := FieldValue.compare?_eq_eq_iff hda hdb
  rw [holds_notEqual, horder, Option.isSome_some, Bool.true_and, bne_iff_ne, ← horder, Ne, hequal]
  simp [hna]

end Operator

/-! ## One filter -/

/-- A comparison holds of values that have one for the field which is not null and stands in the
operator's relation to the expected one. -/
theorem Predicate.eval_compare_iff {lookup : String → Option FieldValue} {field : String}
    {op : Operator} {expected : FieldValue} :
    (compare field op expected).eval lookup = true ↔
      ∃ v, lookup field = some v ∧ v ≠ .null ∧ op.holds v expected = true := by
  rw [eval]
  cases lookup field with
  | none => simp
  | some v => cases v <;> simp [FieldValue.isNull]

/-- The filter compiles to a query that holds of exactly the entities of a kind. -/
def Filter.Finds {s : Schema} (f : Filter) (kind : Entity s → Prop) : Prop :=
  ∃ q, CompiledQuery.compile s.descriptor (some [f]) = .ok q ∧
    ∀ e : Entity s, q.predicate.eval e.value? = true ↔ kind e

/-- A filter without a fault has a name of a possible length. -/
theorem Filter.hasFieldLength_of_fault? {d : Descriptor} {f : Filter} (h : f.fault? d = none) :
    f.hasFieldLength = true := by
  rw [f.hasFieldLength_iff]
  intro hlength
  rw [fault?, if_pos hlength] at h
  cases h

theorem CompiledQuery.compile_of_fault? {d : Descriptor} {f : Filter} {fault : FilterError}
    (h : f.fault? d = some fault) : compile d (some [f]) = .error (.fields [fault]) := by
  have hfaults : ((some [f]).getD []).filterMap (Filter.fault? d) = [fault] := by simp [h]
  obtain ⟨-, hrefused⟩ | ⟨hnone, -⟩ := compile_cases d (some [f])
  · rw [hrefused, hfaults]
  · rw [hfaults] at hnone
    cases hnone

/-- What it takes to find entities of a kind: the name of the field has a possible length, and the
condition that the filter stands for is one that the kind has. -/
theorem Filter.finds_iff {s : Schema} {f : Filter} {kind : Entity s → Prop} :
    f.Finds kind ↔ f.hasFieldLength = true ∧ ∃ c, Condition.ReadFrom s.descriptor f c ∧
      ∀ e : Entity s, kind e ↔
        ∃ v, e.value? f.field = some v ∧ v ≠ .null ∧ f.operator.holds v c.value = true := by
  have heval {c : Condition} (hread : Condition.ReadFrom s.descriptor f c) (e : Entity s) :
      (CompiledQuery.ofConditions [c]).predicate.eval e.value? = true ↔
        ∃ v, e.value? f.field = some v ∧ v ≠ .null ∧ f.operator.holds v c.value = true := by
    rw [← hread.field, ← hread.operator]
    exact Predicate.eval_compare_iff
  constructor
  · rintro ⟨q, hcompile, hq⟩
    obtain ⟨-, hrefused⟩ | ⟨hfaults, conditions, -, hread, hcompiled⟩ :=
      CompiledQuery.compile_cases s.descriptor (some [f])
    · rw [hrefused] at hcompile
      cases hcompile
    · rw [hcompiled] at hcompile
      cases hcompile
      obtain ⟨c, _, hone, hnil, rfl⟩ := List.forall₂_cons_left_iff.1 hread
      cases hnil
      have hfault : f.fault? s.descriptor = none := by simpa using hfaults
      exact ⟨hasFieldLength_of_fault? hfault, c, hone, fun e => (hq e).symm.trans (heval hone e)⟩
  · rintro ⟨hlength, c, hread, hkind⟩
    refine ⟨_, CompiledQuery.compile_of_forall₂ (by simpa using hlength) (.cons hread .nil), ?_⟩
    exact fun e => (heval hread e).trans (hkind e).symm

/-! ## Own values -/

namespace Entity

variable {s : Schema} {e : Entity s} {name : String} {type : FieldType} {v : FieldValue}

/-- What is shown of a value stands for the value, so the entities found are those that have a value
in the operator's relation to it. -/
theorem finds_display {op : Operator} {kind : Entity s → Prop}
    (htype : s.descriptor.type? name = some type) (hhas : type.Has v)
    (hdecimal : ∀ x, v ≠ .decimal x) (hshown : v.IsShownInFull) (hop : op.supports type = true)
    (hlength : 1 ≤ name.length ∧ name.length ≤ 255)
    (hkind : ∀ e : Entity s, kind e ↔
      ∃ v', e.value? name = some v' ∧ v' ≠ .null ∧ op.holds v' v = true) :
    Filter.Finds ⟨name, v.display, op⟩ kind := by
  have hread : Condition.ReadFrom s.descriptor ⟨name, v.display, op⟩ ⟨name, type, op, v⟩ :=
    ⟨rfl, rfl, htype, FieldValue.ofRaw?_display hhas hdecimal hshown, hop⟩
  exact Filter.finds_iff.2 ⟨by simpa [Filter.hasFieldLength] using hlength, _, hread, hkind⟩

theorem has_of_finds (htype : s.descriptor.type? name = some type) (hv : e.value? name = some v)
    (hdecimal : ∀ x, v ≠ .decimal x) (hother : type ≠ .decimal)
    (h : Filter.Finds ⟨name, v.display, .equal⟩ fun e' : Entity s => e'.value? name = some v) :
    type.Has v := by
  obtain ⟨-, c, hread, hkind⟩ := Filter.finds_iff.1 h
  have hsame : c.type = type := Option.some.inj (hread.declared.symm.trans htype)
  have hhas : type.Has c.value := hsame ▸ FieldValue.has_of_ofRaw? hread.value
  have hc := hhas.ne_decimal hother
  obtain ⟨v', hv', -, hholds⟩ := (hkind e).1 hv
  obtain rfl : v = v' := Option.some.inj (hv.symm.trans hv')
  obtain ⟨heq, -⟩ := (Operator.holds_equal_iff hdecimal hc).1 hholds
  rw [heq]
  exact hhas

/-- The values of a field have one form in all entities, so they can be compared with each other. -/
theorem holds_iff {e' : Entity s} {v' : FieldValue} (hv : e.value? name = some v)
    (hv' : e'.value? name = some v') (hnull : v ≠ .null) (hnull' : v' ≠ .null)
    (hdecimal : ∀ x, v ≠ .decimal x) :
    (Operator.equal.holds v' v = true ↔ v' = v) ∧ (Operator.notEqual.holds v' v = true ↔ v' ≠ v) := by
  obtain ⟨form, hform⟩ := Entity.exists_form s name
  have hvform := hform e v hv
  have hvform' := hform e' v' hv'
  have hdecimal' := FieldValue.ne_decimal_of_accepts hvform' hvform hnull hdecimal
  refine ⟨?_, Operator.holds_notEqual_iff hvform' hvform hdecimal' hdecimal hnull' hnull⟩
  rw [Operator.holds_equal_iff hdecimal' hdecimal, and_iff_left hnull']

/-- The entities found by what is shown of a value are those with this value in the field, and those
found by its inequality have another one, if the field has a name of a possible length and a type
that has the value. For values that are not doubles it takes both. -/
theorem finds_own_value (htype : s.descriptor.type? name = some type)
    (hv : e.value? name = some v) (hnull : v ≠ .null) (hother : type ≠ .decimal)
    (hshown : v.IsShownInFull) :
    ((1 ≤ name.length ∧ name.length ≤ 255) ∧ type.Has v →
      Filter.Finds ⟨name, v.display, .equal⟩ (fun e' : Entity s => e'.value? name = some v) ∧
      Filter.Finds ⟨name, v.display, .notEqual⟩
        (fun e' : Entity s => ∃ v', e'.value? name = some v' ∧ v' ≠ .null ∧ v' ≠ v)) ∧
    ((∀ x, v ≠ .decimal x) →
      Filter.Finds ⟨name, v.display, .equal⟩ (fun e' : Entity s => e'.value? name = some v) →
        (1 ≤ name.length ∧ name.length ≤ 255) ∧ type.Has v) := by
  constructor
  · rintro ⟨hlength, hhas⟩
    have hdecimal := hhas.ne_decimal hother
    refine ⟨finds_display htype hhas hdecimal hshown rfl hlength fun e' => ?_,
      finds_display htype hhas hdecimal hshown rfl hlength fun e' => ?_⟩
    · constructor
      · intro hv'
        exact ⟨v, hv', hnull, (holds_iff hv hv' hnull hnull hdecimal).1.2 rfl⟩
      · rintro ⟨v', hv', hnull', hholds⟩
        obtain rfl := (holds_iff hv hv' hnull hnull' hdecimal).1.1 hholds
        exact hv'
    · constructor
      · rintro ⟨v', hv', hnull', hne⟩
        exact ⟨v', hv', hnull', (holds_iff hv hv' hnull hnull' hdecimal).2.2 hne⟩
      · rintro ⟨v', hv', hnull', hholds⟩
        exact ⟨v', hv', hnull', (holds_iff hv hv' hnull hnull' hdecimal).2.1 hholds⟩
  · intro hdecimal hequal
    have hlength := (Filter.finds_iff.1 hequal).1
    exact ⟨by simpa [Filter.hasFieldLength] using hlength,
      has_of_finds htype hv hdecimal hother hequal⟩

/-- A role is found by the time at which it was created. -/
theorem finds_own_value_role :
    Filter.Finds ⟨"created_at", "2010-11-23T10:15:30Z", .equal⟩
        (fun e : Entity Directory.role => e.value? "created_at" = some (.dateTime morning)) ∧
      Filter.Finds ⟨"created_at", "2010-11-23T10:15:30Z", .notEqual⟩
        (fun e : Entity Directory.role =>
          ∃ v, e.value? "created_at" = some v ∧ v ≠ .null ∧ v ≠ .dateTime morning) := by
  have hshown : (FieldValue.dateTime morning).display = "2010-11-23T10:15:30Z" := by
    decide +kernel
  have htype : Directory.role.descriptor.type? "created_at" = some .dateTime := by decide +kernel
  have hvalue : (Directory.newRole (.ofNat 1) morning "admin" none).value? "created_at" =
      some (.dateTime morning) := rfl
  have hfound := finds_own_value htype hvalue nofun nofun ⟨⟨by decide, by decide⟩, rfl⟩
  rw [hshown] at hfound
  exact hfound.1 ⟨by decide +kernel, .dateTime morning⟩

/-- The note with the instant that is declared as a text. -/
def takenNote : Entity timedNote :=
  note 1 (.cons (.value morning) .nil)

/-- A name of 256 letters. -/
def longName : String :=
  String.ofList (List.replicate 256 'a')

theorem length_longName : longName.length = 256 :=
  String.length_ofList.trans List.length_replicate

theorem storedName_longName : storedName longName = longName := by
  have hletters : longName.toList = 'a' :: List.replicate 255 'a' :=
    String.toList_ofList.trans List.replicate_succ
  rw [storedName]
  split
  · next heq =>
      have hfirst : 'a' = 'r' := (List.cons.inj (hletters.symm.trans heq)).1
      exact absurd hfirst (by decide)
  · rfl

theorem longName_not_mem : longName ∉ baseFields.map Prod.fst := by
  intro hmem
  have hshort : ∀ name ∈ baseFields.map Prod.fst, name.length < 256 := by decide
  have hlt := hshort longName hmem
  rw [length_longName] at hlt
  exact absurd hlt (Nat.lt_irrefl 256)

/-- Notes with a column that no filter can name. -/
def longNote : Schema where
  singular := "note"
  plural := "notes"
  columns := [⟨longName, .text, 0, .text⟩]
  keys_nodup := by
    have hkey : Column.key ⟨longName, .text, 0, .text⟩ = longName := storedName_longName
    rw [List.map_singleton, hkey]
    refine List.Nodup.append (by decide) (List.nodup_singleton longName) ?_
    exact List.disjoint_singleton.2 longName_not_mem
  keys_unmarked := by
    refine List.forall_mem_singleton.2 ?_
    rw [Column.key, storedName_longName, storedName_longName]

/-- A note with a text in this column. -/
def spelledNote : Entity longNote :=
  note 1 (.cons (.value "x") .nil)

/-- A note is not found by the instant that it has in a field declared as a text, because what is
shown of the instant is read as a text. A column whose name is too long cannot be asked for. -/
theorem own_value_not_found :
    (takenNote.value? "taken" = some (.dateTime morning) ∧
      (FieldValue.dateTime morning).display = "2010-11-23T10:15:30Z" ∧
      ∃ q, CompiledQuery.compile timedNote.descriptor
        (some [⟨"taken", "2010-11-23T10:15:30Z", .equal⟩]) = .ok q ∧
        q.predicate.eval takenNote.value? = false) ∧
    (spelledNote.value? longName = some (.text "x") ∧
      CompiledQuery.compile longNote.descriptor (some [⟨longName, "x", .equal⟩]) =
        .error (.fields [.unknownField "note" longName])) := by
  have hlong : 255 < longName.length := length_longName ▸ by decide
  have hfault : Filter.fault? longNote.descriptor ⟨longName, "x", .equal⟩ =
      some (.unknownField "note" longName) := if_pos (.inr hlong)
  have hspelled : spelledNote.value? longName = some (.text "x") :=
    (spelledNote.value?_column List.mem_cons_self).trans (if_pos rfl)
  exact ⟨⟨rfl, by decide +kernel, _, rfl, by decide +kernel⟩, hspelled,
    CompiledQuery.compile_of_fault? hfault⟩

end Entity

end EntityQuery
