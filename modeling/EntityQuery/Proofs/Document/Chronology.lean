import EntityQuery.Proofs.Document.Ordering
import EntityQuery.Proofs.Time.Reading
/-!
# Stored dates and instants in the order of time

Dates and instants are stored as texts, and the store compares texts by their bytes. That is
the order of time exactly if the years compare as they are written, which years with four digits
do. A year with more digits stands behind a plus sign and so comes before all of these, and years
before year 0 stand behind a hyphen, the earlier ones often after the later ones.

Filters read dates with four digits for the year alone. An offset can move an instant that a
filter asks for into year 10000, which the store then takes for the first of all years.
-/

namespace EntityQuery

open Text

/-! ## Years -/

/-- The years compare as they are written. -/
def InTextOrder (year year' : Int) : Prop :=
  cmp (writeYear year) (writeYear year') = cmp year year'

theorem writeYear_injective : Function.Injective writeYear := by
  intro year year' h
  have hread := Date.scanLooseYear_append year []
  rw [h, Date.scanLooseYear_append] at hread
  cases hread
  rfl

/-- The first character of a written year tells years with four digits, those before year 0 and
those after year 9999 apart. -/
theorem writeYear_cases (year : Int) :
    (IsFourDigitYear year ∧ ∃ c rest, writeYear year = c :: rest ∧ isDigit c = true) ∨
      (year < 0 ∧ ∃ rest, writeYear year = '-' :: rest) ∨
      9999 < year ∧ ∃ rest, writeYear year = '+' :: rest := by
  by_cases h : IsFourDigitYear year
  · have hall : ∀ c ∈ writeYear year, isDigit c = true := by
      rw [writeYear_eq h]
      exact fun _ hc => isDigit_of_mem_fixedDigits hc
    obtain ⟨c, rest, heq, -⟩ := exists_writeYear year
    exact .inl ⟨h, c, rest, heq, hall c (heq ▸ List.mem_cons_self)⟩
  · by_cases hneg : year < 0
    · refine .inr (.inl ⟨hneg, paddedDigits 4 year.natAbs, ?_⟩)
      rw [writeYear_signed h, if_pos hneg]
    · have hlate : 9999 < year := by
        simp only [IsFourDigitYear] at h
        omega
      refine .inr (.inr ⟨hlate, paddedDigits 4 year.natAbs, ?_⟩)
      rw [writeYear_signed h, if_neg hneg]

theorem lt_of_isDigit {c sign : Char} (hsign : sign.toNat < 48) (h : isDigit c = true) :
    sign < c := by
  have hdigit := ((isDigit_iff c).1 h).1
  have hlt : sign.toNat < c.toNat := by omega
  exact hlt

theorem cmp_writeYear_of_late {year year' : Int} (h : 9999 < year) (h' : year' ≤ 9999) :
    cmp (writeYear year) (writeYear year') = .lt := by
  obtain ⟨hfour, -⟩ | ⟨hneg, -⟩ | ⟨-, rest, heq⟩ := writeYear_cases year
  · exact absurd hfour.2 (by omega)
  · omega
  · rw [heq]
    obtain ⟨-, c, rest', heq', hc⟩ | ⟨-, rest', heq'⟩ | ⟨hlate, -⟩ := writeYear_cases year'
    · rw [heq']
      exact cmp_cons_of_lt (lt_of_isDigit (by decide) hc) _ _
    · rw [heq']
      exact cmp_cons_of_lt (by decide) _ _
    · omega

theorem cmp_writeYear_of_early {year year' : Int} (h : year < 0) (h' : IsFourDigitYear year') :
    cmp (writeYear year) (writeYear year') = .lt := by
  obtain ⟨hfour, -⟩ | ⟨-, rest, heq⟩ | ⟨hlate, -⟩ := writeYear_cases year
  · exact absurd hfour.1 (by omega)
  · obtain ⟨-, c, rest', heq', hc⟩ | ⟨hneg, -⟩ | ⟨hlate, -⟩ := writeYear_cases year'
    · rw [heq, heq']
      exact cmp_cons_of_lt (lt_of_isDigit (by decide) hc) _ _
    · exact absurd h'.1 (by omega)
    · exact absurd h'.2 (by omega)
  · omega

theorem InTextOrder.symm {year year' : Int} (h : InTextOrder year year') :
    InTextOrder year' year := by
  have hswap : (cmp (writeYear year) (writeYear year')).swap =
      cmp (writeYear year') (writeYear year) := cmp_swap _ _
  rw [InTextOrder, ← hswap, h, cmp_swap]

theorem not_inTextOrder_of_late {year year' : Int} (h : 9999 < year) (h' : year' ≤ 9999) :
    ¬ InTextOrder year year' := by
  intro horder
  have hlt : year' < year := by omega
  rw [InTextOrder, cmp_writeYear_of_late h h', hlt.cmp_eq_gt] at horder
  cases horder

theorem inTextOrder_of_early {year year' : Int} (h : year < 0) (h' : IsFourDigitYear year') :
    InTextOrder year year' := by
  have hlt : year < year' := h.trans_le h'.1
  rw [InTextOrder, cmp_writeYear_of_early h h', hlt.cmp_eq_lt]

/-- In the years that filters ask for, only year 10000 is written out of place. -/
theorem inTextOrder_iff {year year' : Int} (h : -1 ≤ year ∧ year ≤ 10000)
    (h' : -1 ≤ year' ∧ year' ≤ 10000) :
    InTextOrder year year' ↔ (year = 10000 ↔ year' = 10000) := by
  constructor
  · intro horder
    constructor
    · intro hlate
      by_contra hother
      exact not_inTextOrder_of_late (by omega) (by omega) horder
    · intro hlate
      by_contra hother
      exact not_inTextOrder_of_late (by omega) (by omega) horder.symm
  · intro hsame
    by_cases heq : year = year'
    · rw [InTextOrder, heq, cmp_eq_eq.2 rfl, cmp_self_eq_eq]
    · obtain hneg | hfour : year < 0 ∨ IsFourDigitYear year := by
        simp only [IsFourDigitYear]
        omega
      · exact inTextOrder_of_early hneg (by simp only [IsFourDigitYear]; omega)
      · obtain hneg' | hfour' : year' < 0 ∨ IsFourDigitYear year' := by
          simp only [IsFourDigitYear]
          omega
        · exact (inTextOrder_of_early hneg' hfour).symm
        · exact cmp_writeYear hfour hfour'

/-! ## Stored values -/

namespace DocumentStore

/-- Two orders of one first part that tell apart the same years and go on in one way are the same
exactly if the first parts are. -/
theorem then_eq_then_iff {o o' : Ordering} (h : o = .eq ↔ o' = .eq) (rest : Ordering) :
    o.then rest = o'.then rest ↔ o = o' := by
  cases o <;> cases o' <;> simp_all

theorem cmp_writeYear_eq_eq (year year' : Int) :
    cmp (writeYear year) (writeYear year') = .eq ↔ cmp year year' = .eq := by
  rw [cmp_eq_eq, cmp_eq_eq_iff, writeYear_injective.eq_iff]

/-- The order of two stored values is the order of the values. -/
def InStoredOrder (a b : FieldValue) : Prop :=
  (storedValue a).order? (storedValue b) = a.compare? b

/-- Stored dates are in the order of time exactly if their years compare as they are written. -/
theorem inStoredOrder_date_iff (a b : Date) :
    InStoredOrder (.date a) (.date b) ↔ InTextOrder a.year b.year := by
  have horder := Date.cmp_write_append a b [] []
  rw [List.append_nil, List.append_nil] at horder
  have hstored : (storedValue (.date a)).order? (storedValue (.date b)) =
      some (cmp a.write b.write) := congrArg some (Text.cmp_encodeUtf8_ofList a.write b.write)
  have hnil : cmp ([] : List Char) [] = .eq := rfl
  rw [InStoredOrder, hstored, FieldValue.compare?, horder, hnil, Ordering.then_eq, Date.compare_eq,
    Option.some.injEq]
  exact then_eq_then_iff (cmp_writeYear_eq_eq a.year b.year) _

theorem inStoredOrder_dateTime_iff (a b : Instant) :
    InStoredOrder (.dateTime a) (.dateTime b) ↔ InTextOrder a.date.year b.date.year := by
  have hstored : (storedValue (.dateTime a)).order? (storedValue (.dateTime b)) =
      some (cmp (a.write .nanoseconds) (b.write .nanoseconds)) :=
    congrArg some (Text.cmp_encodeUtf8_ofList _ _)
  rw [InStoredOrder, hstored, FieldValue.compare?, Instant.cmp_write_nanoseconds,
    Instant.compare_eq, Date.compare_eq, Option.some.injEq, Ordering.then_assoc,
    Ordering.then_assoc]
  exact then_eq_then_iff (cmp_writeYear_eq_eq a.date.year b.date.year) _

/-! ## Values that the store meets -/

/-- A filter asks for the value, or an entity that has a document holds it in a field that is
declared for such values and stored under its own name. -/
inductive IsMet : FieldValue → Prop
  | asked {type : FieldType} {raw : String} {v : FieldValue}
      (h : FieldValue.ofRaw? type raw = some v) : IsMet v
  | held {s : Schema} {e : Entity s} {doc : Document} {name : String} {type : FieldType}
      {v : FieldValue} (hdoc : documentOf e = .ok doc) (hstored : storedName name = name)
      (htype : s.descriptor.type? name = some type) (hv : e.value? name = some v)
      (haccepts : type.accepts v = true) : IsMet v

theorem IsMet.year_of_dateTime {t : Instant} (h : IsMet (.dateTime t)) :
    -1 ≤ t.date.year ∧ t.date.year ≤ 10000 := by
  generalize hvalue : FieldValue.dateTime t = v at h
  cases h with
  | @asked type raw v h =>
      subst hvalue
      cases type with
      | dateTime =>
          simp only [FieldValue.ofRaw?, Option.map_eq_some_iff, FieldValue.dateTime.injEq] at h
          obtain ⟨_, hread, rfl⟩ := h
          exact Instant.year_of_readFilter? hread
      | enum constants => simp [FieldValue.ofRaw?] at h
      | _ => simp [FieldValue.ofRaw?] at h
  | @held s e doc name type v hdoc hstored htype hv haccepts =>
      subst hvalue
      obtain ⟨-, -, hfields⟩ := members_of_documentOf hdoc
      have hdeclared : type = .dateTime := by
        cases type <;> cases haccepts
        rfl
      have hyear := (hfields name type _ htype hv).1 hstored hdeclared t rfl
      simp only [IsFourDigitYear] at hyear
      omega

/-- Of the values that the store meets, dates are stored in the order of time exactly if their
years compare as they are written, and instants exactly if both or none of them are in year
10000. Instants of any other years, which only a field can hold that is stored under another
name, are like dates. -/
theorem inStoredOrder_iff {a b : FieldValue} (ha : IsMet a) (hb : IsMet b) :
    (∀ d d' : Date, a = .date d → b = .date d' →
      (InStoredOrder a b ↔ InTextOrder d.year d'.year)) ∧
    (∀ t t' : Instant, a = .dateTime t → b = .dateTime t' →
      (InStoredOrder a b ↔ (t.date.year = 10000 ↔ t'.date.year = 10000))) ∧
    ∀ t t' : Instant, InStoredOrder (.dateTime t) (.dateTime t') ↔
      InTextOrder t.date.year t'.date.year := by
  refine ⟨?_, ?_, inStoredOrder_dateTime_iff⟩
  · rintro d d' rfl rfl
    exact inStoredOrder_date_iff d d'
  · rintro t t' rfl rfl
    rw [inStoredOrder_dateTime_iff]
    exact inTextOrder_iff ha.year_of_dateTime hb.year_of_dateTime

/-- Half past midnight on the first day of year 10000, which a filter asks for by the last day of
year 9999 with an offset. -/
def newAge : Instant :=
  (Instant.ofCivil? ⟨10000, 1, 1, by decide⟩ 0 30 0 0).get rfl

theorem isMet_morning : IsMet (.dateTime morning) := by
  have hread : FieldValue.ofRaw? .dateTime "2010-11-23T10:15:30Z" = some (.dateTime morning) := by
    decide +kernel
  exact .asked hread

theorem isMet_newAge : IsMet (.dateTime newAge) := by
  have hread : FieldValue.ofRaw? .dateTime "9999-12-31T23:30:00-01:00" =
      some (.dateTime newAge) := by
    decide +kernel
  exact .asked hread

theorem inStoredOrder_morning :
    InStoredOrder (.dateTime morning) (.dateTime morning) ∧
      ¬ InStoredOrder (.dateTime morning) (.dateTime newAge) := by
  obtain ⟨-, hsame, -⟩ := inStoredOrder_iff isMet_morning isMet_morning
  obtain ⟨-, hlate, -⟩ := inStoredOrder_iff isMet_morning isMet_newAge
  refine ⟨(hsame morning morning rfl rfl).2 Iff.rfl, ?_⟩
  intro horder
  exact absurd ((hlate morning newAge rfl rfl).1 horder) (by decide)

theorem isMet_date_newAge : IsMet (.date newAge.date) := by
  have hdoc : documentOf (note 1 (.cons (.value newAge.date) .nil) : Entity dayNote) = .ok
      [("created_at", .string "2010-11-23T10:15:30.000000000Z"),
        ("updated_at", .string "2010-11-23T10:15:30.000000000Z"),
        ("day", .string "+10000-01-01"),
        ("_id", .string "00000000-0000-0000-0000-000000000001")] := rfl
  have htype : dayNote.descriptor.type? "day" = some .date := rfl
  exact .held hdoc rfl htype rfl rfl

theorem isMet_date_morning : IsMet (.date morning.date) := by
  have hread : FieldValue.ofRaw? .date "2010-11-23" = some (.date morning.date) := by
    decide +kernel
  exact .asked hread

/-- An instant and a day of year 10000 are stored before earlier ones. -/
theorem stored_out_of_order :
    (IsMet (.dateTime morning) ∧ IsMet (.dateTime newAge) ∧
      (FieldValue.dateTime morning).compare? (.dateTime newAge) = some .lt ∧
      (storedValue (.dateTime morning)).order? (storedValue (.dateTime newAge)) = some .gt) ∧
    IsMet (.date morning.date) ∧ IsMet (.date newAge.date) ∧
      (FieldValue.date morning.date).compare? (.date newAge.date) = some .lt ∧
      (storedValue (.date morning.date)).order? (storedValue (.date newAge.date)) = some .gt := by
  refine ⟨⟨isMet_morning, isMet_newAge, ?_, ?_⟩, isMet_date_morning, isMet_date_newAge, ?_, ?_⟩
  · decide +kernel
  · decide +kernel
  · decide +kernel
  · decide +kernel

end DocumentStore

end EntityQuery
