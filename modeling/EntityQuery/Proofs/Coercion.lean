import Mathlib
import EntityQuery.Proofs.Number.Integer
import EntityQuery.Proofs.Time.Acceptance
/-!
# Which texts filters read as values

For the types with a closed grammar, the texts that are taken and what is read of them: a sign and
digits within 64 bits, the two words in either case, the constants as they are spelled, and the days
of the calendar with four, two and two digits. Nothing is trimmed and nothing else is taken.
-/

namespace EntityQuery

open Text

namespace Text

/-- The word, each letter of which may be a capital. -/
def SpellsWord (word cs : List Char) : Prop :=
  List.Forall₂ (fun c letter => c = letter ∨ c = letter.toUpper) cs word

theorem toLower_eq_iff {c letter : Char} (h : letter.isLower = true) :
    c.toLower = letter ↔ c = letter ∨ c = letter.toUpper := by
  have hsmall : letter.toLower = letter :=
    Char.toLower_eq_of_not_isUpper (Char.not_isUpper_of_isLower h)
  constructor
  · intro hc
    by_cases hupper : c.isUpper = true
    · have hcapital : c.toUpper = c :=
        Char.toUpper_eq_of_not_isLower (Char.not_isLower_of_isUpper hupper)
      rw [← hc, Char.toUpper_toLower_eq_toUpper, hcapital]
      exact .inr rfl
    · rw [Char.toLower_eq_of_not_isUpper hupper] at hc
      exact .inl hc
  · rintro (rfl | rfl)
    · exact hsmall
    · rw [Char.toLower_toUpper_eq_toLower, hsmall]

theorem map_toLower_eq_iff {word cs : List Char} (h : ∀ letter ∈ word, letter.isLower = true) :
    cs.map Char.toLower = word ↔ SpellsWord word cs := by
  rw [SpellsWord]
  induction word generalizing cs with
  | nil => simp
  | cons letter word ih =>
      obtain ⟨hletter, hword⟩ := List.forall_mem_cons.1 h
      cases cs with
      | nil => simp
      | cons c cs =>
          rw [List.map_cons, List.cons.injEq, List.forall₂_cons, toLower_eq_iff hletter, ih hword]

end Text

/-- A year of four digits, a month of two and a day of two, with hyphens between them. -/
def Date.Spells (cs : List Char) (year month day : Nat) : Prop :=
  ∃ y m d, IsNumeral 4 y year ∧ IsNumeral 2 m month ∧ IsNumeral 2 d day ∧
    cs = y ++ '-' :: (m ++ '-' :: d)

theorem Date.readFixed?_eq_some_iff_spells {cs : List Char} {d : Date} :
    readFixed? cs = some d ↔ ∃ year : Nat, d.year = year ∧ Spells cs year d.month d.day := by
  rw [readFixed?_eq_some_iff]
  constructor
  · rintro ⟨hyear, rfl⟩
    have hyears : d.year = d.year.toNat := (Int.toNat_of_nonneg hyear.1).symm
    have hlt : d.year.toNat < 10 ^ 4 := by
      have hbounds := hyear.2
      omega
    refine ⟨d.year.toNat, hyears, _, _, _, isNumeral_iff.2 ⟨hlt, rfl⟩,
      isNumeral_iff.2 ⟨d.month_lt, rfl⟩, isNumeral_iff.2 ⟨d.day_lt, rfl⟩, ?_⟩
    rw [write, writeYear_eq hyear]
    simp
  · rintro ⟨year, hyears, _, _, _, hy, hm, hd, rfl⟩
    obtain ⟨hlt, rfl⟩ := isNumeral_iff.1 hy
    obtain ⟨-, rfl⟩ := isNumeral_iff.1 hm
    obtain ⟨-, rfl⟩ := isNumeral_iff.1 hd
    have hyear : IsFourDigitYear d.year := by
      constructor <;> omega
    refine ⟨hyear, ?_⟩
    rw [write, writeYear_eq hyear, hyears, Int.toNat_natCast]
    simp

namespace FieldValue

/-! ## The value of a text -/

theorem coerce_eq_ok_iff {field raw : String} {type : FieldType} {v : FieldValue} :
    coerce field raw type = .ok v ↔ ofRaw? type raw = some v := by
  unfold coerce
  cases ofRaw? type raw <;> simp

/-- A text that has not the form of the type is reported with its field and the form. -/
theorem coerce_eq_error {field raw : String} {type : FieldType}
    (h : ∀ v, coerce field raw type ≠ .ok v) :
    coerce field raw type = .error (.invalidValue field raw type.expected) := by
  unfold coerce at h ⊢
  cases hread : ofRaw? type raw with
  | none => rfl
  | some v =>
      rw [hread] at h
      exact absurd rfl (h v)

theorem display_eq_iff {v : FieldValue} {raw : String} : v.display = raw ↔ v.write = raw.toList := by
  rw [display, ← String.toList_inj, String.toList_ofList]

theorem ofRaw?_integer_eq_some_iff {raw : String} {v : FieldValue} :
    ofRaw? .integer raw = some v ↔
      ∃ n : Int64, Integer.Spells raw.toList n.toInt ∧ v = .integer n := by
  simp only [← Integer.read_eq_ok_iff, eq_comm (a := v)]
  cases hread : Integer.read raw.toList <;>
    simp [ofRaw?, hread, Except.toOption]

/-- Every number within 64 bits is taken in each of its spellings. -/
theorem exists_ofRaw?_integer_iff {raw : String} :
    (∃ v, ofRaw? .integer raw = some v) ↔
      ∃ k, Integer.Spells raw.toList k ∧ -2 ^ 63 ≤ k ∧ k ≤ 2 ^ 63 - 1 := by
  simp only [ofRaw?_integer_eq_some_iff]
  constructor
  · rintro ⟨_, n, hspells, rfl⟩
    exact ⟨n.toInt, hspells, n.le_toInt, Int.le_sub_one_of_lt n.toInt_lt⟩
  · rintro ⟨k, hspells, hleast, hgreatest⟩
    have hvalue : (Int64.ofInt k).toInt = k := Int64.toInt_ofInt_of_le hleast (by omega)
    rw [← hvalue] at hspells
    exact ⟨_, _, hspells, rfl⟩

def booleanWord (b : Bool) : List Char :=
  (if b then "true" else "false").toList

theorem readBoolean?_eq_some_iff {cs : List Char} {b : Bool} :
    readBoolean? cs = some b ↔ SpellsWord (booleanWord b) cs := by
  have hlower : ∀ letter ∈ booleanWord b, letter.isLower = true := by
    cases b <;> simp [booleanWord, Char.isLower]
  have hother : booleanWord true ≠ booleanWord false := by simp [booleanWord]
  rw [← map_toLower_eq_iff hlower]
  change (if cs.map Char.toLower = booleanWord true then some true
    else if cs.map Char.toLower = booleanWord false then some false else none) = some b ↔ _
  split_ifs with htrue hfalse
  · cases b <;> simp [htrue, hother]
  · cases b <;> simp [hfalse, hother.symm]
  · cases b <;> simp [htrue, hfalse]

theorem ofRaw?_boolean_eq_some_iff {raw : String} {v : FieldValue} :
    ofRaw? .boolean raw = some v ↔ ∃ b, SpellsWord (booleanWord b) raw.toList ∧ v = .boolean b := by
  simp only [ofRaw?, Option.map_eq_some_iff, readBoolean?_eq_some_iff, eq_comm (a := v)]

theorem ofRaw?_enum_eq_some_iff {constants : List String} {raw : String} {v : FieldValue} :
    ofRaw? (.enum constants) raw = some v ↔ raw ∈ constants ∧ v = .enum raw := by
  simp only [ofRaw?, Option.ite_none_right_eq_some, Option.some.injEq, eq_comm (a := v)]

theorem ofRaw?_date_eq_some_iff {raw : String} {v : FieldValue} :
    ofRaw? .date raw = some v ↔ ∃ d, Date.readFixed? raw.toList = some d ∧ v = .date d := by
  simp only [ofRaw?, Option.map_eq_some_iff, eq_comm (a := v)]

/-- Every day of a year with four digits is taken. -/
theorem exists_ofRaw?_date_iff {raw : String} :
    (∃ v, ofRaw? .date raw = some v) ↔
      ∃ year month day, Date.Spells raw.toList year month day ∧
        (1 ≤ month ∧ month ≤ 12) ∧ 1 ≤ day ∧ day ≤ daysInMonth year month := by
  simp only [ofRaw?_date_eq_some_iff, Date.readFixed?_eq_some_iff_spells]
  constructor
  · rintro ⟨_, d, ⟨year, hyear, hspells⟩, rfl⟩
    obtain ⟨-, hmonth, hday⟩ := d.valid
    rw [hyear] at hday
    exact ⟨year, d.month, d.day, hspells, hmonth, hday⟩
  · rintro ⟨year, month, day, hspells, hmonth, hday⟩
    have hlt : year < 10 ^ 4 := by
      obtain ⟨_, _, _, hy, -⟩ := hspells
      exact (isNumeral_iff.1 hy).1
    have hvalid : Date.Valid year month day :=
      ⟨by simp only [Date.firstYear, Date.lastYear]; omega, hmonth, hday⟩
    exact ⟨_, ⟨year, month, day, hvalid⟩, ⟨year, rfl, hspells⟩, rfl⟩

/-- Which texts are taken, what is read of them, and what is answered to all others, for the types
whose texts have one form. A date is shown as the text that it was read from. -/
theorem coerced_texts (field raw : String) (constants : List String) :
    (((∃ v, coerce field raw .integer = .ok v) ↔
        ∃ k, Integer.Spells raw.toList k ∧ -2 ^ 63 ≤ k ∧ k ≤ 2 ^ 63 - 1) ∧
      ∀ v, coerce field raw .integer = .ok v →
        ∃ n : Int64, v = .integer n ∧ Integer.Spells raw.toList n.toInt) ∧
    (∀ v, coerce field raw .boolean = .ok v ↔
      ∃ b, SpellsWord (booleanWord b) raw.toList ∧ v = .boolean b) ∧
    (∀ v, coerce field raw (.enum constants) = .ok v ↔ raw ∈ constants ∧ v = .enum raw) ∧
    (((∃ v, coerce field raw .date = .ok v) ↔
        ∃ year month day, Date.Spells raw.toList year month day ∧
          (1 ≤ month ∧ month ≤ 12) ∧ 1 ≤ day ∧ day ≤ daysInMonth year month) ∧
      ∀ v, coerce field raw .date = .ok v →
        ∃ (d : Date) (year : Nat), v = .date d ∧ d.year = year ∧
          Date.Spells raw.toList year d.month d.day ∧ v.display = raw) ∧
    ∀ type, (∀ v, coerce field raw type ≠ .ok v) →
      coerce field raw type = .error (.invalidValue field raw type.expected) := by
  refine ⟨⟨?_, fun v h => ?_⟩, fun v => ?_, fun v => ?_, ⟨?_, fun v h => ?_⟩,
    fun type h => coerce_eq_error h⟩
  · simp only [coerce_eq_ok_iff]
    exact exists_ofRaw?_integer_iff
  · obtain ⟨n, hspells, rfl⟩ := ofRaw?_integer_eq_some_iff.1 (coerce_eq_ok_iff.1 h)
    exact ⟨n, rfl, hspells⟩
  · rw [coerce_eq_ok_iff]
    exact ofRaw?_boolean_eq_some_iff
  · rw [coerce_eq_ok_iff]
    exact ofRaw?_enum_eq_some_iff
  · simp only [coerce_eq_ok_iff]
    exact exists_ofRaw?_date_iff
  · obtain ⟨d, hread, rfl⟩ := ofRaw?_date_eq_some_iff.1 (coerce_eq_ok_iff.1 h)
    obtain ⟨year, hyear, hspells⟩ := Date.readFixed?_eq_some_iff_spells.1 hread
    have hwrite := (Date.readFixed?_eq_some_iff.1 hread).2
    exact ⟨d, year, rfl, hyear, hspells, display_eq_iff.2 hwrite.symm⟩

/-- Year 0 is a leap year. -/
example : (ofRaw? .date "0000-02-29").isSome = true := by decide +kernel

example : ofRaw? .date "1900-02-29" = none := by decide +kernel

end FieldValue

end EntityQuery
