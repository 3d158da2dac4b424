import EntityQuery.Proofs.Memory.Strictness
import EntityQuery.Proofs.Number.Monotone
/-!
# Integers among doubles

An integer is compared with a double by the double nearest to it. Rounding keeps the order, so an
integer that is less than a double is at most rounded onto it, and comparing is exact unless that
happens. Integers are compared with each other as they are, though. So of two integers that are
rounded onto one double, neither is told from the double, but they are told from each other.

Comparing the other way round gives the reverse, and coming before is transitive, among any
numbers. Not coming behind is transitive but for such pairs of integers with their double between
them.
-/

namespace EntityQuery

/-! ## Rounding of numbers and infinities -/

namespace Binary64

variable {x y : Binary64}

theorem value_le_value (hx : x.isNaN = false) (hy : y.isNaN = false) (h : x.rank ≤ y.rank) :
    x.value ≤ y.value := by
  obtain hlt | heq := h.lt_or_eq
  · exact (value_lt_value hx hy hlt).le
  · exact (value_eq_value heq).le

theorem isNaN_ofRat (q : ℚ) : (ofRat q).isNaN = false := by
  rw [ofRat, ofRatio]
  split <;> exact isNaN_ofMagnitude _ _

/-- The number of the nearest double. The infinities stay what they are. -/
def nearestValue : WithBot (WithTop ℚ) → WithBot (WithTop ℚ) :=
  WithBot.recBotCoe ⊥ (WithTop.recTopCoe ⊤ fun q => (ofRat q).value)

@[simp] theorem nearestValue_number (q : ℚ) :
    nearestValue ((q : WithTop ℚ) : WithBot (WithTop ℚ)) = (ofRat q).value := rfl

theorem nearestValue_mono : Monotone nearestValue := by
  intro a b h
  induction a using WithBot.recBotCoe with
  | bot => exact bot_le
  | coe a =>
      induction b using WithBot.recBotCoe with
      | bot => exact absurd h (WithBot.not_coe_le_bot a)
      | coe b =>
          rw [WithBot.coe_le_coe] at h
          induction b using WithTop.recTopCoe with
          | top => exact le_top
          | coe r =>
              induction a using WithTop.recTopCoe with
              | top => exact absurd h (WithTop.not_top_le_coe r)
              | coe q =>
                  have hrank := rank_ofRat_mono (WithTop.coe_le_coe.1 h)
                  exact value_le_value (isNaN_ofRat q) (isNaN_ofRat r) hrank

/-- A double is the nearest one to what it denotes. -/
theorem nearestValue_value (x : Binary64) : nearestValue x.value = x.value := by
  cases hfinite : x.isFinite with
  | true =>
      rw [value_of_isFinite hfinite, nearestValue_number, ← value_of_isFinite hfinite]
      exact value_eq_value (rank_ofRat_toRat hfinite)
  | false =>
      cases hnegative : x.negative <;> simp only [value, hfinite, hnegative] <;> rfl

end Binary64

namespace FieldValue

/-! ## Numbers -/

/-- The value is an integer, or a double that is not a not-a-number. -/
def IsNumber : FieldValue → Prop
  | integer _ => True
  | decimal x => x.isNaN = false
  | _ => False

def quantity : FieldValue → WithBot (WithTop ℚ)
  | integer n => ((n.toInt : ℚ) : WithTop ℚ)
  | decimal x => x.value
  | _ => ⊥

/-- The number of the nearest double. -/
def rounded (v : FieldValue) : WithBot (WithTop ℚ) :=
  Binary64.nearestValue v.quantity

/-- The double is the nearest one to an integer that it does not denote. -/
def IsRoundedOnto (n : Int64) (x : Binary64) : Prop :=
  (toBinary64 n).value = x.value ∧ (integer n).quantity ≠ x.value

variable {a b c : FieldValue} {m n : Int64} {x : Binary64}

theorem rounded_le_rounded (h : a.quantity ≤ b.quantity) : a.rounded ≤ b.rounded :=
  Binary64.nearestValue_mono h

@[simp] theorem rounded_integer (n : Int64) : (integer n).rounded = (toBinary64 n).value :=
  congrArg Binary64.value (Binary64.ofInt_eq_ofRat n.toInt).symm

@[simp] theorem rounded_decimal (x : Binary64) : (decimal x).rounded = x.value :=
  x.nearestValue_value

/-! ## Comparing numbers -/

theorem compare?_integers (m n : Int64) :
    (integer m).compare? (integer n) = some (cmp (integer m).quantity (integer n).quantity) := by
  rw [compare?, compare_eq_cmp_toInt]
  exact congrArg some (Binary64.cmp_number m.toInt n.toInt).symm

/-- Two numbers are compared by their doubles if one of them is a double. -/
theorem compare?_eq_cmp_rounded (ha : a.IsNumber) (hb : b.IsNumber)
    (h : a.integer? = none ∨ b.integer? = none) :
    a.compare? b = some (cmp a.rounded b.rounded) := by
  cases a with
  | integer m =>
      cases b with
      | integer n => simp [integer?] at h
      | decimal y =>
          rw [rounded_integer, rounded_decimal]
          exact Binary64.compare?_eq (Binary64.isNaN_ofInt m.toInt) hb
      | _ => cases hb
  | decimal x =>
      cases b with
      | integer n =>
          rw [rounded_integer, rounded_decimal]
          exact Binary64.compare?_eq ha (Binary64.isNaN_ofInt n.toInt)
      | decimal y =>
          rw [rounded_decimal, rounded_decimal]
          exact Binary64.compare?_eq ha hb
      | _ => cases hb
  | _ => cases ha

/-- Numbers are compared exactly or by their doubles. -/
theorem compare?_cases (ha : a.IsNumber) (hb : b.IsNumber) :
    ((∃ m n, a = integer m ∧ b = integer n) ∧
      a.compare? b = some (cmp a.quantity b.quantity)) ∨
    (a.integer? = none ∨ b.integer? = none) ∧ a.compare? b = some (cmp a.rounded b.rounded) := by
  by_cases h : a.integer? = none ∨ b.integer? = none
  · exact .inr ⟨h, compare?_eq_cmp_rounded ha hb h⟩
  · cases a <;> cases b <;> simp [integer?] at h
    exact .inl ⟨⟨_, _, rfl, rfl⟩, compare?_integers _ _⟩

theorem exists_compare? (ha : a.IsNumber) (hb : b.IsNumber) :
    ∃ order, a.compare? b = some order := by
  obtain ⟨-, h⟩ | ⟨-, h⟩ := compare?_cases ha hb
  · exact ⟨_, h⟩
  · exact ⟨_, h⟩

/-- A number that comes before another one is less. -/
theorem quantity_lt_quantity (ha : a.IsNumber) (hb : b.IsNumber) (h : a.compare? b = some .lt) :
    a.quantity < b.quantity := by
  obtain ⟨-, hcompare⟩ | ⟨-, hcompare⟩ := compare?_cases ha hb
  · rw [hcompare, Option.some.injEq, cmp_eq_lt_iff] at h
    exact h
  · rw [hcompare, Option.some.injEq, cmp_eq_lt_iff] at h
    exact not_le.1 (mt rounded_le_rounded (not_le.2 h))

/-- A number that does not come behind another one has no greater double. -/
theorem rounded_le_of_compare? (ha : a.IsNumber) (hb : b.IsNumber)
    (h : a.compare? b ≠ some .gt) : a.rounded ≤ b.rounded := by
  obtain ⟨-, hcompare⟩ | ⟨-, hcompare⟩ := compare?_cases ha hb
  · rw [hcompare, ne_eq, Option.some.injEq, cmp_eq_gt_iff, not_lt] at h
    exact rounded_le_rounded h
  · rw [hcompare, ne_eq, Option.some.injEq, cmp_eq_gt_iff, not_lt] at h
    exact h

/-- Numbers that have their doubles in this order come in this order. -/
theorem compare?_of_rounded_lt (ha : a.IsNumber) (hb : b.IsNumber) (h : a.rounded < b.rounded) :
    a.compare? b = some .lt := by
  obtain ⟨-, hcompare⟩ | ⟨-, hcompare⟩ := compare?_cases ha hb
  · have hlt : a.quantity < b.quantity := not_le.1 (mt rounded_le_rounded (not_le.2 h))
    rw [hcompare, hlt.cmp_eq_lt]
  · rw [hcompare, h.cmp_eq_lt]

/-! ## Transitivity -/

/-- Coming before is transitive. Between integers it is the order of what they denote. If the first
number or the last one is a double, its own comparison is one of doubles. -/
theorem compare?_trans (ha : a.IsNumber) (hb : b.IsNumber) (hc : c.IsNumber)
    (hab : a.compare? b = some .lt) (hbc : b.compare? c = some .lt) :
    a.compare? c = some .lt := by
  obtain ⟨-, hac⟩ | ⟨hdouble, -⟩ := compare?_cases ha hc
  · have hlt := (quantity_lt_quantity ha hb hab).trans (quantity_lt_quantity hb hc hbc)
    rw [hac, hlt.cmp_eq_lt]
  · apply compare?_of_rounded_lt ha hc
    obtain hfirst | hlast := hdouble
    · have hle := rounded_le_of_compare? hb hc (by simp [hbc])
      rw [compare?_eq_cmp_rounded ha hb (.inl hfirst), Option.some.injEq, cmp_eq_lt_iff] at hab
      exact hab.trans_le hle
    · have hle := rounded_le_of_compare? ha hb (by simp [hab])
      rw [compare?_eq_cmp_rounded hb hc (.inr hlast), Option.some.injEq, cmp_eq_lt_iff] at hbc
      exact hle.trans_lt hbc

/-- Not coming behind is transitive, unless a double stands between two integers that are rounded
onto it, the greater one in front. -/
theorem not_behind_trans_iff (ha : a.IsNumber) (hb : b.IsNumber) (hc : c.IsNumber) :
    (a.compare? b ≠ some .gt → b.compare? c ≠ some .gt → a.compare? c ≠ some .gt) ↔
      ¬ ∃ m x n, a = integer m ∧ b = decimal x ∧ c = integer n ∧ n.toInt < m.toInt ∧
        (toBinary64 m).value = x.value ∧ (toBinary64 n).value = x.value := by
  have hless {m n : Int64} : (integer n).quantity < (integer m).quantity ↔ n.toInt < m.toInt :=
    Binary64.strictMono_number.lt_iff_lt.trans Int.cast_lt
  constructor
  · rintro htrans ⟨m, x, n, rfl, rfl, rfl, hlt, hm, hn⟩
    refine htrans ?_ ?_ ?_
    · rw [compare?_eq_cmp_rounded ha hb (.inr rfl), rounded_integer, rounded_decimal, hm,
        cmp_self_eq_eq]
      simp
    · rw [compare?_eq_cmp_rounded hb hc (.inl rfl), rounded_integer, rounded_decimal, hn,
        cmp_self_eq_eq]
      simp
    · rw [compare?_integers, (hless.2 hlt).cmp_eq_gt]
  · intro hnone hab hbc hac
    have hab' := rounded_le_of_compare? ha hb hab
    have hbc' := rounded_le_of_compare? hb hc hbc
    obtain ⟨⟨m, n, rfl, rfl⟩, horder⟩ | ⟨-, horder⟩ := compare?_cases ha hc
    · rw [horder, Option.some.injEq, cmp_eq_gt_iff] at hac
      have hca' := rounded_le_rounded hac.le
      cases b with
      | integer k =>
          rw [compare?_integers, ne_eq, Option.some.injEq, cmp_eq_gt_iff, not_lt] at hab hbc
          exact absurd (hab.trans hbc) (not_le.2 hac)
      | decimal x =>
          rw [rounded_integer, rounded_decimal] at hab' hbc'
          rw [rounded_integer, rounded_integer] at hca'
          exact hnone ⟨m, x, n, rfl, rfl, rfl, hless.1 hac, hab'.antisymm (hbc'.trans hca'),
            (hca'.trans hab').antisymm hbc'⟩
      | _ => cases hb
    · rw [horder, Option.some.injEq, cmp_eq_gt_iff] at hac
      exact absurd (hab'.trans hbc') (not_le.2 hac)

/-! ## Exactness -/

theorem compare?_integer_decimal (n : Int64) (hx : x.isNaN = false) :
    (integer n).compare? (decimal x) = some (cmp (toBinary64 n).value x.value) :=
  Binary64.compare?_eq (Binary64.isNaN_ofInt n.toInt) hx

/-- An integer is compared with a double as what they denote, unless it is rounded onto the double;
then they are equal. -/
theorem compare?_exact_iff (n : Int64) (hx : x.isNaN = false) :
    (integer n).compare? (decimal x) = some (cmp (integer n).quantity x.value) ↔
      ¬ IsRoundedOnto n x := by
  rw [compare?_integer_decimal n hx, Option.some.injEq]
  constructor
  · rintro hcmp ⟨heq, hne⟩
    rw [heq, cmp_self_eq_eq] at hcmp
    exact hne ((cmp_eq_eq_iff _ _).1 hcmp.symm)
  · intro hnot
    have hnear (hne : (integer n).quantity ≠ x.value) : (toBinary64 n).value ≠ x.value :=
      fun heq => hnot ⟨heq, hne⟩
    have hbelow (h : (integer n).quantity ≤ x.value) : (toBinary64 n).value ≤ x.value := by
      simpa using rounded_le_rounded (a := integer n) (b := decimal x) h
    have habove (h : x.value ≤ (integer n).quantity) : x.value ≤ (toBinary64 n).value := by
      simpa using rounded_le_rounded (a := decimal x) (b := integer n) h
    obtain hlt | heq | hgt := lt_trichotomy (integer n).quantity x.value
    · rw [hlt.cmp_eq_lt, ((hbelow hlt.le).lt_of_ne (hnear hlt.ne)).cmp_eq_lt]
    · rw [heq, (hbelow heq.le).antisymm (habove heq.ge)]
    · rw [hgt.cmp_eq_gt, ((habove hgt.le).lt_of_ne (hnear hgt.ne').symm).cmp_eq_gt]

theorem compare?_decimal_integer_exact_iff (n : Int64) (hx : x.isNaN = false) :
    (decimal x).compare? (integer n) = some (cmp x.value (integer n).quantity) ↔
      ¬ IsRoundedOnto n x := by
  rw [← compare?_exact_iff n hx, compare?_swap (integer n) (decimal x), ← cmp_swap,
    Option.map_eq_some_iff]
  simp only [Ordering.swap_inj, exists_eq_right]

theorem not_isRoundedOnto (hn : IsDouble n) : ¬ IsRoundedOnto n x :=
  fun ⟨heq, hne⟩ => hne (hn.symm.trans heq)

/-- An integer and a double that is a number, in either order, are compared as the numbers that
they denote exactly if the integer is not rounded onto the double without being equal to it. Then
they compare as equal. No integer of at most 53 bits is rounded at all. Among all numbers comparing
the other way round gives the reverse, coming before is transitive, and not coming behind is
transitive unless a double stands between two integers that are rounded onto it. -/
theorem mixed_numbers_compare (n : Int64) (hx : x.isNaN = false) (ha : a.IsNumber)
    (hb : b.IsNumber) (hc : c.IsNumber) :
    (((integer n).compare? (decimal x) = some (cmp (integer n).quantity x.value) ↔
        ¬ IsRoundedOnto n x) ∧
      ((decimal x).compare? (integer n) = some (cmp x.value (integer n).quantity) ↔
        ¬ IsRoundedOnto n x) ∧
      (IsRoundedOnto n x → (integer n).compare? (decimal x) = some .eq) ∧
      (n.toInt.natAbs < 2 ^ 53 → ¬ IsRoundedOnto n x)) ∧
    (∃ order, a.compare? b = some order ∧ b.compare? a = some order.swap) ∧
    (a.compare? b = some .lt → b.compare? c = some .lt → a.compare? c = some .lt) ∧
    ((a.compare? b ≠ some .gt → b.compare? c ≠ some .gt → a.compare? c ≠ some .gt) ↔
      ¬ ∃ k y m, a = integer k ∧ b = decimal y ∧ c = integer m ∧ m.toInt < k.toInt ∧
        (toBinary64 k).value = y.value ∧ (toBinary64 m).value = y.value) := by
  refine ⟨⟨compare?_exact_iff n hx, compare?_decimal_integer_exact_iff n hx, ?rounded, ?small⟩,
    ?reversed, compare?_trans ha hb hc, not_behind_trans_iff ha hb hc⟩
  case rounded =>
    rintro ⟨heq, -⟩
    rw [compare?_integer_decimal n hx, heq, cmp_self_eq_eq]
  case small => exact fun hsmall => not_isRoundedOnto (isDouble_of_lt hsmall)
  case reversed =>
    obtain ⟨order, horder⟩ := exists_compare? ha hb
    refine ⟨order, horder, ?_⟩
    rw [compare?_swap a b, horder]
    rfl

/-- Integers of 54 bits, one of them not a double, and the next double behind them. -/
theorem mixed_numbers_compare_long :
    let m : Int64 := 9007199254740992
    let n : Int64 := 9007199254740993
    let x : Binary64 := ⟨false, 1076, 1⟩
    ¬ IsRoundedOnto n x ∧
      (integer n).compare? (decimal x) = some (cmp (integer n).quantity x.value) ∧
      (decimal x).compare? (integer n) = some (cmp x.value (integer n).quantity) ∧
      (integer m).compare? (decimal x) = some .lt := by
  intro m n x
  have hnumber : x.isNaN = false := by decide
  have hnot : ¬ IsRoundedOnto n x := by
    rintro ⟨heq, -⟩
    have hround : (integer n).compare? (decimal x) = some .lt := by decide
    rw [compare?_integer_decimal n hnumber, heq, cmp_self_eq_eq] at hround
    cases hround
  obtain ⟨⟨hexact, hexact', -, -⟩, -, htrans, -⟩ :=
    mixed_numbers_compare (a := integer m) (b := integer n) (c := decimal x) n hnumber trivial
      trivial hnumber
  exact ⟨hnot, hexact.2 hnot, hexact'.2 hnot, htrans (by decide) (by decide)⟩

/-- Two integers with one double nearest to both, which denotes the lesser one. The greater one and
the double compare as equal, and so do the double and the lesser one. -/
theorem integers_beside_one_double :
    let m : Int64 := 9007199254740992
    let n : Int64 := 9007199254740993
    let x : Binary64 := ⟨false, 1076, 0⟩
    x.isFinite = true ∧ x.value = (integer m).quantity ∧
      cmp (integer n).quantity x.value = .gt ∧
      (integer n).compare? (decimal x) = some .eq ∧ (decimal x).compare? (integer n) = some .eq ∧
      (decimal x).compare? (integer m) = some .eq ∧
      (integer n).compare? (integer m) = some .gt := by
  intro m n x
  have hfinite : x.isFinite = true := by decide
  have hnumber : x.toRat = m.toInt := by
    have hm : m.toInt = 9007199254740992 := by decide
    rw [hm]
    norm_num [x, Binary64.toRat, Binary64.absolute, Binary64.significand, Binary64.scale]
  have hvalue : x.value = (integer m).quantity := by
    rw [Binary64.value_of_isFinite hfinite, hnumber, quantity]
  have hless : (integer m).quantity < (integer n).quantity :=
    Binary64.strictMono_number (Int.cast_lt.2 (by decide))
  refine ⟨hfinite, hvalue, ?_, by decide, by decide, by decide, by decide⟩
  rw [hvalue, hless.cmp_eq_gt]

end FieldValue

end EntityQuery
