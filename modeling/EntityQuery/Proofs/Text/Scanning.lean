import EntityQuery.Proofs.Text.FixedDigits
/-!
# What scanners take

A scanner that succeeds has split its text in two, and what it took is the writing of what it
returns. So a step of a reader can be run backwards: from the number, the character or the blanks
that it reports to the text that it was given.
-/

namespace EntityQuery.Text

/-- Digits of a run, one or more of them. -/
structure IsDigits (digits : List Char) : Prop where
  ne_nil : digits ≠ []
  isDigit : ∀ c ∈ digits, isDigit c = true

/-- No digit stands at the front of the text. -/
def NoDigitAhead (cs : List Char) : Prop :=
  ∀ c ∈ cs.head?, isDigit c = false

@[simp] theorem noDigitAhead_nil : NoDigitAhead [] := by
  simp [NoDigitAhead]

@[simp] theorem noDigitAhead_cons (c : Char) (rest : List Char) :
    NoDigitAhead (c :: rest) ↔ isDigit c = false := by
  simp [NoDigitAhead]

/-! ## Digits -/

theorem digitChar_digitValue {c : Char} (h : isDigit c = true) : digitChar (digitValue c) = c := by
  have hbounds := (isDigit_iff c).1 h
  have hzero : '0'.toNat = 48 := rfl
  apply Char.toNat_inj.1
  rw [toNat_digitChar, digitValue, hzero]
  omega

/-- Digits are the digits of the number that they denote. -/
theorem fixedDigits_natOfDigits {digits : List Char} (h : ∀ c ∈ digits, isDigit c = true) :
    fixedDigits digits.length (natOfDigits digits) = digits := by
  induction digits using List.reverseRecOn with
  | nil => rfl
  | append_singleton digits c ih =>
      have hinit := ih fun d hd => h d (List.mem_append_left _ hd)
      have hc : isDigit c = true := h c (by simp)
      have hlt : digitValue c < 10 := by
        have hbounds := (isDigit_iff c).1 hc
        have hzero : '0'.toNat = 48 := rfl
        rw [digitValue, hzero]
        omega
      have hquotient : (10 * natOfDigits digits + digitValue c) / 10 = natOfDigits digits := by
        omega
      have hlast : digitChar (10 * natOfDigits digits + digitValue c) =
          digitChar (digitValue c) := by
        apply Char.toNat_inj.1
        rw [toNat_digitChar, toNat_digitChar]
        omega
      rw [natOfDigits_append_singleton, List.length_append, List.length_singleton, fixedDigits,
        hquotient, hinit, hlast, digitChar_digitValue hc]

theorem fixedDigits_injective {width n n' : Nat} (h : n < 10 ^ width) (h' : n' < 10 ^ width)
    (heq : fixedDigits width n = fixedDigits width n') : n = n' := by
  have hvalue := congrArg natOfDigits heq
  rw [natOfDigits_fixedDigits, natOfDigits_fixedDigits, Nat.mod_eq_of_lt h,
    Nat.mod_eq_of_lt h'] at hvalue
  exact hvalue

/-- The number is written in exactly so many digits. -/
structure IsNumeral (width : Nat) (digits : List Char) (n : Nat) : Prop where
  length_eq : digits.length = width
  isDigit : ∀ c ∈ digits, isDigit c = true
  natOfDigits_eq : natOfDigits digits = n

theorem isNumeral_iff {width n : Nat} {digits : List Char} :
    IsNumeral width digits n ↔ n < 10 ^ width ∧ digits = fixedDigits width n := by
  constructor
  · rintro ⟨rfl, hdigits, rfl⟩
    exact ⟨natOfDigits_lt hdigits, (fixedDigits_natOfDigits hdigits).symm⟩
  · rintro ⟨hlt, rfl⟩
    refine ⟨length_fixedDigits width n, fun _ hc => isDigit_of_mem_fixedDigits hc, ?_⟩
    rw [natOfDigits_fixedDigits, Nat.mod_eq_of_lt hlt]

/-- Digits behind a point, if there are any. -/
def fractionText (digits : List Char) : List Char :=
  if digits.isEmpty then [] else '.' :: digits

@[simp] theorem fractionText_nil : fractionText [] = [] := rfl

theorem fractionText_of_ne_nil {digits : List Char} (h : digits ≠ []) :
    fractionText digits = '.' :: digits := by
  rw [fractionText, if_neg (by simpa using h)]

theorem noDigitAhead_fractionText_append {digits rest : List Char} (h : NoDigitAhead rest) :
    NoDigitAhead (fractionText digits ++ rest) := by
  cases digits with
  | nil => exact h
  | cons c digits => simp [fractionText, isDigit]

/-! ## Scanners -/

theorem scanChar_eq_some_iff {c : Char} {cs rest : List Char} :
    scanChar c cs = some rest ↔ cs = c :: rest := by
  cases cs with
  | nil => simp [scanChar]
  | cons d cs => simp [scanChar, Option.ite_none_right_eq_some]

/-- A number of a fixed width is read exactly off its digits. -/
theorem scanFixed_eq_some_iff {width n : Nat} {cs rest : List Char} :
    scanFixed width cs = some (n, rest) ↔ n < 10 ^ width ∧ cs = fixedDigits width n ++ rest := by
  constructor
  · intro h
    refine ⟨lt_of_scanFixed h, ?_⟩
    rw [scanFixed, Option.ite_none_right_eq_some] at h
    obtain ⟨hlength, hpair⟩ := h
    cases hpair
    have hall : (cs.take width).takeWhile isDigit = cs.take width := by
      have hprefix := List.takeWhile_prefix (p := isDigit) (l := cs.take width)
      exact hprefix.eq_of_length_le (by rw [hlength]; exact List.length_take_le width cs)
    rw [hall] at hlength ⊢
    have hdigits : ∀ c ∈ cs.take width, isDigit c = true := List.takeWhile_eq_self_iff.1 hall
    have hwritten := fixedDigits_natOfDigits hdigits
    rw [hlength] at hwritten
    rw [hwritten, List.take_append_drop]
  · rintro ⟨hlt, rfl⟩
    exact scanFixed_append hlt rest

/-- A number of at most `width` digits is read off digits behind which there is none. -/
theorem scanNumber_append {width : Nat} {digits rest : List Char} (h : IsDigits digits)
    (hlength : digits.length ≤ width) (hrest : NoDigitAhead rest) :
    scanNumber width (digits ++ rest) = some (natOfDigits digits, rest) := by
  have htake : ((digits ++ rest).take width).takeWhile isDigit = digits := by
    rw [List.take_append, List.take_of_length_le hlength]
    apply takeWhile_append_of_head h.isDigit
    cases width - digits.length with
    | zero => simp
    | succ room =>
        intro c hc
        exact hrest c (by simpa [List.head?_take] using hc)
  have hsome : digits.isEmpty = false := List.isEmpty_eq_false_iff.2 h.ne_nil
  simp only [scanNumber, htake, hsome, Bool.false_eq_true, if_false, List.drop_left]

theorem exists_digits_of_scanNumber {width n : Nat} {cs rest : List Char}
    (h : scanNumber width cs = some (n, rest)) :
    ∃ digits, IsDigits digits ∧ digits.length ≤ width ∧ natOfDigits digits = n ∧
      cs = digits ++ rest := by
  simp only [scanNumber, Option.ite_none_left_eq_some] at h
  obtain ⟨hne, hpair⟩ := h
  cases hpair
  have hfront := (List.takeWhile_prefix (p := isDigit) (l := cs.take width)).trans
    (List.take_prefix width cs)
  refine ⟨(cs.take width).takeWhile isDigit, ⟨?_, ?_⟩, ?_, rfl, ?_⟩
  · simpa using hne
  · exact fun c hc => List.mem_takeWhile_imp hc
  · exact (List.takeWhile_prefix isDigit).length_le.trans (List.length_take_le width cs)
  · exact (List.prefix_iff_eq_append.1 hfront).symm

/-! ## Numbers behind blanks -/

theorem isBlank_eq_false_of_isDigit {c : Char} (h : isDigit c = true) : isBlank c = false := by
  rw [isDigit_iff] at h
  simp only [isBlank, Bool.or_eq_false_iff, Bool.and_eq_false_iff, decide_eq_false_iff_not,
    beq_eq_false_iff_ne]
  omega

theorem trimStart_cons {c : Char} (h : isBlank c = false) (rest : List Char) :
    trimStart (c :: rest) = c :: rest := by
  simp [trimStart, h]

theorem isDigits_fixedDigits {width : Nat} (h : 0 < width) (n : Nat) :
    IsDigits (fixedDigits width n) where
  ne_nil := by
    rw [← List.length_pos_iff, length_fixedDigits]
    exact h
  isDigit := fun _ hc => isDigit_of_mem_fixedDigits hc

/-- Blanks in front of a number are passed over. -/
theorem scanSpacedNumber_append_of_blanks {width : Nat} {blanks digits rest : List Char}
    (hblanks : ∀ c ∈ blanks, isBlank c = true) (h : IsDigits digits)
    (hlength : digits.length ≤ width) (hrest : NoDigitAhead rest) :
    scanSpacedNumber width (blanks ++ (digits ++ rest)) = some (natOfDigits digits, rest) := by
  have htrim : trimStart (blanks ++ (digits ++ rest)) = digits ++ rest := by
    apply dropWhile_append_of_head hblanks
    intro c hc
    rw [List.head?_append_of_ne_nil _ h.ne_nil] at hc
    exact isBlank_eq_false_of_isDigit (h.isDigit c (List.mem_of_mem_head? hc))
  rw [scanSpacedNumber, htrim, scanNumber_append h hlength hrest]

/-- A number of two digits is read back where no digit follows. -/
theorem scanSpacedNumber_append {n : Nat} (h : n < 10 ^ 2) {rest : List Char}
    (hrest : NoDigitAhead rest) :
    scanSpacedNumber 2 (fixedDigits 2 n ++ rest) = some (n, rest) := by
  have hblanks : ∀ c ∈ ([] : List Char), isBlank c = true := by simp
  have hread := scanSpacedNumber_append_of_blanks hblanks
    (isDigits_fixedDigits (by decide) n) (length_fixedDigits 2 n).le hrest
  rw [natOfDigits_fixedDigits, Nat.mod_eq_of_lt h] at hread
  exact hread

theorem exists_digits_of_scanSpacedNumber {width n : Nat} {cs rest : List Char}
    (h : scanSpacedNumber width cs = some (n, rest)) :
    ∃ blanks digits, (∀ c ∈ blanks, isBlank c = true) ∧ IsDigits digits ∧
      digits.length ≤ width ∧ natOfDigits digits = n ∧ cs = blanks ++ (digits ++ rest) := by
  obtain ⟨digits, hdigits, hlength, hvalue, htrim⟩ := exists_digits_of_scanNumber h
  refine ⟨cs.takeWhile isBlank, digits, fun c hc => List.mem_takeWhile_imp hc, hdigits, hlength,
    hvalue, ?_⟩
  rw [← htrim]
  exact (List.takeWhile_append_dropWhile).symm

end EntityQuery.Text
