import Mathlib.Data.Char
import Mathlib.Data.List.Induction
import Mathlib.Data.List.Lex
import Mathlib.Data.List.TakeWhile
import Mathlib.Order.Compare
import EntityQuery.Proofs.Time.Chronology
import EntityQuery.Text.Scan
/-!
# Digits of a fixed width

A number is the value of its digits, scanners read it back in front of any text, and
numbers of one width are ordered as their texts are.
-/

namespace EntityQuery.Text

/-! ## Reading back -/

theorem toNat_digitChar (n : Nat) : (digitChar n).toNat = 48 + n % 10 := by
  have hvalid : (48 + n % 10).isValidChar := .inl (by omega)
  have hzero : '0'.toNat = 48 := rfl
  rw [digitChar, hzero, Char.ofNat, dif_pos hvalid]
  rfl

theorem isDigit_iff (c : Char) : isDigit c = true ↔ 48 ≤ c.toNat ∧ c.toNat ≤ 57 := by
  rw [isDigit, Bool.and_eq_true, decide_eq_true_eq, decide_eq_true_eq]
  exact Iff.rfl

theorem isDigit_digitChar (n : Nat) : isDigit (digitChar n) = true := by
  rw [isDigit_iff, toNat_digitChar]
  omega

theorem digitValue_digitChar (n : Nat) : digitValue (digitChar n) = n % 10 := by
  have hzero : '0'.toNat = 48 := rfl
  rw [digitValue, toNat_digitChar, hzero]
  omega

theorem isDigit_of_mem_fixedDigits {width n : Nat} {c : Char} (h : c ∈ fixedDigits width n) :
    isDigit c = true := by
  induction width generalizing n with
  | zero => cases h
  | succ width ih =>
      rw [fixedDigits, List.mem_append, List.mem_singleton] at h
      obtain h | rfl := h
      · exact ih h
      · exact isDigit_digitChar n

theorem isDigit_of_mem_paddedDigits {width n : Nat} {c : Char} (h : c ∈ paddedDigits width n) :
    isDigit c = true := by
  obtain hzero | hdigit := List.mem_append.1 h
  · rw [List.eq_of_mem_replicate hzero]
    rfl
  · exact isDigit_of_mem_natDigits hdigit

@[simp] theorem natOfDigits_nil : natOfDigits [] = 0 := rfl

theorem natOfDigits_append_singleton (digits : List Char) (c : Char) :
    natOfDigits (digits ++ [c]) = 10 * natOfDigits digits + digitValue c := by
  simp [natOfDigits]

/-- The digits of a number have the value of the number, cut off at the width. -/
theorem natOfDigits_fixedDigits (width n : Nat) :
    natOfDigits (fixedDigits width n) = n % 10 ^ width := by
  induction width generalizing n with
  | zero => simp [fixedDigits, natOfDigits, Nat.mod_one]
  | succ width ih =>
      rw [fixedDigits, natOfDigits_append_singleton, ih, digitValue_digitChar, Nat.pow_succ,
        Nat.mul_comm _ 10, Nat.mod_mul]
      omega

/-- The digits of a number in front of its last ones are those of its quotient. -/
theorem fixedDigits_add (width count n : Nat) :
    fixedDigits (width + count) n = fixedDigits width (n / 10 ^ count) ++ fixedDigits count n := by
  induction count generalizing n with
  | zero => simp [fixedDigits]
  | succ count ih =>
      rw [Nat.add_succ, fixedDigits, ih, fixedDigits, Nat.div_div_eq_div_mul, ← Nat.pow_succ',
        List.append_assoc]

theorem take_fixedDigits (width count n : Nat) :
    (fixedDigits (width + count) n).take width = fixedDigits width (n / 10 ^ count) := by
  rw [fixedDigits_add, List.take_left' (length_fixedDigits width _)]

theorem paddedDigits_ne_nil (width n : Nat) : paddedDigits width n ≠ [] :=
  List.append_ne_nil_of_right_ne_nil _ Nat.toDigits_ne_nil

/-- Zeros in front of digits do not change their value. -/
theorem natOfDigits_replicate_append (count : Nat) (digits : List Char) :
    natOfDigits (List.replicate count '0' ++ digits) = natOfDigits digits := by
  induction count with
  | zero => rfl
  | succ count ih => exact ih

theorem natOfDigits_paddedDigits (width n : Nat) : natOfDigits (paddedDigits width n) = n :=
  (natOfDigits_replicate_append ..).trans (natOfDigits_natDigits n)

theorem le_length_paddedDigits (width n : Nat) : width ≤ (paddedDigits width n).length := by
  simp only [paddedDigits, List.length_append, List.length_replicate]
  omega

/-- Zeros behind digits multiply their value. -/
theorem natOfDigits_append_replicate (digits : List Char) (count : Nat) :
    natOfDigits (digits ++ List.replicate count '0') = 10 ^ count * natOfDigits digits := by
  rw [natOfDigits, List.foldl_append]
  exact Nat.ofDigitChars_replicate_zero

/-- The value of digits is below the power of ten with their number. -/
theorem natOfDigits_lt {digits : List Char} (h : ∀ c ∈ digits, isDigit c = true) :
    natOfDigits digits < 10 ^ digits.length := by
  induction digits using List.reverseRecOn with
  | nil => simp [natOfDigits]
  | append_singleton digits c ih =>
      have hinit := ih fun d hd => h d (List.mem_append_left _ hd)
      have hlast := (isDigit_iff c).1 (h c (by simp))
      have hzero : '0'.toNat = 48 := rfl
      rw [natOfDigits_append_singleton, List.length_append, List.length_singleton, Nat.pow_succ,
        digitValue, hzero]
      omega

/-- A number of a fixed width is below the power of ten of the width. -/
theorem lt_of_scanFixed {width n : Nat} {cs rest : List Char}
    (h : scanFixed width cs = some (n, rest)) : n < 10 ^ width := by
  rw [scanFixed, Option.ite_none_right_eq_some] at h
  obtain ⟨hlength, hvalue⟩ := h
  cases hvalue
  have hdigits : ∀ c ∈ (cs.take width).takeWhile isDigit, isDigit c = true :=
    fun c hc => List.mem_takeWhile_imp hc
  have hlt := natOfDigits_lt hdigits
  rw [hlength] at hlt
  exact hlt

theorem takeWhile_fixedDigits (width n : Nat) :
    (fixedDigits width n).takeWhile isDigit = fixedDigits width n := by
  have hall : ∀ c ∈ fixedDigits width n, isDigit c = true := fun _ hc =>
    isDigit_of_mem_fixedDigits hc
  exact List.takeWhile_eq_self_iff.2 hall

/-- A number of a fixed width is read back in front of any text. -/
theorem scanFixed_append {width n : Nat} (h : n < 10 ^ width) (rest : List Char) :
    scanFixed width (fixedDigits width n ++ rest) = some (n, rest) := by
  have htake : (fixedDigits width n ++ rest).take width = fixedDigits width n := by
    rw [List.take_append_of_le_length (by simp), List.take_of_length_le (by simp)]
  have hdrop : (fixedDigits width n ++ rest).drop width = rest := by
    rw [List.drop_append_of_le_length (by simp), List.drop_of_length_le (by simp),
      List.nil_append]
  rw [scanFixed, htake, hdrop, takeWhile_fixedDigits, if_pos (length_fixedDigits width n),
    natOfDigits_fixedDigits, Nat.mod_eq_of_lt h]

/-- The longest run at the front of a text ends where a character of another kind stands. -/
theorem takeWhile_append_of_head {p : Char → Bool} {front rest : List Char}
    (hfront : ∀ c ∈ front, p c = true) (hrest : ∀ c ∈ rest.head?, p c = false) :
    (front ++ rest).takeWhile p = front := by
  rw [List.takeWhile_append_of_pos hfront]
  cases rest with
  | nil => simp
  | cons c rest => simp [hrest c rfl]

/-- What follows the longest run at the front of a text. -/
theorem dropWhile_append_of_head {p : Char → Bool} {front rest : List Char}
    (hfront : ∀ c ∈ front, p c = true) (hrest : ∀ c ∈ rest.head?, p c = false) :
    (front ++ rest).dropWhile p = rest := by
  rw [List.dropWhile_append_of_pos hfront]
  cases rest with
  | nil => simp
  | cons c rest => simp [hrest c rfl]

/-- Digits that no digit follows are the longest run of digits. -/
theorem scanDigits_append {digits rest : List Char} (h : ∀ d ∈ digits, isDigit d = true)
    (hrest : ∀ c ∈ rest.head?, isDigit c = false) :
    scanDigits (digits ++ rest) = (digits, rest) := by
  rw [scanDigits, takeWhile_append_of_head h hrest, dropWhile_append_of_head h hrest]

@[simp] theorem scanChar_cons_self (c : Char) (rest : List Char) :
    scanChar c (c :: rest) = some rest := by
  simp [scanChar]

/-! ## Order -/

section Order

variable {α : Type} [LinearOrder α]

/-- Texts compare by their first characters first. -/
theorem cmp_cons (c c' : α) (s s' : List α) :
    cmp (c :: s) (c' :: s') = (cmp c c').then (cmp s s') := by
  simp only [cmp, cmpUsing, List.cons_lt_cons_iff]
  obtain h | rfl | h := lt_trichotomy c c'
  · simp [h]
  · simp
  · simp [h, h.asymm, h.ne']

theorem cmp_eq_eq {s t : List α} : cmp s t = .eq ↔ s = t := by
  induction s generalizing t with
  | nil => cases t <;> simp [cmp, cmpUsing]
  | cons c s ih =>
      cases t with
      | nil => simp [cmp, cmpUsing]
      | cons d t => rw [cmp_cons, Ordering.then_eq_eq, cmp_eq_eq_iff, ih, List.cons.injEq]

/-- A smaller first character makes a text smaller. -/
theorem cmp_cons_of_lt {c d : α} (h : c < d) (s t : List α) :
    cmp (c :: s) (d :: t) = .lt := by
  rw [cmp_cons, h.cmp_eq_lt]
  rfl

/-- Texts that begin with parts of one length compare by these parts first. -/
theorem cmp_append {a a' : List α} (h : a.length = a'.length) (s s' : List α) :
    cmp (a ++ s) (a' ++ s') = (cmp a a').then (cmp s s') := by
  induction a generalizing a' with
  | nil =>
      rw [List.eq_nil_of_length_eq_zero h.symm]
      simp [cmp, cmpUsing]
  | cons c a ih =>
      cases a' with
      | nil => cases h
      | cons c' a' =>
          rw [List.cons_append, List.cons_append, cmp_cons, cmp_cons, ih (Nat.succ.inj h),
            Ordering.then_assoc]

/-- Texts of any length that end in front of a smaller character than they have compare by these
parts first. -/
theorem cmp_append_cons {c : α} {a a' : List α} (ha : ∀ d ∈ a, c < d) (ha' : ∀ d ∈ a', c < d)
    (s s' : List α) : cmp (a ++ c :: s) (a' ++ c :: s') = (cmp a a').then (cmp s s') := by
  induction a generalizing a' with
  | nil =>
      cases a' with
      | nil =>
          rw [List.nil_append, List.nil_append, cmp_cons, cmp_self_eq_eq, cmp_eq_eq.2 rfl]
      | cons d' a' =>
          have hnil : cmp [] (d' :: a') = .lt := by simp [cmp, cmpUsing]
          rw [List.nil_append, List.cons_append, cmp_cons_of_lt (ha' d' List.mem_cons_self), hnil]
          rfl
  | cons d a ih =>
      cases a' with
      | nil =>
          have hlt : c < d := ha d List.mem_cons_self
          have hnil : cmp (d :: a) [] = .gt := by simp [cmp, cmpUsing]
          rw [List.nil_append, List.cons_append, cmp_cons, hlt.cmp_eq_gt, hnil]
          rfl
      | cons d' a' =>
          rw [List.forall_mem_cons] at ha ha'
          rw [List.cons_append, List.cons_append, cmp_cons, cmp_cons, ih ha.2 ha'.2,
            Ordering.then_assoc]

/-- Writings of one length compare as the numbers do, if without the last digit they compare
as the quotients do, and the last digits as the remainders. -/
theorem cmp_append_digit {base n n' : Nat} (hbase : 0 < base) {a a' : List α} {c c' : α}
    (hlength : a.length = a'.length) (hinit : cmp a a' = cmp (n / base) (n' / base))
    (hlast : cmp c c' = cmp (n % base) (n' % base)) : cmp (a ++ [c]) (a' ++ [c']) = cmp n n' := by
  have hcast (m m' : Nat) : cmp m m' = cmp (m : Int) m' :=
    (Nat.strictMono_cast.cmp_map_eq m m').symm
  have hsplit (m : Nat) : ((m / base : Nat) : Int) * base + (m % base : Nat) = m := by
    exact_mod_cast Nat.div_add_mod' m base
  have hbound (m : Nat) : ((m % base : Nat) : Int) < base :=
    Int.ofNat_lt.2 (Nat.mod_lt m hbase)
  have hnil : cmp ([] : List α) [] = .eq := cmp_self_eq_eq []
  rw [cmp_append hlength, hinit, cmp_cons, hlast, hnil, Ordering.then_eq, hcast, hcast,
    then_cmp_eq_cmp (k := base) ⟨by omega, hbound n⟩ ⟨by omega, hbound n'⟩, hsplit, hsplit, hcast]

end Order

theorem cmp_digitChar (n n' : Nat) : cmp (digitChar n) (digitChar n') = cmp (n % 10) (n' % 10) := by
  have hlt (m m' : Nat) : digitChar m < digitChar m' ↔ m % 10 < m' % 10 := by
    have htoNat : digitChar m < digitChar m' ↔ (digitChar m).toNat < (digitChar m').toNat :=
      Iff.rfl
    rw [htoNat, toNat_digitChar, toNat_digitChar]
    omega
  exact cmp_eq_cmp_of_lt_iff (hlt n n') (hlt n' n)

/-- Numbers of one width compare as their digits do. -/
theorem cmp_fixedDigits {width n n' : Nat} (h : n < 10 ^ width) (h' : n' < 10 ^ width) :
    cmp (fixedDigits width n) (fixedDigits width n') = cmp n n' := by
  induction width generalizing n n' with
  | zero =>
      rw [Nat.pow_zero, Nat.lt_one_iff] at h h'
      subst h h'
      simp [fixedDigits, cmp, cmpUsing]
  | succ width ih =>
      rw [Nat.pow_succ] at h h'
      rw [fixedDigits, fixedDigits]
      exact cmp_append_digit (by decide) (by simp) (ih (by omega) (by omega)) (cmp_digitChar n n')

theorem toNat_hexChar (n : Nat) :
    (hexChar n).toNat = if n % 16 < 10 then 48 + n % 16 else 87 + n % 16 := by
  have hzero : '0'.toNat = 48 := rfl
  have ha : 'a'.toNat = 97 := rfl
  rw [hexChar]
  split
  · have hvalid : (48 + n % 16).isValidChar := .inl (by omega)
    rw [hzero, Char.ofNat, dif_pos hvalid]
    rfl
  · have hvalid : (97 + (n % 16 - 10)).isValidChar := .inl (by omega)
    rw [ha, Char.ofNat, dif_pos hvalid]
    show 97 + (n % 16 - 10) = 87 + n % 16
    omega

theorem cmp_hexChar (n n' : Nat) : cmp (hexChar n) (hexChar n') = cmp (n % 16) (n' % 16) := by
  have hlt (m m' : Nat) : hexChar m < hexChar m' ↔ m % 16 < m' % 16 := by
    have htoNat : hexChar m < hexChar m' ↔ (hexChar m).toNat < (hexChar m').toNat := Iff.rfl
    rw [htoNat, toNat_hexChar, toNat_hexChar]
    split <;> split <;> omega
  exact cmp_eq_cmp_of_lt_iff (hlt n n') (hlt n' n)

/-- Numbers of one width compare as their lower-case hexadecimal digits do. -/
theorem cmp_fixedHex {width n n' : Nat} (h : n < 16 ^ width) (h' : n' < 16 ^ width) :
    cmp (fixedHex width n) (fixedHex width n') = cmp n n' := by
  induction width generalizing n n' with
  | zero =>
      rw [Nat.pow_zero, Nat.lt_one_iff] at h h'
      subst h h'
      simp [fixedHex, cmp, cmpUsing]
  | succ width ih =>
      rw [Nat.pow_succ] at h h'
      rw [fixedHex, fixedHex]
      exact cmp_append_digit (by decide) (by simp) (ih (by omega) (by omega)) (cmp_hexChar n n')

end EntityQuery.Text
