import EntityQuery.Number.Integer
import EntityQuery.Proofs.Text.Scanning
/-!
# Reading whole numbers back

A text is read from the left and given up as soon as what has been read is out of range. The
number grows with every digit, so nothing on the way is out of range unless the number is. So
exactly the texts of numbers in range are read: an optional sign and one or more digits, however
many zeros stand in front.
-/

namespace EntityQuery

namespace Text

/-- The number behind some digits and those that were read before. -/
def appendDigits (n : Nat) (digits : List Char) : Nat :=
  digits.foldl (fun n c => 10 * n + digitValue c) n

theorem le_appendDigits (n : Nat) (digits : List Char) : n ≤ appendDigits n digits := by
  induction digits generalizing n with
  | nil => exact le_rfl
  | cons c rest ih =>
      have hrest := ih (10 * n + digitValue c)
      exact le_trans (by omega) hrest

end Text

def signText (negative : Bool) : List Char :=
  if negative then ['-'] else []

theorem ne_sign_of_isDigit {c : Char} (h : Text.isDigit c = true) : c ≠ '-' ∧ c ≠ '+' := by
  constructor <;> rintro rfl <;> cases h

namespace Integer

def signed (negative : Bool) (n : Nat) : Int :=
  if negative then -n else n

theorem signed_next (negative : Bool) (n digit : Nat) :
    (if negative then 10 * signed negative n - (digit : Int) else 10 * signed negative n + digit) =
      signed negative (10 * n + digit) := by
  cases negative <;> simp only [signed, Bool.false_eq_true, if_true, if_false] <;> omega

theorem readDigits_eq {negative : Bool} {digits : List Char}
    (hdigits : ∀ c ∈ digits, Text.isDigit c = true) {n : Nat}
    (hlow : least ≤ signed negative (Text.appendDigits n digits))
    (hhigh : signed negative (Text.appendDigits n digits) ≤ greatest) :
    readDigits negative (signed negative n) digits =
      .ok (signed negative (Text.appendDigits n digits)) := by
  induction digits generalizing n with
  | nil => rfl
  | cons c rest ih =>
      obtain ⟨hc, hrest⟩ := List.forall_mem_cons.1 hdigits
      have hread := ih hrest hlow hhigh
      have hgrows : 10 * n + Text.digitValue c ≤ Text.appendDigits n (c :: rest) :=
        Text.le_appendDigits _ rest
      have hrange : ¬ signed negative (10 * n + Text.digitValue c) < least ∧
          ¬ greatest < signed negative (10 * n + Text.digitValue c) := by
        cases negative <;>
          simp only [signed, least, greatest, Bool.false_eq_true, if_true, if_false]
            at hlow hhigh ⊢ <;>
          omega
      simp only [readDigits, hc, if_true, signed_next, if_neg hrange.1, if_neg hrange.2]
      exact hread

theorem of_readDigits {negative : Bool} {digits : List Char} {n : Nat} {k : Int}
    (h : readDigits negative (signed negative n) digits = .ok k)
    (hlow : least ≤ signed negative n) (hhigh : signed negative n ≤ greatest) :
    (∀ c ∈ digits, Text.isDigit c = true) ∧
      k = signed negative (Text.appendDigits n digits) ∧ least ≤ k ∧ k ≤ greatest := by
  induction digits generalizing n with
  | nil =>
      cases h
      exact ⟨by simp, rfl, hlow, hhigh⟩
  | cons c rest ih =>
      simp only [readDigits, signed_next] at h
      split_ifs at h with hc hsmall hlarge
      obtain ⟨hrest, hvalue, hrange⟩ := ih h (not_lt.1 hsmall) (not_lt.1 hlarge)
      exact ⟨List.forall_mem_cons.2 ⟨hc, hrest⟩, hvalue, hrange⟩

/-- One or more digits behind an optional sign, and the number that they denote. -/
inductive Spells : List Char → Int → Prop
  | unsigned {digits : List Char} (h : Text.IsDigits digits) :
    Spells digits (Text.natOfDigits digits)
  | plus {digits : List Char} (h : Text.IsDigits digits) :
    Spells ('+' :: digits) (Text.natOfDigits digits)
  | minus {digits : List Char} (h : Text.IsDigits digits) :
    Spells ('-' :: digits) (-Text.natOfDigits digits)

theorem write_eq (n : Int) : write n = signText (n < 0) ++ Text.natDigits n.natAbs := by
  by_cases hneg : n < 0 <;> simp [write, signText, hneg]

theorem read_signText_append {negative : Bool} {digits : List Char}
    (hdigits : ∀ c ∈ digits, Text.isDigit c = true) (hne : digits ≠ []) :
    read (signText negative ++ digits) = (readDigits negative 0 digits).map Int64.ofInt := by
  obtain ⟨c, rest, rfl⟩ := List.exists_cons_of_ne_nil hne
  cases negative with
  | true => rfl
  | false =>
      obtain ⟨hminus, hplus⟩ := ne_sign_of_isDigit (hdigits c List.mem_cons_self)
      simp [signText, read, hminus, hplus]

theorem readDigits_eq_ok_iff {negative : Bool} {digits : List Char} {n : Int64} :
    (readDigits negative 0 digits).map Int64.ofInt = .ok n ↔
      (∀ c ∈ digits, Text.isDigit c = true) ∧
        n.toInt = signed negative (Text.natOfDigits digits) := by
  have hzero : signed negative 0 = 0 := by cases negative <;> rfl
  have hleast := n.le_toInt
  have hgreatest := n.toInt_lt
  constructor
  · intro h
    cases hread : readDigits negative 0 digits with
    | error fault =>
        rw [hread] at h
        cases h
    | ok k =>
        rw [hread] at h
        cases h
        rw [← hzero] at hread
        obtain ⟨hdigits, hvalue, hlow, hhigh⟩ :=
          of_readDigits hread (by rw [hzero]; decide) (by rw [hzero]; decide)
        simp only [least, greatest] at hlow hhigh
        refine ⟨hdigits, ?_⟩
        rw [Int64.toInt_ofInt_of_le (by omega) (by omega)]
        exact hvalue
  · rintro ⟨hdigits, hvalue⟩
    have hread : readDigits negative (signed negative 0) digits =
        .ok (signed negative (Text.natOfDigits digits)) :=
      readDigits_eq hdigits (hvalue ▸ hleast) (hvalue ▸ Int.le_of_lt_add_one hgreatest)
    rw [hzero] at hread
    rw [hread, ← hvalue, Except.map, Int64.ofInt_toInt]

theorem read_eq_ok_iff {cs : List Char} {n : Int64} : read cs = .ok n ↔ Spells cs n.toInt := by
  constructor
  · intro h
    unfold read at h
    split at h
    · cases h
    · cases h
    · cases h
    · next digits hne =>
        obtain ⟨hdigits, hvalue⟩ := readDigits_eq_ok_iff.1 h
        rw [hvalue]
        exact .minus ⟨hne, hdigits⟩
    · next digits hne =>
        obtain ⟨hdigits, hvalue⟩ := readDigits_eq_ok_iff.1 h
        rw [hvalue]
        exact .plus ⟨hne, hdigits⟩
    · next hne _ _ _ _ =>
        obtain ⟨hdigits, hvalue⟩ := readDigits_eq_ok_iff.1 h
        rw [hvalue]
        exact .unsigned ⟨hne, hdigits⟩
  · generalize hk : n.toInt = k
    intro h
    cases h with
    | unsigned h =>
        have hvalue : n.toInt = signed false (Text.natOfDigits cs) := hk
        have hread := readDigits_eq_ok_iff.2 ⟨h.isDigit, hvalue⟩
        exact (read_signText_append h.isDigit h.ne_nil).trans hread
    | plus h =>
        obtain ⟨c, rest, rfl⟩ := List.exists_cons_of_ne_nil h.ne_nil
        exact readDigits_eq_ok_iff.2 ⟨h.isDigit, hk⟩
    | minus h =>
        obtain ⟨c, rest, rfl⟩ := List.exists_cons_of_ne_nil h.ne_nil
        exact readDigits_eq_ok_iff.2 ⟨h.isDigit, hk⟩

theorem spells_write (k : Int) : Spells (write k) k := by
  have hdigits : Text.IsDigits (Text.natDigits k.natAbs) :=
    ⟨Nat.toDigits_ne_nil, fun _ hc => Text.isDigit_of_mem_natDigits hc⟩
  have hvalue := Text.natOfDigits_natDigits k.natAbs
  by_cases hneg : k < 0
  · have hspells := Spells.minus hdigits
    have habs : -(k.natAbs : Int) = k := by omega
    rw [hvalue, habs] at hspells
    rw [write, if_pos hneg]
    exact hspells
  · have hspells := Spells.unsigned hdigits
    have habs : (k.natAbs : Int) = k := by omega
    rw [hvalue, habs] at hspells
    rw [write, if_neg hneg]
    exact hspells

/-- Every integer is read back from its text. -/
theorem read_write (n : Int64) : read (write n.toInt) = .ok n :=
  read_eq_ok_iff.2 (spells_write n.toInt)

end Integer

end EntityQuery
