import Mathlib.Data.List.TakeDrop
import EntityQuery.Proofs.Text.FixedDigits
import EntityQuery.Uuid
/-!
# Reading identifiers back

An identifier is read back from its text. The text is none of the shorter forms, and
without its hyphens it has the digits of the number.
-/

namespace EntityQuery

namespace Text

theorem hexValue?_hexChar (n : Nat) : hexValue? (hexChar n) = some (n % 16) := by
  have hcode := toNat_hexChar n
  have hlt : n % 16 < 16 := Nat.mod_lt n (by decide)
  generalize hexChar n = c at hcode
  have hzero : '0'.toNat = 48 := rfl
  have ha : 'a'.toNat = 97 := rfl
  have hle (a b : Char) : a ≤ b ↔ a.toNat ≤ b.toNat := Iff.rfl
  have hf : 'f'.toNat = 102 := rfl
  have hnine : '9'.toNat = 57 := rfl
  by_cases hdigit : n % 16 < 10
  · rw [if_pos hdigit] at hcode
    have hc : isDigit c = true := (isDigit_iff c).2 (by omega)
    rw [hexValue?, if_pos hc, digitValue, hcode, hzero, Nat.add_sub_cancel_left]
  · rw [if_neg hdigit] at hcode
    have hc : ¬ isDigit c = true := by
      rw [isDigit_iff]
      omega
    have hletter : ('a' ≤ c && c ≤ 'f') = true := by
      simp only [Bool.and_eq_true, decide_eq_true_eq, hle, ha, hf]
      omega
    rw [hexValue?, if_neg hc, if_pos hletter, ha, hcode]
    congr 1
    omega

/-- The hexadecimal digits of a number have the value of the number, cut off at the width. -/
theorem natOfHex?_fixedHex (width n : Nat) :
    natOfHex? (fixedHex width n) = some (n % 16 ^ width) := by
  induction width generalizing n with
  | zero => simp [fixedHex, natOfHex?, Nat.mod_one]
  | succ width ih =>
      have hinit := ih (n / 16)
      simp only [natOfHex?] at hinit
      rw [fixedHex, natOfHex?, List.foldlM_append, hinit, Nat.pow_succ, Nat.mul_comm _ 16,
        Nat.mod_mul]
      simp [hexValue?_hexChar]
      omega

/-- Letters among the digits are lower-case. -/
theorem toLower_of_mem_fixedHex {width n : Nat} {c : Char} (h : c ∈ fixedHex width n) :
    c.toLower = c := by
  induction width generalizing n with
  | zero => cases h
  | succ width ih =>
      obtain hinit | hlast := List.mem_append.1 h
      · exact ih hinit
      · obtain rfl := List.mem_singleton.1 hlast
        have hdigit : ∀ i < 16, (hexChar i).toLower = hexChar i := by decide
        have hmod : hexChar n = hexChar (n % 16) := by
          simp only [hexChar, Nat.mod_mod]
        rw [hmod]
        exact hdigit _ (Nat.mod_lt n (by decide))

end Text

namespace Uuid

section Groups

variable {a b c d e : List Char}

theorem hyphenate_groups (ha : a.length = 8) (hb : b.length = 4) (hc : c.length = 4)
    (hd : d.length = 4) :
    hyphenate (a ++ (b ++ (c ++ (d ++ e)))) =
      a ++ '-' :: (b ++ '-' :: (c ++ '-' :: (d ++ '-' :: e))) := by
  simp [hyphenate, List.drop_append, List.drop_of_length_le, ha, hb, hc, hd]

theorem readHyphenated?_groups (ha : a.length = 8) (hb : b.length = 4) (hc : c.length = 4)
    (hd : d.length = 4) (he : e.length = 12) :
    readHyphenated? (a ++ '-' :: (b ++ '-' :: (c ++ '-' :: (d ++ '-' :: e)))) =
      readSimple? (a ++ (b ++ (c ++ (d ++ e)))) := by
  simp [readHyphenated?, List.drop_append, List.drop_of_length_le, List.getElem?_append, ha, hb,
    hc, hd, he]

end Groups

/-- Without its hyphens, a text in groups is the digits again. -/
theorem readHyphenated?_hyphenate {digits : List Char} (h : digits.length = 32) :
    readHyphenated? (hyphenate digits) = readSimple? digits := by
  have hcut : digits = digits.take 8 ++ ((digits.drop 8).take 4 ++ ((digits.drop 12).take 4 ++
      ((digits.drop 16).take 4 ++ digits.drop 20))) := by
    have hdrop (n m : Nat) : digits.drop (n + m) = (digits.drop n).drop m := by
      rw [List.drop_drop]
    rw [hdrop 16 4, List.take_append_drop, hdrop 12 4, List.take_append_drop, hdrop 8 4,
      List.take_append_drop, List.take_append_drop]
  have ha : (digits.take 8).length = 8 := by simp [h]
  have hb : ((digits.drop 8).take 4).length = 4 := by simp [h]
  have hc : ((digits.drop 12).take 4).length = 4 := by simp [h]
  have hd : ((digits.drop 16).take 4).length = 4 := by simp [h]
  have he : (digits.drop 20).length = 12 := by simp [h]
  rw [hcut, hyphenate_groups ha hb hc hd, readHyphenated?_groups ha hb hc hd he]

theorem ofNat_value (u : Uuid) : ofNat u.value = u := by
  obtain ⟨value, hlt⟩ := u
  simp only [ofNat, Nat.mod_eq_of_lt hlt]

theorem readHyphenated?_write (u : Uuid) : readHyphenated? u.write = some u := by
  have hlength : (Text.fixedHex 32 u.value).length = 32 := Text.length_fixedHex ..
  have hlt : u.value < 16 ^ 32 := u.value_lt
  rw [write, readHyphenated?_hyphenate hlength, readSimple?, if_pos hlength,
    Text.natOfHex?_fixedHex, Nat.mod_eq_of_lt hlt, Option.map_some, ofNat_value]

/-- The text is none of the other forms. -/
theorem read?_write (u : Uuid) : read? u.write = some u := by
  have hlong : ¬ u.write.length = 32 := by
    simp [write, hyphenate]
  have hsimple : readSimple? u.write = none := if_neg hlong
  rw [read?, hsimple, readHyphenated?_write]
  rfl

/-- There are no upper-case letters in the text. -/
theorem toLower_of_mem_write {u : Uuid} {c : Char} (h : c ∈ u.write) : c.toLower = c := by
  have hdigits {digits : List Char} (hmem : c ∈ hyphenate digits) : c = '-' ∨ c ∈ digits := by
    simp only [hyphenate, List.append_assoc, List.cons_append, List.mem_append, List.mem_cons]
      at hmem
    have hgroup {start : Nat} (hmem : c ∈ (digits.drop start).take 4) : c ∈ digits :=
      List.mem_of_mem_drop (List.mem_of_mem_take hmem)
    obtain hfirst | rfl | hsecond | rfl | hthird | rfl | hfourth | rfl | hlast := hmem
    · exact .inr (List.mem_of_mem_take hfirst)
    · exact .inl rfl
    · exact .inr (hgroup hsecond)
    · exact .inl rfl
    · exact .inr (hgroup hthird)
    · exact .inl rfl
    · exact .inr (hgroup hfourth)
    · exact .inl rfl
    · exact .inr (List.mem_of_mem_drop hlast)
  obtain rfl | hdigit := hdigits h
  · rfl
  · exact Text.toLower_of_mem_fixedHex hdigit

end Uuid

end EntityQuery
