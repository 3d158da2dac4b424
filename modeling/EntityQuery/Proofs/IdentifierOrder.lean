import EntityQuery.Proofs.Text.ByteOrder
import EntityQuery.Proofs.Text.FixedDigits
import EntityQuery.Uuid
/-!
# The order of identifiers

Identifiers are ordered as numbers, and so are their texts and their bytes: all texts have the
same number of digits, with hyphens in the same places, and the sixteen bytes are the digits of
the number in base 256.
-/

namespace EntityQuery.Uuid

theorem eq_of_value {u v : Uuid} (h : u.value = v.value) : u = v := by
  cases u
  cases v
  cases h
  rfl

/-- Different identifiers are told apart. -/
theorem eq_of_compare {u v : Uuid} (h : compare u v = .eq) : u = v :=
  eq_of_value ((cmp_eq_eq_iff _ _).1 ((cmp_eq_compare _ _).trans h))

/-- Hyphens in the same places do not change the order. -/
theorem cmp_hyphenate {a b : List Char} (h : a.length = b.length) :
    cmp (hyphenate a) (hyphenate b) = cmp a b := by
  have hcut (n : Nat) {s t : List Char} (hst : s.length = t.length) :
      cmp s t = (cmp (s.take n) (t.take n)).then (cmp (s.drop n) (t.drop n)) := by
    have htake : (s.take n).length = (t.take n).length := by simp [hst]
    rw [← Text.cmp_append htake, List.take_append_drop, List.take_append_drop]
  have hhyphen {s t u v : List Char} (hst : s.length = t.length) :
      cmp (s ++ '-' :: u) (t ++ '-' :: v) = (cmp s t).then (cmp u v) := by
    rw [Text.cmp_append hst, Text.cmp_cons, cmp_self_eq_eq, Ordering.eq_then]
  have hdrop (n : Nat) : (a.drop n).length = (b.drop n).length := by simp [h]
  simp only [hyphenate, List.append_assoc, List.cons_append]
  rw [hhyphen (by simp [h]), hhyphen (by simp [h]), hhyphen (by simp [h]), hhyphen (by simp [h]),
    hcut 8 h, hcut 4 (hdrop 8), List.drop_drop, List.drop_drop, hcut 4 (hdrop 12), List.drop_drop,
    List.drop_drop, hcut 4 (hdrop 16), List.drop_drop, List.drop_drop]

theorem cmp_write (u v : Uuid) : cmp u.write v.write = cmp u.value v.value := by
  rw [write, write, cmp_hyphenate (by simp), Text.cmp_fixedHex u.value_lt v.value_lt]

theorem compare_eq_cmp_toText (u v : Uuid) :
    compare u v = cmp (Text.encodeUtf8 u.toText.toList) (Text.encodeUtf8 v.toText.toList) := by
  rw [Text.cmp_encodeUtf8_list, toText, toText, String.toList_ofList, String.toList_ofList,
    cmp_write, cmp_eq_compare]
  rfl

/-! ## Bytes -/

/-- The last bytes of a number, most significant first. -/
def fixedBytes (width n : Nat) : List Nat :=
  (List.range width).map fun i => n / Nat.pow 256 (width - 1 - i) % 256

@[simp] theorem length_fixedBytes (width n : Nat) : (fixedBytes width n).length = width := by
  simp [fixedBytes]

theorem fixedBytes_succ (width n : Nat) :
    fixedBytes (width + 1) n = fixedBytes width (n / 256) ++ [n % 256] := by
  rw [fixedBytes, fixedBytes, List.range_succ, List.map_append, List.map_singleton]
  congr 1
  · apply List.map_congr_left
    intro i hi
    have hlast : width + 1 - 1 - i = width - 1 - i + 1 := by
      have hlt := List.mem_range.1 hi
      omega
    rw [hlast, Nat.pow_eq, Nat.pow_eq, Nat.pow_succ', Nat.div_div_eq_div_mul]
  · simp

/-- Numbers of one width compare as their bytes do. -/
theorem cmp_fixedBytes {width n n' : Nat} (h : n < 256 ^ width) (h' : n' < 256 ^ width) :
    cmp (fixedBytes width n) (fixedBytes width n') = cmp n n' := by
  induction width generalizing n n' with
  | zero =>
      rw [Nat.pow_zero, Nat.lt_one_iff] at h h'
      subst h h'
      rfl
  | succ width ih =>
      rw [Nat.pow_succ] at h h'
      rw [fixedBytes_succ, fixedBytes_succ]
      exact Text.cmp_append_digit (by decide) (by simp) (ih (by omega) (by omega)) rfl

theorem compare_eq_cmp_bytes (u v : Uuid) : compare u v = cmp u.bytes v.bytes := by
  have hbytes (u : Uuid) : u.bytes = fixedBytes 16 u.value := rfl
  rw [hbytes, hbytes, cmp_fixedBytes u.value_lt v.value_lt, cmp_eq_compare]
  rfl

end EntityQuery.Uuid
