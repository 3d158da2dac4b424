import EntityQuery.Proofs.Text.Scanning
import EntityQuery.Proofs.Time.Writing
/-!
# Reading written dates and instants back

The reader of stored entities takes every date and every instant back from its text, in
any year: years without four digits are written with a sign, behind which the reader takes as
many digits as there are. It does so whether the fraction of the second is written with the
fewest digits or with nine. The strict reader takes no sign, so it refuses what is not in the
years 0 to 9999.
-/

namespace EntityQuery

open Text

/-! ## Dates -/

namespace Date

theorem scanLooseYear_of_isDigit {c : Char} (h : isDigit c = true) {cs rest : List Char} {n : Nat}
    (hread : scanNumber 4 (c :: cs) = some (n, rest)) :
    scanLooseYear (c :: cs) = some ((n : Int), rest) := by
  rw [scanLooseYear, trimStart_cons (isBlank_eq_false_of_isDigit h)]
  split
  · next heq =>
      cases heq
      exact absurd h (by decide)
  · next heq =>
      cases heq
      exact absurd h (by decide)
  · rw [hread, Option.map_some]

/-- Any year is read back in front of what follows it in a date. -/
theorem scanLooseYear_append (year : Int) (rest : List Char) :
    scanLooseYear (writeYear year ++ '-' :: rest) = some (year, '-' :: rest) := by
  have hhyphen : NoDigitAhead ('-' :: rest) := by simp [isDigit]
  by_cases h : IsFourDigitYear year
  · have hbounds := h.2
    have hvalue : natOfDigits (fixedDigits 4 year.toNat) = year.toNat := by
      rw [natOfDigits_fixedDigits]
      exact Nat.mod_eq_of_lt (by omega)
    have hcast : (year.toNat : Int) = year := Int.toNat_of_nonneg h.1
    have hread := scanNumber_append (isDigits_fixedDigits (by decide) year.toNat)
      (length_fixedDigits 4 year.toNat).le hhyphen
    have hfirst : isDigit (digitChar (year.toNat / 10 / 10 / 10)) = true := isDigit_digitChar _
    have hloose := scanLooseYear_of_isDigit hfirst hread
    rw [hvalue, hcast] at hloose
    rw [writeYear_eq h]
    exact hloose
  · have hlength : (paddedDigits 4 year.natAbs).length ≤
        (paddedDigits 4 year.natAbs ++ '-' :: rest).length := by simp
    have hdigits : IsDigits (paddedDigits 4 year.natAbs) :=
      ⟨paddedDigits_ne_nil 4 year.natAbs, fun _ hd => isDigit_of_mem_paddedDigits hd⟩
    have hread := scanNumber_append hdigits hlength hhyphen
    rw [natOfDigits_paddedDigits] at hread
    rw [writeYear_signed h, List.cons_append]
    by_cases hneg : year < 0
    · rw [if_pos hneg, scanLooseYear, trimStart_cons rfl]
      simp only [hread, Option.map_some]
      have habs : (-(year.natAbs : Int)) = year := by omega
      rw [habs]
    · rw [if_neg hneg, scanLooseYear, trimStart_cons rfl]
      simp only [hread, Option.map_some]
      have habs : (year.natAbs : Int) = year := by omega
      rw [habs]

/-- A written date is read back in front of what cannot belong to its day. -/
theorem scanLoose_write_append (d : Date) {rest : List Char} (hrest : NoDigitAhead rest) :
    scanLoose (d.write ++ rest) = some (d, rest) := by
  have hhyphen (cs : List Char) : NoDigitAhead ('-' :: cs) := by simp [isDigit]
  have htrim (cs : List Char) : trimStart ('-' :: cs) = '-' :: cs := trimStart_cons rfl cs
  simp only [scanLoose, write, List.append_assoc, List.cons_append, scanLooseYear_append, htrim,
    scanChar_cons_self, scanSpacedNumber_append d.month_lt (hhyphen _),
    scanSpacedNumber_append d.day_lt hrest, Option.bind_eq_bind, Option.bind_some, ofCivil?_self]

/-- The strict reader takes no sign. -/
theorem scanFixed_write_of_signed {d : Date} (h : ¬ IsFourDigitYear d.year) (rest : List Char) :
    scanFixed (d.write ++ rest) = none := by
  have hsign : isDigit (if d.year < 0 then '-' else '+') = false := by split <;> rfl
  simp [scanFixed, write, writeYear_signed h, Text.scanFixed, hsign]

theorem readFixed?_write {d : Date} (h : IsFourDigitYear d.year) :
    readFixed? d.write = some d := by
  have hread := scanFixed_write_append h []
  rw [List.append_nil] at hread
  simp [readFixed?, hread]

theorem readFixed?_write_of_signed {d : Date} (h : ¬ IsFourDigitYear d.year) :
    readFixed? d.write = none := by
  have hread := scanFixed_write_of_signed h []
  rw [List.append_nil] at hread
  simp [readFixed?, hread]

/-- Every date is read back from its text. -/
theorem readLoose?_write (d : Date) : readLoose? d.write = some d := by
  have hend : (trimStart []).isEmpty = true := rfl
  have hread := scanLoose_write_append d noDigitAhead_nil
  rw [List.append_nil] at hread
  simp only [readLoose?, hread, hend, Option.bind_eq_bind, Option.bind_some, if_true]

end Date

/-! ## Instants -/

namespace FractionStyle

/-- Every fraction of a second is read back from the digits of the style. -/
def KeepsAll (style : FractionStyle) : Prop :=
  ∀ nano < 10 ^ 9, scanFraction (style.write nano ++ ['Z']) = some (nano, ['Z'])

theorem keepsAll_shortest : shortest.KeepsAll :=
  fun _ h => Instant.scanFraction_shortest h

theorem keepsAll_nanoseconds : nanoseconds.KeepsAll :=
  fun _ h => Instant.scanFraction_nanoseconds h

/-- A fraction and the letter for UTC begin with no digit. -/
theorem noDigitAhead_write_append (style : FractionStyle) (nano : Nat) :
    NoDigitAhead (style.write nano ++ ['Z']) := by
  have hletter : NoDigitAhead ['Z'] := by simp [isDigit]
  have hpoint (digits : List Char) : NoDigitAhead ('.' :: digits ++ ['Z']) := by simp [isDigit]
  cases style with
  | none => exact hletter
  | nanoseconds => exact hpoint _
  | shortest =>
      simp only [write]
      split_ifs
      · exact hletter
      all_goals exact hpoint _
  | trimmed =>
      simp only [write]
      split_ifs
      · exact hletter
      · exact hpoint _

end FractionStyle

namespace Instant

theorem readLoose?_writeSeconds_append {t : Instant} {rest : List Char} (hrest : NoDigitAhead rest)
    (hscan : scanFraction rest = some (t.nanoOfSecond, ['Z'])) :
    readLoose? (t.writeSeconds ++ rest) = some t := by
  have hletter (rest : List Char) : NoDigitAhead ('T' :: rest) := by simp [isDigit]
  have hcolon (rest : List Char) : NoDigitAhead (':' :: rest) := by simp [isDigit]
  have hseparator (rest : List Char) : scanSeparator ('T' :: rest) = some rest := rfl
  have htrim (rest : List Char) : trimStart (':' :: rest) = ':' :: rest := trimStart_cons rfl rest
  have hoffset : scanLooseOffset (trimStart ['Z']) = some (0, []) := rfl
  have hend : (trimStart []).isEmpty = true := rfl
  simp only [readLoose?, writeSeconds, List.append_assoc, List.cons_append,
    Date.scanLoose_write_append t.date (hletter _), hseparator, htrim, scanChar_cons_self,
    scanSpacedNumber_append t.hour_lt (hcolon _), scanSpacedNumber_append t.minute_lt (hcolon _),
    scanSpacedNumber_append t.secondOfMinute_lt hrest, hscan, hoffset, hend, Option.bind_eq_bind,
    Option.bind_some, ofCivil?_self, behind?_zero, if_true]

/-- Every instant is read back from its text, unless digits of its fraction were left out. -/
theorem readLoose?_write {style : FractionStyle} (h : style.KeepsAll) (t : Instant) :
    readLoose? (t.write style) = some t := by
  rw [write_eq_writeSeconds_append]
  exact readLoose?_writeSeconds_append (style.noDigitAhead_write_append _) (h _ t.nanoOfSecond_lt)

theorem readStrict?_write_of_signed (style : FractionStyle) {t : Instant}
    (h : ¬ IsFourDigitYear t.date.year) : readStrict? (t.write style) = none := by
  rw [readStrict?, readFixed?, write, List.append_assoc, Date.scanFixed_write_of_signed h]
  rfl

theorem parts_of_ofCivil? {date : Date} {hour minute second nano : Nat} {t : Instant}
    (h : ofCivil? date hour minute second nano = some t) :
    t.date = date ∧ t.second.val = 3600 * hour + 60 * minute + min second 59 := by
  rw [ofCivil?, Option.dite_none_right_eq_some] at h
  obtain ⟨_, h⟩ := h
  cases h
  exact ⟨rfl, rfl⟩

/-- An offset moves an instant into a neighbouring year at most. -/
theorem year_of_behind? {minutes : Int} {t u : Instant} (h : behind? minutes t = some u) :
    t.date.year - 1 ≤ u.date.year ∧ u.date.year ≤ t.date.year + 1 := by
  have hprev {d : Date} (hd : t.date.prev? = some d) :
      d.year = t.date.year ∨ d.year = t.date.year - 1 := by
    rw [Date.prev?] at hd
    split_ifs at hd
    · exact .inl (Date.of_ofCivil? hd).1
    · exact .inl (Date.of_ofCivil? hd).1
    · exact .inr (Date.of_ofCivil? hd).1
  have hnext {d : Date} (hd : t.date.next? = some d) :
      d.year = t.date.year ∨ d.year = t.date.year + 1 := by
    rw [Date.next?] at hd
    split_ifs at hd
    · exact .inl (Date.of_ofCivil? hd).1
    · exact .inl (Date.of_ofCivil? hd).1
    · exact .inr (Date.of_ofCivil? hd).1
  simp only [behind?, Option.map_eq_some_iff] at h
  obtain ⟨date, hdate, rfl⟩ := h
  split_ifs at hdate
  · have hyear := hprev hdate
    simp only
    omega
  · have hyear := hnext hdate
    simp only
    omega
  · cases hdate
    simp only
    omega

theorem year_of_readStrict? {cs : List Char} {t : Instant} (h : readStrict? cs = some t) :
    -1 ≤ t.date.year ∧ t.date.year ≤ 10000 := by
  simp only [readStrict?, readFixed?, Option.bind_eq_bind, Option.bind_eq_some_iff,
    Prod.exists, Option.ite_none_right_eq_some] at h
  obtain ⟨date, _, hdate, _, _, _, _, _, _, _, _, _, _, _, _, _, _, _, _, _, _, _, _, _, _,
    local?, hlocal, hbehind⟩ := h
  have hday := Date.isFourDigitYear_of_scanFixed hdate
  have hyear := year_of_behind? hbehind
  rw [(parts_of_ofCivil? hlocal).1] at hyear
  simp only [IsFourDigitYear] at hday
  omega

theorem date_of_readLocalSeconds? {date : Date} {cs : List Char} {t : Instant}
    (h : readLocalSeconds? date cs = some t) : t.date = date := by
  simp only [readLocalSeconds?, Option.bind_eq_bind, Option.bind_eq_some_iff, Prod.exists,
    Option.ite_none_right_eq_some] at h
  obtain ⟨_, _, _, _, _, _, _, _, _, _, _, _, _, _, _, _, _, _, _, hcivil⟩ := h
  exact (parts_of_ofCivil? hcivil).1

theorem date_of_readLocalMinutes? {date : Date} {cs : List Char} {t : Instant}
    (h : readLocalMinutes? date cs = some t) : t.date = date := by
  simp only [readLocalMinutes?, Option.bind_eq_bind, Option.bind_eq_some_iff, Prod.exists,
    Option.ite_none_right_eq_some] at h
  obtain ⟨_, _, _, _, _, _, _, _, _, _, _, hcivil⟩ := h
  exact (parts_of_ofCivil? hcivil).1

/-- A filter asks for an instant in a year with four digits or next to one. -/
theorem year_of_readFilter? {cs : List Char} {t : Instant} (h : readFilter? cs = some t) :
    -1 ≤ t.date.year ∧ t.date.year ≤ 10000 := by
  simp only [readFilter?, Option.bind_eq_bind, Option.ite_none_left_eq_some,
    Option.bind_eq_some_iff, Option.some.injEq] at h
  obtain ⟨_, date, hdate, u, hu, rfl⟩ := h
  have hday := Date.isFourDigitYear_of_readFixed? hdate
  have hlocal (heq : u.date = date) : -1 ≤ u.date.year ∧ u.date.year ≤ 10000 := by
    rw [heq]
    simp only [IsFourDigitYear] at hday
    omega
  cases hstrict : readStrict? cs with
  | some v =>
      rw [hstrict] at hu
      cases hu
      have hyear := year_of_readStrict? hstrict
      exact hyear
  | none =>
      cases hseconds : readLocalSeconds? date (cs.drop 10) with
      | some v =>
          rw [hstrict, hseconds] at hu
          cases hu
          exact hlocal (date_of_readLocalSeconds? hseconds)
      | none =>
          rw [hstrict, hseconds] at hu
          exact hlocal (date_of_readLocalMinutes? hu)

end Instant

end EntityQuery
