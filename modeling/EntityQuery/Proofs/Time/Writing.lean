import EntityQuery.Proofs.Text.FixedDigits
import EntityQuery.Time.Reading
import EntityQuery.Time.Writing
/-!
# Written dates and instants

A date of the years 0 to 9999 is read back from its text, and so is an instant whose
fraction is written with the fewest digits. In these years the texts of dates, and those
of instants with nine digits, are ordered as the dates and instants are.
-/

namespace EntityQuery

open Text

/-- The years that are written with four digits and no sign. -/
def IsFourDigitYear (year : Int) : Prop :=
  0 ≤ year ∧ year ≤ 9999

theorem daysInMonth_le (year : Int) (month : Nat) : daysInMonth year month ≤ 31 := by
  simp only [daysInMonth]
  split_ifs <;> omega

theorem writeYear_eq {year : Int} (h : IsFourDigitYear year) :
    writeYear year = fixedDigits 4 year.toNat :=
  if_pos h

theorem writeYear_signed {year : Int} (h : ¬ IsFourDigitYear year) :
    writeYear year = (if year < 0 then '-' else '+') :: paddedDigits 4 year.natAbs :=
  if_neg h

theorem exists_writeYear (year : Int) :
    ∃ first digits, writeYear year = first :: digits ∧ ∀ c ∈ digits, isDigit c = true := by
  by_cases h : IsFourDigitYear year
  · have hall : ∀ c ∈ fixedDigits 4 year.toNat, isDigit c = true := fun _ hc =>
      isDigit_of_mem_fixedDigits hc
    rw [writeYear_eq h]
    cases hdigits : fixedDigits 4 year.toNat with
    | nil => simp [fixedDigits] at hdigits
    | cons first digits =>
        rw [hdigits, List.forall_mem_cons] at hall
        exact ⟨first, digits, rfl, hall.2⟩
  · exact ⟨_, _, writeYear_signed h, fun _ hc => isDigit_of_mem_paddedDigits hc⟩

theorem cmp_writeYear {year year' : Int} (h : IsFourDigitYear year) (h' : IsFourDigitYear year') :
    cmp (writeYear year) (writeYear year') = cmp year year' := by
  have hbounds := h.2
  have hbounds' := h'.2
  have hcast := Nat.strictMono_cast (α := Int) |>.cmp_map_eq year.toNat year'.toNat
  rw [Int.toNat_of_nonneg h.1, Int.toNat_of_nonneg h'.1] at hcast
  rw [writeYear_eq h, writeYear_eq h', cmp_fixedDigits (by omega) (by omega), hcast]

/-- Years in front of a hyphen compare first, as they are written. -/
theorem cmp_writeYear_append (year year' : Int) (s t : List Char) :
    cmp (writeYear year ++ '-' :: s) (writeYear year' ++ '-' :: t) =
      (cmp (writeYear year) (writeYear year')).then (cmp s t) := by
  have hhyphen {digits : List Char} (h : ∀ c ∈ digits, isDigit c = true) :
      ∀ c ∈ digits, '-' < c := by
    intro c hc
    have hdigit := (isDigit_iff c).1 (h c hc)
    have hlt : '-'.toNat < c.toNat := by
      have hvalue : '-'.toNat = 45 := rfl
      omega
    exact hlt
  obtain ⟨first, digits, heq, hdigits⟩ := exists_writeYear year
  obtain ⟨first', digits', heq', hdigits'⟩ := exists_writeYear year'
  rw [heq, heq', List.cons_append, List.cons_append, cmp_cons, cmp_cons,
    cmp_append_cons (hhyphen hdigits) (hhyphen hdigits'), Ordering.then_assoc]

namespace Date

theorem month_lt (d : Date) : d.month < 10 ^ 2 := by
  obtain ⟨_, ⟨_, hmonth⟩, _⟩ := d.valid
  omega

theorem day_lt (d : Date) : d.day < 10 ^ 2 := by
  obtain ⟨_, _, _, hday⟩ := d.valid
  have hdays := daysInMonth_le d.year d.month
  omega

theorem ofCivil?_self (d : Date) : ofCivil? d.year d.month d.day = some d :=
  dif_pos d.valid

/-- A written date is read back in front of any text. -/
theorem scanFixed_write_append {d : Date} (h : IsFourDigitYear d.year) (rest : List Char) :
    scanFixed (d.write ++ rest) = some (d, rest) := by
  have hyear : d.year.toNat < 10 ^ 4 := by
    have hbounds := h.2
    omega
  have hcast : (d.year.toNat : Int) = d.year := Int.toNat_of_nonneg h.1
  simp only [scanFixed, write, writeYear_eq h, List.append_assoc, List.cons_append,
    scanFixed_append hyear, scanFixed_append d.month_lt, scanFixed_append d.day_lt,
    scanChar_cons_self, Option.bind_eq_bind, Option.bind_some, hcast, ofCivil?_self]

theorem of_ofCivil? {year : Int} {month day : Nat} {d : Date}
    (h : ofCivil? year month day = some d) : d.year = year ∧ d.month = month ∧ d.day = day := by
  rw [ofCivil?, Option.dite_none_right_eq_some] at h
  obtain ⟨_, h⟩ := h
  cases h
  exact ⟨rfl, rfl, rfl⟩

theorem isFourDigitYear_of_scanFixed {cs rest : List Char} {d : Date}
    (h : scanFixed cs = some (d, rest)) : IsFourDigitYear d.year := by
  simp only [scanFixed, Option.bind_eq_bind, Option.bind_eq_some_iff, Prod.exists] at h
  obtain ⟨year, _, hyear, _, _, month, _, _, _, _, day, _, _, date, hdate, hpair⟩ := h
  cases hpair
  have hdated := (of_ofCivil? hdate).1
  have hlt := lt_of_scanFixed hyear
  simp only [IsFourDigitYear]
  omega

theorem isFourDigitYear_of_readFixed? {cs : List Char} {d : Date} (h : readFixed? cs = some d) :
    IsFourDigitYear d.year := by
  simp only [readFixed?, Option.bind_eq_bind, Option.bind_eq_some_iff, Prod.exists] at h
  obtain ⟨date, rest, hscan, hd⟩ := h
  rw [Option.ite_none_right_eq_some, Option.some.injEq] at hd
  exact hd.2 ▸ isFourDigitYear_of_scanFixed hscan

theorem length_write {d : Date} (h : IsFourDigitYear d.year) : d.write.length = 10 := by
  simp [write, writeYear_eq h]

/-- Texts that begin with dates compare first by the years as they are written, and then by months
and days. -/
theorem cmp_write_append (a b : Date) (s t : List Char) :
    cmp (a.write ++ s) (b.write ++ t) =
      (cmp (writeYear a.year) (writeYear b.year)).then
        ((cmp a.month b.month).then ((cmp a.day b.day).then (cmp s t))) := by
  simp only [write, List.append_assoc, List.cons_append]
  rw [cmp_writeYear_append, cmp_append (by simp), cmp_fixedDigits a.month_lt b.month_lt, cmp_cons,
    cmp_self_eq_eq, Ordering.eq_then, cmp_append (by simp), cmp_fixedDigits a.day_lt b.day_lt]

theorem cmp_write {a b : Date} (ha : IsFourDigitYear a.year) (hb : IsFourDigitYear b.year) :
    cmp a.write b.write = compare a b := by
  have hnil : cmp ([] : List Char) [] = .eq := rfl
  have horder := cmp_write_append a b [] []
  rw [List.append_nil, List.append_nil, hnil, Ordering.then_eq] at horder
  rw [horder, cmp_writeYear ha hb, compare_eq]

end Date

namespace Instant

theorem parts_bounds (t : Instant) :
    t.hour < 24 ∧ t.minute < 60 ∧ t.secondOfMinute ≤ 60 ∧ t.nanoOfSecond < 1000000000 := by
  have hsecond := t.second.isLt
  have hnano := t.nano_lt
  have hleap := t.leap
  simp only [hour, minute, secondOfMinute, nanoOfSecond]
  omega

theorem hour_lt (t : Instant) : t.hour < 10 ^ 2 :=
  t.parts_bounds.1.trans (by decide)

theorem minute_lt (t : Instant) : t.minute < 10 ^ 2 :=
  t.parts_bounds.2.1.trans (by decide)

theorem secondOfMinute_lt (t : Instant) : t.secondOfMinute < 10 ^ 2 :=
  t.parts_bounds.2.2.1.trans_lt (by decide)

theorem nanoOfSecond_lt (t : Instant) : t.nanoOfSecond < 10 ^ 9 :=
  t.parts_bounds.2.2.2

/-- Hour, minute, second and nanosecond compare as the second of the day and the count of
nanoseconds do, because only second 59 can have more nanoseconds than a second has. -/
theorem cmp_timeOfDay (a b : Instant) :
    (cmp a.hour b.hour).then ((cmp a.minute b.minute).then
      ((cmp a.secondOfMinute b.secondOfMinute).then (cmp a.nanoOfSecond b.nanoOfSecond))) =
    (cmp a.second b.second).then (cmp a.nano b.nano) := by
  have hcast (m m' : Nat) : cmp m m' = cmp (m : Int) m' :=
    (Nat.strictMono_cast.cmp_map_eq m m').symm
  have hsecond : cmp a.second b.second = cmp a.second.val b.second.val :=
    (Fin.val_strictMono.cmp_map_eq a.second b.second).symm
  have ha := a.nano_lt
  have hb := b.nano_lt
  obtain ⟨_, haminute, hasecond, hananos⟩ := a.parts_bounds
  obtain ⟨_, hbminute, hbsecond, hbnanos⟩ := b.parts_bounds
  rw [hsecond, ← Ordering.then_assoc, ← Ordering.then_assoc]
  simp only [hcast]
  rw [then_cmp_eq_cmp (k := 60) (by omega) (by omega),
    then_cmp_eq_cmp (k := 61) (by omega) (by omega),
    then_cmp_eq_cmp (k := 1000000000) (by omega) (by omega),
    then_cmp_eq_cmp (k := 2000000000) (by omega) (by omega)]
  have hlt (t u : Instant) : (((t.hour : Int) * 60 + t.minute) * 61 + t.secondOfMinute) *
      1000000000 + t.nanoOfSecond < (((u.hour : Int) * 60 + u.minute) * 61 + u.secondOfMinute) *
      1000000000 + u.nanoOfSecond ↔
      (t.second.val : Int) * 2000000000 + t.nano < u.second.val * 2000000000 + u.nano := by
    have ht := t.nano_lt
    have hu := u.nano_lt
    have htleap := t.leap
    have huleap := u.leap
    have hthour : t.second.val / 60 / 60 = t.second.val / 3600 := Nat.div_div_eq_div_mul ..
    have huhour : u.second.val / 60 / 60 = u.second.val / 3600 := Nat.div_div_eq_div_mul ..
    simp only [hour, minute, secondOfMinute, nanoOfSecond]
    omega
  exact cmp_eq_cmp_of_lt_iff (hlt a b) (hlt b a)

/-- The time of day with nine digits behind the second compares as the time does. -/
theorem cmp_writeTime (a b : Instant) :
    cmp (a.writeTime .nanoseconds ++ ['Z']) (b.writeTime .nanoseconds ++ ['Z']) =
      (cmp a.second b.second).then (cmp a.nano b.nano) := by
  have hend : cmp ['Z'] ['Z'] = .eq := rfl
  simp only [writeTime, FractionStyle.write, List.cons_append, List.append_assoc]
  rw [cmp_append (by simp), cmp_fixedDigits a.hour_lt b.hour_lt,
    cmp_cons, cmp_append (by simp), cmp_fixedDigits a.minute_lt b.minute_lt,
    cmp_cons, cmp_append (by simp), cmp_fixedDigits a.secondOfMinute_lt b.secondOfMinute_lt,
    cmp_cons, cmp_append (by simp), cmp_fixedDigits a.nanoOfSecond_lt b.nanoOfSecond_lt]
  simp only [cmp_self_eq_eq, Ordering.eq_then, hend, Ordering.then_eq]
  exact cmp_timeOfDay a b

/-- Instants that are written with nine digits compare first by the years as they are written. -/
theorem cmp_write_nanoseconds (a b : Instant) :
    cmp (a.write .nanoseconds) (b.write .nanoseconds) =
      (cmp (writeYear a.date.year) (writeYear b.date.year)).then
        ((cmp a.date.month b.date.month).then ((cmp a.date.day b.date.day).then
          ((cmp a.second b.second).then (cmp a.nano b.nano)))) := by
  simp only [write, List.append_assoc, List.cons_append]
  rw [Date.cmp_write_append, cmp_cons, cmp_self_eq_eq, Ordering.eq_then, cmp_writeTime]

theorem cmp_write {a b : Instant} (ha : IsFourDigitYear a.date.year)
    (hb : IsFourDigitYear b.date.year) :
    cmp (a.write .nanoseconds) (b.write .nanoseconds) = compare a b := by
  rw [cmp_write_nanoseconds, cmp_writeYear ha hb, compare_eq, Date.compare_eq]
  simp only [Ordering.then_assoc]

/-- Digits of a fraction that lose nothing are read back in front of the letter for UTC. -/
theorem scanFraction_fixedDigits {nano width power : Nat} (hwidth : 0 < width) (hnine : width ≤ 9)
    (hvalue : nano / power % 10 ^ width * 10 ^ (9 - width) = nano) :
    scanFraction ('.' :: fixedDigits width (nano / power) ++ ['Z']) = some (nano, ['Z']) := by
  have hsome : (fixedDigits width (nano / power)).isEmpty = false := by
    rw [List.isEmpty_eq_false_iff, ← List.length_pos_iff, length_fixedDigits]
    exact hwidth
  have htake : (fixedDigits width (nano / power)).take 9 = fixedDigits width (nano / power) :=
    List.take_of_length_le (by rw [length_fixedDigits]; exact hnine)
  have hscan : scanDigits (fixedDigits width (nano / power) ++ ['Z']) =
      (fixedDigits width (nano / power), ['Z']) :=
    scanDigits_append (fun _ hd => isDigit_of_mem_fixedDigits hd) (by simp [isDigit])
  simp only [List.cons_append, scanFraction, hscan, hsome, htake, natOfDigits_fixedDigits,
    length_fixedDigits, Nat.pow_eq, hvalue, Bool.false_eq_true, if_false]

theorem scanFraction_nanoseconds {nano : Nat} (h : nano < 10 ^ 9) :
    scanFraction (FractionStyle.nanoseconds.write nano ++ ['Z']) = some (nano, ['Z']) := by
  have hvalue : nano / 1 % 10 ^ 9 * 10 ^ (9 - 9) = nano := by omega
  have hall := scanFraction_fixedDigits (by omega) le_rfl hvalue
  rw [Nat.div_one] at hall
  exact hall

/-- The fewest digits that lose nothing are read back in front of the letter for UTC. -/
theorem scanFraction_shortest {nano : Nat} (h : nano < 10 ^ 9) :
    scanFraction (FractionStyle.shortest.write nano ++ ['Z']) = some (nano, ['Z']) := by
  simp only [FractionStyle.write]
  split_ifs with hzero hmillis hmicros
  · subst hzero
    rfl
  · exact scanFraction_fixedDigits (by omega) (by omega) (by omega)
  · exact scanFraction_fixedDigits (by omega) (by omega) (by omega)
  · exact scanFraction_nanoseconds h

theorem ofCivil?_self (t : Instant) :
    ofCivil? t.date t.hour t.minute t.secondOfMinute t.nanoOfSecond = some t := by
  have hsecond := t.second.isLt
  have hlt := t.nano_lt
  have hleap := t.leap
  have hclock : 3600 * t.hour + 60 * t.minute + min t.secondOfMinute 59 = t.second.val := by
    simp only [hour, minute, secondOfMinute]
    omega
  have hnano : (if t.secondOfMinute = 60 then t.nanoOfSecond + 1000000000
      else t.nanoOfSecond) = t.nano := by
    unfold secondOfMinute nanoOfSecond
    split_ifs <;> omega
  rw [ofCivil?, dif_pos t.parts_bounds]
  exact congrArg some (eq_of_parts rfl hclock hnano)

theorem behind?_zero (t : Instant) : behind? 0 t = some t := by
  have hsecond := t.second.isLt
  have hdate : (if (t.second.val : Int) - 60 * 0 < 0 then t.date.prev?
      else if 86400 ≤ (t.second.val : Int) - 60 * 0 then t.date.next? else some t.date) =
      some t.date := by
    rw [if_neg (by omega), if_neg (by omega)]
  have hclock : (((t.second.val : Int) - 60 * 0) % 86400).toNat = t.second.val := by omega
  rw [behind?, hdate]
  exact congrArg some (eq_of_parts rfl hclock rfl)

/-- The text of an instant up to the fraction of its second. -/
def writeSeconds (t : Instant) : List Char :=
  t.date.write ++ 'T' :: fixedDigits 2 t.hour ++ ':' :: fixedDigits 2 t.minute ++
    ':' :: fixedDigits 2 t.secondOfMinute

theorem write_eq_writeSeconds_append (style : FractionStyle) (t : Instant) :
    t.write style = t.writeSeconds ++ (style.write t.nanoOfSecond ++ ['Z']) := by
  simp [write, writeTime, writeSeconds]

theorem readStrict?_writeSeconds_append {t : Instant} (h : IsFourDigitYear t.date.year)
    {rest : List Char} (hscan : scanFraction rest = some (t.nanoOfSecond, ['Z'])) :
    readStrict? (t.writeSeconds ++ rest) = some t := by
  have hseparator (rest : List Char) : scanSeparator ('T' :: rest) = some rest := rfl
  have hoffset : scanOffset (scanChar ':') ['Z'] = some (0, []) := rfl
  simp only [readStrict?, readFixed?, writeSeconds, List.append_assoc, List.cons_append,
    Date.scanFixed_write_append h, hseparator, scanFixed_append t.hour_lt,
    scanFixed_append t.minute_lt, scanFixed_append t.secondOfMinute_lt, scanChar_cons_self,
    hscan, hoffset, Option.bind_eq_bind, Option.bind_some, ofCivil?_self, behind?_zero,
    List.isEmpty_nil, if_true]

/-- A stored instant is read back from its text. -/
theorem readStrict?_write {t : Instant} (h : IsFourDigitYear t.date.year) :
    readStrict? (t.write .shortest) = some t := by
  rw [write_eq_writeSeconds_append]
  exact readStrict?_writeSeconds_append h (scanFraction_shortest t.nanoOfSecond_lt)

end Instant

end EntityQuery
