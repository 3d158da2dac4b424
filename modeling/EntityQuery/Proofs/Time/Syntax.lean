import EntityQuery.Proofs.Time.Offset
import EntityQuery.Proofs.Time.Reading
/-!
# The syntax of written instants

The parts from which the text of an instant is put together: a day, a separator, the numbers of a
clock, a fraction and a zone. A number has one or two digits, and blanks may stand in front of it.
The text of an instant has one syntax only, because each part ends where a character stands that
cannot belong to it.
-/

namespace EntityQuery

open Text

/-- Two texts with parts of one kind in front, behind which a character of another kind stands, are
equal only if the parts are. -/
theorem Text.append_inj_of_head {p : Char → Bool} {a a' s s' : List Char}
    (ha : ∀ c ∈ a, p c = true) (ha' : ∀ c ∈ a', p c = true) (hs : ∀ c ∈ s.head?, p c = false)
    (hs' : ∀ c ∈ s'.head?, p c = false) (h : a ++ s = a' ++ s') : a = a' ∧ s = s' := by
  have htake := congrArg (List.takeWhile p) h
  have hdrop := congrArg (List.dropWhile p) h
  rw [takeWhile_append_of_head ha hs, takeWhile_append_of_head ha' hs'] at htake
  rw [dropWhile_append_of_head ha hs, dropWhile_append_of_head ha' hs'] at hdrop
  exact ⟨htake, hdrop⟩

/-! ## Numbers of a clock -/

/-- One or two digits with blanks in front of them. -/
structure ClockNumber where
  blanks : List Char
  width : Nat
  value : Nat
  isBlank : ∀ c ∈ blanks, isBlank c = true
  one_le_width : 1 ≤ width
  width_le_two : width ≤ 2
  value_lt : value < 10 ^ width

namespace ClockNumber

def text (k : ClockNumber) : List Char :=
  k.blanks ++ fixedDigits k.width k.value

/-- Two digits and nothing in front of them. -/
def IsPadded (k : ClockNumber) : Prop :=
  k.blanks = [] ∧ k.width = 2

/-- The number of two digits. -/
def padded (n : Nat) (h : n < 10 ^ 2) : ClockNumber :=
  ⟨[], 2, n, by simp, by decide, le_rfl, h⟩

variable {k k' : ClockNumber} {rest rest' : List Char}

theorem isPadded_padded (n : Nat) (h : n < 10 ^ 2) : (padded n h).IsPadded :=
  ⟨rfl, rfl⟩

theorem text_of_isPadded (h : k.IsPadded) : k.text = fixedDigits 2 k.value := by
  rw [text, h.1, h.2, List.nil_append]

theorem value_lt_of_isPadded (h : k.IsPadded) : k.value < 10 ^ 2 :=
  h.2 ▸ k.value_lt

theorem isDigits (k : ClockNumber) : IsDigits (fixedDigits k.width k.value) :=
  isDigits_fixedDigits k.one_le_width k.value

/-- A number is read where no digit follows. -/
theorem scan_text (h : NoDigitAhead rest) :
    scanSpacedNumber 2 (k.text ++ rest) = some (k.value, rest) := by
  have hlength : (fixedDigits k.width k.value).length ≤ 2 :=
    (length_fixedDigits k.width k.value).le.trans k.width_le_two
  have hread := scanSpacedNumber_append_of_blanks k.isBlank k.isDigits hlength h
  rw [natOfDigits_fixedDigits, Nat.mod_eq_of_lt k.value_lt] at hread
  rw [text, List.append_assoc]
  exact hread

/-- What was read is a number. -/
theorem exists_of_scan {cs : List Char} {n : Nat} (h : scanSpacedNumber 2 cs = some (n, rest)) :
    ∃ k : ClockNumber, k.value = n ∧ cs = k.text ++ rest := by
  obtain ⟨blanks, digits, hblanks, hdigits, hlength, rfl, rfl⟩ :=
    exists_digits_of_scanSpacedNumber h
  refine ⟨⟨blanks, digits.length, natOfDigits digits, hblanks, ?_, hlength, ?_⟩, rfl, ?_⟩
  · exact List.length_pos_iff.2 hdigits.ne_nil
  · exact natOfDigits_lt hdigits.isDigit
  · simp only [text, fixedDigits_natOfDigits hdigits.isDigit, List.append_assoc]

theorem append_inj (hrest : NoDigitAhead rest) (hrest' : NoDigitAhead rest')
    (h : k.text ++ rest = k'.text ++ rest') : k = k' ∧ rest = rest' := by
  have hhead (k : ClockNumber) (rest : List Char) :
      ∀ c ∈ (fixedDigits k.width k.value ++ rest).head?, Text.isBlank c = false := by
    intro c hc
    rw [List.head?_append_of_ne_nil _ k.isDigits.ne_nil] at hc
    exact isBlank_eq_false_of_isDigit (k.isDigits.isDigit c (List.mem_of_mem_head? hc))
  rw [text, text, List.append_assoc, List.append_assoc] at h
  obtain ⟨hblanks, hbehind⟩ :=
    append_inj_of_head k.isBlank k'.isBlank (hhead k rest) (hhead k' rest') h
  obtain ⟨hdigits, hrests⟩ :=
    append_inj_of_head k.isDigits.isDigit k'.isDigits.isDigit hrest hrest' hbehind
  have hwidth := congrArg List.length hdigits
  rw [length_fixedDigits, length_fixedDigits] at hwidth
  obtain ⟨blanks, width, value, _, _, _, hlt⟩ := k
  obtain ⟨blanks', width', value', _, _, _, hlt'⟩ := k'
  obtain rfl : blanks = blanks' := hblanks
  obtain rfl : width = width' := hwidth
  obtain rfl : value = value' := fixedDigits_injective hlt hlt' hdigits
  exact ⟨rfl, hrests⟩

end ClockNumber

/-! ## Seconds -/

/-- A second and the digits of its fraction; a fraction without digits is not written. -/
structure WrittenSecond where
  number : ClockNumber
  fraction : List Char
  isDigit : ∀ c ∈ fraction, isDigit c = true

/-- The nanoseconds of a fraction; digits past the ninth do not count. -/
def fractionNanos (digits : List Char) : Nat :=
  natOfDigits (digits.take 9) * 10 ^ (9 - (digits.take 9).length)

theorem fractionNanos_lt {digits : List Char} (h : ∀ c ∈ digits, isDigit c = true) :
    fractionNanos digits < 1000000000 := by
  have hlength : (digits.take 9).length ≤ 9 := List.length_take_le 9 digits
  have hused : ∀ c ∈ digits.take 9, isDigit c = true := fun c hc => h c (List.mem_of_mem_take hc)
  have hlt := natOfDigits_lt hused
  calc fractionNanos digits
      < 10 ^ (digits.take 9).length * 10 ^ (9 - (digits.take 9).length) :=
        Nat.mul_lt_mul_of_pos_right hlt (by positivity)
    _ = 1000000000 := by rw [← Nat.pow_add, Nat.add_sub_cancel' hlength]

/-- No point stands at the front of the text. -/
def NoPointAhead (cs : List Char) : Prop :=
  cs.head? ≠ some '.'

/-- A fraction is read where neither a digit nor a second point follows. -/
theorem scanFraction_fractionText_append {digits rest : List Char}
    (hdigits : ∀ c ∈ digits, isDigit c = true) (hrest : NoDigitAhead rest)
    (hpoint : NoPointAhead rest) :
    scanFraction (fractionText digits ++ rest) = some (fractionNanos digits, rest) := by
  by_cases hnil : digits = []
  · subst hnil
    have hother : ∀ cs, rest ≠ '.' :: cs := by
      rintro cs rfl
      exact hpoint rfl
    rw [fractionText_nil, List.nil_append, scanFraction.eq_2 rest hother]
    rfl
  · have hsome : digits.isEmpty = false := List.isEmpty_eq_false_iff.2 hnil
    rw [fractionText_of_ne_nil hnil, List.cons_append, scanFraction, scanDigits_append hdigits hrest]
    simp only [hsome, Bool.false_eq_true, if_false]
    rfl

theorem exists_of_scanFraction {cs rest : List Char} {nano : Nat}
    (h : scanFraction cs = some (nano, rest)) :
    ∃ digits, (∀ c ∈ digits, isDigit c = true) ∧ fractionNanos digits = nano ∧
      cs = fractionText digits ++ rest := by
  by_cases hpoint : ∃ behind, cs = '.' :: behind
  · obtain ⟨behind, rfl⟩ := hpoint
    have hread : scanFraction ('.' :: behind) =
        if (behind.takeWhile isDigit).isEmpty then none
        else some (fractionNanos (behind.takeWhile isDigit), behind.dropWhile isDigit) := rfl
    rw [hread, Option.ite_none_left_eq_some] at h
    obtain ⟨hne, hpair⟩ := h
    cases hpair
    have hsome : behind.takeWhile isDigit ≠ [] := by simpa using hne
    refine ⟨behind.takeWhile isDigit, fun c hc => List.mem_takeWhile_imp hc, rfl, ?_⟩
    rw [fractionText_of_ne_nil hsome, List.cons_append, List.takeWhile_append_dropWhile]
  · rw [scanFraction.eq_2 cs fun behind heq => hpoint ⟨behind, heq⟩] at h
    cases h
    exact ⟨[], by simp, rfl, rfl⟩

/-! ## Zones -/

/-- The sign of an offset: a plus, a hyphen, or a true minus sign. -/
inductive OffsetSign
  | plus
  | hyphen
  | minus

def OffsetSign.char : OffsetSign → Char
  | plus => '+'
  | hyphen => '-'
  | minus => '\u2212'

def OffsetSign.apply (minutes : Int) : OffsetSign → Int
  | plus => minutes
  | hyphen => -minutes
  | minus => -minutes

theorem OffsetSign.char_injective : Function.Injective OffsetSign.char := by
  intro s s' h
  cases s <;> cases s' <;> first | rfl | exact absurd h (by decide)

/-- The letter for UTC, or an offset of two numbers with two digits. -/
inductive Zone
  | capital
  | small
  | offset (sign : OffsetSign) (hours minutes : Nat) (hours_lt : hours < 10 ^ 2)
      (minutes_lt : minutes < 10 ^ 2)

namespace Zone

def text : Zone → List Char
  | capital => ['Z']
  | small => ['z']
  | offset sign hours minutes _ _ =>
    sign.char :: (fixedDigits 2 hours ++ ':' :: fixedDigits 2 minutes)

/-- How many minutes a clock of the zone is ahead of UTC. -/
def minutesAhead : Zone → Int
  | capital => 0
  | small => 0
  | offset sign hours minutes _ _ => sign.apply (60 * hours + minutes)

/-- Offsets are less than a day. -/
def IsInRange : Zone → Prop
  | capital => True
  | small => True
  | offset _ hours minutes _ _ => hours < 24 ∧ minutes < 60

theorem minutesAhead_bounds {z : Zone} (h : z.IsInRange) :
    -1440 < z.minutesAhead ∧ z.minutesAhead < 1440 := by
  cases z with
  | capital | small => decide
  | offset sign hours minutes _ _ =>
      obtain ⟨hhours, hminutes⟩ := h
      cases sign <;> simp only [minutesAhead, OffsetSign.apply] <;> omega

theorem text_injective : Function.Injective text := by
  intro z z' h
  cases z with
  | capital | small =>
      cases z' with
      | offset sign _ _ _ _ => cases sign <;> simp [text, OffsetSign.char] at h
      | _ => first | rfl | exact absurd h (by decide)
  | offset sign hours minutes hhours hminutes =>
      cases z' with
      | capital | small => cases sign <;> simp [text, OffsetSign.char] at h
      | offset sign' hours' minutes' hhours' hminutes' =>
          obtain ⟨hsign, hnumbers⟩ := List.cons.inj h
          obtain ⟨hfirst, hsecond⟩ := List.append_inj hnumbers (by simp)
          obtain rfl := OffsetSign.char_injective hsign
          obtain rfl := fixedDigits_injective hhours hhours' hfirst
          obtain rfl := fixedDigits_injective hminutes hminutes' (List.cons.inj hsecond).2
          rfl

end Zone

/-- The text of a zone that need not be written. -/
def zoneText : Option Zone → List Char
  | none => []
  | some z => z.text

theorem zoneText_injective : Function.Injective zoneText := by
  have hsome (z : Zone) : z.text ≠ [] := by cases z <;> simp [Zone.text]
  intro zone zone' h
  cases zone with
  | none =>
      cases zone' with
      | none => rfl
      | some z' => exact absurd h.symm (hsome z')
  | some z =>
      cases zone' with
      | none => exact absurd h (hsome z)
      | some z' => exact congrArg some (Zone.text_injective h)

/-- A zone begins with a character that cannot belong to a number, a fraction or a second. -/
theorem head_zoneText (zone : Option Zone) :
    NoDigitAhead (zoneText zone) ∧ NoPointAhead (zoneText zone) ∧
      (zoneText zone).head? ≠ some ':' := by
  match zone with
  | none | some .capital | some .small => simp [NoPointAhead, zoneText, Zone.text, isDigit]
  | some (.offset sign _ _ _ _) =>
      cases sign <;> simp [NoPointAhead, zoneText, Zone.text, OffsetSign.char, isDigit]

/-! ## Instants -/

/-- What stands between the day and the clock. -/
inductive DateSeparator
  | capital
  | small
  | blank

def DateSeparator.char : DateSeparator → Char
  | capital => 'T'
  | small => 't'
  | blank => ' '

theorem DateSeparator.char_injective : Function.Injective DateSeparator.char := by
  intro s s' h
  cases s <;> cases s' <;> first | rfl | exact absurd h (by decide)

/-- An instant as it is written: the second, its fraction and the zone may be left out. -/
structure WrittenInstant where
  date : Date
  isFourDigitYear : IsFourDigitYear date.year
  separator : DateSeparator
  hour : ClockNumber
  minute : ClockNumber
  second : Option WrittenSecond
  zone : Option Zone

def secondText : Option WrittenSecond → List Char
  | none => []
  | some s => ':' :: (s.number.text ++ fractionText s.fraction)

namespace WrittenInstant

/-- What is written behind the day. -/
def clockText (w : WrittenInstant) : List Char :=
  w.separator.char ::
    (w.hour.text ++ ':' :: (w.minute.text ++ (secondText w.second ++ zoneText w.zone)))

def text (w : WrittenInstant) : List Char :=
  w.date.write ++ w.clockText

/-- Whether the second is left out, and what it and the zone are, can be seen from their text. -/
theorem secondText_append_inj {second second' : Option WrittenSecond} {zone zone' : Option Zone}
    (h : secondText second ++ zoneText zone = secondText second' ++ zoneText zone') :
    second = second' ∧ zone = zone' := by
  obtain ⟨hdigit, hpoint, hcolon⟩ := head_zoneText zone
  obtain ⟨hdigit', hpoint', hcolon'⟩ := head_zoneText zone'
  cases second with
  | none =>
      cases second' with
      | none => exact ⟨rfl, zoneText_injective h⟩
      | some s' => exact absurd (congrArg List.head? h) hcolon
  | some s =>
      cases second' with
      | none => exact absurd (congrArg List.head? h).symm hcolon'
      | some s' =>
          obtain ⟨number, fraction, hfraction⟩ := s
          obtain ⟨number', fraction', hfraction'⟩ := s'
          simp only [secondText, List.cons_append, List.append_assoc, List.cons.injEq,
            true_and] at h
          obtain ⟨rfl, hbehind⟩ := ClockNumber.append_inj
            (noDigitAhead_fractionText_append hdigit) (noDigitAhead_fractionText_append hdigit') h
          obtain ⟨rfl, hzone⟩ : fraction = fraction' ∧ zoneText zone = zoneText zone' := by
            cases fraction with
            | nil =>
                cases fraction' with
                | nil => exact ⟨rfl, hbehind⟩
                | cons c' digits' => exact absurd (congrArg List.head? hbehind) hpoint
            | cons c digits =>
                cases fraction' with
                | nil => exact absurd (congrArg List.head? hbehind).symm hpoint'
                | cons c' digits' =>
                    exact append_inj_of_head hfraction hfraction' hdigit hdigit'
                      (List.cons.inj hbehind).2
          exact ⟨rfl, zoneText_injective hzone⟩

theorem noDigitAhead_secondText_append (second : Option WrittenSecond) (zone : Option Zone) :
    NoDigitAhead (secondText second ++ zoneText zone) := by
  cases second with
  | none => exact (head_zoneText zone).1
  | some s => simp [secondText, isDigit]

/-- A text is that of one written instant only. -/
theorem text_injective : Function.Injective text := by
  have hcolon (cs : List Char) : NoDigitAhead (':' :: cs) := by simp [isDigit]
  intro w w' h
  obtain ⟨date, hyear, separator, hour, minute, second, zone⟩ := w
  obtain ⟨date', hyear', separator', hour', minute', second', zone'⟩ := w'
  obtain ⟨hdate, hclock⟩ := List.append_inj h
    ((Date.length_write hyear).trans (Date.length_write hyear').symm)
  obtain rfl : date = date' := by
    have hread := Date.readLoose?_write date
    rw [hdate, Date.readLoose?_write] at hread
    cases hread
    rfl
  obtain ⟨hseparator, htime⟩ := List.cons.inj hclock
  obtain rfl := DateSeparator.char_injective hseparator
  obtain ⟨rfl, hbehind⟩ := ClockNumber.append_inj (hcolon _) (hcolon _) htime
  obtain ⟨rfl, hrest⟩ := ClockNumber.append_inj (noDigitAhead_secondText_append second zone)
    (noDigitAhead_secondText_append second' zone') (List.cons.inj hbehind).2
  obtain ⟨rfl, rfl⟩ := secondText_append_inj hrest
  rfl

end WrittenInstant

end EntityQuery
