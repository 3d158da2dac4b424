import EntityQuery.Text.Scan
import EntityQuery.Time.Instant
/-!
# Reading dates and instants

Four grammars are read here.

* The strict one of RFC 3339: fixed widths, one separator, an offset.
* The one of tagged instants: the strict one with any ASCII character as separator,
  and with leap seconds only where they may occur, at the end of a month.
* The loose one of stored entities: blanks may stand before each number, numbers
  need no leading zeros, years may be signed and long, offsets may be written in
  several ways.
* The one of filters: a date of exactly ten characters, then an RFC 3339 time or
  a local time read as UTC. Fractions are dropped.

All of them take second 60 in any minute as a leap second and convert to UTC.
-/

namespace EntityQuery

open Text

/-- Reads a fraction of a second if there is one; digits past the ninth do not count. -/
def scanFraction : List Char → Option (Nat × List Char)
  | '.' :: cs =>
    let (digits, rest) := scanDigits cs
    if digits.isEmpty then none
    else
      let used := digits.take 9
      some (natOfDigits used * Nat.pow 10 (9 - used.length), rest)
  | cs => some (0, cs)

/-- Reads the sign of an offset; a true minus sign is a minus as well. -/
def scanOffsetSign : List Char → Option (Bool × List Char)
  | '+' :: rest => some (false, rest)
  | '-' :: rest => some (true, rest)
  | '\u2212' :: rest => some (true, rest)
  | _ => none

/-- Reads a numeric offset in minutes, less than a day, `between` being what parts its numbers. -/
def scanNumericOffset (between : List Char → Option (List Char)) (cs : List Char) :
    Option (Int × List Char) := do
  let (negative, cs) ← scanOffsetSign cs
  let (hours, cs) ← scanFixed 2 cs
  let cs ← between cs
  let (minutes, cs) ← scanFixed 2 cs
  if minutes < 60 ∧ hours < 24 then
    let offset : Int := 60 * hours + minutes
    some (if negative then -offset else offset, cs)
  else none

def scanOffset (between : List Char → Option (List Char)) :
    List Char → Option (Int × List Char)
  | 'Z' :: rest => some (0, rest)
  | 'z' :: rest => some (0, rest)
  | cs => scanNumericOffset between cs

namespace Date

/-- Reads `YYYY-MM-DD`. -/
def scanFixed (cs : List Char) : Option (Date × List Char) := do
  let (year, cs) ← Text.scanFixed 4 cs
  let cs ← scanChar '-' cs
  let (month, cs) ← Text.scanFixed 2 cs
  let cs ← scanChar '-' cs
  let (day, cs) ← Text.scanFixed 2 cs
  let date ← ofCivil? year month day
  some (date, cs)

/-- `YYYY-MM-DD` and nothing else. -/
def readFixed? (cs : List Char) : Option Date := do
  let (date, rest) ← scanFixed cs
  if rest.isEmpty then some date else none

/-- Reads a year after any blanks: up to four digits, or a sign and any number of them. -/
def scanLooseYear (cs : List Char) : Option (Int × List Char) :=
  match trimStart cs with
  | '-' :: rest => (scanNumber rest.length rest).map fun (n, rest) => (-n, rest)
  | '+' :: rest => (scanNumber rest.length rest).map fun (n, rest) => (n, rest)
  | rest => (scanNumber 4 rest).map fun (n, rest) => (n, rest)

/-- Reads a year, month and day with hyphens between them and blanks allowed. -/
def scanLoose (cs : List Char) : Option (Date × List Char) := do
  let (year, cs) ← scanLooseYear cs
  let cs ← scanChar '-' (trimStart cs)
  let (month, cs) ← scanSpacedNumber 2 cs
  let cs ← scanChar '-' (trimStart cs)
  let (day, cs) ← scanSpacedNumber 2 cs
  let date ← ofCivil? year month day
  some (date, cs)

/-- The dates of stored entities. -/
def readLoose? (cs : List Char) : Option Date := do
  let (date, rest) ← scanLoose cs
  if (trimStart rest).isEmpty then some date else none

end Date

namespace Instant

def scanSeparator : List Char → Option (List Char)
  | 'T' :: rest => some rest
  | 't' :: rest => some rest
  | ' ' :: rest => some rest
  | _ => none

/-- A date and time of fixed widths with an offset, and nothing else. -/
def readFixed? (separator : List Char → Option (List Char)) (cs : List Char) :
    Option Instant := do
  let (date, cs) ← Date.scanFixed cs
  let cs ← separator cs
  let (hour, cs) ← Text.scanFixed 2 cs
  let cs ← scanChar ':' cs
  let (minute, cs) ← Text.scanFixed 2 cs
  let cs ← scanChar ':' cs
  let (second, cs) ← Text.scanFixed 2 cs
  let (nano, cs) ← scanFraction cs
  let (offset, cs) ← scanOffset (scanChar ':') cs
  if cs.isEmpty then (ofCivil? date hour minute second nano).bind (behind? offset) else none

/-- An RFC 3339 date and time, and nothing else. -/
def readStrict? (cs : List Char) : Option Instant :=
  readFixed? scanSeparator cs

def endsMonth (t : Instant) : Bool :=
  t.second.val = 86399 && t.date.day = daysInMonth t.date.year t.date.month

/-- The last nanosecond that is not in a leap second. -/
def beforeLeap (t : Instant) : Instant :=
  if t.nano < 1000000000 then t
  else { t with nano := 999999999, nano_lt := by omega, leap := by omega }

/-- The instants of tagged values. -/
def readTagged? (cs : List Char) : Option Instant := do
  if !cs.all (·.toNat < 128) then none
  else
    let t ← readFixed? List.tail? cs
    if t.nano < 1000000000 || t.endsMonth then some t.beforeLeap else none

/-- Reads what may part the numbers of a loosely written offset: any colons and blanks. -/
def skipColonsAndBlanks (cs : List Char) : Option (List Char) :=
  some (cs.dropWhile fun c => c = ':' || isBlank c)

/-- Reads the word `UTC` in any case, or an offset. -/
def scanLooseOffset : List Char → Option (Int × List Char)
  | u :: t :: c :: rest =>
    if u.toLower = 'u' ∧ t.toLower = 't' ∧ c.toLower = 'c' then some (0, rest)
    else scanOffset skipColonsAndBlanks (u :: t :: c :: rest)
  | cs => scanOffset skipColonsAndBlanks cs

/-- The instants of stored entities. -/
def readLoose? (cs : List Char) : Option Instant := do
  let (date, cs) ← Date.scanLoose cs
  let cs ← scanSeparator cs
  let (hour, cs) ← scanSpacedNumber 2 cs
  let cs ← scanChar ':' (trimStart cs)
  let (minute, cs) ← scanSpacedNumber 2 cs
  let cs ← scanChar ':' (trimStart cs)
  let (second, cs) ← scanSpacedNumber 2 cs
  let (nano, cs) ← scanFraction cs
  let (offset, cs) ← scanLooseOffset (trimStart cs)
  if (trimStart cs).isEmpty then (ofCivil? date hour minute second nano).bind (behind? offset)
  else none

/-- A local time with seconds: numbers of one or two digits, blanks before each. -/
def readLocalSeconds? (date : Date) (cs : List Char) : Option Instant := do
  let cs ← scanChar 'T' cs
  let (hour, cs) ← scanSpacedNumber 2 cs
  let cs ← scanChar ':' cs
  let (minute, cs) ← scanSpacedNumber 2 cs
  let cs ← scanChar ':' cs
  let (second, cs) ← scanSpacedNumber 2 cs
  let (nano, cs) ← scanFraction cs
  if cs.isEmpty then ofCivil? date hour minute second nano else none

def readLocalMinutes? (date : Date) (cs : List Char) : Option Instant := do
  let cs ← scanChar 'T' cs
  let (hour, cs) ← scanSpacedNumber 2 cs
  let cs ← scanChar ':' cs
  let (minute, cs) ← scanSpacedNumber 2 cs
  if cs.isEmpty then ofCivil? date hour minute 0 0 else none

def byteLength : List Char → Nat
  | [] => 0
  | c :: rest => c.utf8Size + byteLength rest

/-- The instants of filters: at least sixteen bytes, the first ten a date, whole seconds. -/
def readFilter? (cs : List Char) : Option Instant := do
  if byteLength cs < 16 then none
  else
    let date ← Date.readFixed? (cs.take 10)
    let time := cs.drop 10
    let instant ← readStrict? cs <|> readLocalSeconds? date time <|> readLocalMinutes? date time
    some instant.wholeSecond

end Instant

end EntityQuery
