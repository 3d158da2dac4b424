import EntityQuery.Text.Digits
import EntityQuery.Text.Scan
/-!
# Socket addresses

An IPv4 or IPv6 address and a number behind a colon, as in `127.0.0.1:3000` and `[::1]:3000`.
Numbers of an IPv4 address have no leading zeros. An IPv6 address may leave out
one run of zero groups and may end in an IPv4 address; it is written with the
longest run left out.
-/

namespace EntityQuery

/-- An address and the number of a service at it. -/
inductive SocketAddress
  | v4 (octets : List Nat) (service : Nat)
  /-- Eight groups of sixteen bits and the number of a zone, zero for none. -/
  | v6 (groups : List Nat) (zone service : Nat)
  deriving DecidableEq, Repr

namespace SocketAddress

open Text

/-! ## Reading -/

/-- Reads a decimal number of at most `width` digits, at most `limit`, with no leading zero. -/
def scanOctet (cs : List Char) : Option (Nat × List Char) := do
  let (n, rest) ← scanNumber 3 cs
  let used := cs.length - rest.length
  if n < 256 ∧ used = (natDigits n).length then some (n, rest) else none

/-- Reads four octets with points between them. -/
def scanV4 (cs : List Char) : Option (List Nat × List Char) := do
  let (a, cs) ← scanOctet cs
  let (b, cs) ← scanChar '.' cs >>= scanOctet
  let (c, cs) ← scanChar '.' cs >>= scanOctet
  let (d, cs) ← scanChar '.' cs >>= scanOctet
  some ([a, b, c, d], cs)

/-- Reads a number of any length that is at most `limit`. -/
def scanUpTo (limit : Nat) (cs : List Char) : Option (Nat × List Char) := do
  let (n, rest) ← scanNumber cs.length cs
  if n ≤ limit then some (n, rest) else none

/-- Reads a colon and a number, up to the end. -/
def readServiceNumber? (cs : List Char) : Option Nat := do
  let (service, rest) ← scanChar ':' cs >>= scanUpTo 65535
  if rest.isEmpty then some service else none

/-- Reads a group of one to four hexadecimal digits. -/
def scanGroup (cs : List Char) : Option (Nat × List Char) :=
  let digits := (cs.take 4).takeWhile fun c => (hexValue? c).isSome
  if digits.isEmpty then none
  else (natOfHex? digits).map fun n => (n, cs.drop digits.length)

/-- Reads the colon before every group but the first. -/
def scanGroupSeparator (first : Bool) (cs : List Char) : Option (List Char) :=
  if first then some cs else scanChar ':' cs

/-- Reads at most `room` groups; the last two may be an IPv4 address, which the flag tells. -/
def scanGroups (first : Bool) : Nat → List Char → List Nat × Bool × List Char
  | 0, cs => ([], false, cs)
  | room + 1, cs =>
    let octets? := if room = 0 then none else scanGroupSeparator first cs >>= scanV4
    match octets? with
    | some ([a, b, c, d], rest) => ([256 * a + b, 256 * c + d], true, rest)
    | _ =>
      match scanGroupSeparator first cs >>= scanGroup with
      | some (group, rest) =>
        let (groups, dotted, rest) := scanGroups false room rest
        (group :: groups, dotted, rest)
      | none => ([], false, cs)

/-- Reads eight groups, or fewer around two colons that stand for the missing ones. -/
def scanV6 (cs : List Char) : Option (List Nat × List Char) :=
  let (head, dotted, rest) := scanGroups true 8 cs
  if head.length = 8 then some (head, rest)
  else if dotted then none
  else do
    let rest ← scanChar ':' rest >>= scanChar ':'
    let (tail, _, rest) := scanGroups true (7 - head.length) rest
    some (head ++ List.replicate (8 - head.length - tail.length) 0 ++ tail, rest)

/-- Reads the number of a zone behind a percent sign, if there is one. -/
def scanZone : List Char → Option (Nat × List Char)
  | '%' :: rest => scanUpTo 0xFFFFFFFF rest
  | cs => some (0, cs)

def readV4? (cs : List Char) : Option SocketAddress := do
  let (octets, rest) ← scanV4 cs
  let service ← readServiceNumber? rest
  some (v4 octets service)

def readV6? (cs : List Char) : Option SocketAddress := do
  let (groups, rest) ← scanChar '[' cs >>= scanV6
  let (zone, rest) ← scanZone rest
  let service ← scanChar ']' rest >>= readServiceNumber?
  some (v6 groups zone service)

def read? (s : String) : Option SocketAddress :=
  readV4? s.toList <|> readV6? s.toList

/-! ## Writing -/

def writeOctets (octets : List Nat) : List Char :=
  ['.'].intercalate (octets.map natDigits)

/-- Hexadecimal digits with no leading zero. -/
def writeGroups (groups : List Nat) : List Char :=
  [':'].intercalate (groups.map (Nat.toDigits 16))

/-- How many zero groups stand at the front. -/
def zeroRun (groups : List Nat) : Nat :=
  (groups.takeWhile (· == 0)).length

/-- Where the first of the longest runs of zero groups starts, and its length. -/
def longestZeroRun (groups : List Nat) : Nat × Nat :=
  (List.range groups.length).foldl (fun best i =>
    let run := zeroRun (groups.drop i)
    if best.2 < run then (i, run) else best) (0, 0)

/-- An IPv6 address; one that stands for an IPv4 address ends in it. -/
def writeV6 (groups : List Nat) : List Char :=
  match groups with
  | [0, 0, 0, 0, 0, 0xFFFF, high, low] =>
    "::ffff:".toList ++ writeOctets [high / 256, high % 256, low / 256, low % 256]
  | groups =>
    let (start, length) := longestZeroRun groups
    if length ≤ 1 then writeGroups groups
    else
      writeGroups (groups.take start) ++ "::".toList ++
        writeGroups (groups.drop (start + length))

def write : SocketAddress → String
  | v4 octets service => String.ofList (writeOctets octets ++ ':' :: natDigits service)
  | v6 groups zone service =>
    let zoneText := if zone = 0 then [] else '%' :: natDigits zone
    String.ofList ('[' :: writeV6 groups ++ zoneText ++ ']' :: ':' :: natDigits service)

end SocketAddress

end EntityQuery
