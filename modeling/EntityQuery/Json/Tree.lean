import EntityQuery.Json.Basic
import EntityQuery.Text.Digits
/-!
# Parsed JSON texts

A parsed text before its numbers and strings have been given values: a number may
be too large for a double, a string may hold half of a surrogate pair, and an
object may name a member twice. A text that merely skips a value accepts all of
these, and a text that uses it does not, so the tree keeps them.
-/

namespace EntityQuery

/-- A number as it is spelled. -/
structure NumberLiteral where
  negative : Bool
  whole : List Char
  /-- The digits behind the point, if there is one. -/
  fraction : Option (List Char)
  /-- Whether the exponent is negative, and its digits, if there is one. -/
  exponent : Option (Bool × List Char)
  deriving DecidableEq, Repr

namespace Json

/-- A parsed text. A string or member name that denotes no text is `none`. -/
inductive Tree
  | null
  | bool (value : Bool)
  | number (literal : NumberLiteral)
  | str (text : Option String)
  | arr (items : List Tree)
  | obj (members : List (Option String × Tree))
  deriving Inhabited

end Json

namespace NumberLiteral

def greatest : Nat := 0xFFFFFFFFFFFFFFFF

/-- Takes digits into a 64-bit significand as long as it fits; the rest is left. -/
def gather (significand : Nat) : List Char → Nat × List Char
  | [] => (significand, [])
  | c :: rest =>
    let next := 10 * significand + Text.digitValue c
    if next ≤ greatest then gather next rest else (significand, c :: rest)

def powerOfTen (n : Nat) : Binary64 :=
  .ofRatio false (Nat.pow 10 n) 1

/-- Divides by a power of ten, at most 308 digits at a time, until nothing is left. -/
def scaleDown (x : Binary64) (n : Nat) : Binary64 :=
  if n ≤ 308 then x.div (powerOfTen n)
  else if x.isZero then x
  else scaleDown (x.div (powerOfTen 308)) (n - 308)
termination_by n

/-- Multiplies by a power of ten; there is no value beyond the doubles. -/
def scaleUp? (x : Binary64) (n : Nat) : Option Binary64 :=
  if n ≤ 308 then
    let y := x.mul (powerOfTen n)
    if y.isFinite then some y else none
  else if x.isZero then some x else none

/-- A significand times a power of ten, each step rounded. -/
def scaled? (negative : Bool) (significand : Nat) (exponent : Int) : Option Binary64 :=
  let x := Binary64.ofInt significand
  let y? := if 0 ≤ exponent then scaleUp? x exponent.toNat
    else some (scaleDown x (-exponent).toNat)
  y?.map fun y => if negative then y.neg else y

/-- The greatest exponent that is read digit by digit. -/
def greatestExponent : Nat := 0x7FFFFFFF

/-- Applies the written exponent to a significand that already has a power of ten. -/
def withExponent? (n : NumberLiteral) (significand : Nat) (exponent : Int) : Option Binary64 :=
  match n.exponent with
  | none => scaled? n.negative significand exponent
  | some (negative, digits) =>
    let e := Text.natOfDigits digits
    if greatestExponent < e then
      if significand ≠ 0 ∧ !negative then none else some (.zero n.negative)
    else
      let limit : Int := greatestExponent
      let total := if negative then exponent - e else exponent + e
      scaled? n.negative significand (max (-limit - 1) (min limit total))

/-- A number with a point or an exponent, or too long for 64 bits, as a double. -/
def float? (n : NumberLiteral) : Option Binary64 :=
  let (significand, unread) := gather 0 n.whole
  match n.fraction with
  | none => n.withExponent? significand unread.length
  | some fraction =>
    let (significand, left) := gather significand fraction
    let used := fraction.length - left.length
    n.withExponent? significand (unread.length - used)

/-- The value of a number: whole numbers of 64 bits stay whole, but minus zero is a double. -/
def value? (n : NumberLiteral) : Option Json :=
  let whole := Text.natOfDigits n.whole
  if n.fraction.isSome || n.exponent.isSome || greatest < whole then n.float?.map .float
  else if !n.negative then some (.int whole)
  else if whole = 0 ∨ 0x8000000000000000 < whole then some (.float (.ofRatio true whole 1))
  else some (.int (-whole))

end NumberLiteral

namespace Json.Tree

mutual

/-- The value of a text nested at most `depth` deep; the last of two members of one name counts. -/
def value? (depth : Nat) : Tree → Option Json
  | null => some .null
  | bool b => some (.bool b)
  | number literal => literal.value?
  | str text => text.map .str
  | arr items => if depth = 0 then none else (values? (depth - 1) items).map .arr
  | obj members =>
    if depth = 0 then none
    else (memberValues? (depth - 1) members).map fun pairs => .obj (Assoc.ofList pairs)

def values? (depth : Nat) : List Tree → Option (List Json)
  | [] => some []
  | t :: rest => do
    let v ← value? depth t
    let vs ← values? depth rest
    some (v :: vs)

def memberValues? (depth : Nat) : List (Option String × Tree) → Option (List (String × Json))
  | [] => some []
  | (name, t) :: rest => do
    let name ← name
    let v ← value? depth t
    let vs ← memberValues? depth rest
    some ((name, v) :: vs)

end

end Json.Tree

end EntityQuery
