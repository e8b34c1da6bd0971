/-
  Quorum/Decimal/Numeral.lean
  ===========================
  **Reading numerals.**

  A numeral is a sign, whole digits, an optional fraction and an optional exponent.  Its
  value is exact until the last step, where it becomes the nearest double.
-/
import Quorum.Decimal.Style

namespace Quorum.Decimal

def digitValue (c : Char) : Nat := c.toNat - '0'.toNat

def ofDigits (cs : List Char) : Nat := cs.foldl (fun n c => 10 * n + digitValue c) 0

/-- The double nearest to `± digits · 10 ^ exponent`.  Far outside the range of doubles the
    answer is known without computing the power. -/
def nearestFloat (negative : Bool) (digits : Nat) (exponent : Int) : Float :=
  let magnitude : Float :=
    if digits == 0 then 0.0
    else
      let top : Int := exponent + (digitChars digits).length
      if top > 320 then 1.0 / 0.0
      else if top < -340 then 0.0
      else if 0 ≤ exponent then Float.ofScientific (digits * Nat.pow 10 exponent.toNat) false 0
      else Float.ofScientific digits true (-exponent).toNat
  if negative then -magnitude else magnitude

def floatOfInt (i : Int) : Float := nearestFloat (decide (i < 0)) i.natAbs 0

/-- The double nearest to a rational, by way of forty significant digits. -/
def floatOfRat (r : Rat) : Float :=
  if r.num == 0 then 0.0
  else
    let e := magnitude r.num.natAbs r.den
    let s := e - 40
    let (n, k) := scaled r.num.natAbs r.den s
    nearestFloat (decide (r.num < 0)) (roundQuotient n k) s

/-- The double nearest to a double rounded to a number of decimals. -/
def roundedTo (places : Nat) (x : Float) : Float :=
  match Reading.ofFloat x with
  | .finite d =>
    let (n, k) := d.fraction
    nearestFloat d.negative (roundPlaces n k places) (-(places : Int))
  | _ => x

structure Numeral where
  negative : Bool
  whole : List Char
  /-- The digits after the point, if there is one. -/
  fraction : Option (List Char)
  exponent : Option Int
deriving DecidableEq, Repr

namespace Numeral

def toFloat (n : Numeral) : Float :=
  let fraction := n.fraction.getD []
  nearestFloat n.negative (ofDigits (n.whole ++ fraction))
    (n.exponent.getD 0 - fraction.length)

end Numeral

/-- Read a sign, if there is one. -/
def takeSign : List Char → Bool × List Char
  | '-' :: r => (true, r)
  | '+' :: r => (false, r)
  | r => (false, r)

def takeDigits (cs : List Char) : List Char × List Char := cs.span Char.isDigit

/-- Read an exponent part: a mark, a sign and at least one digit.  A mark with no digit
    after it is not an exponent. -/
def takeExponent? : List Char → Option Int × List Char
  | c :: r =>
    if c == 'e' || c == 'E' then
      let (negative, r') := takeSign r
      let (digits, rest) := takeDigits r'
      if digits.isEmpty then (none, c :: r)
      else
        let n : Int := ofDigits digits
        (some (if negative then -n else n), rest)
    else (none, c :: r)
  | [] => (none, [])

/-- A whole text that is a numeral: sign, digits, point and exponent, with a digit on at
    least one side of the point. -/
def numeral? (cs : List Char) : Option Numeral :=
  let (negative, r) := takeSign cs
  let (whole, r) := takeDigits r
  let (fraction, r) := match r with
    | '.' :: r' => let (f, rest) := takeDigits r'; (some f, rest)
    | r => (none, r)
  if whole.isEmpty && (fraction.getD []).isEmpty then none
  else
    let (exponent, rest) := takeExponent? r
    if rest.isEmpty then some ⟨negative, whole, fraction, exponent⟩ else none

/-- The words for what is not an ordinary number, in any case. -/
def specialNumber? (cs : List Char) : Option Float :=
  let (negative, r) := takeSign cs
  let word := String.ofList (r.map Char.toLower)
  if word == "inf" || word == "infinity" then some (if negative then -(1.0 / 0.0) else 1.0 / 0.0)
  else if word == "nan" then some (0.0 / 0.0)
  else none

/-- The double a text stands for: a numeral, or a word for infinity or for no number. -/
def float? (cs : List Char) : Option Float :=
  match numeral? cs with
  | some n => some n.toFloat
  | none => specialNumber? cs

end Quorum.Decimal
