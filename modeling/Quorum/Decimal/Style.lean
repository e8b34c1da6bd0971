/-
  Quorum/Decimal/Style.lean
  =========================
  **Number texts.**

  One layout function writes a decimal in positional or exponent form; a `Style` record
  holds the decisions that differ between the texts of this library.  `plain` is used in
  messages and details, `json` in canonical keys, `exported` in report files.  Fixed and
  general texts (`fixed 2`, `general`) round the exact binary value, ties to even.
-/
import Quorum.Decimal.Shortest

namespace Quorum.Decimal

/-- The decisions behind one kind of number text. -/
structure Style where
  /-- Exponents of the first digit from here … -/
  positionalFrom : Int
  /-- … and below here are written without an exponent. -/
  positionalBelow : Int
  /-- A whole number keeps a final `.0`. -/
  keepsPoint : Bool
  /-- Exponents have at least this many digits. -/
  exponentWidth : Nat
  infinityText : String
  undefinedText : String

/-- Numbers inside messages: positional from `0.0001` to below `10 ^ 16`. -/
def Style.plain : Style := ⟨-4, 16, true, 2, "inf", "nan"⟩

def Style.json : Style := { Style.plain with infinityText := "Infinity", undefinedText := "NaN" }

/-- Numbers in exported report files; what is not a number there is `null`. -/
def Style.exported : Style := ⟨-5, 16, true, 1, "null", "null"⟩

/-- Numbers shown to people, from at most six significant digits. -/
def Style.general : Style := ⟨-4, 6, false, 2, "inf", "nan"⟩

def digitChars (n : Nat) : List Char := Nat.toDigits 10 n

def padZeros (width : Nat) (cs : List Char) : List Char :=
  List.replicate (width - cs.length) '0' ++ cs

namespace Style

/-- Write digits with the first one at decimal exponent `e`. -/
def layout (style : Style) (digits : List Char) (e : Int) : List Char :=
  if style.positionalFrom ≤ e ∧ e < style.positionalBelow then
    if e < 0 then
      '0' :: '.' :: (List.replicate (-e - 1).toNat '0' ++ digits)
    else
      let whole := e.toNat + 1
      if digits.length ≤ whole then
        digits ++ List.replicate (whole - digits.length) '0'
          ++ (if style.keepsPoint then ['.', '0'] else [])
      else digits.take whole ++ '.' :: digits.drop whole
  else
    let significand := match digits with
      | [] => ['0']
      | [d] => [d]
      | d :: rest => d :: '.' :: rest
    let sign := if e < 0 then '-' else '+'
    significand ++ 'e' :: sign :: padZeros style.exponentWidth (digitChars e.natAbs)

def write (style : Style) (x : Float) : String :=
  match Reading.ofFloat x with
  | .undefined => style.undefinedText
  | .infinite negative =>
    if negative && style.infinityText != style.undefinedText then "-" ++ style.infinityText
    else style.infinityText
  | .finite d =>
    let body :=
      if d.mantissa == 0 then style.layout ['0'] 0
      else
        let s := shortest d
        let digits := digitChars s.digits
        style.layout digits (s.exponent + digits.length - 1)
    String.ofList (if d.negative then '-' :: body else body)

end Style

def plainText (x : Float) : String := Style.plain.write x

/-- Drop the zeros at the end of a digit list, keeping one digit. -/
def dropTrailingZeros (cs : List Char) : List Char :=
  match (cs.reverse.dropWhile (· == '0')).reverse with
  | [] => ['0']
  | kept => kept

/-- The text of a fraction with six significant digits, trailing zeros dropped. -/
def generalFraction (negative : Bool) (n k : Nat) : String :=
  let body :=
    if n == 0 then ['0']
    else
      let (c, e) := roundSignificant n k 6
      Style.general.layout (dropTrailingZeros (digitChars c)) e
  String.ofList (if negative then '-' :: body else body)

def generalText (x : Float) : String :=
  match Reading.ofFloat x with
  | .undefined => Style.general.undefinedText
  | .infinite negative => if negative then "-inf" else "inf"
  | .finite d =>
    let (n, k) := d.fraction
    generalFraction d.negative n k

def fixedFraction (places : Nat) (negative : Bool) (n k : Nat) : String :=
  let digits := padZeros (places + 1) (digitChars (roundPlaces n k places))
  let whole := digits.take (digits.length - places)
  let body := if places == 0 then whole else whole ++ '.' :: digits.drop (digits.length - places)
  String.ofList (if negative then '-' :: body else body)

def fixedText (places : Nat) (x : Float) : String :=
  match Reading.ofFloat x with
  | .undefined => "nan"
  | .infinite negative => if negative then "-inf" else "inf"
  | .finite d =>
    let (n, k) := d.fraction
    fixedFraction places d.negative n k

end Quorum.Decimal
