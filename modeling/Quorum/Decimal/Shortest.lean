/-
  Quorum/Decimal/Shortest.lean
  ============================
  **Doubles as exact fractions, and the decimal numbers nearest to them.**

  Every number text of this library (confidences, weights, latencies, timeouts) is chosen
  from the exact value of a double.  All tests are exact arithmetic on natural numbers.
-/

namespace Quorum.Decimal

/-! ### What a double stands for: an exact binary fraction, an infinity, or no number

Every number text of this library (confidences, weights, latencies, timeouts) is
chosen from the exact value of a double, so the bits are taken apart here once.
`Reading.ofFloat` gives sign, integral mantissa and power of two; nothing after it
looks at bits again. -/

/-- The exact value `± mantissa · 2 ^ exponent` of a finite double. -/
structure Dyadic where
  negative : Bool
  mantissa : Nat
  exponent : Int
deriving DecidableEq, Repr

/-- What the bits of a double say. -/
inductive Reading where
  | finite (d : Dyadic)
  | infinite (negative : Bool)
  | undefined
deriving DecidableEq, Repr

/-- Take the 64 bits apart: one sign bit, eleven bits of exponent, 52 bits of fraction. -/
def Reading.ofBits (bits : Nat) : Reading :=
  let negative := bits / Nat.pow 2 63 % 2 == 1
  let field := bits / Nat.pow 2 52 % 2048
  let fraction := bits % Nat.pow 2 52
  if field == 2047 then
    if fraction == 0 then .infinite negative else .undefined
  else if field == 0 then .finite ⟨negative, fraction, -1074⟩
  else .finite ⟨negative, Nat.pow 2 52 + fraction, Int.ofNat field - 1075⟩

def Reading.ofFloat (x : Float) : Reading := .ofBits x.toBits.toNat

namespace Dyadic

/-- The magnitude as a fraction `numerator / denominator`. -/
def fraction (d : Dyadic) : Nat × Nat :=
  if 0 ≤ d.exponent then (d.mantissa * Nat.pow 2 d.exponent.toNat, 1)
  else (d.mantissa, Nat.pow 2 (-d.exponent).toNat)

def toRat (d : Dyadic) : Rat :=
  let (n, k) := d.fraction
  let v : Rat := mkRat n k
  if d.negative then -v else v

def isWhole (d : Dyadic) : Bool :=
  let (n, k) := d.fraction
  n % k == 0

def wholePart (d : Dyadic) : Nat :=
  let (n, k) := d.fraction
  n / k

end Dyadic

/-- The exact value of a finite double. -/
def exactValue? (x : Float) : Option Rat :=
  match Reading.ofFloat x with
  | .finite d => some d.toRat
  | _ => none

/-! ### The fewest decimal digits that read back as the same double

A double owns an interval of reals: everything nearer to it than to its neighbours,
the end points included when its mantissa is even.  On the decimal grid of one,
two, … seventeen significant digits only the two grid points around the exact value
can lie in that interval, so the first grid with a hit has the fewest digits and the
nearer hit is the best of them.  All tests are exact arithmetic on natural numbers. -/

/-- A positive decimal `digits · 10 ^ exponent`. -/
structure Scientific where
  digits : Nat
  exponent : Int
deriving DecidableEq, Repr

/-! ### Decimal magnitude -/

/-- Compare `n / k` with `10 ^ e`: the quotient is at least that power of ten. -/
def atLeastPow (n k : Nat) (e : Int) : Bool :=
  if 0 ≤ e then decide (Nat.pow 10 e.toNat * k ≤ n) else decide (k ≤ n * Nat.pow 10 (-e).toNat)

/-- Climb from `e` to the largest exponent whose power of ten is not above `n / k`. -/
def climb (n k : Nat) : Nat → Int → Int
  | 0, e => e
  | fuel + 1, e => if atLeastPow n k (e + 1) then climb n k fuel (e + 1) else e

/-- The exponent `e` with `10 ^ e ≤ n / k < 10 ^ (e + 1)`, for `n, k > 0`.  The bit
    lengths give an estimate at most two too small, and the climb repairs it. -/
def magnitude (n k : Nat) : Int :=
  let bits : Int := (Nat.log2 n : Int) - (Nat.log2 k : Int) - 1
  let estimate := Int.fdiv (bits * 30103) 100000 - 1
  climb n k 6 estimate

/-! ### Grid points -/

/-- `n / k` in units of `10 ^ s`, as a fraction. -/
def scaled (n k : Nat) (s : Int) : Nat × Nat :=
  if 0 ≤ s then (n, k * Nat.pow 10 s.toNat) else (n * Nat.pow 10 (-s).toNat, k)

/-- The grid point `c · 10 ^ s` lies in the interval of reals that round to the double
    with mantissa `m` and exponent `q`. -/
def ownsPoint (m : Nat) (q : Int) (c : Nat) (s : Int) : Bool :=
  -- everything in quarters of the mantissa's unit
  let unit := q - 2
  let low := if m == Nat.pow 2 52 && q != -1074 then 4 * m - 1 else 4 * m - 2
  let high := 4 * m + 2
  let (ln, lk) := scaled low 1 s
  let (hn, hk) := scaled high 1 s
  let two (e : Int) : Nat × Nat :=
    if 0 ≤ e then (Nat.pow 2 e.toNat, 1) else (1, Nat.pow 2 (-e).toNat)
  let (un, uk) := two unit
  let l := compare (ln * un) (c * lk * uk)
  let h := compare (c * hk * uk) (hn * un)
  if m % 2 == 0 then l != .gt && h != .gt else l == .lt && h == .lt

def stripZeros : Nat → Scientific → Scientific
  | 0, x => x
  | fuel + 1, x =>
    if x.digits != 0 && x.digits % 10 == 0 then stripZeros fuel ⟨x.digits / 10, x.exponent + 1⟩
    else x

/-- The best point of the grid `10 ^ s`, if one of the two around the value is owned. -/
def gridHit? (d : Dyadic) (s : Int) : Option Nat :=
  let (n, k) := d.fraction
  let (sn, sk) := scaled n k s
  let below := sn / sk
  let above := below + 1
  let lowOk := ownsPoint d.mantissa d.exponent below s && below != 0
  let highOk := ownsPoint d.mantissa d.exponent above s
  match lowOk, highOk with
  | true, true =>
    -- distance below against distance above
    match compare (2 * (sn % sk)) sk with
    | .lt => some below
    | .gt => some above
    | .eq => some (if below % 2 == 0 then below else above)
  | true, false => some below
  | false, true => some above
  | false, false => none

/-- Try one more digit until a grid has a hit. -/
def searchGrids (d : Dyadic) (top : Int) : Nat → Nat → Scientific
  | 0, _ => ⟨d.mantissa, d.exponent⟩
  | fuel + 1, count =>
    let s := top - count
    match gridHit? d s with
    | some c => stripZeros 20 ⟨c, s⟩
    | none => searchGrids d top fuel (count + 1)

/-- The shortest decimal that reads back as the positive double `d`. -/
def shortest (d : Dyadic) : Scientific :=
  let (n, k) := d.fraction
  searchGrids d (magnitude n k) 18 0

/-! ### Rounding a quotient to the nearest whole number, a half going to the even neighbour -/

/-- The whole number nearest to `n / k`; a tie goes to the even one. -/
def roundQuotient (n k : Nat) : Nat :=
  match compare (2 * (n % k)) k with
  | .lt => n / k
  | .gt => n / k + 1
  | .eq => if n / k % 2 == 0 then n / k else n / k + 1

/-- The whole number nearest to a rational; a tie goes to the even one. -/
def roundRat (r : Rat) : Int :=
  let q := roundQuotient r.num.natAbs r.den
  if r.num < 0 then -(q : Int) else q

/-- `n / k` rounded to `places` decimals, in units of the last place. -/
def roundPlaces (n k : Nat) (places : Nat) : Nat := roundQuotient (n * Nat.pow 10 places) k

/-- `n / k > 0` rounded to `count` significant digits: the digits, and the exponent of the
    first of them. -/
def roundSignificant (n k : Nat) (count : Nat) : Nat × Int :=
  let e := magnitude n k
  let (sn, sk) := scaled n k (e - (count - 1 : Nat))
  let c := roundQuotient sn sk
  if c == Nat.pow 10 count then (Nat.pow 10 (count - 1), e + 1) else (c, e)

end Quorum.Decimal
