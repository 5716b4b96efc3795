import TypedClient.Binary64

/-!
# The shortest decimal that reads back

A finite number is written with the fewest significant digits that read back as the same number.
For each count of digits, from one upwards, only the two neighbours of the exact value on the grid
of decimals with that many digits matter; the first grid on which one of them reads back wins, and
of two neighbours that both read back the nearer one.

* `Binary64.shortest`: the digits and the power of ten of the shortest decimal.
-/

namespace TypedClient

/-- A positive decimal fraction `digits · 10 ^ power`. -/
structure Decimal where
  digits : Nat
  power : Int
deriving Repr, DecidableEq, Inhabited

namespace Binary64

/-- A finite number without its sign as a quotient of whole numbers. -/
def ratio (mantissa : Nat) (exponent : Int) : Nat × Nat :=
  if 0 ≤ exponent then (mantissa * Nat.pow 2 exponent.toNat, 1)
  else (mantissa, Nat.pow 2 (-exponent).toNat)

/-- The quotient divided by `10 ^ power`, as a pair of whole numbers. -/
def inTens (num den : Nat) (power : Int) : Nat × Nat :=
  if 0 ≤ power then (num, den * Nat.pow 10 power.toNat) else (num * Nat.pow 10 (-power).toNat, den)

/-- The power of ten of the leading decimal digit of a positive quotient. -/
def leadingPower (num den : Nat) : Int :=
  let guess : Int := (decimalLength num : Int) - decimalLength den
  let (n, d) := inTens num den guess
  if d ≤ n then guess else guess - 1

/-- Of the two neighbours of the quotient on the grid of multiples of `10 ^ power`, the one that
reads back as `x` and is nearer, if one reads back.  A tie goes to the even neighbour. -/
def neighbour? (x : Binary64) (num den : Nat) (power : Int) : Option Decimal :=
  let (n, d) := inTens num den power
  let below := n / d
  let above := below + 1
  let twice := 2 * (n % d)
  let readsBack (digits : Nat) : Bool := decide (ofDecimal false digits power = x)
  let belowIsNearer := twice < d || (twice == d && below % 2 == 0)
  let (first, second) := if belowIsNearer then (below, above) else (above, below)
  if readsBack first then some ⟨first, power⟩
  else if readsBack second then some ⟨second, power⟩
  else none

/-- The first grid on which a neighbour reads back, starting from `count` significant digits and
trying `tries` further grids. -/
def shortestFrom (x : Binary64) (num den : Nat) (lead : Int) : (tries count : Nat) → Decimal
  | 0, count => let power := lead - count + 1
    let (n, d) := inTens num den power
    ⟨roundDiv n d, power⟩
  | tries + 1, count =>
    match neighbour? x num den (lead - count + 1) with
    | some decimal => decimal
    | none => shortestFrom x num den lead tries (count + 1)

/-- A decimal without trailing zeros among its digits; `fuel` bounds their number. -/
def dropZeros : (fuel : Nat) → Decimal → Decimal
  | 0, decimal => decimal
  | fuel + 1, ⟨digits, power⟩ =>
    if digits ≠ 0 ∧ digits % 10 = 0 then dropZeros fuel ⟨digits / 10, power + 1⟩
    else ⟨digits, power⟩

/-- The shortest decimal that reads back as the finite positive number `mantissa · 2 ^ exponent`.
Seventeen digits always suffice. -/
def shortest (mantissa : Nat) (exponent : Int) : Decimal :=
  let (num, den) := ratio mantissa exponent
  dropZeros 20 (shortestFrom (.finite false mantissa exponent) num den (leadingPower num den) 16 1)

end Binary64

end TypedClient
