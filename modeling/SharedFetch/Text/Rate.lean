/-!
# Rates with two places

A rate is a number of deliveries divided by a time in seconds, computed in double precision
and written with two places after the point. The places are those of the double itself, whose
value is a whole number times a power of two, so the rounding is exact: to the nearest, and a
tie goes to the even neighbour.
-/

namespace SharedFetch.Text

/-- The whole number nearest to a quotient; a tie goes to the even neighbour. -/
def roundQuotient (a b : Nat) : Nat :=
  if 2 * (a % b) < b then a / b
  else if b < 2 * (a % b) then a / b + 1
  else if a / b % 2 = 0 then a / b
  else a / b + 1

/-- A whole number of hundredths with a point before the last two digits. -/
def hundredths (n : Nat) : String :=
  toString (n / 100) ++ "." ++ toString (n / 10 % 10) ++ toString (n % 10)

/-- A finite double that is not negative, with two places. A double holds a significand and
the power of two that it is multiplied with. -/
def twoPlaces (x : Float) : String :=
  let bits := x.toBits.toNat
  let fraction := bits % (1 <<< 52)
  let exponent := (bits >>> 52) % (1 <<< 11)
  let significand := if exponent = 0 then fraction else fraction + (1 <<< 52)
  let power := max exponent 1
  hundredths
    (if 1075 ≤ power then (100 * significand) <<< (power - 1075)
    else roundQuotient (100 * significand) (1 <<< (1075 - power)))

/-- A time in milliseconds as seconds. -/
def seconds (ms : Nat) : Float :=
  (UInt64.ofNat (ms / 1000)).toFloat + (UInt64.ofNat (ms % 1000 * 1000000)).toFloat / 1000000000

/-- So many deliveries in so many milliseconds, as a rate by the second. -/
def rate (delivered : UInt64) (ms : Nat) : String :=
  if ms = 0 then "0.00" else twoPlaces (delivered.toFloat / seconds ms)

end SharedFetch.Text
