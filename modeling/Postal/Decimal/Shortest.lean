/-!
# The shortest decimal that reads back.

A finite binary number stands for every real that rounds to it. Of the decimals in that interval the
ones with the fewest digits are the shortest, and of those the one nearest to the number is taken,
of two equally near ones the even one. All of it is exact arithmetic on natural numbers.
-/

namespace Postal.Decimal

/-- A positive binary number `mantissa * 2 ^ exponent`. The gap below is half the gap above if
`narrow`. -/
structure Binary where
  mantissa : Nat
  exponent : Int
  narrow : Bool
  deriving DecidableEq, Repr

/-- Decimal digits read as a whole number, the first of them standing for `10 ^ exponent`. -/
structure Digits where
  value : Nat
  exponent : Int
  deriving DecidableEq, Repr

namespace Binary

/-- The number as a fraction in quarters of its last place: itself, the ends of its interval, and
the denominator. -/
structure Quarters where
  value : Nat
  low : Nat
  high : Nat
  unit : Nat

/-- The fraction of a number. -/
def quarters (b : Binary) : Quarters :=
  let shift := Nat.pow 2 (b.exponent - 2).toNat
  { value := 4 * b.mantissa * shift
    low := (4 * b.mantissa - if b.narrow then 1 else 2) * shift
    high := (4 * b.mantissa + 2) * shift
    unit := Nat.pow 2 (2 - b.exponent).toNat }

/-- The decimal place of the first digit. -/
def Quarters.place (f : Quarters) : Int :=
  if f.unit ≤ f.value then ((Nat.toDigits 10 (f.value / f.unit)).length : Int) - 1
  else
    let zeros := (Nat.toDigits 10 (f.unit / f.value)).length
    if f.unit ≤ f.value * Nat.pow 10 (zeros - 1) then -((zeros : Int) - 1) else -(zeros : Int)

/-- The number of so many digits that stands for the fraction, if there is one in its interval. The
ends of the interval belong to it if `closed`. -/
def Quarters.nearest? (f : Quarters) (closed : Bool) (count : Nat) : Option Nat :=
  let last := f.place - (count - 1 : Int)
  let up := Nat.pow 10 (-last).toNat
  let step := f.unit * Nat.pow 10 last.toNat
  let inside (n : Nat) : Bool :=
    let x := n * step
    if closed then f.low * up ≤ x && x ≤ f.high * up else f.low * up < x && x < f.high * up
  let below := f.value * up / step
  let above := below + 1
  match inside below, inside above with
  | true, true =>
    let rest := f.value * up - below * step
    some (if 2 * rest < step then below
      else if step < 2 * rest then above
      else if below % 2 == 0 then below else above)
  | true, false => some below
  | false, true => some above
  | false, false => none

/-- The shortest decimal of a number. Seventeen digits are always enough. -/
def shortest (b : Binary) : Digits :=
  let f := b.quarters
  let closed := b.mantissa % 2 == 0
  let found := (List.range 17).findSome? fun n =>
    (f.nearest? closed (n + 1)).map fun value => (value, n)
  match found with
  | some (value, n) =>
    -- Rounding up may have made one digit more, and a digit at the end may be zero.
    let digits := (Nat.toDigits 10 value).length
    ⟨value, f.place + ((digits : Int) - (n + 1 : Nat))⟩
  | none => ⟨0, 0⟩

end Binary

/-- A float as a sign and a positive binary number; zero has none. Only for finite floats. -/
def ofFloat (x : Float) : Bool × Option Binary :=
  let bits := x.toBits.toNat
  let negative := bits / Nat.pow 2 63 == 1
  let biased : Nat := bits / Nat.pow 2 52 % Nat.pow 2 11
  let fraction : Nat := bits % Nat.pow 2 52
  if biased == 0 then
    (negative, if fraction == 0 then none else some ⟨fraction, -1074, false⟩)
  else
    (negative,
      some ⟨fraction + Nat.pow 2 52, (biased : Int) - 1075, fraction == 0 && 1 < biased⟩)

/-! ## How floats are written. -/

/-- The decisions of a style: the least and the greatest place of the first digit that is written
without an exponent. -/
structure Style where
  least : Int
  greatest : Int
  deriving DecidableEq, Repr

/-- Without an exponent from a hundred-thousandth up to below ten to the sixteenth. -/
def plainStyle : Style := ⟨-5, 15⟩

/-- Digits without the zeros at their end. -/
def trimZeros (cs : List Char) : List Char := (cs.reverse.dropWhile (· == '0')).reverse

/-- The text of decimal digits. A number without an exponent always shows a point; an exponent shows
its sign. -/
def Digits.text (d : Digits) (n : Style) : List Char :=
  let ds := trimZeros (Nat.toDigits 10 d.value)
  if n.least ≤ d.exponent && d.exponent ≤ n.greatest then
    if d.exponent < 0 then
      ['0', '.'] ++ List.replicate (-d.exponent - 1).toNat '0' ++ ds
    else
      let whole := d.exponent.toNat + 1
      let before := ds.take whole ++ List.replicate (whole - ds.length) '0'
      let after := ds.drop whole
      before ++ '.' :: (if after.isEmpty then ['0'] else after)
  else
    let point := match ds with
      | first :: second :: rest => first :: '.' :: second :: rest
      | ds => ds
    let sign := if d.exponent < 0 then '-' else '+'
    point ++ 'e' :: sign :: Nat.toDigits 10 d.exponent.natAbs

/-- The text of a finite float. -/
def text (x : Float) : String :=
  let (negative, b?) := ofFloat x
  let cs := match b? with
    | none => ['0', '.', '0']
    | some b => b.shortest.text plainStyle
  String.ofList (if negative then '-' :: cs else cs)

end Postal.Decimal
