import LiveSurface.Number.Double
import LiveSurface.Text.Digit

/-!
# Shortest decimal text

The text of a number has the fewest significant digits that still round back to it, and of two
such texts the nearer one. The search works on exact whole numbers: a number and the ends of the
interval that rounds to it are counted in quarters of the number's last place.
-/
namespace LiveSurface.Double

/-- The reals that round to a number, in units of `2 ^ unit`; the ends belong to it if `closed`. -/
structure Interval where
  low : Nat
  value : Nat
  high : Nat
  unit : Int
  closed : Bool

/-- The interval of a positive finite number. Below a power of two numbers lie twice as close. -/
def interval (m : Nat) (e : Int) : Interval :=
  let shift := min (52 - m.log2 : Int) (e + 1074)
  let full := m * Nat.pow 2 shift.toNat
  let place := e - shift
  let below := if full = Nat.pow 2 52 ∧ -1074 < place then 1 else 2
  { low := 4 * full - below, value := 4 * full, high := 4 * full + 2, unit := place - 2,
    closed := full % 2 = 0 }

/-- Both sides of a comparison of `c * 10 ^ p` with `x * 2 ^ unit`, as whole numbers. -/
def scaled (c : Nat) (p : Int) (x : Nat) (unit : Int) : Nat × Nat :=
  (c * Nat.pow 10 p.toNat * Nat.pow 2 (-unit).toNat,
    x * Nat.pow 2 unit.toNat * Nat.pow 10 (-p).toNat)

/-- Whether `c * 10 ^ p` rounds to the number of an interval. -/
def Interval.holds (i : Interval) (c : Nat) (p : Int) : Bool :=
  let (a, low) := scaled c p i.low i.unit
  let (b, high) := scaled c p i.high i.unit
  if i.closed then low ≤ a && b ≤ high else low < a && b < high

/-- Of the two neighbours of the number on the grid of multiples of `10 ^ p`, the nearer one that
rounds to it; a tie goes to the even neighbour. -/
def Interval.onGrid? (i : Interval) (p : Int) : Option Nat :=
  let (ten, value) := scaled 1 p i.value i.unit
  let c := value / ten
  let left := value - c * ten
  let right := ten - left
  match i.holds c p, i.holds (c + 1) p with
  | true, true =>
    some (if left < right ∨ (left = right ∧ c % 2 = 0) then c else c + 1)
  | true, false => some c
  | false, true => some (c + 1)
  | false, false => none

/-- The first of the finer and finer grids that holds a neighbour. -/
def Interval.search (i : Interval) : Nat → Int → Nat × Int
  | 0, p => (0, p)
  | grids + 1, p =>
    match i.onGrid? p with
    | some c => (c, p)
    | none => i.search grids (p - 1)

/-- The largest `p` with `10 ^ p` at most the number, near `2 ^ k`. -/
def Interval.floorLog10 (i : Interval) (k : Int) : Int :=
  let guess := Int.fdiv (k * 30103) 100000
  let fits (p : Int) : Bool := let (a, b) := scaled 1 p i.value i.unit; a ≤ b
  if fits (guess + 1) then guess + 1 else if fits guess then guess else guess - 1

/-- The digits of the shortest decimal of a positive finite number, without zeros at the end, and
the decimal exponent of the first of them. -/
def shortestDigits (m : Nat) (e : Int) : List Char × Int :=
  let i := interval m e
  let (c, p) := i.search 20 (i.floorLog10 (e + m.log2))
  let digits := Nat.toDigits 10 c
  ((digits.reverse.dropWhile (· == '0')).reverse, p + digits.length - 1)

/-- How decimals are laid out. -/
structure Layout where
  /-- The least decimal exponent that is written with leading zeros. -/
  leastPlain : Int
  /-- The first decimal exponent that is too large for positional writing. -/
  firstLarge : Int
  /-- The least number of digits of a written exponent. -/
  exponentWidth : Nat

/-- Decimals are positional from `10 ^ (-4)` up to `10 ^ 16`; exponents have two digits at least. -/
def plainLayout : Layout := ⟨-4, 16, 2⟩

/-- An exponent with its sign, filled up with zeros. -/
def Layout.exponent (layout : Layout) (x : Int) : List Char :=
  let digits := Nat.toDigits 10 x.natAbs
  (if x < 0 then '-' else '+') ::
    (List.replicate (layout.exponentWidth - digits.length) '0' ++ digits)

/-- The text of `d.ddd * 10 ^ x`; a whole number keeps one digit after the point. -/
def Layout.write (layout : Layout) (digits : List Char) (x : Int) : List Char :=
  if layout.leastPlain ≤ x ∧ x < layout.firstLarge then
    if x < 0 then
      '0' :: '.' :: (List.replicate (-x - 1).toNat '0' ++ digits)
    else
      let whole := x.toNat + 1
      if digits.length ≤ whole then
        digits ++ List.replicate (whole - digits.length) '0' ++ ['.', '0']
      else digits.take whole ++ '.' :: digits.drop whole
  else
    match digits with
    | [] => []
    | d :: [] => d :: 'e' :: layout.exponent x
    | d :: more => d :: '.' :: (more ++ 'e' :: layout.exponent x)

/-- The text of a number. -/
def text : Double → String
  | .nan => "nan"
  | .infinite negative => if negative then "-inf" else "inf"
  | .finite negative m e _ =>
    let body := if m = 0 then ['0', '.', '0']
      else let (digits, x) := shortestDigits m e; plainLayout.write digits x
    String.ofList (if negative then '-' :: body else body)

end LiveSurface.Double
