import LiveSurface.Number.Double

/-!
# Sums and products of binary64 numbers

A sum or a product of finite numbers is the number nearest to the exact one; both are commutative.
A sum that is exactly zero is negative only if both parts are. Infinities of both signs have no
sum, and an infinity has no product with zero.
-/
namespace LiveSurface.Double

/-- The number with the other sign. -/
def neg : Double → Double
  | nan => nan
  | infinite negative => infinite !negative
  | finite negative m e canonical => finite (!negative) m e canonical

/-- The number nearest to `m * 2 ^ e`. -/
def ofScaled (negative : Bool) (m : Nat) (e : Int) : Double :=
  if 0 ≤ e then ofRatio negative (m * Nat.pow 2 e.toNat) 1
  else ofRatio negative m (Nat.pow 2 (-e).toNat)

/-- A finite number in units of `2 ^ unit`, for a unit that is not above its exponent. -/
def inUnits (unit : Int) (negative : Bool) (m : Nat) (e : Int) : Int :=
  signed negative (m * Nat.pow 2 (e - unit).toNat)

/-- The sum of two numbers. -/
def add : Double → Double → Double
  | nan, _ | _, nan => nan
  | infinite a, infinite b => if a = b then infinite a else nan
  | infinite a, finite .. | finite .., infinite a => infinite a
  | finite a m e _, finite b n f _ =>
    let unit := min e f
    let sum := inUnits unit a m e + inUnits unit b n f
    if sum = 0 then zero (a && b) else ofScaled (sum < 0) sum.natAbs unit

/-- The product of two numbers. -/
def mul : Double → Double → Double
  | nan, _ | _, nan => nan
  | infinite a, infinite b => infinite (a != b)
  | infinite a, finite b m _ _ | finite b m _ _, infinite a =>
    if m = 0 then nan else infinite (a != b)
  | finite a m e _, finite b n f _ => ofScaled (a != b) (m * n) (e + f)

theorem add_comm (x y : Double) : add x y = add y x := by
  cases x <;> cases y <;> simp only [add]
  · split <;> split <;> simp_all
  · simp only [Int.add_comm, Int.min_comm, Bool.and_comm]

theorem mul_comm (x y : Double) : mul x y = mul y x := by
  cases x <;> cases y <;> simp only [mul]
  · simp [bne_comm]
  · simp only [Nat.mul_comm, Int.add_comm, bne_comm]

end LiveSurface.Double
