/-! Short Weierstrass curves in affine coordinates, and the ladder over them.

The curve is `y² = x³ + a·x + b` over the integers modulo `p`. Nothing is assumed of
`p`, `a`, `b` or the coordinates: `p` may be composite, even, one or zero, and operands
need not be reduced. Inverses are powers with exponent `p - 2`, so they are inverses
only when `p` is prime; for every other `p` the operations are still total and give
definite coordinates.

`ladderStep` is one iteration of the ladder on a pair of points, `ladder` a run of
iterations from the most significant bit down, and `scalarMul` the run that starts at
infinity and the point. -/
namespace CurveEngine

/-- `b` to the power `e` modulo `m`, by repeated squaring. -/
def powMod (m b e : Nat) : Nat :=
  if h : e = 0 then 1 % m
  else
    let rest := powMod m (b * b % m) (e / 2)
    if e % 2 = 1 then b * rest % m else rest
  termination_by e

/-- A point in affine coordinates, or the point at infinity. -/
inductive Point where
  | infinity
  | affine (x y : Nat)
  deriving Repr, DecidableEq, Inhabited

namespace Point

def isInfinity : Point → Bool
  | .infinity => true
  | .affine _ _ => false

/-- The coordinates; infinity is written as a pair of zeros. -/
def coords : Point → Nat × Nat
  | .infinity => (0, 0)
  | .affine x y => (x, y)

end Point

/-- The curve `y² = x³ + a·x + b` modulo `p`, with a subgroup of order `q`. -/
structure Curve where
  p : Nat
  a : Nat
  b : Nat
  q : Nat
  deriving Repr, DecidableEq, Inhabited

namespace Curve

/-! ### Arithmetic modulo `p` -/

/-- The remainder modulo `p`, zero when there is no modulus. -/
def reduce (c : Curve) (v : Nat) : Nat := if c.p = 0 then 0 else v % c.p

def sub (c : Curve) (a b : Nat) : Nat := c.reduce (c.reduce a + c.p - c.reduce b)

def mul (c : Curve) (a b : Nat) : Nat := c.reduce (a * b)

/-- The power of exponent `p - 2`: the inverse when `p` is prime. -/
def inv (c : Curve) (a : Nat) : Nat :=
  if c.p ≤ 1 then 0 else powMod c.p (c.reduce a) (c.p - 2)

/-! ### Points -/

/-- Whether a point is infinity or has reduced coordinates that satisfy the equation. -/
def contains (c : Curve) : Point → Bool
  | .infinity => true
  | .affine x y =>
    if c.p = 0 ∨ c.p ≤ x ∨ c.p ≤ y then false
    else c.mul y y == c.reduce (c.mul (c.mul x x) x + c.mul c.a x + c.b)

def neg (c : Curve) : Point → Point
  | .infinity => .infinity
  | .affine x y => .affine x (c.sub 0 y)

def double (c : Curve) : Point → Point
  | .infinity => .infinity
  | .affine x y =>
    if c.reduce y = 0 then .infinity
    else
      let slope := c.mul (c.reduce (c.mul 3 (c.mul x x) + c.a)) (c.inv (c.mul 2 y))
      let x3 := c.sub (c.mul slope slope) (c.mul 2 x)
      .affine x3 (c.sub (c.mul slope (c.sub x x3)) y)

def add (c : Curve) : Point → Point → Point
  | .infinity, r => r
  | r, .infinity => r
  | .affine x1 y1, .affine x2 y2 =>
    if c.reduce x1 = c.reduce x2 then
      if c.reduce y1 = c.reduce y2 then c.double (.affine x1 y1) else .infinity
    else
      let slope := c.mul (c.sub y2 y1) (c.inv (c.sub x2 x1))
      let x3 := c.sub (c.sub (c.mul slope slope) x1) x2
      .affine x3 (c.sub (c.mul slope (c.sub x1 x3)) y1)

/-! ### The ladder -/

/-- One iteration for a scalar bit: the pair after the addition, then the pair after
the doubling. -/
def ladderStep (c : Curve) (bit : Bool) (r0 r1 : Point) : (Point × Point) × (Point × Point) :=
  let sum := c.add r0 r1
  if bit then ((sum, r1), (sum, c.double r1))
  else ((r0, sum), (c.double r0, sum))

/-- Iterations for the `n` low bits of `k`, most significant first. -/
def ladder (c : Curve) (k : Nat) : Nat → Point × Point → Point × Point
  | 0, pair => pair
  | n + 1, pair => ladder c k n (c.ladderStep (k.testBit n) pair.1 pair.2).2

/-- The multiple of a point by the `n` low bits of `k`. -/
def scalarMul (c : Curve) (k : Nat) (point : Point) (n : Nat) : Point :=
  (c.ladder k n (.infinity, point)).1

end Curve

end CurveEngine
