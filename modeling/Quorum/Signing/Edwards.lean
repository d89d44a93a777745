import Quorum.Bytes

/-! The twisted Edwards curve `-x² + y² = 1 + d x² y²` over the integers modulo `2²⁵⁵ - 19`,
and the 32-byte form of its points.
-/

namespace Quorum.Signing.Edwards

def prime : Nat := 2 ^ 255 - 19

instance : NeZero prime := ⟨by decide⟩

abbrev Field := Fin prime

def power (base : Field) (exponent : Nat) : Field :=
  if exponent = 0 then 1
  else
    let half := power base (exponent / 2)
    if exponent % 2 = 0 then half * half else half * half * base

/-- The inverse, by Fermat's little theorem; zero has itself. -/
def inverse (value : Field) : Field :=
  power value (prime - 2)

/-- The constant of the curve's equation. -/
def d : Field :=
  -121665 * inverse 121666

def rootOfMinusOne : Field :=
  power 2 ((prime - 1) / 4)

/-- The even one of the two square roots of a quotient, if there are some. -/
def squareRoot? (numerator denominator : Field) : Option Field :=
  let cube := denominator * denominator * denominator
  let candidate :=
    numerator * cube
      * power (numerator * cube * cube * denominator) ((prime - 5) / 8)
  let square := denominator * candidate * candidate
  let root? :=
    if square = numerator then some candidate
    else if square = -numerator then some (candidate * rootOfMinusOne)
    else none
  root?.map fun root => if root.val % 2 = 0 then root else -root

/-- A point in extended coordinates: `x / z`, `y / z`, and `t = x y / z`. -/
structure Point where
  x : Field
  y : Field
  z : Field
  t : Field

namespace Point

def neutral : Point :=
  ⟨0, 1, 1, 0⟩

/-- The sum of two points. The formula has no exceptions on this curve. -/
def add (left right : Point) : Point :=
  let a := (left.y - left.x) * (right.y - right.x)
  let b := (left.y + left.x) * (right.y + right.x)
  let c := left.t * (2 * d) * right.t
  let e := 2 * left.z * right.z
  ⟨(b - a) * (e - c), (e + c) * (b + a), (e - c) * (e + c), (b - a) * (b + a)⟩

def double (point : Point) : Point :=
  let a := point.x * point.x
  let b := point.y * point.y
  let c := 2 * point.z * point.z
  let h := a + b
  let e := h - (point.x + point.y) * (point.x + point.y)
  let g := a - b
  let f := c + g
  ⟨e * f, g * h, f * g, e * h⟩

def negate (point : Point) : Point :=
  ⟨-point.x, point.y, point.z, -point.t⟩

def multiply (scalar : Nat) (point : Point) : Point :=
  if scalar = 0 then neutral
  else
    let half := (multiply (scalar / 2) point).double
    if scalar % 2 = 0 then half else half.add point

/-- The coordinate `y` in 255 bits, and whether `x` is odd in the last. -/
def encode (point : Point) : Bytes :=
  let scale := inverse point.z
  let x := point.x * scale
  let y := point.y * scale
  Bytes.littleEndian 32 (y.val + 2 ^ 255 * (x.val % 2))

/-- The point whose form is given, if there is one. A `y` beyond the prime stands for its
residue, and a zero `x` may be marked odd.
-/
def decode? (bytes : Bytes) : Option Point :=
  let value := Bytes.ofLittleEndian bytes
  let y : Field := Fin.ofNat prime (value % 2 ^ 255)
  let square := y * y
  (squareRoot? (square - 1) (d * square + 1)).map fun root =>
    let x := if value / 2 ^ 255 % 2 = 0 then root else -root
    ⟨x, y, 1, x * y⟩

end Point

/-- The number of multiples of the base point. -/
def order : Nat :=
  2 ^ 252 + 27742317777372353535851937790883648493

/-- The point with `y = 4 / 5` and an even `x`. -/
def base : Point :=
  let y := 4 * inverse 5
  let square := y * y
  let x := (squareRoot? (square - 1) (d * square + 1)).getD 0
  ⟨x, y, 1, x * y⟩

end Quorum.Signing.Edwards
