namespace Distillation

/-- The operations that evaluating, solving and reporting a model use. Machine floats run it; any
other number type with these operations gives the same equations another reading. Comparisons are the
number type's own, so a float that is not a number is below nothing and equal to nothing. -/
class Scalar (K : Type) extends Zero K, One K, Add K, Sub K, Mul K, Div K, Neg K, OfScientific K,
    BEq K where
  lt : K → K → Bool
  abs : K → K
  sqrt : K → K
  isFinite : K → Bool

namespace Scalar

variable {K : Type} [Scalar K]

/-- The larger of two numbers. A value that differs from itself gives way to the other. -/
def max (a b : K) : K :=
  if a != a then b else if lt a b then b else a

/-- Sums from the left, starting at zero. -/
def sum (xs : List K) : K :=
  xs.foldl (· + ·) 0

/-- The Euclidean length of a list of numbers. -/
def norm (xs : List K) : K :=
  sqrt (sum (xs.map fun x => x * x))

end Scalar

instance : Scalar Float where
  lt a b := decide (a < b)
  abs := Float.abs
  sqrt := Float.sqrt
  isFinite := Float.isFinite

/-- A value together with its rate of change along one direction. Evaluating an expression over them
gives the value and one partial derivative at once. -/
structure Dual (K : Type) where
  value : K
  slope : K

namespace Dual

variable {K : Type}

/-- A number that does not change. -/
def constant [Zero K] (c : K) : Dual K :=
  ⟨c, 0⟩

/-- The unknown that everything is differentiated by. -/
def unknown [One K] (x : K) : Dual K :=
  ⟨x, 1⟩

instance [Add K] : Add (Dual K) where
  add a b := ⟨a.value + b.value, a.slope + b.slope⟩

instance [Add K] [Mul K] : Mul (Dual K) where
  mul a b := ⟨a.value * b.value, a.slope * b.value + b.slope * a.value⟩

/-- Quotients go through the reciprocal of the denominator. -/
instance [One K] [Sub K] [Mul K] [Div K] : Div (Dual K) where
  div a b :=
    let r := 1 / b.value
    ⟨a.value * r, (a.slope * b.value - b.slope * a.value) * r * r⟩

instance [Neg K] : Neg (Dual K) where
  neg a := ⟨-a.value, -a.slope⟩

section Projections

variable (a b : Dual K)

@[simp] theorem value_constant [Zero K] (c : K) : (constant c).value = c := rfl

@[simp] theorem slope_constant [Zero K] (c : K) : (constant c).slope = 0 := rfl

@[simp] theorem value_unknown [One K] (x : K) : (unknown x).value = x := rfl

@[simp] theorem slope_unknown [One K] (x : K) : (unknown x).slope = 1 := rfl

@[simp] theorem value_add [Add K] : (a + b).value = a.value + b.value := rfl

@[simp] theorem slope_add [Add K] : (a + b).slope = a.slope + b.slope := rfl

@[simp] theorem value_mul [Add K] [Mul K] : (a * b).value = a.value * b.value := rfl

@[simp] theorem slope_mul [Add K] [Mul K] :
    (a * b).slope = a.slope * b.value + b.slope * a.value := rfl

@[simp] theorem value_div [One K] [Sub K] [Mul K] [Div K] :
    (a / b).value = a.value * (1 / b.value) := rfl

@[simp] theorem slope_div [One K] [Sub K] [Mul K] [Div K] :
    (a / b).slope =
      (a.slope * b.value - b.slope * a.value) * (1 / b.value) * (1 / b.value) := rfl

@[simp] theorem value_neg [Neg K] : (-a).value = -a.value := rfl

@[simp] theorem slope_neg [Neg K] : (-a).slope = -a.slope := rfl

end Projections

end Dual

end Distillation
