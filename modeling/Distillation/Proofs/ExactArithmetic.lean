import Mathlib.Data.Option.NAry
import Distillation.Proofs.RealScalar

namespace Distillation

class ExactArithmetic (K : Type) [Scalar K] : Prop where
  finite_zero : Scalar.isFinite (0 : K) = true
  finite_add {a b : K} : Scalar.isFinite a = true → Scalar.isFinite b = true → Scalar.isFinite (a + b) = true
  finite_mul {a b : K} : Scalar.isFinite a = true → Scalar.isFinite b = true → Scalar.isFinite (a * b) = true
  add_comm {a b : K} : Scalar.isFinite a = true → Scalar.isFinite b = true → a + b = b + a
  add_assoc {a b c : K} : Scalar.isFinite a = true → Scalar.isFinite b = true → Scalar.isFinite c = true →
    a + b + c = a + (b + c)

namespace ExactArithmetic

variable {K : Type} [Scalar K] [ExactArithmetic K]

theorem foldl_add_perm {xs ys : List K} (perm : xs.Perm ys) : ∀ start : K, Scalar.isFinite start = true →
    (∀ x ∈ xs, Scalar.isFinite x = true) → xs.foldl (· + ·) start = ys.foldl (· + ·) start := by
  induction perm with
  | nil => exact fun _ _ _ => rfl
  | cons x _ ih =>
    intro start begun finite
    obtain ⟨first, later⟩ := List.forall_mem_cons.1 finite
    exact ih (start + x) (finite_add begun first) later
  | swap x y rest =>
    intro start begun finite
    obtain ⟨second, first, _⟩ := by simpa only [List.forall_mem_cons] using finite
    have swapped : start + y + x = start + x + y := by
      rw [add_assoc begun second first, add_comm second first, ← add_assoc begun first second]
    exact congrArg (rest.foldl (· + ·)) swapped
  | trans first _ ih ih' =>
    intro start begun finite
    exact (ih start begun finite).trans (ih' start begun fun x inside => finite x (first.mem_iff.2 inside))

/-- The length of some finite numbers does not depend on their order. -/
theorem norm_perm {xs ys : List K} (perm : xs.Perm ys) (finite : ∀ x ∈ xs, Scalar.isFinite x = true) :
    Scalar.norm xs = Scalar.norm ys := by
  refine congrArg Scalar.sqrt (foldl_add_perm (perm.map fun x => x * x) 0 finite_zero ?_)
  exact List.forall_mem_map.2 fun x inside => finite_mul (finite x inside) (finite x inside)

end ExactArithmetic

instance : ExactArithmetic ℝ where
  finite_zero := rfl
  finite_add _ _ := rfl
  finite_mul _ _ := rfl
  add_comm _ _ := add_comm _ _
  add_assoc _ _ _ := add_assoc _ _ _

/-- A real number, or what is not a number. -/
structure PartialReal where
  value? : Option ℝ

namespace PartialReal

/-- What is computed from something that is not a number is not one either. -/
def lift (f : ℝ → ℝ → ℝ) (a b : PartialReal) : PartialReal :=
  ⟨Option.map₂ f a.value? b.value?⟩

def compare (R : ℝ → ℝ → Bool) (a b : PartialReal) : Bool :=
  (Option.map₂ R a.value? b.value?).getD false

noncomputable instance : Scalar PartialReal where
  zero := ⟨some 0⟩
  one := ⟨some 1⟩
  add := lift (· + ·)
  sub := lift (· - ·)
  mul := lift (· * ·)
  div a b := if b.value? = some 0 then ⟨none⟩ else lift (· / ·) a b
  neg a := ⟨a.value?.map (-·)⟩
  ofScientific mantissa negative exponent := ⟨some (OfScientific.ofScientific mantissa negative exponent)⟩
  beq := compare fun x y => decide (x = y)
  lt := compare fun x y => decide (x < y)
  abs a := ⟨a.value?.map (|·|)⟩
  sqrt a := ⟨a.value?.map Real.sqrt⟩
  isFinite a := a.value?.isSome

theorem isFinite_iff {a : PartialReal} : Scalar.isFinite a = true ↔ ∃ x, a = ⟨some x⟩ := by
  obtain ⟨_ | x⟩ := a <;> simp [Scalar.isFinite]

theorem add_some (x y : ℝ) : (⟨some x⟩ + ⟨some y⟩ : PartialReal) = ⟨some (x + y)⟩ := rfl

instance : ExactArithmetic PartialReal where
  finite_zero := rfl
  finite_add first second := by
    obtain ⟨x, rfl⟩ := isFinite_iff.1 first
    obtain ⟨y, rfl⟩ := isFinite_iff.1 second
    rfl
  finite_mul first second := by
    obtain ⟨x, rfl⟩ := isFinite_iff.1 first
    obtain ⟨y, rfl⟩ := isFinite_iff.1 second
    rfl
  add_comm first second := by
    obtain ⟨x, rfl⟩ := isFinite_iff.1 first
    obtain ⟨y, rfl⟩ := isFinite_iff.1 second
    rw [add_some, add_some, add_comm]
  add_assoc first second third := by
    obtain ⟨x, rfl⟩ := isFinite_iff.1 first
    obtain ⟨y, rfl⟩ := isFinite_iff.1 second
    obtain ⟨z, rfl⟩ := isFinite_iff.1 third
    rw [add_some, add_some, add_some, add_some, add_assoc]

end PartialReal

end Distillation
