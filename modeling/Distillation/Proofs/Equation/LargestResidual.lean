import Distillation.Equation.Family
import Distillation.Proofs.MachineOrder

namespace Distillation.Family

section Numbers

variable {K : Type} [Scalar K] [OrderedNumbers K] {family : Family K} {s : Store K} {tolerance : K}

/-- The largest residual is within a tolerance where all residuals are whose magnitude is a number. -/
theorem maxResidual_lt_iff (positive : Scalar.lt 0 tolerance = true) :
    Scalar.lt (family.maxResidual s) tolerance = true ↔ ∀ c ∈ family.constraints,
      (Scalar.abs (c.residual s) == Scalar.abs (c.residual s)) = true → c.satisfied s tolerance = true := by
  have zero := (OrderedNumbers.number_of_lt positive).1
  rw [maxResidual, OrderedNumbers.foldl_max_lt_iff _ 0 zero, and_iff_right positive, List.forall_mem_map]
  rfl

end Numbers

section Floats

open MachineFloat

variable {s : Store Float} {tolerance : Float}

theorem isNaN_maxResidual (family : Family Float) (s : Store Float) : (family.maxResidual s).isNaN = false :=
  float_beq_self_iff.1 (OrderedNumbers.foldl_max_number _ 0 rfl)

/-- An equation whose residual is not a number is satisfied within no tolerance. -/
theorem isNaN_of_satisfied {c : Constraint Float} (within : c.satisfied s tolerance = true) :
    (c.residual s).isNaN = false := by
  have number := float_beq_self_iff.1 (OrderedNumbers.number_of_lt within).1
  rwa [Scalar.abs, instScalarFloat, isNaN_abs] at number

/-- The largest residual of a family is a number, and below a positive tolerance just where all members are satisfied
within it whose residuals are numbers. Hence it answers for all members unless one has a residual that is not a number
while the others are within the tolerance. -/
theorem largest_residual (family : Family Float) (s : Store Float) {tolerance : Float} (positive : 0 < tolerance) :
    (family.maxResidual s).isNaN = false ∧
    (family.maxResidual s < tolerance ↔
      ∀ c ∈ family.constraints, (c.residual s).isNaN = false → c.satisfied s tolerance = true) ∧
    ((family.maxResidual s < tolerance ↔ ∀ c ∈ family.constraints, c.satisfied s tolerance = true) ↔
      ((∃ c ∈ family.constraints, (c.residual s).isNaN = true) →
        ∃ c ∈ family.constraints, (c.residual s).isNaN = false ∧ c.satisfied s tolerance = false)) := by
  have numbers : family.maxResidual s < tolerance ↔
      ∀ c ∈ family.constraints, (c.residual s).isNaN = false → c.satisfied s tolerance = true := by
    have below : Scalar.lt (family.maxResidual s) tolerance = true ↔ _ := maxResidual_lt_iff (decide_eq_true positive)
    refine Iff.trans (decide_eq_true_iff.symm.trans below) (forall₂_congr fun c _ => imp_congr_left ?_)
    exact float_beq_self_iff.trans (iff_of_eq (congrArg (· = false) (isNaN_abs _)))
  refine ⟨isNaN_maxResidual family s, numbers, ?_⟩
  rw [numbers]
  constructor
  · rintro same ⟨c, inside, undefined⟩
    by_contra within
    push Not at within
    have all := same.1 fun other among number => by simpa using within other among number
    cases undefined.symm.trans (isNaN_of_satisfied (all c inside))
  · intro reported
    refine ⟨fun within c inside => ?_, fun within c inside _ => within c inside⟩
    cases undefined : (c.residual s).isNaN with
    | false => exact within c inside undefined
    | true =>
      obtain ⟨other, among, number, without⟩ := reported ⟨c, inside, undefined⟩
      cases without.symm.trans (within other among number)

/-- A ratio of two variables. -/
def ratio : Constraint Float :=
  ⟨"ratio", .quotient (.var 0) (.var 1)⟩

/-- Two variables at zero. -/
def zeros : Store Float :=
  ((Store.empty.create "x" 0).2.create "y" 0).2

/-- Beside a residual that is not a number, one that exceeds the tolerance shows in the largest. -/
theorem largest_residual_exceeded :
    let family := ofMembers "ratios" [(.time 0, ratio), (.time 1, ⟨"excess", .const 2⟩)]
    (0 : Float) < 1 ∧ (ratio.residual zeros).isNaN = true ∧
      (family.maxResidual zeros < 1 ↔ ∀ c ∈ family.constraints, c.satisfied zeros 1 = true) := by
  intro family
  have positive : (0 : Float) < 1 := by decide
  refine ⟨positive, by decide, (largest_residual family zeros positive).2.2.2 fun _ => ?_⟩
  exact ⟨_, List.mem_cons_of_mem _ List.mem_cons_self, by decide, by decide⟩

/-- Alone, a residual that is not a number is reported as zero. -/
theorem largest_residual_undefined :
    let family := ofMembers "ratios" [(.time 0, ratio)]
    (0 : Float) < 1 ∧ ¬(family.maxResidual zeros < 1 ↔ ∀ c ∈ family.constraints, c.satisfied zeros 1 = true) := by
  decide

end Floats

end Distillation.Family
