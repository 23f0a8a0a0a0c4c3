import Distillation.Proofs.Expr.Derivative
import Distillation.Proofs.Newton.Step

namespace Distillation.Newton

section Shape

variable {K : Type} [Scalar K] {cs : List (Constraint K)} {unknowns : List VarId} {s : Store K} {c : Constraint K}

theorem exactJacobian_getElem? {i : Nat} (found : cs[i]? = some c) :
    (exactJacobian cs unknowns s)[i]? = some (gradient c unknowns s) := by
  rw [exactJacobian, List.getElem?_map, found, Option.map_some]

theorem gradient_getElem? {v : VarId} {k : Nat} (found : unknowns[k]? = some v) :
    (gradient c unknowns s)[k]? = some (c.body.dualAt s.value v).slope := by
  rw [gradient, List.getElem?_map, found, Option.map_some]

end Shape

/-- The exact Jacobian has a row for each equation and a column for each unknown, however they are ordered and
repeated. An entry is the partial derivative where the equation divides by nothing that is zero, whichever
arithmetic of dual numbers it is found by, and zero by a variable that the equation does not refer to. -/
theorem exactJacobian_partials (cs : List (Constraint ℝ)) (unknowns : List VarId) (s : Store ℝ) :
    (exactJacobian cs unknowns s).length = cs.length ∧
    ∀ (i : Nat) c, cs[i]? = some c → ∃ row, (exactJacobian cs unknowns s)[i]? = some row ∧
      row.length = unknowns.length ∧ residualGradient c unknowns s = (c.residual s, row) ∧
      ∀ (k : Nat) v, unknowns[k]? = some v → ∃ entry, row[k]? = some entry ∧
        (c.body.dualAt s.value v).value = c.residual s ∧ (v ∉ c.body.vars → entry = 0) ∧
        (c.body.DefinedAt s.value →
          HasDerivAt (fun r => c.body.valueAt (Function.update s.value v r)) entry (s.value v) ∧
          ∀ (S : Type) [Add S] [Mul S] [Div S] [Neg S] (arithmetic : DualArithmetic S),
            arithmetic.value (c.body.evalWith arithmetic.constant (arithmetic.seeded s.value v)) = c.residual s ∧
            arithmetic.slope (c.body.evalWith arithmetic.constant (arithmetic.seeded s.value v)) = entry) := by
  refine ⟨List.length_map _, fun i c listed => ⟨gradient c unknowns s, exactJacobian_getElem? listed,
    List.length_map _, rfl, fun k v unknown => ⟨_, gradient_getElem? unknown, ?_, fun absent => ?_,
      fun defined => ⟨defined.hasDerivAt_update v, fun S _ _ _ _ arithmetic => ?_⟩⟩⟩⟩
  · exact c.body.value_dualAt s.value v
  · rw [Expr.slope_dualAt]
    exact Expr.rate_eq_zero fun w occurs => Pi.single_eq_of_ne (by rintro rfl; exact absent occurs) 1
  · exact arithmetic.evalWith_seeded defined v

/-- A product of two variables divided by a third one. -/
def ratio : Constraint ℝ :=
  ⟨"ratio", .quotient (.product (.var 0) (.var 1)) (.var 2)⟩

noncomputable def ratioStore : Store ℝ :=
  ⟨#[⟨"a", 2, false⟩, ⟨"b", 3, false⟩, ⟨"c", 4, false⟩]⟩

theorem exactJacobian_partials_ratio : ratio.body.DefinedAt ratioStore.value ∧ ∃ (row : List ℝ) (entry : ℝ),
    (exactJacobian [ratio] [1, 0, 1] ratioStore)[0]? = some row ∧ row[1]? = some entry ∧
    HasDerivAt (fun r => ratio.body.valueAt (Function.update ratioStore.value 0 r)) entry (ratioStore.value 0) ∧
    DualArithmetic.standard.slope (ratio.body.evalWith DualArithmetic.standard.constant
      (DualArithmetic.standard.seeded ratioStore.value 0)) = entry := by
  have defined : ratio.body.DefinedAt ratioStore.value := by
    refine .quotient (.product (.var 0) (.var 1)) (.var 2) ?_
    rw [Expr.valueAt_var]
    exact four_ne_zero
  obtain ⟨_, rows⟩ := exactJacobian_partials [ratio] [1, 0, 1] ratioStore
  obtain ⟨row, found, _, _, entries⟩ := rows 0 ratio rfl
  obtain ⟨entry, here, _, _, derivative⟩ := entries 1 0 rfl
  obtain ⟨slope, duals⟩ := derivative defined
  exact ⟨defined, row, entry, found, here, slope, (duals _ DualArithmetic.standard).2⟩

end Distillation.Newton
