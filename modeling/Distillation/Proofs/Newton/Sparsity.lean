import Distillation.Proofs.Cancellation
import Distillation.Proofs.Expr.Dependence
import Distillation.Proofs.Newton.Differences

namespace Distillation.Newton

variable {K : Type} [Scalar K] {c : Constraint K} {s : Store K} {v : VarId}

theorem residual_displaced_of_notMem (step : K) (unreferenced : v ∉ c.body.vars) :
    c.residual (displaced step s v) = c.residual s := by
  refine Expr.evalWith_congr c.body fun w occurs => ?_
  have other : v ≠ w := by
    rintro rfl
    exact unreferenced occurs
  rw [displaced, s.value_set, if_neg fun both => other both.1]

/-- An entry of the Jacobian stands in the row of its equation and the column of its unknown. -/
theorem entry_of_jacobian {config : Config K} {cs : List (Constraint K)} {unknowns : List VarId}
    {rows : List (List K)} {i k : Nat}
    (made : ((jacobian .differences config cs unknowns (cs.map (·.residual s))).on s).1 = .ok rows)
    (equation : cs[i]? = some c) (unknown : unknowns[k]? = some v) : ∃ row, rows[i]? = some row ∧
      row[k]? = some (quotient config.differenceStep s v c (c.residual s)) := by
  rw [jacobian_on_eq] at made
  obtain ⟨_, rfl⟩ := elim_eq_ok.1 made
  refine ⟨unknowns.map (slopeAt .differences config s c), ?_, ?_⟩
  · rw [List.getElem?_map, equation, Option.map_some]
  · rw [List.getElem?_map, unknown, Option.map_some, slopeAt]

variable [CancellingArithmetic K]

/-- A difference by a variable that does not occur is zero. -/
theorem quotient_of_notMem {step : K} (unreferenced : v ∉ c.body.vars)
    (finite : Scalar.isFinite (c.residual s) = true) (moves : Scalar.isFinite (increment step (s.value v)) = true)
    (nonzero : (increment step (s.value v) == 0) = false) :
    (quotient step s v c (c.residual s) == 0) = true := by
  rw [quotient, residual_displaced_of_notMem step unreferenced]
  exact CancellingArithmetic.zero_div_beq (CancellingArithmetic.sub_self_beq finite) moves nonzero

/-- The variables of an expression are just what it depends on: two readings agree where they agree on these, and
formal readings in no other case. Each operator depends on what its operands depend on, constants adding nothing. So
the forward difference of a finite equation by an unknown that does not occur in it is zero. -/
theorem dependence_exact {K : Type} [Scalar K] [CancellingArithmetic K] :
    (∀ {S : Type} [Add S] [Mul S] [Div S] [Neg S] (lift : K → S) (f g : VarId → S) (e : Expr K),
      (∀ v ∈ e.vars, f v = g v) → e.evalWith lift f = e.evalWith lift g) ∧
    (∀ (f g : VarId → Formal K) (e : Expr K),
      e.evalWith .number f = e.evalWith .number g ↔ ∀ v ∈ e.vars, f v = g v) ∧
    (∀ a b : Expr K, ∀ e ∈ [a + b, a - b, a * b, a / b], ∀ v, v ∈ e.vars ↔ v ∈ a.vars ∨ v ∈ b.vars) ∧
    (∀ (a : Expr K) (c : K), (-a).vars = a.vars ∧
      ∀ e ∈ [a + .const c, .const c + a, a - .const c, .const c - a, a * .const c, .const c * a, a / .const c],
        e.vars = a.vars) ∧
    (∀ (terms : List (Expr K)) (v : VarId), v ∈ (Expr.total terms).vars ↔ ∃ term ∈ terms, v ∈ term.vars) ∧
    ∀ (config : Config K) (cs : List (Constraint K)) (unknowns : List VarId) (s : Store K) (rows : List (List K)),
      ((jacobian .differences config cs unknowns (cs.map (·.residual s))).on s).1 = .ok rows →
      ∀ (i k : Nat) (c : Constraint K) (v : VarId), cs[i]? = some c → unknowns[k]? = some v →
        v ∉ c.body.vars → Scalar.isFinite (c.residual s) = true →
        let h := config.differenceStep * Scalar.max (Scalar.abs (s.value v)) 1
        Scalar.isFinite h = true → (h == 0) = false →
          ∃ row x, rows[i]? = some row ∧ row[k]? = some x ∧ (x == 0) = true := by
  refine ⟨fun _ _ _ e agree => Expr.evalWith_congr e agree, ?formal, Expr.joins_operators, ?mixed,
    fun terms v => Expr.mem_vars_total terms, ?entries⟩
  case formal => exact fun f g e => ⟨e.agree_of_evalWith_eq, e.evalWith_congr⟩
  case mixed => exact fun a c => ⟨Expr.vars_neg a, Expr.vars_mixed a c⟩
  case entries =>
    intro config cs unknowns s rows made i k c v equation unknown unreferenced finite h moves nonzero
    obtain ⟨row, standing, entry⟩ := entry_of_jacobian made equation unknown
    exact ⟨row, _, standing, entry, quotient_of_notMem unreferenced finite moves nonzero⟩

def besidePoleAndSpectator : Store Float :=
  ⟨#[⟨"x", -1, false⟩, ⟨"y", 2, false⟩, ⟨"z", 5, false⟩]⟩

/-- A third unknown, in none of two equations, has an empty column, the step being negative. -/
theorem dependence_exact_spectator : ∃ rows,
    ((jacobian .differences ⟨1, 1, 1, -0.5⟩ sumAndRatio [0, 1, 2]
      (sumAndRatio.map (·.residual besidePoleAndSpectator))).on besidePoleAndSpectator).1 = .ok rows ∧
    ∀ i < 2, ∃ row x, rows[i]? = some row ∧ row[2]? = some x ∧ (x == 0) = true := by
  have quiet : obstacle? .differences (⟨1, 1, 1, -0.5⟩ : Config Float) sumAndRatio [0, 1, 2] besidePoleAndSpectator =
      none := by
    decide +kernel
  obtain ⟨rows, made⟩ : ∃ rows, ((jacobian .differences ⟨1, 1, 1, -0.5⟩ sumAndRatio [0, 1, 2]
      (sumAndRatio.map (·.residual besidePoleAndSpectator))).on besidePoleAndSpectator).1 = .ok rows := by
    rw [jacobian_on_eq, quiet]
    exact ⟨_, rfl⟩
  have apart : ∀ c ∈ sumAndRatio, 2 ∉ c.body.vars ∧ Scalar.isFinite (c.residual besidePoleAndSpectator) = true := by
    decide +kernel
  obtain ⟨_, _, _, _, _, entries⟩ := dependence_exact (K := Float)
  refine ⟨rows, made, fun i few => ?_⟩
  have equation : sumAndRatio[i]? = some sumAndRatio[i] := List.getElem?_eq_getElem few
  obtain ⟨unreferenced, finite⟩ := apart _ (List.getElem_mem few)
  exact entries _ _ _ _ _ made i 2 _ 2 equation rfl unreferenced finite (by decide +kernel) (by decide +kernel)

end Distillation.Newton
