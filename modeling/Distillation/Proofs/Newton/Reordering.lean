import Distillation.Proofs.ExactArithmetic
import Distillation.Proofs.Linear.Definite
import Distillation.Proofs.Newton.Success

namespace Distillation

section Reorderings

variable {K : Type}

/-- The members of a family in another order. -/
structure Family.Reordered (family family' : Family K) : Prop where
  active : family'.active = family.active
  members : family.members.Perm family'.members

/-- The families of a model in another order, and the members of each family in another order. -/
def Model.Reordered (model model' : Model K) : Prop :=
  ∃ families, model.families.Perm families ∧ List.Forall₂ Family.Reordered families model'.families

theorem active_constraints_perm {families families' : List (Family K)}
    (related : List.Forall₂ Family.Reordered families families') :
    ((families.filter (·.active)).flatMap (·.constraints)).Perm
      ((families'.filter (·.active)).flatMap (·.constraints)) := by
  induction related with
  | nil => exact .refl _
  | @cons family family' _ _ first _ ih =>
    rw [List.filter_cons, List.filter_cons, first.active]
    split
    · exact (first.members.map _).append ih
    · exact ih

namespace Model

variable {model model' : Model K}

theorem Reordered.equations (reordered : model.Reordered model') : model.equations.Perm model'.equations := by
  obtain ⟨families, perm, related⟩ := reordered
  exact ((perm.filter _).flatMap_right _).trans (active_constraints_perm related)

theorem referenced_perm (perm : model.equations.Perm model'.equations) : model'.referenced = model.referenced := by
  have distinct : ∀ m : Model K, m.referenced.Nodup := fun m => m.referenced_increasing.imp Nat.ne_of_lt
  have same : model'.referenced.Perm model.referenced := by
    refine (List.perm_ext_iff_of_nodup (distinct _) (distinct _)).2 fun v => ?_
    simp only [mem_referenced, perm.mem_iff]
  exact same.eq_of_pairwise (fun v w _ _ below above => absurd below (Nat.lt_asymm above))
    model'.referenced_increasing model.referenced_increasing

theorem unknowns_perm (perm : model.equations.Perm model'.equations) (s : Store K) :
    model'.unknowns s = model.unknowns s := by
  rw [unknowns, referenced_perm perm, unknowns]

theorem freedom_perm (perm : model.equations.Perm model'.equations) (s : Store K) :
    model'.freedom s = model.freedom s := by
  rw [freedom, unknowns_perm perm, ← perm.length_eq, freedom]

end Model

end Reorderings

namespace Newton

variable {K : Type} [Scalar K]

/-- Runs that end in the same way up to the equation that is blamed. -/
structure Run.Alike {K : Type} (first second : Run K) : Prop where
  termination : second.termination = first.termination
  stats : second.stats = first.stats
  store : second.store = first.store

section Obstacles

variable {cs cs' : List (Constraint K)} (perm : cs.Perm cs')

theorem termination_notFinite? (name : String) (r : K) : (notFinite? name r).map SolverError.termination =
    if Scalar.isFinite r then none else some .infeasible := by
  rw [notFinite?]
  cases Scalar.isFinite r <;> rfl

theorem termination_firstNonFinite? (cs : List (Constraint K)) (s : Store K) :
    (firstNonFinite? cs s).map SolverError.termination =
      if cs.all fun c => Scalar.isFinite (c.residual s) then none else some .infeasible :=
  map_findSome? fun c _ => termination_notFinite? c.name (c.residual s)

include perm

theorem termination_firstNonFinite?_perm (s : Store K) : (firstNonFinite? cs' s).map SolverError.termination =
    (firstNonFinite? cs s).map SolverError.termination := by
  rw [termination_firstNonFinite?, termination_firstNonFinite?, perm.all_eq]

theorem termination_obstacle?_perm (engine : Engine) (config : Config K) (unknowns : List VarId) (s : Store K) :
    (obstacle? engine config cs' unknowns s).map SolverError.termination =
      (obstacle? engine config cs unknowns s).map SolverError.termination := by
  cases engine with
  | differences =>
    have each : ∀ cs : List (Constraint K), (obstacle? .differences config cs unknowns s).map SolverError.termination =
        if unknowns.all fun v => cs.all fun c => Scalar.isFinite (c.residual (displaced config.differenceStep s v))
        then none else some .infeasible := fun cs =>
      map_findSome? fun v _ => termination_firstNonFinite? cs (displaced config.differenceStep s v)
    rw [each, each]
    simp only [perm.all_eq]
  | exact => rfl

end Obstacles

/-- Errors that are reported alike are both there, or neither. -/
theorem none_or_some_of_termination {first second : Option SolverError}
    (same : second.map SolverError.termination = first.map SolverError.termination) :
    first = none ∧ second = none ∨ ∃ e e', first = some e ∧ second = some e' ∧ e'.termination = e.termination := by
  cases first <;> cases second <;> simp_all

section Rounds

variable [ExactArithmetic K] {engine : Engine} {linear : LinearSolver K} (definite : Linear.Definite linear)
  {config : Config K} {cs cs' : List (Constraint K)} {unknowns : List VarId} (perm : cs.Perm cs')
  (square : cs.length = unknowns.length)

omit [ExactArithmetic K] in
include definite perm square in
/-- The step comes from the rows of the system in any order. -/
theorem direction_perm (row : Constraint K → List K) (residual : Constraint K → K)
    (width : ∀ c ∈ cs, (row c).length = unknowns.length) :
    linear (cs'.map row) ((cs'.map residual).map (-·)) = linear (cs.map row) ((cs.map residual).map (-·)) := by
  have rows : ∀ c ∈ cs.map fun c => (row c, -residual c),
      c.1.length = (cs.map fun c => (row c, -residual c)).length := by
    rw [List.forall_mem_map, List.length_map, square]
    exact width
  have same := definite.reorder (perm.map fun c => (row c, -residual c)) rows
  simp only [List.map_map] at same ⊢
  exact same

include definite perm square

/-- Rounds on reordered equations go the same way. -/
theorem iterate_perm (left : Nat) : ∀ (k : Nat) (before : SolverStats K) (s : Store K),
    (iterate engine linear config cs unknowns left k before s).Alike
      (iterate engine linear config cs' unknowns left k before s) := by
  induction left with
  | zero => exact fun _ _ _ => ⟨rfl, rfl, rfl⟩
  | succ left ih =>
    intro k before s
    rw [iterate, iterate, residuals_eq, residuals_eq, ← firstNonFinite?, ← firstNonFinite?]
    rcases none_or_some_of_termination (termination_firstNonFinite?_perm perm s) with
      ⟨finite, finite'⟩ | ⟨e, e', failed, failed', same⟩
    · rw [finite, finite']
      have length : Scalar.norm (cs'.map (·.residual s)) = Scalar.norm (cs.map (·.residual s)) :=
        (ExactArithmetic.norm_perm (perm.map _) (List.forall_mem_map.2 (firstNonFinite?_eq_none_iff.1 finite))).symm
      simp only [Option.elim_none, length, jacobian_on_eq]
      split
      · exact ⟨rfl, rfl, rfl⟩
      split
      · exact ⟨rfl, rfl, rfl⟩
      rcases none_or_some_of_termination (termination_obstacle?_perm perm engine config unknowns s) with
        ⟨free, free'⟩ | ⟨e, e', failed, failed', same⟩
      · rw [free, free']
        simp only [Option.elim_none]
        rw [direction_perm definite perm square (fun c => unknowns.map (slopeAt engine config s c)) (·.residual s)
          fun _ _ => List.length_map _]
        cases linear _ _ with
        | none => exact ⟨rfl, rfl, rfl⟩
        | some direction => exact ih _ _ _
      · rw [failed, failed']
        exact ⟨same, rfl, rfl⟩
    · rw [failed, failed']
      exact ⟨same, rfl, rfl⟩

omit [ExactArithmetic K] in
theorem point_perm (x : VarId → K) (k : Nat) :
    (⟨engine, linear, config, cs', unknowns⟩ : Recurrence K).point x k =
      (⟨engine, linear, config, cs, unknowns⟩ : Recurrence K).point x k := by
  let r : Recurrence K := ⟨engine, linear, config, cs, unknowns⟩
  let r' : Recurrence K := ⟨engine, linear, config, cs', unknowns⟩
  have directions : ∀ y, r'.direction? y = r.direction? y := fun y =>
    direction_perm definite perm square (fun c => unknowns.map (r.slope y c)) (·.body.valueAt y)
      fun _ _ => List.length_map _
  induction k with
  | zero => rfl
  | succ k ih =>
    change r'.next (r'.point x k) = r.next (r.point x k)
    rw [show r'.point x k = r.point x k from ih, Recurrence.next, Recurrence.next, directions]

end Rounds

section Model

variable [ExactArithmetic K] {engine : Engine} {linear : LinearSolver K} (definite : Linear.Definite linear)
  {config : Config K} {model model' : Model K} (perm : model.equations.Perm model'.equations) (s : Store K)
include perm

omit [ExactArithmetic K] in
theorem admits_perm : admits config model' s = admits config model s := by
  rw [admits, admits, Model.inScope, Model.inScope, Model.referenced_perm perm, Model.unknowns_perm perm,
    perm.isEmpty_eq]

include definite

theorem run_perm : (run engine linear config model s).Alike (run engine linear config model' s) := by
  rw [run, run, Model.unknowns_perm perm, ← perm.length_eq]
  split
  · rename_i square
    exact iterate_perm definite perm square _ _ _ _
  · exact ⟨rfl, rfl, rfl⟩

theorem solve_perm : solve engine linear config model' s = solve engine linear config model s := by
  have alike : (run engine linear config model s).Alike (run engine linear config model' s) := run_perm definite perm s
  refine Prod.ext ?_ ?_
  · rw [solve_outcome, solve_outcome, alike.termination, alike.stats]
  · rw [solve_kept, solve_kept, alike.termination, alike.store]

end Model

/-- A run whose first residuals are not all finite blames the first that is not. -/
theorem run_of_nonFinite {engine : Engine} {linear : LinearSolver K} {config : Config K} {model : Model K} {s : Store K}
    {e : SolverError} (begun : 0 < config.maxIterations) (square : model.equations.length = (model.unknowns s).length)
    (failed : firstNonFinite? model.equations s = some e) :
    (run engine linear config model s).result = .error e := by
  obtain ⟨left, rounds⟩ := Nat.exists_eq_add_one.2 begun
  rw [run, if_pos square, rounds, iterate, residuals_eq, ← firstNonFinite?, failed]
  rfl

section Poles

variable (K : Type) [Scalar K]

def reciprocal : Constraint K :=
  ⟨"reciprocal", .quotient (.const 1) (.var 0)⟩

def proportion : Constraint K :=
  ⟨"proportion", .quotient (.var 1) (.var 0)⟩

def sumOfThree : Constraint K :=
  ⟨"sum", .sum [.var 0, .var 1, .var 2]⟩

/-- Two equations with one pole, and one without. -/
def poles : Model K :=
  ⟨"poles", [.ofMembers "quotients" [(.time 0, reciprocal K), (.time 1, proportion K)],
    .ofMembers "sums" [(.time 0, sumOfThree K)]]⟩

def polesTurned : Model K :=
  ⟨"poles", [.ofMembers "sums" [(.time 0, sumOfThree K)],
    .ofMembers "quotients" [(.time 1, proportion K), (.time 0, reciprocal K)]]⟩

theorem poles_reordered : (poles K).Reordered (polesTurned K) :=
  ⟨_, .swap _ _ _, .cons ⟨rfl, .refl _⟩ (.cons ⟨rfl, .swap _ _ _⟩ .nil)⟩

def atPole : Store K :=
  ⟨#[⟨"x", 0, false⟩, ⟨"y", 1, false⟩, ⟨"z", 1, false⟩]⟩

end Poles

/-- Solving does not depend on the order of the equations, in any exact arithmetic in which the linear solver goes
by the solutions of a system. The unknowns and their number are the same, the iteration stands at the same points
and after as many rounds in the same store, and it ends in the same way, though another equation may be blamed. -/
theorem solve_reordered [ExactArithmetic K] (engine : Engine) {linear : LinearSolver K}
    (definite : Linear.Definite linear) (config : Config K) {model model' : Model K}
    (reordered : model.Reordered model') (s : Store K) :
    model'.unknowns s = model.unknowns s ∧ model'.freedom s = model.freedom s ∧
    (model.freedom s = 0 → ∀ k, (Recurrence.ofModel engine linear config model' s).point s.value k =
      (Recurrence.ofModel engine linear config model s).point s.value k) ∧
    (∀ rounds, (run engine linear { config with maxIterations := rounds } model' s).store =
      (run engine linear { config with maxIterations := rounds } model s).store) ∧
    solve engine linear config model' s = solve engine linear config model s ∧
    ∀ trace, (solverWith engine linear config).solve model' trace ((), s) =
      (solverWith engine linear config).solve model trace ((), s) := by
  have perm := reordered.equations
  have unknowns := Model.unknowns_perm perm s
  have solved : solve engine linear config model' s = solve engine linear config model s := solve_perm definite perm s
  refine ⟨unknowns, Model.freedom_perm perm s, fun free k => ?_, fun rounds => (run_perm definite perm s).store, solved,
    fun trace => ?_⟩
  · have square : model.equations.length = (model.unknowns s).length := by
      rw [Model.freedom] at free
      omega
    rw [Recurrence.ofModel, unknowns]
    exact point_perm definite perm square s.value k
  · unfold solverWith
    dsimp only
    rw [admits_perm perm, solved]

/-- At the pole the one order blames the reciprocal and the other the proportion. The solve ends alike, also where a
quotient by zero is a number. -/
theorem solve_reordered_poles :
    Linear.Definite (Linear.byUniqueness : LinearSolver PartialReal) ∧
    (poles PartialReal).Reordered (polesTurned PartialReal) ∧
    (run .exact Linear.byUniqueness .standard (poles PartialReal) (atPole PartialReal)).result =
      .error (.nonFiniteResidual "reciprocal") ∧
    (run .exact Linear.byUniqueness .standard (polesTurned PartialReal) (atPole PartialReal)).result =
      .error (.nonFiniteResidual "proportion") ∧
    solve .exact Linear.byUniqueness .standard (polesTurned PartialReal) (atPole PartialReal) =
      solve .exact Linear.byUniqueness .standard (poles PartialReal) (atPole PartialReal) ∧
    solve .exact Linear.solve .standard (polesTurned ℝ) (atPole ℝ) =
      solve .exact Linear.solve .standard (poles ℝ) (atPole ℝ) := by
  have definite : Linear.Definite (Linear.byUniqueness : LinearSolver PartialReal) := Linear.byUniqueness_definite
  have reordered := poles_reordered PartialReal
  obtain ⟨_, _, _, _, turned, _⟩ := solve_reordered .exact definite .standard reordered (atPole PartialReal)
  obtain ⟨_, _, _, _, turned', _⟩ :=
    solve_reordered .exact Linear.solve_decisive.definite .standard (poles_reordered ℝ) (atPole ℝ)
  have quotientFails : ∀ a : PartialReal, Scalar.isFinite (a / (⟨some 0⟩ : PartialReal)) = false := fun a =>
    congrArg Scalar.isFinite (show a / (⟨some 0⟩ : PartialReal) = ⟨none⟩ from if_pos rfl)
  refine ⟨definite, reordered, ?_, ?_, turned, turned'⟩
  · refine run_of_nonFinite (by decide) rfl (List.findSome?_eq_some_iff.2
      ⟨[], _, _, rfl, notFinite?_eq_some_iff.2 ⟨quotientFails _, rfl⟩, List.forall_mem_nil _⟩)
  · refine run_of_nonFinite (by decide) rfl (List.findSome?_eq_some_iff.2
      ⟨[sumOfThree PartialReal], _, _, rfl, notFinite?_eq_some_iff.2 ⟨quotientFails _, rfl⟩, ?_⟩)
    exact List.forall_mem_singleton.2 (notFinite?_eq_none_iff.2 rfl)

end Newton

end Distillation
