import Distillation.Proofs.Expr.Variables
import Distillation.Proofs.Newton.Differences

namespace Distillation.Newton

/-- What the points of a recurrence depend on, besides the first. -/
structure Recurrence (K : Type) where
  engine : Engine
  linear : LinearSolver K
  config : Config K
  equations : List (Constraint K)
  unknowns : List VarId

/-- How an iteration ends in a round, and how many evaluations that round counts. -/
structure Stop where
  result : Except SolverError Unit
  functionEvals : Nat
  jacobianEvals : Nat

variable {K : Type} [Scalar K]

/-- The assignment in which the variables have taken a part of their steps. Those without a step rest. -/
def shifted (damping : K) (steps : List (VarId × K)) (x : VarId → K) (v : VarId) : K :=
  match steps.lookup v with
  | some d => x v + damping * d
  | none => x v

theorem advance_withValues (damping : K) (s : Store K) (unknowns : List VarId) :
    ∀ (direction : List K) (x : VarId → K), unknowns.Nodup → (∀ v ∈ unknowns, v < s.size) →
      advance damping (s.withValues x) (unknowns.zip direction) =
        s.withValues (shifted damping (unknowns.zip direction) x) := by
  induction unknowns with
  | nil => exact fun _ _ _ _ => rfl
  | cons v rest ih =>
    intro direction x distinct known
    cases direction with
    | nil => rfl
    | cons d direction =>
      obtain ⟨fresh, distinct⟩ := List.nodup_cons.1 distinct
      obtain ⟨here, known⟩ := List.forall_mem_cons.1 known
      change advance damping ((s.withValues x).set v ((s.withValues x).value v + damping * d))
        (rest.zip direction) = _
      rw [s.value_withValues x here, s.set_withValues, ih direction _ distinct known]
      refine congrArg s.withValues (funext fun w => ?_)
      rw [shifted, shifted, List.zip_cons_cons, List.lookup_cons]
      by_cases same : w = v
      · subst same
        rw [lookup_zip_of_not_mem fresh, Function.update_self, beq_self_eq_true]
      · have other : (w == v) = false := beq_false_of_ne same
        rw [other, Function.update_of_ne same]

namespace Recurrence

/-- The recurrence of the active equations of a model in its free variables. -/
def ofModel (engine : Engine) (linear : LinearSolver K) (config : Config K) (model : Model K) (s : Store K) :
    Recurrence K :=
  ⟨engine, linear, config, model.equations, model.unknowns s⟩

section Points

variable (r : Recurrence K) (x : VarId → K)

def residuals : List K :=
  r.equations.map fun c => c.body.valueAt x

def norm : K :=
  Scalar.norm (r.residuals x)

/-- The first residual that is not finite. -/
def nonFinite? : Option SolverError :=
  r.equations.findSome? fun c => notFinite? c.name (c.body.valueAt x)

def increment (v : VarId) : K :=
  Newton.increment r.config.differenceStep (x v)

/-- The point next to `x` at which a difference by one variable is taken. -/
def moved (v : VarId) : VarId → K :=
  Function.update x v (x v + r.increment x v)

/-- The first residual that is not finite next to a point, unknown by unknown. Exact slopes are read at the
point itself. -/
def nonFiniteNearby? : Option SolverError :=
  match r.engine with
  | .differences => r.unknowns.findSome? fun v => r.nonFinite? (r.moved x v)
  | .exact => none

def slope (c : Constraint K) (v : VarId) : K :=
  match r.engine with
  | .differences => (c.body.valueAt (r.moved x v) - c.body.valueAt x) / r.increment x v
  | .exact => (c.body.dualAt x v).slope

def matrix : List (List K) :=
  r.equations.map fun c => r.unknowns.map (r.slope x c)

/-- The solution of the linearized system, if the linear solver has one. -/
def direction? : Option (List K) :=
  r.linear (r.matrix x) ((r.residuals x).map (-·))

def next : VarId → K :=
  match r.direction? x with
  | some direction => shifted r.config.damping (r.unknowns.zip direction) x
  | none => x

/-- The points of the recurrence. -/
def point : Nat → VarId → K
  | 0 => x
  | k + 1 => r.next (point k)

/-- The norm at the last of the first `n` points; zero if there is none. -/
def lastNorm : Nat → K
  | 0 => 0
  | n + 1 => r.norm (r.point x n)

/-- The tests of round `k`, in their order. -/
def stop? (k : Nat) : Option Stop :=
  match r.nonFinite? x with
  | some e => some ⟨.error e, 0, 0⟩
  | none =>
    if Scalar.lt (r.norm x) r.config.tolerance then some ⟨.ok (), 1, 0⟩
    else if 10 < k && Scalar.lt 1e10 (r.norm x) then some ⟨.error .diverged, 1, 0⟩
    else
      match r.nonFiniteNearby? x with
      | some e => some ⟨.error e, 1, 0⟩
      | none => if (r.direction? x).isNone then some ⟨.error .singularJacobian, 1, 1⟩ else none

/-- What has been counted when `k` rounds are complete. -/
def counted (k : Nat) : SolverStats K :=
  ⟨k, k, k, r.lastNorm x k⟩

end Points

/-- The end of an iteration from `s` that stops in round `k`. -/
def ended (r : Recurrence K) (s : Store K) (k : Nat) (stop : Stop) : Run K where
  result := stop.result
  stats := ⟨k + 1, k + stop.functionEvals, k + stop.jacobianEvals, r.lastNorm s.value (k + stop.functionEvals)⟩
  store := s.withValues (r.point s.value k)

/-- The end of an iteration from `s` that has used up its `n` rounds. -/
def exhausted (r : Recurrence K) (s : Store K) (n : Nat) : Run K :=
  ⟨.error .maxIterationsExceeded, r.counted s.value n, s.withValues (r.point s.value n)⟩

theorem point_of_not_mem (r : Recurrence K) (x : VarId → K) {v : VarId} (absent : v ∉ r.unknowns) (k : Nat) :
    r.point x k v = x v := by
  induction k with
  | zero => rfl
  | succ k ih =>
    rw [point, next]
    cases r.direction? (r.point x k) with
    | none => exact ih
    | some direction =>
      change shifted _ _ _ v = _
      rw [shifted, lookup_zip_of_not_mem absent]
      exact ih

/-- The store knows the variables of the equations, and the unknowns are different ones of them. -/
structure Known (r : Recurrence K) (s : Store K) : Prop where
  equations : ∀ c ∈ r.equations, ∀ v ∈ c.body.vars, v < s.size
  unknowns : ∀ v ∈ r.unknowns, v < s.size
  distinct : r.unknowns.Nodup

omit [Scalar K] in
theorem known_ofModel (engine : Engine) (linear : LinearSolver K) (config : Config K) {model : Model K} {s : Store K}
    (scope : model.inScope s = true) : (ofModel engine linear config model s).Known s := by
  have known : ∀ v ∈ model.referenced, v < s.size := by simpa [Model.inScope] using scope
  refine ⟨fun c inside v occurs => known v (Model.mem_referenced.2 ⟨c, inside, occurs⟩), fun v unknown => ?_,
    model.unknowns_nodup s⟩
  exact known v (Model.mem_referenced.2 (Model.mem_unknowns.1 unknown).2)

section OnStore

variable {r : Recurrence K} {s : Store K} (known : r.Known s) (x : VarId → K)
include known

theorem Known.residual_withValues {c : Constraint K} (inside : c ∈ r.equations) :
    c.residual (s.withValues x) = c.body.valueAt x :=
  c.body.evalWith_congr fun v occurs => s.value_withValues x (known.equations c inside v occurs)

theorem Known.firstNonFinite?_withValues : firstNonFinite? r.equations (s.withValues x) = r.nonFinite? x := by
  exact findSome?_congr fun c inside => by rw [known.residual_withValues x inside]

theorem Known.residuals_withValues : r.equations.map (·.residual (s.withValues x)) = r.residuals x :=
  List.map_congr_left fun _ inside => known.residual_withValues x inside

theorem Known.residuals_on : Newton.residuals r.equations (s.withValues x) =
    (r.nonFinite? x).elim (.ok (r.residuals x)) .error := by
  rw [residuals_eq, known.residuals_withValues, ← firstNonFinite?, known.firstNonFinite?_withValues]

theorem Known.displaced_withValues {v : VarId} (unknown : v ∈ r.unknowns) :
    displaced r.config.differenceStep (s.withValues x) v = s.withValues (r.moved x v) := by
  rw [displaced, s.value_withValues x (known.unknowns v unknown), s.set_withValues]
  rfl

theorem Known.slopeAt_withValues {c : Constraint K} (inside : c ∈ r.equations) {v : VarId} (unknown : v ∈ r.unknowns) :
    slopeAt r.engine r.config (s.withValues x) c v = r.slope x c v := by
  cases engine : r.engine with
  | differences =>
    rw [slope, engine, slopeAt, quotient, known.displaced_withValues x unknown, known.residual_withValues _ inside,
      known.residual_withValues _ inside, s.value_withValues x (known.unknowns v unknown)]
    rfl
  | exact =>
    rw [slope, engine]
    refine congrArg Dual.slope (c.body.evalWith_congr fun w occurs => ?_)
    rw [Expr.seeded, Expr.seeded, s.value_withValues x (known.equations c inside w occurs)]

theorem Known.obstacle?_withValues :
    obstacle? r.engine r.config r.equations r.unknowns (s.withValues x) = r.nonFiniteNearby? x := by
  cases engine : r.engine with
  | differences =>
    rw [nonFiniteNearby?, engine]
    refine findSome?_congr fun v unknown => ?_
    rw [known.displaced_withValues x unknown, known.firstNonFinite?_withValues]
  | exact =>
    rw [nonFiniteNearby?, engine]
    rfl

theorem Known.jacobian_on : (jacobian r.engine r.config r.equations r.unknowns (r.residuals x)).on (s.withValues x) =
    ((r.nonFiniteNearby? x).elim (.ok (r.matrix x)) .error, s.withValues x) := by
  have rows : (r.equations.map fun c => r.unknowns.map (slopeAt r.engine r.config (s.withValues x) c)) = r.matrix x :=
    List.map_congr_left fun c inside => List.map_congr_left fun v unknown => known.slopeAt_withValues x inside unknown
  rw [← known.residuals_withValues x, jacobian_on_eq, known.obstacle?_withValues, rows]

end OnStore

section Rounds

variable {r : Recurrence K} {s : Store K} (known : r.Known s)
include known

/-- A round in which no test ends the iteration leads to the next point. -/
theorem Known.iterate_round (left k : Nat) :
    iterate r.engine r.linear r.config r.equations r.unknowns (left + 1) k (r.counted s.value k)
        (s.withValues (r.point s.value k)) =
      match r.stop? (r.point s.value k) k with
      | some stop => r.ended s k stop
      | none => iterate r.engine r.linear r.config r.equations r.unknowns left (k + 1)
          (r.counted s.value (k + 1)) (s.withValues (r.point s.value (k + 1))) := by
  have norm : Scalar.norm (r.residuals (r.point s.value k)) = r.norm (r.point s.value k) := rfl
  have beyond : (decide (settlingIterations < k) && Scalar.lt divergenceBound (r.norm (r.point s.value k))) =
      (decide (10 < k) && Scalar.lt 1e10 (r.norm (r.point s.value k))) := rfl
  have solution : r.linear (r.matrix (r.point s.value k)) ((r.residuals (r.point s.value k)).map (-·)) =
      r.direction? (r.point s.value k) := rfl
  rw [iterate, known.residuals_on, stop?]
  cases r.nonFinite? (r.point s.value k) with
  | some e => rfl
  | none =>
    simp only [Option.elim_none, norm, beyond, known.jacobian_on]
    by_cases small : Scalar.lt (r.norm (r.point s.value k)) r.config.tolerance = true
    · rw [if_pos small, if_pos small]
      rfl
    rw [if_neg small, if_neg small]
    by_cases large : (decide (10 < k) && Scalar.lt 1e10 (r.norm (r.point s.value k))) = true
    · rw [if_pos large, if_pos large]
      rfl
    rw [if_neg large, if_neg large]
    cases r.nonFiniteNearby? (r.point s.value k) with
    | some e => rfl
    | none =>
      simp only [Option.elim_none, solution]
      cases found : r.direction? (r.point s.value k) with
      | none => rfl
      | some direction =>
        have moved : advance r.config.damping (s.withValues (r.point s.value k)) (r.unknowns.zip direction) =
            s.withValues (r.point s.value (k + 1)) := by
          rw [advance_withValues _ _ _ _ _ known.distinct known.unknowns, point, next, found]
        dsimp only
        rw [moved]
        rfl

/-- An iteration ends in the first round from its own on in which a test says so, or it uses up its rounds. -/
theorem Known.iterate_ends (left : Nat) : ∀ k,
    (∃ n stop, k ≤ n ∧ n < k + left ∧ (∀ i, k ≤ i → i < n → r.stop? (r.point s.value i) i = none) ∧
      r.stop? (r.point s.value n) n = some stop ∧
      iterate r.engine r.linear r.config r.equations r.unknowns left k (r.counted s.value k)
        (s.withValues (r.point s.value k)) = r.ended s n stop) ∨
    (∀ i, k ≤ i → i < k + left → r.stop? (r.point s.value i) i = none) ∧
      iterate r.engine r.linear r.config r.equations r.unknowns left k (r.counted s.value k)
        (s.withValues (r.point s.value k)) = r.exhausted s (k + left) := by
  induction left with
  | zero =>
    intro k
    refine .inr ⟨fun i started below => ?_, rfl⟩
    omega
  | succ left ih =>
    intro k
    rw [known.iterate_round]
    cases here : r.stop? (r.point s.value k) k with
    | some stop =>
      refine .inl ⟨k, stop, Nat.le_refl k, by omega, fun i started below => ?_, here, rfl⟩
      omega
    | none =>
      have extend : ∀ {n}, (∀ i, k + 1 ≤ i → i < n → r.stop? (r.point s.value i) i = none) →
          ∀ i, k ≤ i → i < n → r.stop? (r.point s.value i) i = none := by
        intro n later i started below
        rcases Nat.eq_or_lt_of_le started with rfl | after
        · exact here
        · exact later i after below
      rcases ih (k + 1) with ⟨n, stop, started, below, quiet, stops, ended⟩ | ⟨quiet, ended⟩
      · exact .inl ⟨n, stop, by omega, by omega, extend quiet, stops, ended⟩
      · rw [show k + 1 + left = k + (left + 1) by omega] at quiet ended
        exact .inr ⟨extend quiet, ended⟩

end Rounds

/-- A run on a square system stops in the first round in which a test says so, or it uses up its rounds. -/
theorem run_ends (engine : Engine) (linear : LinearSolver K) (config : Config K) {model : Model K} {s : Store K}
    (scope : model.inScope s = true) (square : model.equations.length = (model.unknowns s).length) :
    let r := ofModel engine linear config model s
    (∃ k stop, k < config.maxIterations ∧ (∀ i < k, r.stop? (r.point s.value i) i = none) ∧
      r.stop? (r.point s.value k) k = some stop ∧ run engine linear config model s = r.ended s k stop) ∨
    (∀ i < config.maxIterations, r.stop? (r.point s.value i) i = none) ∧
      run engine linear config model s = r.exhausted s config.maxIterations := by
  intro r
  have started : run engine linear config model s = iterate r.engine r.linear r.config r.equations r.unknowns
      config.maxIterations 0 (r.counted s.value 0) (s.withValues (r.point s.value 0)) := by
    rw [point, s.withValues_value, run, if_pos square]
    rfl
  rw [started]
  rcases (known_ofModel engine linear config scope).iterate_ends config.maxIterations 0 with
    ⟨k, stop, _, below, quiet, stops, ended⟩ | ⟨quiet, ended⟩
  · exact .inl ⟨k, stop, by omega, fun i before => quiet i (Nat.zero_le i) before, stops, ended⟩
  · rw [Nat.zero_add] at quiet ended
    exact .inr ⟨fun i before => quiet i (Nat.zero_le i) before, ended⟩

/-- The first stop within the limit is the end of the run. -/
theorem run_of_first_stop (engine : Engine) (linear : LinearSolver K) (config : Config K) {model : Model K}
    {s : Store K} (scope : model.inScope s = true) (square : model.equations.length = (model.unknowns s).length)
    {k : Nat} {stop : Stop} (below : k < config.maxIterations) :
    let r := ofModel engine linear config model s
    (∀ i < k, r.stop? (r.point s.value i) i = none) → r.stop? (r.point s.value k) k = some stop →
      run engine linear config model s = r.ended s k stop := by
  intro r quiet stops
  rcases run_ends engine linear config scope square with ⟨n, other, _, before, stopped, ended⟩ | ⟨never, _⟩
  · rcases Nat.lt_trichotomy n k with earlier | rfl | later
    · rw [quiet n earlier] at stopped
      cases stopped
    · rw [stops] at stopped
      cases stopped
      exact ended
    · rw [before k later] at stops
      cases stops
  · rw [never k below] at stops
    cases stops

end Recurrence

/-- A circle and a line that cross. -/
def crossing : Model Float :=
  let x := Expr.var 0
  let y := Expr.var 1
  ⟨"crossing", [.ofMembers "system"
    [(.time 0, ⟨"circle", .sum [.product x x, .product y y, .const (-5)]⟩),
      (.time 1, ⟨"line", .sum [x, .neg y, .const (-1)]⟩)]]⟩

def crossingGuess : Store Float :=
  ⟨#[⟨"x", 1.5, false⟩, ⟨"y", 0.5, false⟩]⟩

/-- A run follows the recurrence of its model. A system that is not square is left alone. On a square one
the run ends in the first round, if there is one before the limit, in which a test says so; the test gives
its result, the rounds before it and the evaluations of its own round are counted, and the unknowns are left
at the point of that round. Without such a round it ends at the limit. -/
theorem run_refines_recurrence (engine : Engine) (linear : LinearSolver K) (config : Config K) {model : Model K}
    {s : Store K} (scope : model.inScope s = true) :
    let r := Recurrence.ofModel engine linear config model s
    let x := r.point s.value
    (∀ k v, v ∉ model.unknowns s → x k v = s.value v) ∧
    (model.equations.length ≠ (model.unknowns s).length → run engine linear config model s =
      ⟨.error (.unbalanced model.equations.length (model.unknowns s).length), ⟨0, 0, 0, 0⟩, s⟩) ∧
    (model.equations.length = (model.unknowns s).length →
      (∃ k stop, k < config.maxIterations ∧ (∀ i < k, r.stop? (x i) i = none) ∧ r.stop? (x k) k = some stop ∧
        run engine linear config model s =
          ⟨stop.result, ⟨k + 1, k + stop.functionEvals, k + stop.jacobianEvals,
            r.lastNorm s.value (k + stop.functionEvals)⟩, s.withValues (x k)⟩) ∨
      (∀ i < config.maxIterations, r.stop? (x i) i = none) ∧
        run engine linear config model s =
          ⟨.error .maxIterationsExceeded, ⟨config.maxIterations, config.maxIterations, config.maxIterations,
            r.lastNorm s.value config.maxIterations⟩, s.withValues (x config.maxIterations)⟩) := by
  intro r x
  refine ⟨fun k v absent => r.point_of_not_mem s.value absent k, fun oblong => ?_, fun square => ?_⟩
  · rw [run, if_neg oblong]
    rfl
  · exact Recurrence.run_ends engine linear config scope square

theorem run_refines_recurrence_crossing :
    let r := Recurrence.ofModel .exact Linear.solve .standard crossing crossingGuess
    crossing.inScope crossingGuess = true ∧ crossing.equations.length = (crossing.unknowns crossingGuess).length ∧
    ((∃ k stop, k < 100 ∧ (∀ i < k, r.stop? (r.point crossingGuess.value i) i = none) ∧
        r.stop? (r.point crossingGuess.value k) k = some stop ∧
        run .exact Linear.solve .standard crossing crossingGuess = r.ended crossingGuess k stop) ∨
      (∀ i < 100, r.stop? (r.point crossingGuess.value i) i = none) ∧
        run .exact Linear.solve .standard crossing crossingGuess = r.exhausted crossingGuess 100) := by
  intro r
  have scope : crossing.inScope crossingGuess = true := rfl
  exact ⟨scope, rfl, (run_refines_recurrence .exact Linear.solve .standard scope).2.2 rfl⟩

end Distillation.Newton
