import Distillation.Proofs.Newton.Jacobian
import Distillation.Proofs.Store.Values

namespace Distillation.Newton

variable {K : Type} [Scalar K]

section Finiteness

variable {name : String} {r : K}

theorem notFinite?_eq_none_iff : notFinite? name r = none ↔ Scalar.isFinite r = true := by
  rw [notFinite?]
  cases Scalar.isFinite r <;> simp

theorem notFinite?_eq_some_iff {e : SolverError} :
    notFinite? name r = some e ↔ Scalar.isFinite r = false ∧ e = .nonFiniteResidual name := by
  rw [notFinite?]
  cases Scalar.isFinite r <;> simp [eq_comm]

end Finiteness

/-- The first of some residuals that is not finite. -/
def firstNonFinite? (cs : List (Constraint K)) (s : Store K) : Option SolverError :=
  cs.findSome? fun c => notFinite? c.name (c.residual s)

theorem firstNonFinite?_eq_none_iff {cs : List (Constraint K)} {s : Store K} :
    firstNonFinite? cs s = none ↔ ∀ c ∈ cs, Scalar.isFinite (c.residual s) = true :=
  List.findSome?_eq_none_iff.trans (forall₂_congr fun _ _ => notFinite?_eq_none_iff)

/-- The store in which a difference by one variable is taken. -/
def displaced (step : K) (s : Store K) (v : VarId) : Store K :=
  s.set v (s.value v + increment step (s.value v))

/-- The divided difference of an equation by one variable, from the residual `r`. -/
def quotient (step : K) (s : Store K) (v : VarId) (c : Constraint K) (r : K) : K :=
  (c.residual (displaced step s v) - r) / increment step (s.value v)

variable {cs : List (Constraint K)} {unknowns : List VarId} {base : List K} {s : Store K}

theorem differences_on_fst (cs : List (Constraint K)) (step : K) (base : List K) (v : VarId) (s : Store K) :
    ((differences cs step base v).on s).1 = (firstNonFinite? cs (displaced step s v)).elim
      (.ok ((cs.zip base).map fun row => quotient step s v row.1 row.2)) .error := by
  change (residuals cs (displaced step s v)).map _ = _
  rw [residuals_eq, ← firstNonFinite?]
  cases firstNonFinite? cs (displaced step s v) with
  | some e => rfl
  | none =>
    change Except.ok (List.zipWith _ (cs.map _) base) = _
    rw [List.zipWith_map_left, ← List.map_uncurry_zip_eq_zipWith]
    rfl

/-- Every column is taken from the store as it was, and so the whole is. -/
theorem differenceJacobian_on_eq (step : K) (covered : cs.length ≤ base.length) :
    (differenceJacobian cs unknowns step base).on s =
      ((unknowns.findSome? fun v => firstNonFinite? cs (displaced step s v)).elim
        (.ok (List.zipWith (fun c r => unknowns.map fun v => quotient step s v c r) cs base)) .error, s) := by
  have columns := mapM_eq_findSome? (fun v => firstNonFinite? cs (displaced step s v)) _ (l := unknowns)
    fun v _ => differences_on_fst cs step base v s
  have count : cs.length = (cs.zip base).length := by rw [List.length_zip, Nat.min_eq_left covered]
  rw [differenceJacobian_eq, columns]
  cases unknowns.findSome? fun v => firstNonFinite? cs (displaced step s v) with
  | some e => rfl
  | none =>
    refine congrArg (fun rows => (Except.ok rows, s)) ?_
    rw [count, rowsOfColumns_map, ← List.map_uncurry_zip_eq_zipWith]
    rfl

/-- What keeps an engine from differentiating at a store. -/
def obstacle? (engine : Engine) (config : Config K) (cs : List (Constraint K)) (unknowns : List VarId) (s : Store K) :
    Option SolverError :=
  match engine with
  | .differences => unknowns.findSome? fun v => firstNonFinite? cs (displaced config.differenceStep s v)
  | .exact => none

/-- The slope of an equation that an engine finds at a store. -/
def slopeAt (engine : Engine) (config : Config K) (s : Store K) (c : Constraint K) (v : VarId) : K :=
  match engine with
  | .differences => quotient config.differenceStep s v c (c.residual s)
  | .exact => (c.body.dualAt s.value v).slope

/-- A row of the Jacobian depends on its own equation alone. -/
theorem jacobian_on_eq (engine : Engine) (config : Config K) (cs : List (Constraint K)) (unknowns : List VarId)
    (s : Store K) : (jacobian engine config cs unknowns (cs.map (·.residual s))).on s =
      ((obstacle? engine config cs unknowns s).elim (.ok (cs.map fun c => unknowns.map (slopeAt engine config s c)))
        .error, s) := by
  cases engine with
  | differences =>
    have covered : cs.length ≤ (cs.map (·.residual s)).length := Nat.le_of_eq (List.length_map _).symm
    rw [jacobian, differenceJacobian_on_eq _ covered, List.zipWith_map_right, List.zipWith_self]
    rfl
  | exact => rfl

theorem residual_displaced (step : K) {v : VarId} (known : v < s.size) (c : Constraint K) :
    c.residual (displaced step s v) =
      c.body.valueAt (Function.update s.value v (s.value v + increment step (s.value v))) := by
  rw [Constraint.residual, Expr.eval, displaced, s.value_set_known known]

/-- A sum, and a quotient that has no value where its denominator vanishes. -/
def sumAndRatio : List (Constraint Float) :=
  [⟨"sum", .sum [.var 0, .var 1]⟩, ⟨"ratio", .quotient (.var 1) (.var 0)⟩]

def besidePole : Store Float :=
  ⟨#[⟨"x", -1, false⟩, ⟨"y", 2, false⟩]⟩

/-- The Jacobian by forward differences is a function of the values in the store, which it leaves as they were
however it ends. If every equation is finite wherever one unknown is moved from there, the entry of an equation
and an unknown is their divided difference, in which the other variables stand where they stood. If one is not,
the first such equation at the first such unknown is the error. -/
theorem jacobian_by_differences (config : Config K) (known : ∀ v ∈ unknowns, v < s.size)
    (covered : cs.length ≤ base.length) :
    let h (v : VarId) := config.differenceStep * Scalar.max (Scalar.abs (s.value v)) 1
    let f (c : Constraint K) (v : VarId) := c.body.valueAt (Function.update s.value v (s.value v + h v))
    let made := (jacobian .differences config cs unknowns base).on s
    made.2 = s ∧
    (∀ rows, made.1 = .ok rows ↔ (∀ v ∈ unknowns, ∀ c ∈ cs, Scalar.isFinite (f c v) = true) ∧
      rows = List.zipWith (fun c r => unknowns.map fun v => (f c v - r) / h v) cs base) ∧
    ∀ e, made.1 = .error e ↔
      ∃ earlier v later, unknowns = earlier ++ v :: later ∧
        (∀ w ∈ earlier, ∀ c ∈ cs, Scalar.isFinite (f c w) = true) ∧
        ∃ above c below, cs = above ++ c :: below ∧ (∀ d ∈ above, Scalar.isFinite (f d v) = true) ∧
          Scalar.isFinite (f c v) = false ∧ e = .nonFiniteResidual c.name := by
  intro h f made
  have moved : ∀ v ∈ unknowns, ∀ c, c.residual (displaced config.differenceStep s v) = f c v :=
    fun v unknown c => residual_displaced config.differenceStep (known v unknown) c
  have finite : ∀ v ∈ unknowns, firstNonFinite? cs (displaced config.differenceStep s v) = none ↔
      ∀ c ∈ cs, Scalar.isFinite (f c v) = true := by
    intro v unknown
    simp only [firstNonFinite?_eq_none_iff, moved v unknown]
  have rows_eq : List.zipWith (fun c r => unknowns.map fun v => quotient config.differenceStep s v c r) cs base =
      List.zipWith (fun c r => unknowns.map fun v => (f c v - r) / h v) cs base := by
    refine congrArg (List.zipWith · cs base) (funext fun c => funext fun r => ?_)
    exact List.map_congr_left fun v unknown => by rw [quotient, moved v unknown]; rfl
  have ran : made = _ := differenceJacobian_on_eq config.differenceStep covered
  rw [ran, rows_eq]
  refine ⟨rfl, fun rows => ?_, fun e => ?_⟩
  · rw [elim_eq_ok, List.findSome?_eq_none_iff]
    exact and_congr_left fun _ => forall₂_congr finite
  · rw [elim_eq_error, List.findSome?_eq_some_iff]
    constructor
    · rintro ⟨earlier, v, later, rfl, failed, quiet⟩
      obtain ⟨above, c, below, rfl, here, passed⟩ := List.findSome?_eq_some_iff.1 failed
      have unknown : v ∈ earlier ++ v :: later := List.mem_append_right _ List.mem_cons_self
      rw [moved v unknown, notFinite?_eq_some_iff] at here
      refine ⟨earlier, v, later, rfl, fun w inside => ?_, above, c, below, rfl, fun d inside => ?_, here⟩
      · exact (finite w (List.mem_append_left _ inside)).1 (quiet w inside)
      · rw [← moved v unknown]
        exact notFinite?_eq_none_iff.1 (passed d inside)
    · rintro ⟨earlier, v, later, rfl, quiet, above, c, below, rfl, passed, failed⟩
      have unknown : v ∈ earlier ++ v :: later := List.mem_append_right _ List.mem_cons_self
      refine ⟨earlier, v, later, rfl, List.findSome?_eq_some_iff.2 ⟨above, c, below, rfl, ?_, fun d inside => ?_⟩,
        fun w inside => (finite w (List.mem_append_left _ inside)).2 (quiet w inside)⟩
      · rw [moved v unknown]
        exact notFinite?_eq_some_iff.2 failed
      · rw [moved v unknown]
        exact notFinite?_eq_none_iff.2 (passed d inside)

/-- Next to the pole of the quotient the column of its numerator is taken, and that of its denominator fails. -/
theorem jacobian_by_differences_pole :
    (∀ v ∈ [1, 0], v < besidePole.size) ∧ sumAndRatio.length ≤ [(1 : Float), -2].length ∧
    ((jacobian .differences ⟨1, 1, 1, 1⟩ sumAndRatio [1, 0] [1, -2]).on besidePole).1 =
      .error (.nonFiniteResidual "ratio") := by
  have known : ∀ v ∈ [1, 0], v < besidePole.size := by decide
  have covered : sumAndRatio.length ≤ [(1 : Float), -2].length := by decide
  obtain ⟨_, _, errors⟩ := jacobian_by_differences ⟨1, 1, 1, 1⟩ known covered
  refine ⟨known, covered, (errors _).2 ⟨[1], 0, [], rfl, ?_, [_], _, [], rfl, ?_, ?_, rfl⟩⟩
  · decide +kernel
  · decide +kernel
  · decide +kernel

end Distillation.Newton
