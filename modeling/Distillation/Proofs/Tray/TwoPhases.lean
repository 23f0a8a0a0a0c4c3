import Distillation.Proofs.Property.PhaseSplit
import Distillation.Proofs.Tray.References
import Distillation.Proofs.Tray.UniqueSolution

namespace Distillation

/-- What leaves in a phase of the outlet. -/
noncomputable def IdealPackage.leaving (package : IdealPackage ℝ) (states : TrayStates ℝ) (p : Phase) (y : VarId → ℝ) :
    ℝ :=
  (package.components.map fun c => (states.outlet.materialFlow p c.name).valueAt y).sum

/-- What enters at a time position, with the distribution ratio of each component. -/
noncomputable def IdealPoint.mixture (point : IdealPoint ℝ) (factors : List ℝ) (x : VarId → ℝ)
    (nonempty : point.outlet.components.zip factors ≠ [])
    (fed : ∀ c ∈ point.outlet.components, 0 < point.entering c.data.name x) (positive : ∀ k ∈ factors, 0 < k) :
    Mixture (ComponentFlows ℝ × ℝ) where
  parts := point.outlet.components.zip factors
  amount i := point.entering i.1.data.name x
  factor := Prod.snd
  nonempty := nonempty
  amount_pos i inside := fed i.1 (List.of_mem_zip inside).1
  factor_pos i inside := positive i.2 (List.of_mem_zip inside).2

namespace Tray

/-- At a time position the flows of the outlet, which alone are different from `x`, make some liquid and some vapor,
and satisfy the material balances and the equilibrium relations. -/
structure TwoPhase (package : IdealPackage ℝ) (tray : Tray ℝ) (t : Nat) (states : TrayStates ℝ) (x y : VarId → ℝ) :
    Prop where
  outside : ∀ v, v ∉ states.outlet.flows → y v = x v
  leaving_pos : ∀ p, 0 < package.leaving states p y
  material : ∀ member ∈ tray.balances.material.members, member.1.position = t → member.2.body.valueAt y = 0
  equilibrium : ∀ family ∈ states.outlet.families, ∀ c ∈ family.constraints, c.body.valueAt y = 0

variable {package : IdealPackage ℝ} {tray : Tray ℝ} {points : List (IdealPoint ℝ)} {s : Store ℝ} {factors : List ℝ}
  {x y : VarId → ℝ} {t : Nat} {point : IdealPoint ℝ}

section Point

variable (placed : Placed package tray points s) (distinct : package.Distinct)
  (relation : package.equilibrium = .constantK factors) (found : points[t]? = some point)
include placed distinct found

theorem Placed.material_iff :
    (∀ member ∈ tray.balances.material.members, member.1.position = t → member.2.body.valueAt y = 0) ↔
      ∀ c ∈ point.outlet.components, y c.liquid + y c.vapor = point.entering c.data.name y := by
  have inside := List.mem_of_getElem? found
  have fits := placed.anatomy.outlet_fits inside
  have here := placed.anatomy.getElem?_mixings found
  have names : package.componentSet.names = point.outlet.components.map (·.data.name) := by
    rw [distinct.componentSet_names, fits.names]
  have balance : ∀ c ∈ point.outlet.components,
      (Balances.materialBody Phase.both point.toMixing c.data.name).valueAt y = 0 ↔
        y c.liquid + y c.vapor = point.entering c.data.name y := fun c among => by
    rw [placed.valueAt_material distinct inside among, sub_eq_zero, eq_comm]
  rw [placed.anatomy.material, ← forall₂_congr balance]
  constructor
  · intro holds c among
    obtain ⟨j, listed⟩ := List.getElem?_of_mem (names ▸ List.mem_map_of_mem among)
    exact holds _ (Balances.mem_materialFamily.2 ⟨t, _, here, j, _, listed, rfl⟩) rfl
  · rintro holds member among rfl
    obtain ⟨t', there, found', j, name, listed, rfl⟩ := Balances.mem_materialFamily.1 among
    obtain rfl := Option.some.inj (here.symm.trans found')
    obtain ⟨c, present, rfl⟩ := List.mem_map.1 (names ▸ List.mem_of_getElem? listed)
    exact holds c present

theorem Placed.leaving_eq (p : Phase) :
    package.leaving point.toStates p y = (point.outlet.components.map fun c => y (c.flow p)).sum := by
  have inside := List.mem_of_getElem? found
  have fits := placed.anatomy.outlet_fits inside
  rw [IdealPackage.leaving, ← fits.data, List.map_map]
  refine congrArg List.sum (List.map_congr_left fun c among => ?_)
  change (point.outlet.materialFlow p c.data.name).valueAt y = _
  rw [placed.materialFlow_eq distinct inside among, Expr.valueAt_var]

include relation

theorem Placed.equilibrium_iff :
    (∀ family ∈ point.toStates.outlet.families, ∀ c ∈ family.constraints, c.body.valueAt y = 0) ↔
      ∀ i ∈ point.outlet.components.zip factors, y i.1.vapor / package.leaving point.toStates .vapor y =
        i.2 * (y i.1.liquid / package.leaving point.toStates .liquid y) := by
  have fits := placed.anatomy.outlet_fits (List.mem_of_getElem? found)
  have families : point.toStates.outlet.families = [point.outlet.equilibriumFamily package.equilibrium t] :=
    congrArg Option.toList (placed.anatomy.outlet t point found)
  have bodies : (point.outlet.equilibriumFamily package.equilibrium t).constraints.map (·.body) =
      (point.outlet.components.zip factors).map fun i => .var i.1.vapor / point.outlet.phaseFlow .vapor -
        .const i.2 * (.var i.1.liquid / point.outlet.phaseFlow .liquid) := by
    rw [IdealState.bodies_equilibriumFamily placed.anatomy.factors fits t, relation, IdealState.equilibriumBodies,
      ← List.map_uncurry_zip_eq_zipWith]
    rfl
  have phase : ∀ p, (point.outlet.phaseFlow p).valueAt y = package.leaving point.toStates p y := by
    intro p
    rw [placed.leaving_eq distinct found, IdealState.phaseFlow, Expr.valueAt_total, List.map_map]
    rfl
  have opened := @List.forall_mem_map _ _ Constraint.body
    (point.outlet.equilibriumFamily package.equilibrium t).constraints fun body => body.valueAt y = 0
  rw [families, List.forall_mem_singleton, ← opened, bodies, List.forall_mem_map]
  simp only [Expr.valueAt_sub, Expr.valueAt_mul, Expr.div_def, Expr.valueAt_quotient, Expr.valueAt_var,
    Expr.valueAt_const, phase, sub_eq_zero]

end Point

section Mixtures

variable (placed : Placed package tray points s) (distinct : package.Distinct)
  (relation : package.equilibrium = .constantK factors) (found : points[t]? = some point)
  (nonempty : point.outlet.components.zip factors ≠ [])
  (fed : ∀ c ∈ point.outlet.components, 0 < point.entering c.data.name x) (positive : ∀ k ∈ factors, 0 < k)
include placed relation found

theorem Placed.unzip_mixture : (point.outlet.components.zip factors).map Prod.fst = point.outlet.components ∧
    (point.outlet.components.zip factors).map Prod.snd = factors := by
  have fits := placed.anatomy.outlet_fits (List.mem_of_getElem? found)
  have count : point.outlet.components.length = factors.length := by
    rw [IdealPackage.length_factors placed.anatomy.factors relation, fits.count]
  exact ⟨List.map_fst_zip count.le, List.map_snd_zip count.ge⟩

include distinct in
/-- A two-phase outlet is a split of what enters. -/
theorem Placed.twoPhase_iff : TwoPhase package tray t point.toStates x y ↔
    (∀ v, v ∉ point.outlet.flows → y v = x v) ∧
      (point.mixture factors x nonempty fed positive).Splits (fun i => y i.1.liquid) fun i => y i.1.vapor := by
  have inside := List.mem_of_getElem? found
  have own : point.toStates.outlet.flows = point.outlet.flows := placed.flows_eq inside point.outlet_mem
  have factored := (placed.unzip_mixture relation found).1
  have total : ∀ p, (point.mixture factors x nonempty fed positive).total (fun i => y (i.1.flow p)) =
      package.leaving point.toStates p y := by
    intro p
    rw [placed.leaving_eq distinct found, ← factored, List.map_map]
    rfl
  have entering (outside : ∀ v, v ∉ point.outlet.flows → y v = x v) (name : String) :
      point.entering name y = point.entering name x := by
    refine IdealPoint.entering_congr (placed.inlets_same inside fun v absent => outside v fun flow => absent ?_) name
    exact placed.anatomy.mem_outletVars.2 ⟨point, inside, .inl flow⟩
  constructor
  · rintro ⟨outside, present, material, equilibrium⟩
    rw [own] at outside
    refine ⟨outside, total .liquid ▸ present .liquid, total .vapor ▸ present .vapor, fun i among => ?_,
      fun i among => ?_⟩
    · rw [(placed.material_iff distinct found).1 material i.1 (List.of_mem_zip among).1, entering outside]
      rfl
    · exact total .liquid ▸ total .vapor ▸ (placed.equilibrium_iff distinct relation found).1 equilibrium i among
  · rintro ⟨outside, someLiquid, someVapor, whole, related⟩
    refine ⟨own ▸ outside, fun p => ?_, (placed.material_iff distinct found).2 fun c among => ?_,
      (placed.equilibrium_iff distinct relation found).2 fun i among => ?_⟩
    · rw [← total]
      cases p with
      | liquid => exact someLiquid
      | vapor => exact someVapor
    · obtain ⟨i, listed, rfl⟩ := List.mem_map.1 (factored.symm ▸ among)
      rw [entering outside]
      exact whole i listed
    · rw [← total, ← total]
      exact related i among

/-- The flows of an outlet can take any values together. -/
theorem Placed.exists_flows (x : VarId → ℝ) (liquid vapor : ComponentFlows ℝ × ℝ → ℝ) :
    ∃ y : VarId → ℝ, (∀ v, v ∉ point.outlet.flows → y v = x v) ∧
      ∀ i ∈ point.outlet.components.zip factors, y i.1.liquid = liquid i ∧ y i.1.vapor = vapor i := by
  let parts := point.outlet.components.zip factors
  let entries := parts.map (fun i => (i.1.liquid, liquid i)) ++ parts.map fun i => (i.1.vapor, vapor i)
  have keys : entries.map Prod.fst = point.outlet.flows := by
    rw [IdealState.flows, ← (placed.unzip_mixture relation found).1]
    simp [entries, parts, Function.comp_def]
  have distinct : (entries.map Prod.fst).Nodup := by
    rw [keys]
    exact (List.nodup_append.1 (placed.vars_nodup (List.mem_of_getElem? found) point.outlet_mem)).1
  refine ⟨reassigned entries x, fun v absent => reassigned_of_not_mem (keys ▸ absent), fun i inside => ⟨?_, ?_⟩⟩
  · exact reassigned_of_mem distinct (List.mem_append_left _ (List.mem_map_of_mem inside))
  · exact reassigned_of_mem distinct (List.mem_append_right _ (List.mem_map_of_mem inside))

include distinct

/-- The flows of a two-phase outlet can be had if there is a split of what enters. -/
theorem Placed.exists_twoPhase_iff : (∃ y, TwoPhase package tray t point.toStates x y) ↔
    ∃ liquid vapor, (point.mixture factors x nonempty fed positive).Splits liquid vapor := by
  have iff := fun y => placed.twoPhase_iff distinct relation found nonempty fed positive (y := y)
  constructor
  · rintro ⟨y, solution⟩
    exact ⟨_, _, ((iff y).1 solution).2⟩
  · rintro ⟨liquid, vapor, splits⟩
    obtain ⟨y, outside, flows⟩ := placed.exists_flows relation found x liquid vapor
    exact ⟨y, (iff y).2 ⟨outside, splits.congr flows⟩⟩

include nonempty fed positive

theorem Placed.twoPhase_unique (apart : ∃ i ∈ point.outlet.components.zip factors, i.2 ≠ 1) {z : VarId → ℝ}
    (here : TwoPhase package tray t point.toStates x y) (there : TwoPhase package tray t point.toStates x z) :
    z = y := by
  obtain ⟨outside, splits⟩ := (placed.twoPhase_iff distinct relation found nonempty fed positive).1 here
  obtain ⟨outside', splits'⟩ := (placed.twoPhase_iff distinct relation found nonempty fed positive).1 there
  have flows := splits.unique apart splits'
  funext v
  by_cases flow : v ∈ point.outlet.flows
  · obtain ⟨c, among, p, rfl⟩ := IdealState.mem_flows.1 flow
    obtain ⟨i, listed, rfl⟩ := List.mem_map.1 ((placed.unzip_mixture relation found).1.symm ▸ among)
    cases p with
    | liquid => exact (flows i listed).1
    | vapor => exact (flows i listed).2
  · rw [outside v flow, outside' v flow]

theorem Placed.flow_pos (solution : TwoPhase package tray t point.toStates x y) {c : ComponentFlows ℝ}
    (among : c ∈ point.outlet.components) (p : Phase) : 0 < y (c.flow p) := by
  have positive := ((placed.twoPhase_iff distinct relation found nonempty fed positive).1 solution).2.pos
  obtain ⟨i, listed, rfl⟩ := List.mem_map.1 ((placed.unzip_mixture relation found).1.symm ▸ among)
  cases p with
  | liquid => exact (positive i listed).1
  | vapor => exact (positive i listed).2

end Mixtures

/-- A tray with a fixed distribution ratio for each component, not all of them one, has at every time position and for
all inlets that bring some of each component at most one two-phase outlet. It has one if what enters could neither
leave as a liquid nor as a vapor alone: the shares in the vapor would sum to more than one, and so would those in the
liquid. All flows of a two-phase outlet are positive. -/
theorem constantK_solution {name : String} {config : TrayConfig ℝ} {time : TimeSet ℝ} {before after : Store ℝ}
    (built : (build name config package.toPackage time).on before = (.ok tray, after)) (distinct : package.Distinct)
    (relation : package.equilibrium = .constantK factors) (positive : ∀ k ∈ factors, 0 < k)
    (apart : ∃ k ∈ factors, k ≠ 1) {states : TrayStates ℝ} (here : tray.points[t]? = some states)
    (fed : ∀ c ∈ package.components, 0 < states.entering x c.name) :
    let mixture := package.components.zip factors
    let amount (c : ComponentData ℝ × ℝ) := states.entering x c.1.name
    (∀ y z, TwoPhase package tray t states x y → TwoPhase package tray t states x z → z = y) ∧
    ((∃ y, TwoPhase package tray t states x y) ↔
      (mixture.map amount).sum < (mixture.map fun c => amount c * c.2).sum ∧
      (mixture.map amount).sum < (mixture.map fun c => amount c / c.2).sum) ∧
    ∀ y, TwoPhase package tray t states x y →
      ∀ c ∈ package.components, ∀ p, 0 < (states.outlet.materialFlow p c.name).valueAt y := by
  obtain ⟨points, placed⟩ := exists_placed built (.refl after)
  rw [placed.anatomy.points_eq, List.getElem?_map, Option.map_eq_some_iff] at here
  obtain ⟨point, found, rfl⟩ := here
  have inside := List.mem_of_getElem? found
  have fits := placed.anatomy.outlet_fits inside
  have fed' : ∀ c ∈ point.outlet.components, 0 < point.entering c.data.name x := fun c among =>
    point.toStates_entering x c.data.name ▸ fed c.data (fits.data ▸ List.mem_map_of_mem among)
  obtain ⟨i, among, other⟩ : ∃ i ∈ point.outlet.components.zip factors, i.2 ≠ 1 := by
    obtain ⟨k, listed, other⟩ := apart
    obtain ⟨i, among, rfl⟩ := List.mem_map.1 ((placed.unzip_mixture relation found).2.symm ▸ listed)
    exact ⟨i, among, other⟩
  have nonempty := List.ne_nil_of_mem among
  have sums : ∀ g : ComponentData ℝ × ℝ → ℝ, ((package.components.zip factors).map g).sum =
      (point.mixture factors x nonempty fed' positive).total fun i => g (i.1.data, i.2) := by
    intro g
    rw [← fits.data, List.zip_map_left, List.map_map]
    rfl
  refine ⟨fun y z here there => ?_, ?_, fun y solution c listed p => ?_⟩
  · exact placed.twoPhase_unique distinct relation found nonempty fed' positive ⟨i, among, other⟩ here there
  · rw [placed.exists_twoPhase_iff distinct relation found nonempty fed' positive,
      Mixture.exists_splits_iff ⟨i, among, other⟩, sums, sums, sums]
    simp only [point.toStates_entering]
    rfl
  · rw [← fits.data] at listed
    obtain ⟨c, among, rfl⟩ := List.mem_map.1 listed
    change 0 < (point.outlet.materialFlow p c.data.name).valueAt y
    rw [placed.materialFlow_eq distinct inside among, Expr.valueAt_var]
    exact placed.flow_pos distinct relation found nonempty fed' positive solution among p

/-- The share of the one component in the vapor is twice that in the liquid, and of the other half of it. -/
noncomputable def doubledAndHalved : IdealPackage ℝ :=
  { IdealPackage.benzeneToluene with equilibrium := .constantK [2.0, 0.5] }

/-- Equal amounts of both components have one split. -/
theorem constantK_solution_steady : ∃ (tray : Tray ℝ) (s : Store ℝ) (states : TrayStates ℝ),
    (build "tray" ⟨true, true, true, true, true, .empty⟩ doubledAndHalved.toPackage .steady).on .empty = (.ok tray, s) ∧
    doubledAndHalved.Distinct ∧ doubledAndHalved.equilibrium = .constantK [2.0, 0.5] ∧
    (∀ k ∈ ([2.0, 0.5] : List ℝ), 0 < k) ∧ (∃ k ∈ ([2.0, 0.5] : List ℝ), k ≠ 1) ∧ tray.points[0]? = some states ∧
    (∀ c ∈ doubledAndHalved.components, 0 < states.entering s.value c.name) ∧
    ∃! y, TwoPhase doubledAndHalved tray 0 states s.value y := by
  obtain ⟨tray, s, built, states, here, entering⟩ : ∃ (tray : Tray ℝ) (s : Store ℝ),
      (build "tray" ⟨true, true, true, true, true, .empty⟩ doubledAndHalved.toPackage .steady).on .empty =
        (.ok tray, s) ∧ ∃ states, tray.points[0]? = some states ∧
          ∀ c ∈ doubledAndHalved.components, states.entering s.value c.name = 6 := by
    refine ⟨_, _, rfl, _, rfl, List.forall_mem_cons.2 ⟨?_, List.forall_mem_singleton.2 ?_⟩⟩
    all_goals
      change 1 + 1 + (1 + 1 + (1 + 1 + 0)) = (6 : ℝ)
      norm_num
  have distinct : doubledAndHalved.Distinct := by
    simp [IdealPackage.Distinct, doubledAndHalved, IdealPackage.benzeneToluene, IdealPackage.ofComponents]
  have positive : ∀ k ∈ ([2.0, 0.5] : List ℝ), 0 < k := by norm_num
  have apart : ∃ k ∈ ([2.0, 0.5] : List ℝ), k ≠ 1 := by norm_num
  have fed : ∀ c ∈ doubledAndHalved.components, 0 < states.entering s.value c.name := fun c among => by
    rw [entering c among]
    norm_num
  obtain ⟨unique, exists_iff, _⟩ := constantK_solution built distinct rfl positive apart here fed
  have benzene : states.entering s.value "benzene" = 6 := entering _ List.mem_cons_self
  have toluene : states.entering s.value "toluene" = 6 := entering _ (List.mem_cons_of_mem _ List.mem_cons_self)
  obtain ⟨y, solution⟩ := exists_iff.2 (by
    simp only [doubledAndHalved, IdealPackage.benzeneToluene, IdealPackage.ofComponents, List.zip_cons_cons,
      List.zip_nil_right, List.map_cons, List.map_nil, List.sum_cons, List.sum_nil, benzene, toluene]
    norm_num)
  exact ⟨tray, s, states, built, distinct, rfl, positive, apart, here, fed, y, solution,
    fun z other => unique y z solution other⟩

end Tray

end Distillation
