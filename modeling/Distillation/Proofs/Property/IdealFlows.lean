import Distillation.Proofs.Expr.Variables
import Distillation.Proofs.Lists
import Distillation.Proofs.Property.IdealState

namespace Distillation

namespace ComponentSet

theorem foldl_add_of_nodup (names : List String) :
    ∀ seen : List String, (seen ++ names).Nodup → names.foldl add seen = seen ++ names := by
  induction names with
  | nil => intro seen _; simp
  | cons name rest ih =>
    intro seen distinct
    have fresh : name ∉ seen := fun old =>
      (List.nodup_append.1 distinct).2.2 name old name List.mem_cons_self rfl
    rw [List.foldl_cons, add, if_neg fresh, ih _ (by simpa using distinct), List.append_assoc]
    rfl

theorem names_ofList {names : List String} (distinct : names.Nodup) : (ofList names).names = names :=
  foldl_add_of_nodup names [] distinct

end ComponentSet

variable {K : Type}

/-- The components of the package have different names. -/
def IdealPackage.Distinct (package : IdealPackage K) : Prop :=
  (package.components.map (·.name)).Nodup

theorem IdealPackage.benzeneToluene_distinct [Scalar K] : (benzeneToluene : IdealPackage K).Distinct := by
  simp [Distinct, benzeneToluene, ofComponents]

theorem IdealPackage.Distinct.componentSet_names [Scalar K] {package : IdealPackage K}
    (distinct : package.Distinct) : package.componentSet.names = package.components.map (·.name) :=
  ComponentSet.names_ofList distinct

/-- A package that is accepted has a factor for each component. -/
theorem IdealPackage.length_factors [Scalar K] {package : IdealPackage K} (accepted : package.checkFactors = .ok ())
    {factors : List K} (relation : package.equilibrium = .constantK factors) :
    factors.length = package.components.length := by
  by_contra other
  simp [checkFactors, relation, other] at accepted

namespace IdealState

variable {package : IdealPackage K} {reference : K} {state : IdealState K} {v : VarId}

theorem Fits.names (fits : state.Fits package reference) :
    state.components.map (·.data.name) = package.components.map (·.name) := by
  rw [← fits.data, List.map_map]
  rfl

theorem Fits.count (fits : state.Fits package reference) :
    state.components.length = package.components.length := by
  rw [← fits.data, List.length_map]

theorem length_flows (state : IdealState K) : state.flows.length = 2 * state.components.length := by
  simp only [flows, List.length_append, List.length_map]
  omega

/-- Where names are different, each component is found under its own. -/
theorem component?_of_mem (distinct : (state.components.map (·.data.name)).Nodup) {c : ComponentFlows K}
    (inside : c ∈ state.components) : state.component? c.data.name = some c :=
  find?_of_nodup distinct inside

theorem component?_eq_some {name : String} {c : ComponentFlows K} (found : state.component? name = some c) :
    c ∈ state.components ∧ c.data.name = name :=
  ⟨List.mem_of_find?_eq_some found, by simpa using List.find?_some found⟩

theorem flow_mem_flows_of_component? {name : String} {c : ComponentFlows K} (found : state.component? name = some c)
    (p : Phase) : c.flow p ∈ state.flows :=
  flow_mem_flows (component?_eq_some found).1 p

theorem Fits.component?_of_mem (fits : state.Fits package reference) (distinct : package.Distinct)
    {c : ComponentFlows K} (inside : c ∈ state.components) : state.component? c.data.name = some c :=
  IdealState.component?_of_mem (fits.names ▸ distinct) inside

theorem Fits.exists_component? (fits : state.Fits package reference) {name : String}
    (listed : name ∈ package.componentSet.names) : ∃ c, state.component? name = some c := by
  rw [IdealPackage.componentSet, ComponentSet.mem_ofList, ← fits.names, List.mem_map] at listed
  exact Option.isSome_iff_exists.1 (List.find?_isSome.2 (by simpa using listed))

theorem Fits.name_mem (fits : state.Fits package reference) {c : ComponentFlows K} (inside : c ∈ state.components) :
    c.data.name ∈ package.componentSet.names := by
  rw [IdealPackage.componentSet, ComponentSet.mem_ofList, ← fits.names]
  exact List.mem_map.2 ⟨c, inside, rfl⟩

variable [Scalar K] {p : Phase}

theorem materialFlow_eq {name : String} {c : ComponentFlows K} (found : state.component? name = some c) (p : Phase) :
    state.materialFlow p name = c.flowExpr p := by
  rw [materialFlow, found]

theorem mem_vars_materialFlow {name : String} :
    v ∈ (state.materialFlow p name).vars ↔ ∃ c ∈ state.component? name, v = c.flow p := by
  unfold materialFlow
  cases state.component? name <;> simp [ComponentFlows.flowExpr, Expr.zero_def]

theorem mem_vars_phaseFlow : v ∈ (state.phaseFlow p).vars ↔ ∃ c ∈ state.components, v = c.flow p := by
  simp [phaseFlow, ComponentFlows.flowExpr]

theorem mem_vars_molarEnthalpy {c : ComponentFlows K} :
    v ∈ (state.molarEnthalpy p c).vars ↔ v = state.temperature := by
  cases p <;> simp [molarEnthalpy]

theorem mem_vars_enthalpyFlow :
    v ∈ (state.enthalpyFlow p).vars ↔ ∃ c ∈ state.components, v = c.flow p ∨ v = state.temperature := by
  simp [enthalpyFlow, mem_vars_molarEnthalpy, ComponentFlows.flowExpr]

theorem length_equilibriumBodies (accepted : package.checkFactors = .ok ())
    (fits : state.Fits package reference) :
    (state.equilibriumBodies package.equilibrium).length = package.components.length := by
  cases relation : package.equilibrium with
  | vaporFraction fraction => simp [equilibriumBodies, fits.count]
  | constantK factors => simp [equilibriumBodies, fits.count, IdealPackage.length_factors accepted relation]

/-- Equilibrium relates flows to each other and to nothing else. -/
theorem mem_flows_of_equilibrium {relation : Equilibrium K} {body : Expr K}
    (inside : body ∈ state.equilibriumBodies relation) (occurs : v ∈ body.vars) : v ∈ state.flows := by
  cases relation with
  | vaporFraction fraction =>
    obtain ⟨c, listed, rfl⟩ := List.mem_map.1 inside
    simp only [Expr.mem_vars_sub, Expr.mem_vars_mul, Expr.mem_vars_add, Expr.vars_var, Expr.vars_const,
      List.mem_singleton, List.not_mem_nil, false_or] at occurs
    rcases occurs with rfl | rfl | rfl
    · exact mem_flows.2 ⟨c, listed, .vapor, rfl⟩
    · exact mem_flows.2 ⟨c, listed, .liquid, rfl⟩
    · exact mem_flows.2 ⟨c, listed, .vapor, rfl⟩
  | constantK factors =>
    rw [equilibriumBodies, ← List.map_uncurry_zip_eq_zipWith] at inside
    obtain ⟨⟨c, factor⟩, listed, rfl⟩ := List.mem_map.1 inside
    have own := (List.of_mem_zip listed).1
    simp only [Function.uncurry_apply_pair, Expr.mem_vars_sub, Expr.mem_vars_mul, Expr.div_def, Expr.mem_vars_quotient,
      Expr.vars_var, Expr.vars_const, List.mem_singleton, List.not_mem_nil, false_or,
      mem_vars_phaseFlow] at occurs
    rcases occurs with (rfl | ⟨other, among, rfl⟩) | (rfl | ⟨other, among, rfl⟩)
    · exact mem_flows.2 ⟨c, own, .vapor, rfl⟩
    · exact mem_flows.2 ⟨other, among, .vapor, rfl⟩
    · exact mem_flows.2 ⟨c, own, .liquid, rfl⟩
    · exact mem_flows.2 ⟨other, among, .liquid, rfl⟩

end IdealState

end Distillation
