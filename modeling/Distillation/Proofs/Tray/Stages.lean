import Distillation.Proofs.Store.Flags
import Distillation.Proofs.Tray.Variables
import Distillation.Tray.Startup

namespace Distillation

namespace Stage

/-- Whether the energy balance takes part. As long as it does not, the outlet temperature is held. -/
def energy : Stage → Bool
  | massBalance => false
  | massEnergyBalance | full => true

/-- Whether the pressure balance takes part. As long as it does not, the outlet pressure is held. -/
def pressure : Stage → Bool
  | massBalance | massEnergyBalance => false
  | full => true

/-- The stage whose arrangement a stage builds on. -/
def previous : Stage → Option Stage
  | massBalance => none
  | massEnergyBalance => some massBalance
  | full => some massEnergyBalance

/-- Stages that each build on the one before, the first on `last`. -/
def Successive : Option Stage → List Stage → Prop
  | _, [] => True
  | last, stage :: rest => stage.previous = last ∧ Successive (some stage) rest

theorem successive_all : Successive none all :=
  ⟨rfl, rfl, rfl, trivial⟩

/-- Whether a family of this name is switched on. -/
def runs (stage : Stage) (family : String) : Bool :=
  if family = "enthalpy_mixing_equations" then stage.energy
  else if family = "pressure_drop_equation" then stage.pressure
  else true

end Stage

namespace Tray

variable {K : Type}

/-- The tray with the balances of a stage switched on and the others off. -/
def equipped (tray : Tray K) (stage : Stage) : Tray K :=
  (tray.setEnthalpy stage.energy).setPressure stage.pressure

/-- Whether a variable is fixed at a stage: the levels of the outlet where they are held, and all
others as in `base`. -/
def heldAt (tray : Tray K) (base : Store K) (stage : Stage) (v : VarId) : Bool :=
  if v ∈ tray.outletTemperatures then !stage.energy
  else if v ∈ tray.outletPressures then !stage.pressure
  else base.isFixed v

/-- Where a start-up from `base` stands after a stage, or before the first. -/
def Reached (tray : Tray K) (base : Store K) : Option Stage → Tray K → Store K → Prop
  | none, now, s => now = tray ∧ s = base
  | some stage, now, s => now = tray.equipped stage ∧ ∀ v, s.isFixed v = tray.heldAt base stage v

section FixOutlets

variable {tray : Tray K} {s : Store K}

theorem fixOutlets_eq (tray : Tray K) (guess : OutletGuess K) (s : Store K) :
    tray.fixOutlets (some guess) s = s.fixAll (tray.outlets.flatMap fun state =>
      [(state.temperature, guess.temperature), (state.pressure, guess.pressure)]) := by
  rw [fixOutlets, Store.fixAll, List.foldl_flatMap]
  rfl

theorem mem_outletSpecs {guess : OutletGuess K} {v : VarId} :
    v ∈ (tray.outlets.flatMap fun state =>
      [(state.temperature, guess.temperature), (state.pressure, guess.pressure)]).map (·.1) ↔
        v ∈ tray.outletTemperatures ∨ v ∈ tray.outletPressures := by
  simp only [outletTemperatures, outletPressures, List.map_flatMap, List.mem_flatMap, List.mem_map,
    List.map_cons, List.map_nil, List.mem_pair]
  grind

theorem isFixed_fixOutlets (guess : OutletGuess K) (v : VarId) :
    (tray.fixOutlets (some guess) s).isFixed v =
      (s.isFixed v || decide ((v ∈ tray.outletTemperatures ∨ v ∈ tray.outletPressures) ∧ v < s.size)) := by
  rw [fixOutlets_eq, Store.isFixed_fixAll]
  simp only [mem_outletSpecs]

theorem size_fixOutlets (guess : OutletGuess K) : (tray.fixOutlets (some guess) s).size = s.size := by
  rw [fixOutlets_eq, Store.size_fixAll]

variable [Zero K]

theorem value_fixOutlets_of_not_mem (guess : OutletGuess K) {v : VarId}
    (temperature : v ∉ tray.outletTemperatures) (pressure : v ∉ tray.outletPressures) :
    (tray.fixOutlets (some guess) s).value v = s.value v := by
  rw [fixOutlets_eq, Store.value_fixAll_of_not_mem]
  exact fun listed => (mem_outletSpecs.1 listed).elim temperature pressure

/-- Temperatures and pressures being different variables, each level takes its guess. -/
theorem value_fixOutlets (guess : OutletGuess K)
    (apart : ∀ v ∈ tray.outletTemperatures, v ∉ tray.outletPressures)
    (known : ∀ v, v ∈ tray.outletTemperatures ∨ v ∈ tray.outletPressures → v < s.size) :
    (∀ v ∈ tray.outletTemperatures, (tray.fixOutlets (some guess) s).value v = guess.temperature) ∧
      ∀ v ∈ tray.outletPressures, (tray.fixOutlets (some guess) s).value v = guess.pressure := by
  have specs : ∀ spec ∈ tray.outlets.flatMap fun state =>
      [(state.temperature, guess.temperature), (state.pressure, guess.pressure)],
      spec.1 ∈ tray.outletTemperatures ∧ spec.2 = guess.temperature ∨
        spec.1 ∈ tray.outletPressures ∧ spec.2 = guess.pressure := by
    intro spec inside
    obtain ⟨state, listed, pair⟩ := List.mem_flatMap.1 inside
    rcases List.mem_pair.1 pair with rfl | rfl
    · exact .inl ⟨List.mem_map_of_mem listed, rfl⟩
    · exact .inr ⟨List.mem_map_of_mem listed, rfl⟩
  rw [fixOutlets_eq]
  refine ⟨fun v level => ?_, fun v level => ?_⟩
  · refine Store.value_fixAll_of_mem (fun spec inside same => ?_) (mem_outletSpecs.2 (.inl level)) s
      (known v (.inl level))
    rcases specs spec inside with ⟨_, value⟩ | ⟨other, _⟩
    · exact value
    · exact absurd (same ▸ other) (apart v level)
  · refine Store.value_fixAll_of_mem (fun spec inside same => ?_) (mem_outletSpecs.2 (.inr level)) s
      (known v (.inr level))
    rcases specs spec inside with ⟨other, _⟩ | ⟨_, value⟩
    · exact absurd level (apart v (same ▸ other))
    · exact value

end FixOutlets

section Arrange

variable {tray now : Tray K} {base s : Store K} {last : Option Stage} {stage : Stage}

/-- A stage that follows its own predecessor arranges tray and flags as it needs them. -/
theorem arrange_of_reached (known : ∀ v, v ∈ tray.outletTemperatures ∨ v ∈ tray.outletPressures → v < base.size)
    (follows : stage.previous = last) (reached : tray.Reached base last now s) (guess : OutletGuess K) :
    (arrange (some guess) stage now s).1 = tray.equipped stage ∧
      ∀ v, (arrange (some guess) stage now s).2.isFixed v = tray.heldAt base stage v := by
  subst follows
  cases stage with
  | massBalance =>
    obtain ⟨rfl, rfl⟩ := reached
    refine ⟨rfl, fun v => ?_⟩
    simp only [arrange, isFixed_fixOutlets, heldAt, Stage.energy, Stage.pressure]
    have bound := known v
    grind
  | massEnergyBalance =>
    obtain ⟨rfl, flags⟩ := reached
    refine ⟨rfl, fun v => ?_⟩
    change (List.foldl _ s tray.outlets).isFixed v = _
    rw [Store.isFixed_foldl_unfix, flags, ← outletTemperatures]
    simp only [heldAt, Stage.energy, Stage.pressure]
    grind
  | full =>
    obtain ⟨rfl, flags⟩ := reached
    refine ⟨rfl, fun v => ?_⟩
    change (List.foldl _ s tray.outlets).isFixed v = _
    rw [Store.isFixed_foldl_unfix, flags, ← outletPressures]
    simp only [heldAt, Stage.energy, Stage.pressure]
    grind

/-- How a stage finds the families depends on the stage before alone. -/
theorem arrange_fst (follows : stage.previous = last)
    (before : now = last.elim tray tray.equipped) (guess : Option (OutletGuess K)) (s : Store K) :
    (arrange guess stage now s).1 = tray.equipped stage := by
  subst follows before
  cases stage <;> rfl

/-- Whatever a stage arranges, it changes no value but those of the levels of the outlet. -/
theorem value_arrange [Zero K] (outlets : now.outlets = tray.outlets) (guess : OutletGuess K) {v : VarId}
    (temperature : v ∉ tray.outletTemperatures) (pressure : v ∉ tray.outletPressures) :
    (arrange (some guess) stage now s).2.value v = s.value v := by
  rw [outletTemperatures, ← outlets] at temperature
  rw [outletPressures, ← outlets] at pressure
  cases stage with
  | massBalance => exact value_fixOutlets_of_not_mem guess temperature pressure
  | massEnergyBalance => exact Store.value_foldl_unfix _ _ s v
  | full => exact Store.value_foldl_unfix _ _ s v

theorem size_arrange (guess : OutletGuess K) : (arrange (some guess) stage now s).2.size = s.size := by
  cases stage with
  | massBalance => exact size_fixOutlets guess
  | massEnergyBalance => exact Store.size_foldl_unfix _ _ s
  | full => exact Store.size_foldl_unfix _ _ s

theorem Reached.outlets_eq (reached : tray.Reached base last now s) : now.outlets = tray.outlets := by
  cases last with
  | none => rw [reached.1]
  | some stage =>
    rw [reached.1]
    rfl

end Arrange

section Families

variable [Scalar K] {package : IdealPackage K} {tray : Tray K} {points : List (IdealPoint K)}

namespace Anatomy

variable (anatomy : Anatomy package tray points)
include anatomy

/-- Of the states, those of the outlet alone have equations: one equilibrium family each. -/
theorem stateFamilies_eq : tray.states.flatMap (·.families) =
    points.mapIdx fun t point => point.outlet.equilibriumFamily package.equilibrium t := by
  have none : tray.inlets.flatMap (·.families) = [] := by
    refine List.flatMap_eq_nil_iff.2 fun state inside => ?_
    obtain ⟨point, listed, ideal, entering, rfl⟩ := anatomy.mem_inlets.1 inside
    simp [IdealState.toState, anatomy.inlet point listed ideal entering]
  have some : points.map (·.outlet.equilibrium) =
      (points.mapIdx fun t point => point.outlet.equilibriumFamily package.equilibrium t).map Option.some := by
    refine List.ext_getElem? fun t => ?_
    rw [List.getElem?_map, List.getElem?_map, List.getElem?_mapIdx]
    cases found : points[t]? with
    | none => rfl
    | some point => exact congrArg Option.some (anatomy.outlet t point found)
  have opened : tray.outlets.flatMap (·.families) = (points.map (·.outlet.equilibrium)).flatMap Option.toList := by
    rw [anatomy.outlets_eq, List.flatMap_map, List.flatMap_map]
    rfl
  change (tray.inlets ++ tray.outlets).flatMap (·.families) = _
  rw [List.flatMap_append, none, opened, some, List.nil_append, List.flatMap_map]
  exact List.flatMap_singleton' _

theorem families_eq : tray.families =
    [Balances.materialFamily tray.name Phase.both package.componentSet tray.mixings,
      Balances.enthalpyFamily tray.name Phase.both tray.balances.heatDuty tray.mixings,
      Balances.pressureFamily tray.name tray.balances.pressureDrop tray.mixings] ++
      points.mapIdx fun t point => point.outlet.equilibriumFamily package.equilibrium t := by
  rw [Tray.families, Balances.families, anatomy.stateFamilies_eq, anatomy.material, anatomy.enthalpy,
    anatomy.pressure]

/-- A tray is built with all its equations switched on. -/
theorem active {family : Family K} (listed : family ∈ tray.families) : family.active = true := by
  rw [anatomy.families_eq, List.mem_append, List.mem_mapIdx] at listed
  rcases listed with balance | ⟨t, _, rfl⟩
  · simp only [List.mem_cons, List.not_mem_nil, or_false] at balance
    rcases balance with rfl | rfl | rfl <;> rfl
  · rfl

theorem equipped_families (stage : Stage) : (tray.equipped stage).families =
    tray.families.map fun family => { family with active := stage.runs family.name } := by
  have balances : (tray.equipped stage).balances.families =
      tray.balances.families.map fun family => { family with active := stage.runs family.name } := by
    simp only [Balances.families, List.map_cons, List.map_nil, anatomy.material, anatomy.enthalpy,
      anatomy.pressure, equipped, setEnthalpy, setPressure]
    rfl
  have own : ∀ family ∈ tray.states.flatMap (·.families),
      { family with active := stage.runs family.name } = family := by
    intro family inside
    rw [anatomy.stateFamilies_eq, List.mem_mapIdx] at inside
    obtain ⟨t, _, rfl⟩ := inside
    rfl
  rw [families, families, List.map_append, balances, List.map_congr_left own, List.map_id']
  rfl

/-- With all balances switched on, the tray is as it was built. -/
theorem equipped_full : tray.equipped .full = tray := by
  have enthalpy : tray.balances.enthalpy.active = true := anatomy.active (by simp [families, Balances.families])
  have pressure : tray.balances.pressure.active = true := anatomy.active (by simp [families, Balances.families])
  obtain ⟨name, config, time, states, ⟨material, ⟨_, _, _⟩, ⟨_, _, _⟩, _, _⟩, _, _, _, _⟩ := tray
  cases enthalpy
  cases pressure
  rfl

end Anatomy

end Families

/-- A tray of at least one time point has guesses for its outlet, taken from the first. -/
theorem Anatomy.outletGuess?_eq [Scalar K] {package : IdealPackage K} {tray : Tray K}
    {points : List (IdealPoint K)} (anatomy : Anatomy package tray points) (s : Store K) :
    ∃ point ∈ points.head?, tray.outletGuess? s =
      some ⟨temperatureGuess s point.toStates, s.value point.vapor.pressure⟩ := by
  obtain ⟨point, rest, rfl⟩ := List.exists_cons_of_ne_nil anatomy.points_ne_nil
  refine ⟨point, rfl, ?_⟩
  rw [outletGuess?, anatomy.points_eq]
  rfl

end Tray

end Distillation
