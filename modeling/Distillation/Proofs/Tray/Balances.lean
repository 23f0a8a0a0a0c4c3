import Distillation.Proofs.Tray.BuildOutcome
import Distillation.Proofs.Tray.Residuals

namespace Distillation

/-- The family has one equation at each of some indices and no others. -/
structure Family.IndexedBy {K : Type} (family : Family K) (indices : List EquationIndex) : Prop where
  listed : family.members.map (·.1) = indices
  distinct : indices.Nodup
  found : ∀ member ∈ family.members, family.get? member.1 = some member.2

theorem Family.IndexedBy.of_distinct {K : Type} {family : Family K} {indices : List EquationIndex}
    (listed : family.members.map (·.1) = indices) (distinct : indices.Nodup) : family.IndexedBy indices :=
  ⟨listed, distinct, fun _ inside => lookup_of_nodup (listed ▸ distinct) inside⟩

namespace EquationIndex

/-- One position for each time point. -/
def times (count : Nat) : List EquationIndex :=
  (List.range count).map time

/-- One position for each time point and component. -/
def grid (times components : Nat) : List EquationIndex :=
  (List.range times).flatMap fun t => (List.range components).map (timeComponent t)

theorem nodup_times (count : Nat) : (times count).Nodup :=
  List.nodup_range.map fun _ _ => time.inj

theorem nodup_grid (times components : Nat) : (grid times components).Nodup := by
  refine List.nodup_flatMap.2 ⟨fun t _ => ?_, ?_⟩
  · exact List.nodup_range.map fun _ _ same => (timeComponent.inj same).2
  · refine List.nodup_range.imp fun {t u} apart index here there => apart ?_
    obtain ⟨j, _, rfl⟩ := List.mem_map.1 here
    obtain ⟨k, _, same⟩ := List.mem_map.1 there
    exact (timeComponent.inj same).1.symm

end EquationIndex

namespace Balances

section Positions

variable {K : Type} [Scalar K] (tray : String) (phases : List Phase) (points : List (Mixing K))

theorem materialFamily_indexed (components : ComponentSet) :
    (materialFamily tray phases components points).IndexedBy (EquationIndex.grid points.length components.count) := by
  have row : ∀ entry ∈ points.zipIdx, (components.names.mapIdx fun j component =>
      (EquationIndex.timeComponent entry.2 j, (⟨s!"{tray}.material_mixing_equations[{entry.2},{component}]",
        materialBody phases entry.1 component⟩ : Constraint K))).map (·.1) =
      (List.range components.count).map (EquationIndex.timeComponent entry.2) :=
    fun entry _ => map_mapIdx_position _ _ _ (fun _ _ => by rfl) _
  refine .of_distinct ?_ (EquationIndex.nodup_grid _ _)
  rw [materialFamily, Family.ofMembers, List.map_flatMap]
  exact (List.flatMap_congr row).trans (flatMap_zipIdx_position
    (fun t => (List.range components.count).map (EquationIndex.timeComponent t)) points)

theorem enthalpyFamily_indexed (heatDuty : Option VarId) :
    (enthalpyFamily tray phases heatDuty points).IndexedBy (EquationIndex.times points.length) :=
  .of_distinct (map_mapIdx_position _ _ _ (fun _ _ => by rfl) points) (EquationIndex.nodup_times _)

theorem pressureFamily_indexed (pressureDrop : Option VarId) :
    (pressureFamily tray pressureDrop points).IndexedBy (EquationIndex.times points.length) :=
  .of_distinct (map_mapIdx_position _ _ _ (fun _ _ => by rfl) points) (EquationIndex.nodup_times _)

end Positions

/-- A tray always gets its balances: one of material for each time point and component, one of enthalpy and one of
pressure for each time point, each found at its index. Whatever the states are, the equation of material says what the
inlets bring of the component less what the outlet takes at its time point, that of enthalpy the same of enthalpy with
the heat that is added, where the tray is equipped for it, and that of pressure how far the outlet is above the vapor
inlet less the drop of the pressure, where there is one. -/
theorem declared_equations {E : Type} (tray : String) (config : TrayConfig ℝ) (phases : List Phase)
    (components : ComponentSet) (points : List (Mixing ℝ)) (s : Store ℝ) :
    ∃ balances t, (declare tray config phases components points : Action ℝ E _).on s = (.ok balances, t) ∧
      (balances.heatDuty.isSome = config.heatTransfer ∧ balances.pressureDrop.isSome = config.pressureChange ∧
        (∀ v ∈ balances.heatDuty, (t.get? v).map (·.name) = some s!"{tray}.heat_duty") ∧
        ∀ v ∈ balances.pressureDrop, (t.get? v).map (·.name) = some s!"{tray}.deltaP") ∧
      balances.material.IndexedBy (EquationIndex.grid points.length components.count) ∧
      balances.enthalpy.IndexedBy (EquationIndex.times points.length) ∧
      balances.pressure.IndexedBy (EquationIndex.times points.length) ∧
      ∀ (x : VarId → ℝ) (i : Nat) (states : Mixing ℝ), points[i]? = some states →
        (∀ (j : Nat) (component : String), components.names[j]? = some component →
          ∃ equation, balances.material.get? (.timeComponent i j) = some equation ∧
            equation.body.valueAt x = (phases.map fun p =>
              (states.inlets.map fun state => (state.materialFlow p component).valueAt x).sum -
                (states.outlet.materialFlow p component).valueAt x).sum) ∧
        (∃ equation, balances.enthalpy.get? (.time i) = some equation ∧
          equation.body.valueAt x = (phases.map fun p =>
            (states.inlets.map fun state => (state.enthalpyFlow p).valueAt x).sum -
              (states.outlet.enthalpyFlow p).valueAt x).sum + balances.heatDuty.elim 0 x) ∧
        ∃ equation, balances.pressure.get? (.time i) = some equation ∧
          equation.body.valueAt x = x states.outlet.pressure - x states.vapor.pressure +
            balances.pressureDrop.elim 0 x := by
  obtain ⟨balances, t, ran⟩ := Tray.declareBalances_succeeds (E := E) tray config phases components points s
  obtain ⟨_, heated, heatName, lowered, dropName, material, enthalpy, pressure⟩ := declare_eq_ok ran
  refine ⟨balances, t, ran, ⟨heated, lowered, heatName, dropName⟩, ?_, ?_, ?_, fun x i states here => ⟨?_, ?_, ?_⟩⟩
  · exact material ▸ materialFamily_indexed tray phases points components
  · exact enthalpy ▸ enthalpyFamily_indexed tray phases points balances.heatDuty
  · exact pressure ▸ pressureFamily_indexed tray points balances.pressureDrop
  · intro j component listed
    exact ⟨_, material ▸ get?_materialFamily here listed, valueAt_materialBody_phases phases states x component⟩
  · exact ⟨_, enthalpy ▸ get?_enthalpyFamily here, valueAt_enthalpyBody_phases phases states x _⟩
  · refine ⟨_, pressure ▸ get?_pressureFamily here, ?_⟩
    rw [Constraint.equality, Expr.valueAt_sub, Expr.valueAt_var, valueAt_outletPressure]
    ring

/-- A state in which the same flows in either phase, of every component and of enthalpy. -/
def uniform (flow : Expr ℝ) (pressure : VarId) : PropertyState ℝ where
  label := "stream"
  temperature := pressure
  pressure
  materialFlow _ _ := flow
  enthalpyFlow _ := flow
  portMembers := []
  member? _ := none
  vars := [pressure]
  families := []
  phaseEquilibrium := false
  defined := true
  applyGuesses _ := pure ()

theorem declared_equations_three_inlets :
    let states : Mixing ℝ := ⟨[uniform (.const 2) 5, uniform (.sum [.var 5, .const 1]) 6, uniform (.neg (.var 5)) 7],
      uniform (.const 0) 7, uniform (.const (-5)) 8⟩
    ∃ balances t, (declare "mixer" ⟨false, false, false, true, true, .empty⟩ Phase.both ⟨["benzene", "toluene"]⟩
        [states, states] : Action ℝ TrayError _).on .empty = (.ok balances, t) ∧
      [states, states][1]? = some states ∧ ["benzene", "toluene"][1]? = some "toluene" ∧
      ∃ equation, balances.material.get? (.timeComponent 1 1) = some equation ∧
        equation.body.valueAt (fun v => v) = 16 := by
  intro states
  obtain ⟨balances, t, declared, _, _, _, _, equations⟩ := declared_equations (E := TrayError) "mixer"
    ⟨false, false, false, true, true, .empty⟩ Phase.both ⟨["benzene", "toluene"]⟩ [states, states] .empty
  obtain ⟨equation, found, residual⟩ := (equations (fun v => v) 1 states rfl).1 1 "toluene" rfl
  refine ⟨balances, t, declared, rfl, rfl, equation, found, residual.trans ?_⟩
  simp [states, uniform, Phase.both]
  norm_num

end Balances

end Distillation
