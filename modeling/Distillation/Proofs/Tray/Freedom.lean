import Distillation.Proofs.Tray.Square

namespace Distillation.Tray

variable {K : Type}

/-- The variables that the equations of a tray take from outside: flows and temperatures of the inlets, the
pressures of the vapor, and the equipment. -/
def specifications (tray : Tray K) : List VarId :=
  tray.inlets.flatMap (·.flows) ++ (tray.inlets.map (·.temperature) ++ (tray.vapors.map (·.pressure) ++
    (tray.balances.heatDuty.toList ++ tray.balances.pressureDrop.toList)))

variable [Scalar K] {package : IdealPackage K} {tray : Tray K} {points : List (IdealPoint K)} {s : Store K} {v : VarId}

namespace Placed

variable (placed : Placed package tray points s)
include placed

/-- At each time point the equations take from outside what enters there. -/
theorem mem_specifications : v ∈ tray.specifications ↔ ∃ point ∈ points, v ∈ tray.incoming point := by
  have vapors : tray.vapors.map (·.pressure) = points.map (·.vapor.pressure) := by
    rw [Tray.vapors, placed.anatomy.points_eq, List.map_map, List.map_map]
    rfl
  simp only [specifications, List.mem_append, vapors, mem_incoming, Option.mem_toList, List.mem_flatMap, List.mem_map]
  constructor
  · rintro (⟨state, among, own⟩ | ⟨state, among, rfl⟩ | ⟨point, inside, rfl⟩ | equipment)
    · obtain ⟨point, inside, ideal, entering, rfl⟩ := placed.anatomy.mem_inlets.1 among
      rw [placed.flows_eq inside (IdealPoint.mem_states_of_inlet entering)] at own
      exact ⟨point, inside, .inl ⟨ideal, entering, .inl own⟩⟩
    · obtain ⟨point, inside, ideal, entering, rfl⟩ := placed.anatomy.mem_inlets.1 among
      exact ⟨point, inside, .inl ⟨ideal, entering, .inr rfl⟩⟩
    · exact ⟨point, inside, .inr (.inl rfl)⟩
    · obtain ⟨point, inside⟩ := List.exists_mem_of_ne_nil points placed.anatomy.points_ne_nil
      exact ⟨point, inside, .inr (.inr equipment)⟩
  · rintro ⟨point, inside, ⟨ideal, entering, own | rfl⟩ | rfl | equipment⟩
    · rw [← placed.flows_eq inside (IdealPoint.mem_states_of_inlet entering)] at own
      exact .inl ⟨ideal.toState, placed.anatomy.mem_inlets_of inside entering, own⟩
    · exact .inr (.inl ⟨ideal.toState, placed.anatomy.mem_inlets_of inside entering, rfl⟩)
    · exact .inr (.inr (.inl ⟨point, inside, rfl⟩))
    · exact .inr (.inr (.inr equipment))

theorem specifications_nodup : tray.specifications.Nodup := by
  have streams : (tray.inlets.flatMap (·.flows) ++ (tray.inlets.map (·.temperature) ++
      tray.inlets.map (·.pressure))).Perm (tray.inlets.flatMap (·.vars)) := by
    refine streams_perm fun state among => ?_
    obtain ⟨point, inside, ideal, entering, rfl⟩ := placed.anatomy.mem_inlets.1 among
    exact IdealState.toState_vars (placed.vars_nodup inside (IdealPoint.mem_states_of_inlet entering))
  have given : (tray.inlets.flatMap (·.vars) ++
      (tray.balances.heatDuty.toList ++ tray.balances.pressureDrop.toList)).Nodup := by
    have all := (List.nodup_append.1 placed.sorted_nodup).1
    rw [Tray.given, List.append_assoc (tray.inlets.flatMap _)] at all
    exact (List.nodup_append.1 all).1
  have vapors : (tray.vapors.map (·.pressure)).Sublist (tray.inlets.map (·.pressure)) :=
    (List.sublist_append_right (tray.feeds ++ tray.liquids) tray.vapors).map _
  refine List.Nodup.sublist ?_ ((streams.append_right _).nodup_iff.2 given)
  rw [specifications, List.append_assoc, List.append_assoc]
  exact (((vapors.append_right _).append_left _).append_left _)

/-- The equations refer to what they take from outside and to all variables of the outlet. -/
theorem referenced_perm (nonempty : package.components ≠ []) (distinct : package.Distinct) :
    tray.toModel.referenced.Perm (tray.specifications ++ tray.unknownsAt .full) := by
  have increasing := tray.toModel.referenced_increasing
  have apart : ∀ v ∈ tray.specifications, ∀ w ∈ tray.unknownsAt .full, v ≠ w := by
    rintro v outside _ unknown rfl
    obtain ⟨point, inside, entering⟩ := placed.mem_specifications.1 outside
    obtain ⟨flow, temperature, pressure⟩ := placed.not_outlet_of_given (placed.given_of_incoming inside entering)
    rcases mem_unknownsAt.1 unknown with own | ⟨_, level⟩ | ⟨_, level⟩
    · exact flow own
    · exact temperature level
    · exact pressure level
  have joined : (tray.specifications ++ tray.unknownsAt .full).Nodup :=
    List.nodup_append.2 ⟨placed.specifications_nodup, placed.unknownsAt_nodup .full, apart⟩
  refine (List.perm_ext_iff_of_nodup (increasing.imp Nat.ne_of_lt) joined).2 fun v => ?_
  have occurrence := placed.anatomy.exists_equation (fun body => v ∈ body.vars) .full
  rw [placed.anatomy.equipped_full] at occurrence
  rw [Model.mem_referenced, occurrence, List.mem_append, placed.mem_specifications]
  constructor
  · rintro ⟨point, inside, body, listed, occurs⟩
    obtain ⟨level, each⟩ := exists_level listed
    have own := placed.anatomy.mem_outlets_of inside
    rcases each v occurs with entering | leaving | ⟨rfl, ⟨energy, rfl⟩ | ⟨pressure, rfl⟩⟩
    · exact .inl ⟨point, inside, entering⟩
    · exact .inr (mem_unknownsAt.2 (.inl (placed.mem_outletFlows.2 ⟨point, inside, leaving⟩)))
    · exact .inr (mem_unknownsAt.2 (.inr (.inl ⟨energy, List.mem_map_of_mem own⟩)))
    · exact .inr (mem_unknownsAt.2 (.inr (.inr ⟨pressure, List.mem_map_of_mem own⟩)))
  · rintro (⟨point, inside, entering⟩ | unknown)
    · refine ⟨point, inside, ?_⟩
      have energy : Balances.enthalpyBody Phase.both tray.balances.heatDuty point.toMixing ∈
          bodiesAt package tray .full point := by simp [bodiesAt, Stage.energy]
      have pressure : tray.pressureBody point ∈ bodiesAt package tray .full point := by simp [bodiesAt, Stage.pressure]
      rcases mem_incoming.1 entering with ⟨state, present, own | rfl⟩ | rfl | duty | drop
      · exact placed.anatomy.flow_occurs inside (IdealPoint.mem_states_of_inlet present) distinct .full own
      · exact placed.anatomy.temperature_occurs inside (IdealPoint.mem_states_of_inlet present) nonempty rfl
      · refine ⟨_, pressure, Expr.mem_vars_sub.2 (.inr ?_)⟩
        exact Balances.mem_vars_outletPressure.2 (.inl rfl)
      · exact ⟨_, energy, Balances.mem_vars_enthalpyBody.2 (.inr duty)⟩
      · refine ⟨_, pressure, Expr.mem_vars_sub.2 (.inr ?_)⟩
        exact Balances.mem_vars_outletPressure.2 (.inr drop)
    · exact placed.exists_occurrence nonempty distinct unknown

theorem outletVars_perm : (tray.unknownsAt .full).Perm (tray.outlets.flatMap (·.vars)) := by
  refine streams_perm fun state among => ?_
  rw [placed.anatomy.outlets_eq] at among
  obtain ⟨point, inside, rfl⟩ := List.mem_map.1 among
  exact IdealState.toState_vars (placed.vars_nodup inside point.outlet_mem)

end Placed

omit [Scalar K] in
theorem length_free_add_fixed (s : Store K) (vs : List VarId) :
    (s.free vs).length + (vs.filter s.isFixed).length = vs.length := by
  rw [Store.free, Nat.add_comm]
  simpa using (vs.length_eq_length_filter_add s.isFixed).symm

/-- With all its equations switched on, a tray has as many degrees of freedom as variables are free among the
flows and the temperatures of its inlets, the pressures of its vapor inlet, its heat duty and its pressure drop,
less one for each variable of its outlet that is fixed. -/
theorem freedom_eq {name : String} {config : TrayConfig K} {time : TimeSet K} {s₀ s₁ : Store K}
    (built : (build name config package.toPackage time).on s₀ = (.ok tray, s₁)) (later : s₁.Continues s)
    (nonempty : package.components ≠ []) (distinct : package.Distinct) :
    (∀ family ∈ tray.families, family.active = true) ∧
    (tray.specifications ++ tray.outlets.flatMap (·.vars)).Nodup ∧
    tray.toModel.freedom s =
      (s.free (tray.inlets.flatMap (·.flows))).length + (s.free (tray.inlets.map (·.temperature))).length +
        (s.free (tray.vapors.map (·.pressure))).length + (s.free tray.balances.heatDuty.toList).length +
        (s.free tray.balances.pressureDrop.toList).length -
        ((tray.outlets.flatMap (·.vars)).filter s.isFixed).length := by
  obtain ⟨points, placed⟩ := exists_placed built later
  have referenced := placed.referenced_perm nonempty distinct
  have outlet := placed.outletVars_perm
  have equations : tray.toModel.equations.length = (tray.outlets.flatMap (·.vars)).length := by
    rw [← outlet.length_eq, placed.length_unknownsAt, ← placed.anatomy.length_equations distinct,
      placed.anatomy.equipped_full]
  have unknowns : (tray.toModel.unknowns s).length =
      (s.free tray.specifications).length + (s.free (tray.outlets.flatMap (·.vars))).length := by
    have perm := (referenced.trans (outlet.append_left _)).filter fun v => !s.isFixed v
    rw [← List.length_append, Store.free, Store.free, ← List.filter_append]
    exact perm.length_eq
  have outside : (s.free tray.specifications).length = (s.free (tray.inlets.flatMap (·.flows))).length +
      ((s.free (tray.inlets.map (·.temperature))).length + ((s.free (tray.vapors.map (·.pressure))).length +
        ((s.free tray.balances.heatDuty.toList).length + (s.free tray.balances.pressureDrop.toList).length))) := by
    simp only [specifications, Store.free, List.filter_append, List.length_append]
  have divided := length_free_add_fixed s (tray.outlets.flatMap (·.vars))
  refine ⟨fun family listed => placed.anatomy.active listed, ?_, ?_⟩
  · have increasing := tray.toModel.referenced_increasing
    exact (referenced.trans (outlet.append_left _)).nodup_iff.1 (increasing.imp Nat.ne_of_lt)
  · rw [Model.freedom]
    omega

theorem freedom_eq_equipped : ∃ (tray : Tray Float) (s : Store Float),
    (build "tray" ⟨true, true, true, true, true, .empty⟩ IdealPackage.benzeneToluene.toPackage .steady).on .empty =
      (.ok tray, s) ∧ s.Continues s ∧ (IdealPackage.benzeneToluene : IdealPackage Float).components ≠ [] ∧
    (IdealPackage.benzeneToluene : IdealPackage Float).Distinct ∧ tray.toModel.freedom s = 18 := by
  obtain ⟨tray, s, built, flows, temperatures, pressures, duty, drop, outlet⟩ :
      ∃ (tray : Tray Float) (s : Store Float),
      (build "tray" ⟨true, true, true, true, true, .empty⟩ IdealPackage.benzeneToluene.toPackage .steady).on .empty =
        (.ok tray, s) ∧ (s.free (tray.inlets.flatMap (·.flows))).length = 12 ∧
      (s.free (tray.inlets.map (·.temperature))).length = 3 ∧ (s.free (tray.vapors.map (·.pressure))).length = 1 ∧
      (s.free tray.balances.heatDuty.toList).length = 1 ∧ (s.free tray.balances.pressureDrop.toList).length = 1 ∧
      ((tray.outlets.flatMap (·.vars)).filter s.isFixed).length = 0 := ⟨_, _, rfl, rfl, rfl, rfl, rfl, rfl, rfl⟩
  have nonempty : (IdealPackage.benzeneToluene : IdealPackage Float).components ≠ [] := List.cons_ne_nil _ _
  have distinct : (IdealPackage.benzeneToluene : IdealPackage Float).Distinct := IdealPackage.benzeneToluene_distinct
  obtain ⟨_, _, freedom⟩ := freedom_eq built (.refl s) nonempty distinct
  rw [flows, temperatures, pressures, duty, drop, outlet] at freedom
  exact ⟨tray, s, built, .refl s, nonempty, distinct, freedom⟩

end Distillation.Tray
