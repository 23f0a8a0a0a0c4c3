import Distillation.Proofs.Newton.Locality
import Distillation.Proofs.Tray.Footprint
import Distillation.Proofs.Tray.Protocol

namespace Distillation

variable {σ K : Type} {seen : VarId → Prop}

/-- Start-ups that stand at one tray with one memory, in stores that agree. -/
structure Tray.StartupState.Agree (seen : VarId → Prop) (first second : StartupState σ K) : Prop where
  tray : second.tray = first.tray
  memory : second.memory = first.memory
  store : first.store.Agree seen second.store

namespace IdealState

theorem applyGuesses_local {state : IdealState K} (own : ∀ v ∈ state.vars, seen v) (guesses : List (Guess K)) :
    Action.Local seen (state.applyGuesses guesses) := by
  induction guesses with
  | nil => exact .pure seen ()
  | cons guess rest ih =>
    refine .bind ?_ fun _ => ih
    intro s t agree
    rw [applyGuess, Action.on_bind, Action.on_bind, Action.on_ofExcept, Action.on_ofExcept]
    cases target : state.target guess with
    | error e => exact ⟨rfl, agree⟩
    | ok v =>
      dsimp only
      rw [Action.on_update, Action.on_update, agree.isFixed (own v (mem_vars_of_target target))]
      split
      · exact ⟨rfl, agree⟩
      · exact ⟨rfl, agree.set v guess.value⟩

end IdealState

namespace Tray

section Stages

variable {tray now : Tray K} {last : Option Stage} {stage : Stage} {s t : Store K}

theorem arrange_agree (agree : s.Agree seen t) (guess : Option (OutletGuess K)) (stage : Stage) (now : Tray K) :
    (arrange guess stage now s).2.Agree seen (arrange guess stage now t).2 := by
  cases stage with
  | massBalance =>
    cases guess with
    | none => exact agree
    | some guess =>
      change Store.Agree seen (now.fixOutlets _ s) (now.fixOutlets _ t)
      rw [fixOutlets_eq, fixOutlets_eq]
      exact agree.fixAll _
  | massEnergyBalance => exact Store.Agree.foldl (fun state agree => agree.unfix state.temperature) _ agree
  | full => exact Store.Agree.foldl (fun state agree => agree.unfix state.pressure) _ agree

/-- Where the levels of the outlet are not seen, nothing that is seen is arranged. -/
theorem arrange_hidden (temperature : ∀ v ∈ now.outletTemperatures, ¬seen v)
    (pressure : ∀ v ∈ now.outletPressures, ¬seen v) (guess : Option (OutletGuess K)) (stage : Stage) (s : Store K) :
    s.Agree seen (arrange guess stage now s).2 := by
  have unfixed {level : PropertyState K → VarId} (hidden : ∀ v ∈ now.outlets.map level, ¬seen v) :
      s.Agree seen (now.outlets.foldl (fun s state => s.unfix (level state)) s) :=
    Store.Agree.foldl_hidden (fun state inside s =>
      Store.Agree.modify_hidden s (hidden _ (List.mem_map_of_mem inside)) _) s
  cases stage with
  | massBalance =>
    cases guess with
    | none => exact .refl seen s
    | some guess =>
      change Store.Agree seen s (now.fixOutlets _ s)
      rw [fixOutlets_eq]
      refine Store.Agree.fixAll_hidden (fun spec inside => ?_) s
      exact (mem_outletSpecs.1 (List.mem_map_of_mem inside)).elim (temperature _) (pressure _)
  | massEnergyBalance => exact unfixed temperature
  | full => exact unfixed pressure

variable {solver : Solver σ K} {trace : Bool} {guess : Option (OutletGuess K)}

/-- A solver that sees no difference on the tray of each stage leads two runs to one end. -/
theorem runStages_agree (blind : ∀ stage, solver.Local seen (tray.equipped stage).toModel) (stages : List Stage) :
    ∀ (last : Option Stage) (reports : List (StageReport K)) {first second : StartupState σ K},
      Stage.Successive last stages → first.tray = last.elim tray tray.equipped → first.Agree seen second →
        (runStages solver trace guess stages reports second).1 = (runStages solver trace guess stages reports first).1 ∧
        (runStages solver trace guess stages reports first).2.Agree seen
          (runStages solver trace guess stages reports second).2 := by
  induction stages with
  | nil => exact fun _ _ _ _ _ _ agree => ⟨rfl, agree⟩
  | cons stage rest ih =>
    rintro last reports ⟨now, memory, s⟩ ⟨now', memory', t⟩ ⟨follows, successive⟩ reached ⟨sameTray, sameMemory, agree⟩
    cases sameTray
    cases sameMemory
    have equipped := fun s => arrange_fst follows reached guess s
    obtain ⟨answered, remembered, kept⟩ := blind stage trace memory _ _ (arrange_agree agree guess stage now)
    simp only [runStages_cons, solveStage_eq, equipped]
    rcases answer : solver.solve (tray.equipped stage).toModel trace (memory, (arrange guess stage now s).2) with
      ⟨outcome, later, s'⟩
    rcases answer' : solver.solve (tray.equipped stage).toModel trace (memory, (arrange guess stage now t).2) with
      ⟨outcome', later', t'⟩
    rw [answer, answer'] at answered remembered kept
    cases answered
    cases remembered
    cases outcome with
    | none => exact ⟨rfl, rfl, rfl, kept⟩
    | some outcome => exact ih (some stage) _ successive rfl ⟨rfl, rfl, kept⟩

/-- A solver that keeps to the variables of its equations changes nothing else in a run. -/
theorem runStages_hidden (confined : ∀ stage, solver.Confined (tray.equipped stage).toModel)
    (equations : ∀ stage, ∀ v ∈ (tray.equipped stage).toModel.referenced, ¬seen v)
    (temperature : ∀ v ∈ tray.outletTemperatures, ¬seen v) (pressure : ∀ v ∈ tray.outletPressures, ¬seen v)
    (stages : List Stage) : ∀ (last : Option Stage) (reports : List (StageReport K)) (state : StartupState σ K),
      Stage.Successive last stages → state.tray = last.elim tray tray.equipped →
        state.store.Agree seen (runStages solver trace guess stages reports state).2.store := by
  induction stages with
  | nil => exact fun _ _ state _ _ => .refl seen state.store
  | cons stage rest ih =>
    rintro last reports ⟨now, memory, s⟩ ⟨follows, successive⟩ reached
    have equipped := arrange_fst follows reached guess s
    have outlets : now.outlets = tray.outlets := by
      change now = _ at reached
      rw [reached]
      cases last <;> rfl
    have arranged : s.Agree seen (arrange guess stage now s).2 := by
      refine arrange_hidden ?_ ?_ guess stage s
      · rwa [outletTemperatures, outlets]
      · rwa [outletPressures, outlets]
    have solved : (arrange guess stage now s).2.Agree seen
        (solver.solve (tray.equipped stage).toModel trace (memory, (arrange guess stage now s).2)).2.2 :=
      (confined stage trace memory _).mono fun v inside listed => equations stage v listed inside
    simp only [runStages_cons, solveStage_eq, equipped]
    rcases answer : solver.solve (tray.equipped stage).toModel trace (memory, (arrange guess stage now s).2) with
      ⟨_ | outcome, later, t⟩
    · rw [answer] at solved
      exact arranged.trans solved
    · rw [answer] at solved
      exact (arranged.trans solved).trans (ih (some stage) _ _ successive rfl)

end Stages

section StartUp

variable [Scalar K] {package : IdealPackage K} {tray : Tray K} {points : List (IdealPoint K)} {s t : Store K}

theorem Anatomy.outlet_operating (anatomy : Anatomy package tray points) {v : VarId}
    (level : v ∈ tray.outletTemperatures ∨ v ∈ tray.outletPressures) : v ∈ tray.operating := by
  rw [anatomy.outletTemperatures_eq, anatomy.outletPressures_eq, List.mem_map, List.mem_map] at level
  rcases level with ⟨point, inside, rfl⟩ | ⟨point, inside, rfl⟩
  · exact anatomy.operating_of_state inside point.outlet_mem point.outlet.temperature_mem_vars
  · exact anatomy.operating_of_state inside point.outlet_mem point.outlet.pressure_mem_vars

theorem Anatomy.applyGuesses_hidden (anatomy : Anatomy package tray points) (args : StartupArgs K) (s : Store K) :
    s.Agree (· ∉ tray.operating) ((tray.applyGuesses args).on s).2 := by
  refine fun v foreign => (anatomy.applyGuesses_guesses args s).kept v fun inside => absurd ?_ foreign
  obtain ⟨state, among, own⟩ := List.mem_flatMap.1 inside
  exact mem_operating.2 (.inl ⟨state, List.mem_append_left _ among, own⟩)

/-- A start-up changes nothing but the states and the equipment of its tray, however it ends. -/
theorem Anatomy.startUp_hidden (anatomy : Anatomy package tray points) {solver : Solver σ K}
    (confined : ∀ stage, solver.Confined (tray.equipped stage).toModel) (args : StartupArgs K) (memory : σ) (s : Store K) :
    s.Agree (· ∉ tray.operating) (startUp args solver ⟨tray, memory, s⟩).2.store := by
  have guessed := anatomy.applyGuesses_hidden args s
  unfold startUp
  split
  · exact .refl _ s
  · rcases ran : (tray.applyGuesses args).on s with ⟨_ | _, t⟩ <;> rw [ran] at guessed
    · exact guessed
    · refine guessed.trans (runStages_hidden confined (fun stage v listed foreign => ?_) (fun v level foreign => ?_)
        (fun v level foreign => ?_) Stage.all none [] _ Stage.successive_all rfl)
      · exact foreign (anatomy.operating_of_referenced listed)
      · exact foreign (anatomy.outlet_operating (.inl level))
      · exact foreign (anatomy.outlet_operating (.inr level))

variable (anatomy : Anatomy package tray points) (own : ∀ v ∈ tray.operating, seen v)
include anatomy own

theorem Anatomy.applyGuesses_local (args : StartupArgs K) : Action.Local seen (tray.applyGuesses args) := by
  have stream : ∀ (states : List (PropertyState K)) (guesses : List (Guess K)), states ⊆ tray.states →
      Action.Local seen (guessStream states guesses) := by
    intro states guesses listed
    refine .forM fun state inside => ?_
    obtain ⟨ideal, rfl⟩ := anatomy.exists_ideal (listed inside)
    exact IdealState.applyGuesses_local (fun v inVars => own v (mem_operating.2 (.inl ⟨_, listed inside, inVars⟩))) guesses
  obtain ⟨feeds, liquids, vapors, outlets⟩ := tray.streams_subset
  exact (stream _ _ feeds).bind fun _ => (stream _ _ liquids).bind fun _ => (stream _ _ vapors).bind fun _ =>
    stream _ _ outlets

theorem Anatomy.outletGuess?_agree (agree : s.Agree seen t) : tray.outletGuess? t = tray.outletGuess? s := by
  obtain ⟨point, head, guess⟩ := anatomy.outletGuess?_eq s
  obtain ⟨point', head', guess'⟩ := anatomy.outletGuess?_eq t
  rw [Option.mem_def] at head head'
  cases head.symm.trans head'
  have value : ∀ state ∈ point.states, ∀ v ∈ state.vars, t.value v = s.value v := fun state present v inVars =>
    agree.value (own v (anatomy.operating_of_state (List.mem_of_mem_head? head) present inVars))
  have liquid := value _ (IdealPoint.mem_states_of_inlet point.liquid_mem) _ point.liquid.temperature_mem_vars
  have vapor := value _ (IdealPoint.mem_states_of_inlet point.vapor_mem)
  have temperature : temperatureGuess t point.toStates = temperatureGuess s point.toStates := by
    unfold temperatureGuess
    cases feed : point.feed with
    | none =>
      simp only [IdealPoint.toStates, feed, Option.map_none, IdealState.toState, liquid,
        vapor _ point.vapor.temperature_mem_vars]
    | some ideal =>
      have present : ideal ∈ point.states := by simp [IdealPoint.states, IdealPoint.inlets, feed]
      simp only [IdealPoint.toStates, feed, Option.map_some, IdealState.toState,
        value ideal present _ ideal.temperature_mem_vars]
  rw [guess, guess', temperature, vapor _ point.vapor.pressure_mem_vars]

/-- Stores that agree on the states and the equipment of a tray, and in which its split fractions have the
same names and flags, start it up alike. -/
theorem Anatomy.startUp_agree {solver : Solver σ K} (blind : ∀ stage, solver.Local seen (tray.equipped stage).toModel)
    (agree : s.Agree seen t) (flags : ∀ v ∈ tray.splits, t.isFixed v = s.isFixed v)
    (names : ∀ v ∈ tray.splits, (t.get? v).map (·.name) = (s.get? v).map (·.name)) (args : StartupArgs K) (memory : σ) :
    (startUp args solver ⟨tray, memory, t⟩).1 = (startUp args solver ⟨tray, memory, s⟩).1 ∧
      (startUp args solver ⟨tray, memory, s⟩).2.Agree seen (startUp args solver ⟨tray, memory, t⟩).2 := by
  have free : tray.freeSplit? t = tray.freeSplit? s :=
    List.find?_congr fun v split => by rw [flags v split]
  unfold startUp
  dsimp only
  rw [free]
  cases found : tray.freeSplit? s with
  | some v =>
    have named : (t.get? v).elim "" (·.name) = (s.get? v).elim "" (·.name) := by
      have same := names v (List.mem_of_find?_eq_some found)
      cases here : s.get? v <;> cases there : t.get? v <;> simp_all
    dsimp only
    rw [named]
    exact ⟨rfl, rfl, rfl, agree⟩
  | none =>
    obtain ⟨same, kept⟩ := anatomy.applyGuesses_local own args s t agree
    rcases guessed : (tray.applyGuesses args).on s with ⟨result, s'⟩
    rcases guessed' : (tray.applyGuesses args).on t with ⟨result', t'⟩
    rw [guessed, guessed'] at same kept
    cases same
    cases result with
    | error e => exact ⟨rfl, rfl, rfl, kept⟩
    | ok _ =>
      dsimp only
      rw [anatomy.outletGuess?_agree own kept]
      exact runStages_agree blind Stage.all none [] Stage.successive_all rfl ⟨rfl, rfl, kept⟩

end StartUp

end Tray

end Distillation
